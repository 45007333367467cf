import Iprotate.Numbering

/-!
# What a construction leaves

`ConfigLoader()` as a function on parsers: `settle` numbers the profiles and gives each the options that are missing.

- A construction that ends normally leaves the settled parser (`config_of_build`), and in the file what was written
  last, which lacks the defaults of the last profile (`file_of_build`).
- It ends normally exactly if the options it reads can be read from the settled parser (`build_ok`).
-/

namespace Iprotate
namespace ConfigLoader

open ConfigParser Loader Prog

variable {p q : ConfigParser} {s s' k : Str}

/-! ## The missing options -/

/-- `setDefault` for a section that exists. -/
def withDefault (s : Str) (p : ConfigParser) (e : Str × Str) : ConfigParser :=
  if p.look s e.1 = none then p.put s e.1 e.2 else p

def withDefaults (s : Str) (p : ConfigParser) : ConfigParser := awsDefaults.foldl (withDefault s) p

theorem sectionNames_foldl_withDefault (s : Str) (es : List (Str × Str)) (p : ConfigParser) :
    (es.foldl (withDefault s) p).sectionNames = p.sectionNames := by
  induction es generalizing p with
  | nil => rfl
  | cons e es ih =>
    rw [List.foldl_cons, ih, withDefault]
    split
    · exact sectionNames_put ..
    · rfl

theorem defaults_foldl_withDefault (s : Str) (es : List (Str × Str)) (p : ConfigParser) :
    (es.foldl (withDefault s) p).defaults = p.defaults := by
  induction es generalizing p with
  | nil => rfl
  | cons e es ih =>
    rw [List.foldl_cons, ih, withDefault]
    split <;> rfl

theorem raw_withDefault (hm : s ∈ p.sectionNames) (e : Str × Str) (s' k : Str) : (withDefault s p e).raw s' k =
    if s = s' ∧ k = e.1 ∧ p.look s k = none then some e.2 else p.raw s' k := by
  unfold withDefault
  split
  · rename_i hl
    rw [raw_put hm]
    by_cases h : s = s' ∧ e.1 = k
    · obtain ⟨rfl, rfl⟩ := h
      rw [if_pos ⟨rfl, rfl⟩, if_pos ⟨rfl, rfl, hl⟩]
    · rw [if_neg h, if_neg fun h' => h ⟨h'.1, h'.2.1.symm⟩]
  · rename_i hl
    refine (if_neg ?_).symm
    rintro ⟨-, rfl, h⟩
    exact hl h

/-- What the defaults add. -/
theorem raw_foldl_withDefault (hm : s ∈ p.sectionNames) {es : Dict Str Str} (hes : es.keys.Nodup) (s' k : Str) :
    (es.foldl (withDefault s) p).raw s' k = if s = s' ∧ p.look s k = none then es.get? k else p.raw s' k := by
  induction es generalizing p with
  | nil =>
    rw [List.foldl_nil, Dict.get?_nil]
    split
    · rename_i h
      obtain ⟨rfl, hl⟩ := h
      exact (Option.or_eq_none_iff.1 hl).1
    · rfl
  | cons e es ih =>
    obtain ⟨k₀, v₀⟩ := e
    rw [Dict.keys_cons, List.nodup_cons] at hes
    have hm₁ : s ∈ (withDefault s p (k₀, v₀)).sectionNames := by
      have := sectionNames_foldl_withDefault s [(k₀, v₀)] p
      rw [List.foldl_cons, List.foldl_nil] at this
      rwa [this]
    have hdefaults : (withDefault s p (k₀, v₀)).defaults = p.defaults := defaults_foldl_withDefault s [(k₀, v₀)] p
    rw [List.foldl_cons, ih hm₁ hes.2, look, hdefaults, raw_withDefault hm, raw_withDefault hm]
    by_cases hs : s = s'
    · subst hs
      by_cases hk : k = k₀
      · subst hk
        have hnone : Dict.get? es k = none := Dict.get?_eq_none_iff.2 hes.1
        by_cases hl : p.look s k = none
        · simp [hl]
        · simp only [hl, and_false, if_false]
          rw [look] at hl
          simp [hl]
      · rw [Dict.get?_cons_ne (Ne.symm hk)]
        simp [hk, look]
    · simp [hs]

theorem nodup_awsDefaults : (Dict.keys awsDefaults).Nodup := by decide

theorem setDefaults_eq (hs : Ordinary s) (hm : s ∈ p.sectionNames) : setDefaults p s = .ok (withDefaults s p) := by
  have hstep : ∀ (e) (_ : e ∈ awsDefaults) (q : ConfigParser), s ∈ q.sectionNames →
      setDefault q s e.1 e.2 = .ok (withDefault s q e) := by
    intro e he q hq
    have hopt : q.hasOption s e.1 = (q.look s e.1).isSome := by
      rw [hasOption, if_neg (not_or.2 ⟨hs.1, hs.2⟩), if_pos hq, optionxform_awsDefaults e he]
    unfold setDefault withDefault
    rw [hopt]
    cases hl : q.look s e.1 with
    | some v => simp
    | none =>
      simp only [Option.isSome_none, Bool.false_eq_true, if_false, if_true]
      rw [set_ok hs hq e.1 (accepts_awsDefaults e he), optionxform_awsDefaults e he]
  have hfold : ∀ (es : List (Str × Str)) (q : ConfigParser), (∀ e ∈ es, e ∈ awsDefaults) → s ∈ q.sectionNames →
      es.foldlM (fun p e => setDefault p s e.1 e.2) q = .ok (es.foldl (withDefault s) q) := by
    intro es
    induction es with
    | nil => exact fun _ _ _ => rfl
    | cons e es ih =>
      intro q hes hq
      have hq₁ : s ∈ (withDefault s q e).sectionNames := by
        have := sectionNames_foldl_withDefault s [e] q
        rw [List.foldl_cons, List.foldl_nil] at this
        rwa [this]
      rw [List.foldlM_cons, hstep e (hes e List.mem_cons_self) q hq, List.foldl_cons]
      exact ih _ (fun e he => hes e (List.mem_cons_of_mem _ he)) hq₁
  exact hfold awsDefaults p (fun _ h => h) hm

/-! ## The settled parser -/

/-- One profile: its number and what it lacks. -/
def settleSection (p : ConfigParser) (s : Str) (n : Nat) : ConfigParser :=
  withDefaults s (p.put s "order" (showNat n))

/-- The profiles, numbered from `n` on. -/
def settle : List Str → Nat → ConfigParser → ConfigParser
  | [], _, p => p
  | s :: ss, n, p => settle ss (n + 1) (settleSection p s n)

/-- The parser that is written last. -/
def lastWritten : List Str → Nat → ConfigParser → ConfigParser
  | [], _, p => p
  | [s], n, p => p.put s "order" (showNat n)
  | s :: s' :: ss, n, p => lastWritten (s' :: ss) (n + 1) (settleSection p s n)

@[simp] theorem sectionNames_settleSection (p : ConfigParser) (s : Str) (n : Nat) :
    (settleSection p s n).sectionNames = p.sectionNames := by
  rw [settleSection, withDefaults, sectionNames_foldl_withDefault, sectionNames_put]

@[simp] theorem defaults_settleSection (p : ConfigParser) (s : Str) (n : Nat) :
    (settleSection p s n).defaults = p.defaults := by
  rw [settleSection, withDefaults, defaults_foldl_withDefault, defaults_put]

@[simp] theorem sectionNames_settle : ∀ (ss : List Str) (n : Nat) (p : ConfigParser),
    (settle ss n p).sectionNames = p.sectionNames
  | [], _, _ => rfl
  | s :: ss, n, p => by rw [settle, sectionNames_settle, sectionNames_settleSection]

@[simp] theorem defaults_settle : ∀ (ss : List Str) (n : Nat) (p : ConfigParser), (settle ss n p).defaults = p.defaults
  | [], _, _ => rfl
  | s :: ss, n, p => by rw [settle, defaults_settle, defaults_settleSection]

/-- What settling a profile leaves. -/
theorem raw_settleSection (hm : s ∈ p.sectionNames) (n : Nat) (s' k : Str) : (settleSection p s n).raw s' k =
    if s = s' then
      if k = "order".toList then some (showNat n) else if p.look s k = none then Dict.get? awsDefaults k else p.raw s k
    else p.raw s' k := by
  have hm₁ : s ∈ (p.put s "order" (showNat n)).sectionNames := by rwa [sectionNames_put]
  have hraw := raw_foldl_withDefault hm₁ nodup_awsDefaults s' k
  rw [settleSection, withDefaults, hraw]
  by_cases hs : s = s'
  · subst hs
    rw [if_pos rfl]
    by_cases hk : k = "order".toList
    · subst hk
      have hself := raw_put_self hm "order" (showNat n)
      rw [if_pos rfl, hself, look_of_raw hself]
      exact if_neg fun h => by cases h.2
    · have hother : (p.put s "order" (showNat n)).raw s k = p.raw s k := raw_put_ne (.inr (Ne.symm hk))
      rw [if_neg hk, look, hother, defaults_put, ← look]
      exact if_congr (and_iff_right rfl) rfl rfl
  · rw [if_neg fun h => hs h.1, if_neg hs, raw_put_ne (.inl hs)]

theorem raw_settle_not_mem : ∀ {ss : List Str} {n : Nat} {p : ConfigParser}, (∀ s ∈ ss, s ∈ p.sectionNames) → s ∉ ss →
    ∀ k, (settle ss n p).raw s k = p.raw s k
  | [], _, _, _, _, _ => rfl
  | s' :: ss, n, p, hss, hs, k => by
    rw [List.mem_cons, not_or] at hs
    rw [settle, raw_settle_not_mem (fun s hs' => by
      rw [sectionNames_settleSection]
      exact hss s (List.mem_cons_of_mem _ hs')) hs.2, raw_settleSection (hss s' List.mem_cons_self),
      if_neg (Ne.symm hs.1)]

/-- **What settling leaves of a profile.** -/
theorem raw_settle : ∀ {ss : List Str} {n i : Nat} {p : ConfigParser}, (∀ s ∈ ss, s ∈ p.sectionNames) → ss.Nodup →
    ss[i]? = some s → ∀ k, (settle ss n p).raw s k =
      if k = "order".toList then some (showNat (n + i))
      else if p.look s k = none then Dict.get? awsDefaults k else p.raw s k
  | [], _, _, _, _, _, hi, _ => by cases hi
  | s' :: ss, n, 0, p, hss, hnd, hi, k => by
    cases hi
    rw [List.nodup_cons] at hnd
    rw [settle, raw_settle_not_mem (fun s hs' => by
      rw [sectionNames_settleSection]
      exact hss s (List.mem_cons_of_mem _ hs')) hnd.1, raw_settleSection (hss s List.mem_cons_self), if_pos rfl]
    rfl
  | s' :: ss, n, i + 1, p, hss, hnd, hi, k => by
    rw [List.nodup_cons] at hnd
    rw [List.getElem?_cons_succ] at hi
    have hne : s' ≠ s := fun he => hnd.1 (he ▸ List.mem_of_getElem? hi)
    have hraw : ∀ k, (settleSection p s' n).raw s k = p.raw s k := fun k => by
      rw [raw_settleSection (hss s' List.mem_cons_self), if_neg hne]
    rw [settle, raw_settle (fun s hs' => by
      rw [sectionNames_settleSection]
      exact hss s (List.mem_cons_of_mem _ hs')) hnd.2 hi, look, hraw, defaults_settleSection, ← look,
      show n + 1 + i = n + (i + 1) by omega]

/-- What the last write lacks: the defaults of the last profile. -/
theorem raw_lastWritten : ∀ {ss : List Str} {n : Nat} {p : ConfigParser}, (∀ s ∈ ss, s ∈ p.sectionNames) →
    ∀ s k, (lastWritten ss n p).raw s k = (settle ss n p).raw s k ∨
      s ∈ ss ∧ (lastWritten ss n p).look s k = none ∧ (settle ss n p).raw s k = Dict.get? awsDefaults k
  | [], _, _, _, _, _ => .inl rfl
  | [s'], n, p, hss, s, k => by
    have hm := hss s' List.mem_cons_self
    have hraw := raw_settleSection hm n s k
    rw [lastWritten, settle, settle, hraw, raw_put hm]
    by_cases hs : s' = s
    · subst hs
      rw [if_pos rfl]
      by_cases hk : k = "order".toList
      · rw [if_pos ⟨rfl, hk.symm⟩, if_pos hk]
        exact .inl rfl
      · rw [if_neg fun h => hk h.2.symm, if_neg hk]
        by_cases hl : p.look s' k = none
        · refine .inr ⟨List.mem_cons_self, ?_, if_pos hl⟩
          rw [look, raw_put_ne (.inr (Ne.symm hk)), defaults_put, ← look, hl]
        · exact .inl (if_neg hl).symm
    · rw [if_neg fun h => hs h.1, if_neg hs]
      exact .inl rfl
  | s' :: s'' :: ss, n, p, hss, s, k => by
    have hss' : ∀ s ∈ s'' :: ss, s ∈ (settleSection p s' n).sectionNames := fun s hs => by
      rw [sectionNames_settleSection]
      exact hss s (List.mem_cons_of_mem _ hs)
    rw [lastWritten, settle]
    exact (raw_lastWritten hss' s k).imp_right fun h => ⟨List.mem_cons_of_mem _ h.1, h.2⟩

/-! ## The loop -/

/-- Reading a profile depends on what the options of its section read from. -/
theorem readAwsConfig_congr (hs : s ∈ p.sectionNames ↔ s ∈ q.sectionNames) (hl : ∀ k, p.look s k = q.look s k) :
    readAwsConfig p s = readAwsConfig q s := by
  have hget : ∀ k, p.get s k = q.get s k := get_congr hs hl
  simp only [readAwsConfig, hget]

/-- The profiles that come later do not change how this one reads. -/
theorem readAwsConfig_settle {ss : List Str} (n : Nat) (hss : ∀ s ∈ ss, s ∈ p.sectionNames) (hs : s ∉ ss) :
    readAwsConfig (settle ss n p) s = readAwsConfig p s :=
  readAwsConfig_congr (by rw [sectionNames_settle]) fun k => by
    rw [look, look, raw_settle_not_mem hss hs, defaults_settle]

/-- What is in the file after the loop. -/
def textAfter (ss : List Str) (n : Nat) (p : ConfigParser) (text : Str) : Str :=
  if ss = [] then text else write (lastWritten ss n p)

theorem textAfter_cons (ss : List Str) (n : Nat) (p : ConfigParser) (s text : Str) :
    textAfter ss (n + 1) (settleSection p s n) (write (p.put s "order" (showNat n))) =
      textAfter (s :: ss) n p text := by
  cases ss with
  | nil => rfl
  | cons s' ss => rfl

/-- One round of the loop, with the settled parser. -/
theorem run_loop_cons (hs : Ordinary s) (hm : s ∈ p.sectionNames) (ss : List Str) (n : Nat) (text : Str) :
    loadAllAwsConfig (s :: ss) n p text = (do
      let aws ← Prog.ofExcept (readAwsConfig (settleSection p s n) s)
      let r ← loadAllAwsConfig ss (n + 1) (settleSection p s n)
      return (aws :: r.1, r.2) : ConfigFile _) (write (p.put s "order" (showNat n))) := by
  have hm₁ : s ∈ (p.put s "order" (showNat n)).sectionNames := by rwa [sectionNames_put]
  have hload : loadAwsConfig (p.put s "order" (toString n).toList) s =
      (readAwsConfig (settleSection p s n) s).map fun aws => (aws, settleSection p s n) := by
    show loadAwsConfig (p.put s "order" (showNat n)) s = _
    rw [Loader.loadAwsConfig, setDefaults_eq hs hm₁, ← settleSection]
    generalize settleSection p s n = q
    show (readAwsConfig q s >>= fun aws => pure (aws, q)) = _
    cases readAwsConfig q s with
    | error e => rfl
    | ok aws => rfl
  rw [run_loadAllAwsConfig_cons hs hm, hload]
  cases readAwsConfig (settleSection p s n) s <;> rfl

/-- **The loop of a construction**, if every profile can be read: the profiles are loaded as the settled parser has
them. -/
theorem run_loop_loaded : ∀ {ss : List Str} {n : Nat} {p : ConfigParser} (text : Str),
    (∀ s ∈ ss, Ordinary s ∧ s ∈ p.sectionNames) → ss.Nodup →
    (∀ s ∈ ss, ∃ aws, readAwsConfig (settle ss n p) s = .ok aws) →
    ∃ cs : List AwsConfig, ss.map (readAwsConfig (settle ss n p)) = cs.map .ok ∧
      loadAllAwsConfig ss n p text = (.ok (cs, settle ss n p), textAfter ss n p text)
  | [], _, _, _, _, _, _ => ⟨[], rfl, rfl⟩
  | s :: ss, n, p, text, hss, hnd, hread => by
    obtain ⟨hs, hm⟩ := hss s List.mem_cons_self
    rw [List.nodup_cons] at hnd
    have hss' : ∀ s' ∈ ss, Ordinary s' ∧ s' ∈ (settleSection p s n).sectionNames := fun s' hs' => by
      rw [sectionNames_settleSection]
      exact hss s' (List.mem_cons_of_mem _ hs')
    obtain ⟨aws, haws⟩ := hread s List.mem_cons_self
    have hfirst : readAwsConfig (settleSection p s n) s = .ok aws := by
      rw [← haws, settle, readAwsConfig_settle _ (fun s' hs' => (hss' s' hs').2) hnd.1]
    obtain ⟨cs, hloaded, hrest⟩ := run_loop_loaded (n := n + 1) (write (p.put s "order" (showNat n))) hss' hnd.2
      fun s' hs' => hread s' (List.mem_cons_of_mem _ hs')
    refine ⟨aws :: cs, ?_, ?_⟩
    · rw [List.map_cons, haws, List.map_cons, ← hloaded]
      rfl
    · rw [run_loop_cons hs hm, Prog.run_bind_ok (a := aws) (by rw [run_ofExcept, hfirst]), Prog.run_bind_ok hrest]
      rw [textAfter_cons]
      rfl

theorem run_loop {ss : List Str} {n : Nat} {p : ConfigParser} (text : Str)
    (hss : ∀ s ∈ ss, Ordinary s ∧ s ∈ p.sectionNames)
    (hnd : ss.Nodup) (hread : ∀ s ∈ ss, ∃ aws, readAwsConfig (settle ss n p) s = .ok aws) :
    ∃ cs, loadAllAwsConfig ss n p text = (.ok (cs, settle ss n p), textAfter ss n p text) := by
  obtain ⟨cs, -, hrun⟩ := run_loop_loaded text hss hnd hread
  exact ⟨cs, hrun⟩

/-- A loop that ends normally has read every profile. -/
theorem reads_of_loop : ∀ {ss : List Str} {n : Nat} {p q : ConfigParser} {text text' : Str} {cs : List AwsConfig},
    (∀ s ∈ ss, Ordinary s ∧ s ∈ p.sectionNames) → ss.Nodup → loadAllAwsConfig ss n p text = (.ok (cs, q), text') →
    ∀ s ∈ ss, ∃ aws, readAwsConfig (settle ss n p) s = .ok aws
  | [], _, _, _, _, _, _, _, _, _, s, hs => by cases hs
  | s :: ss, n, p, _, _, _, _, hss, hnd, h, s', hs' => by
    obtain ⟨hs, hm⟩ := hss s List.mem_cons_self
    rw [List.nodup_cons] at hnd
    have hss' : ∀ s' ∈ ss, Ordinary s' ∧ s' ∈ (settleSection p s n).sectionNames := fun s' hs' => by
      rw [sectionNames_settleSection]
      exact hss s' (List.mem_cons_of_mem _ hs')
    rw [run_loop_cons hs hm] at h
    cases haws : readAwsConfig (settleSection p s n) s with
    | error e =>
      rw [haws] at h
      cases h
    | ok aws =>
      rw [haws] at h
      cases hrest : loadAllAwsConfig ss (n + 1) (settleSection p s n) (write (p.put s "order" (showNat n))) with
      | mk r t =>
        cases r with
        | error e =>
          have herr := Prog.run_bind_error (f := fun r => (pure (aws :: r.1, r.2) : ConfigFile _)) hrest
          have h' := (Prog.run_bind_ok (run_ofExcept (.ok aws) _)).symm.trans h
          rw [show (do
            let r ← loadAllAwsConfig ss (n + 1) (settleSection p s n)
            return (aws :: r.1, r.2) : ConfigFile _) (write (p.put s "order" (showNat n))) = _ from herr] at h'
          cases h'
        | ok x =>
          rcases List.mem_cons.1 hs' with rfl | hs'
          · refine ⟨aws, ?_⟩
            rw [settle, readAwsConfig_settle _ (fun s' hs' => (hss' s' hs').2) hnd.1, haws]
          · have hloop : loadAllAwsConfig ss (n + 1) (settleSection p s n) (write (p.put s "order" (showNat n))) =
                (.ok (x.1, x.2), t) := hrest
            exact reads_of_loop hss' hnd.2 hloop s' hs'

/-! ## Constructions -/

theorem nodup_profileNames (h : Normal p) : (profileNames p).Nodup := h.writable.nodup.filter _

theorem profiles_ordinary (h : Normal p) : ∀ s ∈ profileNames p, Ordinary s ∧ s ∈ p.sectionNames := fun _ hs =>
  ⟨ordinary_of_normal h (mem_profileNames.1 hs).1, (mem_profileNames.1 hs).1⟩

/-- The parser of a loader that was built from a file with this parser. -/
def settled (p : ConfigParser) : ConfigParser := settle (profileNames p) 1 p

/-- What a construction leaves in the file. -/
def leftIn (p : ConfigParser) (text : Str) : Str := textAfter (profileNames p) 1 p text

/-- **A construction ends normally if everything it reads can be read.** -/
theorem build_ok {text : Str} {api : ApiConfig} (hread : read text = .ok p) (hapi : loadApiConfig p = .ok api)
    (hreads : ∀ s ∈ profileNames p, ∃ aws, readAwsConfig (settled p) s = .ok aws) :
    ∃ cs, build text = (.ok ⟨settled p, api, cs⟩, leftIn p text) := by
  have hnormal := read_normal hread
  obtain ⟨cs, hloop⟩ := run_loop text (profiles_ordinary hnormal) (nodup_profileNames hnormal) hreads
  refine ⟨cs, ?_⟩
  simp only [build, readConfig, run_bind, run_get, run_ofExcept, hread, hapi, hloop, run_pure]
  rfl

/-- What a construction that ends normally has done. -/
structure Built (text text' : Str) (l : ConfigLoader) (p : ConfigParser) : Prop where
  read : ConfigParser.read text = .ok p
  api : loadApiConfig p = .ok l.apiConfig
  reads : ∀ s ∈ profileNames p, ∃ aws, readAwsConfig (settled p) s = .ok aws
  config : l.config = settled p
  file : text' = leftIn p text

theorem built_of_build {text text' : Str} {l : ConfigLoader} (h : build text = (.ok l, text')) :
    ∃ p, Built text text' l p := by
  cases hread : ConfigParser.read text with
  | error e =>
    simp only [build, readConfig, run_bind, run_get, run_ofExcept, hread] at h
    cases h
  | ok p =>
    have hnormal := read_normal hread
    simp only [build, readConfig, run_bind, run_get, run_ofExcept, hread] at h
    split at h
    · rename_i api t hapi
      split at h
      · rename_i r t' hloop
        obtain ⟨cs, q⟩ := r
        have hreads := reads_of_loop (profiles_ordinary hnormal) (nodup_profileNames hnormal) hloop
        obtain ⟨cs', hloop'⟩ := run_loop t (profiles_ordinary hnormal) (nodup_profileNames hnormal) hreads
        rw [Prod.mk.injEq] at hapi
        obtain ⟨hapi, rfl⟩ := hapi
        rw [hloop] at hloop'
        cases hloop'
        cases h
        exact ⟨p, hread, hapi, hreads, rfl, rfl⟩
      · cases h
    · cases h

/-! ## What is read again -/

theorem keyOk_order : KeyOk "order" ∧ ("order" : Str).head? ≠ some '[' := by decide

theorem keyOk_awsDefaults : ∀ e ∈ awsDefaults, KeyOk e.1 ∧ e.1.head? ≠ some '[' ∧ '\r' ∉ e.2 ∧ '\n' ∉ e.2 ∧
    Text.strip e.2 = e.2 := by decide

theorem not_mem_showNat {c : Char} (hc : c.isDigit = false) (n : Nat) : c ∉ showNat n := fun hm => by
  rw [mem_toString hm] at hc
  cases hc

theorem normValue_showNat (n : Nat) : normValue (showNat n) = showNat n :=
  normValue_line (not_mem_showNat (by decide) n)
    (Text.strip_solid fun _ hc => Text.not_isSpace_of_isDigit (mem_toString hc))

theorem normal_put_order (h : Normal p) (s : Str) (n : Nat) : Normal (p.put s "order" (showNat n)) :=
  h.put s keyOk_order.1 keyOk_order.2 (not_mem_showNat (by decide) n) (not_mem_showNat (by decide) n)
    (Text.strip_solid fun _ hc => Text.not_isSpace_of_isDigit (mem_toString hc))

theorem normal_settleSection (h : Normal p) (s : Str) (n : Nat) : Normal (settleSection p s n) := by
  have hfold : ∀ (es : List (Str × Str)) (q : ConfigParser), (∀ e ∈ es, e ∈ awsDefaults) → Normal q →
      Normal (es.foldl (withDefault s) q) := by
    intro es
    induction es with
    | nil => exact fun _ _ hq => hq
    | cons e es ih =>
      intro q hes hq
      refine ih _ (fun e he => hes e (List.mem_cons_of_mem _ he)) ?_
      obtain ⟨hk, hb, hr, hn, hstrip⟩ := keyOk_awsDefaults e (hes e List.mem_cons_self)
      unfold withDefault
      split
      · exact hq.put s hk hb hr hn hstrip
      · exact hq
  rw [settleSection, withDefaults]
  exact hfold awsDefaults (p.put s "order" (showNat n)) (fun _ h => h) (normal_put_order h s n)

theorem normal_settle : ∀ (ss : List Str) (n : Nat) {p : ConfigParser}, Normal p → Normal (settle ss n p)
  | [], _, _, h => h
  | s :: ss, n, _, h => normal_settle ss (n + 1) (normal_settleSection h s n)

theorem normal_lastWritten : ∀ (ss : List Str) (n : Nat) {p : ConfigParser}, Normal p → Normal (lastWritten ss n p)
  | [], _, _, h => h
  | [s], n, _, h => normal_put_order h s n
  | s :: s' :: ss, n, _, h => normal_lastWritten (s' :: ss) (n + 1) (normal_settleSection h s n)

/-- What the file reads as after a construction. -/
def leftParser (p : ConfigParser) : ConfigParser := lastWritten (profileNames p) 1 p

theorem normal_leftParser (h : Normal p) : Normal (leftParser p) := normal_lastWritten _ _ h

theorem read_leftIn {text : Str} (hread : ConfigParser.read text = .ok p) :
    ConfigParser.read (leftIn p text) = .ok (leftParser p) := by
  unfold leftIn leftParser textAfter
  split
  · rename_i hnil
    rw [hnil]
    exact hread
  · exact (normal_lastWritten _ _ (read_normal hread)).read_write

theorem sectionNames_lastWritten : ∀ (ss : List Str) (n : Nat) (p : ConfigParser),
    (lastWritten ss n p).sectionNames = p.sectionNames
  | [], _, _ => rfl
  | [_], _, _ => sectionNames_put ..
  | s :: s' :: ss, n, p => by rw [lastWritten, sectionNames_lastWritten, sectionNames_settleSection]

theorem defaults_lastWritten : ∀ (ss : List Str) (n : Nat) (p : ConfigParser),
    (lastWritten ss n p).defaults = p.defaults
  | [], _, _ => rfl
  | [_], _, _ => rfl
  | s :: s' :: ss, n, p => by rw [lastWritten, defaults_lastWritten, defaults_settleSection]

/-! ## Settling what was left -/

/-- What a loader has of a profile. -/
theorem raw_settled (h : Normal p) {i : Nat} (hi : (profileNames p)[i]? = some s) (o : Str) : (settled p).raw s o =
    if o = "order".toList then some (showNat (i + 1))
    else if p.look s o = none then Dict.get? awsDefaults o else p.raw s o := by
  rw [settled, raw_settle (fun s hs => (profiles_ordinary h s hs).2) (nodup_profileNames h) hi, Nat.add_comm]

/-- An option that a loader does not have has no default either. -/
theorem default_of_look_none (h : Normal p) {i : Nat} {o : Str} (hi : (profileNames p)[i]? = some s)
    (hl : (settled p).look s o = none) : Dict.get? awsDefaults o = none := by
  obtain ⟨hraw, hdef⟩ := Option.or_eq_none_iff.1 hl
  rw [settled, defaults_settle] at hdef
  rw [raw_settled h hi] at hraw
  split at hraw
  · cases hraw
  · split at hraw
    · exact hraw
    · rename_i hlook
      exact absurd (Option.or_eq_none_iff.2 ⟨hraw, hdef⟩) hlook

theorem sectionNames_leftParser (p : ConfigParser) : (leftParser p).sectionNames = p.sectionNames :=
  sectionNames_lastWritten ..

theorem defaults_leftParser (p : ConfigParser) : (leftParser p).defaults = p.defaults := defaults_lastWritten ..

theorem raw_leftParser (h : Normal p) (s o : Str) : (leftParser p).raw s o = (settled p).raw s o ∨
    s ∈ profileNames p ∧ (leftParser p).look s o = none ∧ (settled p).raw s o = Dict.get? awsDefaults o :=
  raw_lastWritten (fun s hs => (profiles_ordinary h s hs).2) s o

/-- What the loader has of a section, as the file that the construction left has it. -/
theorem raw_settled_of_left (h : Normal p) {i : Nat} (hi : (profileNames p)[i]? = some s) (o : Str) :
    (settled p).raw s o = if o = "order".toList then some (showNat (i + 1))
    else if (leftParser p).look s o = none then Dict.get? awsDefaults o else (leftParser p).raw s o := by
  by_cases ho : o = "order".toList
  · rw [if_pos ho, raw_settled h hi, if_pos ho]
  rw [if_neg ho]
  rcases raw_leftParser h s o with heq | ⟨-, hl, hd⟩
  · split
    · rename_i hl
      have hlook : (settled p).look s o = none := by
        rw [look, ← heq, settled, defaults_settle, ← defaults_leftParser p, ← look, hl]
      rw [default_of_look_none h hi hlook]
      exact (Option.or_eq_none_iff.1 hlook).1
    · exact heq.symm
  · rw [if_pos hl, hd]

/-- The sections of a file that are as a construction left them are settled to what they were. -/
theorem raw_settled_again {p₂ : ConfigParser} {i : Nat} (h : Normal p) (h₂ : Normal p₂)
    (hn : p₂.sectionNames = p.sectionNames)
    (hd : p₂.defaults = p.defaults) (hraw : ∀ o, p₂.raw s o = (leftParser p).raw s o)
    (hi : (profileNames p)[i]? = some s) (o : Str) : (settled p₂).raw s o = (settled p).raw s o := by
  have hlook : p₂.look s o = (leftParser p).look s o := by rw [look, look, hraw, hd, defaults_leftParser]
  have hi₂ : (profileNames p₂)[i]? = some s := by rwa [profileNames, hn, ← profileNames]
  rw [raw_settled h₂ hi₂, raw_settled_of_left h hi, hlook, hraw]

/-- The same for `[api]`, which no construction changes. -/
theorem raw_leftParser_api (h : Normal p) (o : Str) : (leftParser p).raw apiSection o = p.raw apiSection o := by
  have hnot : apiSection ∉ profileNames p := fun hm => (mem_profileNames.1 hm).2 rfl
  rcases raw_leftParser h apiSection o with heq | ⟨hm, -⟩
  · rw [heq, settled, raw_settle_not_mem (fun s hs => (profiles_ordinary h s hs).2) hnot]
  · exact absurd hm hnot

/-- `load_api_config` depends on the options of its section. -/
theorem loadApiConfig_congr (hs : apiSection ∈ p.sectionNames ↔ apiSection ∈ q.sectionNames)
    (hl : ∀ o, p.look apiSection o = q.look apiSection o) : loadApiConfig p = loadApiConfig q := by
  have hget : ∀ o, p.get apiSection o = q.get apiSection o := get_congr hs hl
  simp only [loadApiConfig, hget]

/-- The number of a profile in a loader. -/
theorem raw_settled_order (h : Normal p) {i : Nat} (hi : (profileNames p)[i]? = some s) :
    (settled p).raw s "order" = some (showNat (i + 1)) := by
  rw [raw_settled h hi, if_pos rfl]

/-! ## Constructing again -/

/-- A loader can be built from the text, and this is one of its profiles. -/
def Readable (s text : Str) : Prop :=
  ∃ p, ConfigParser.read text = .ok p ∧ (∃ api, loadApiConfig p = .ok api) ∧
    (∀ s' ∈ profileNames p, ∃ aws, readAwsConfig (settled p) s' = .ok aws) ∧ s ∈ profileNames p

theorem profileNames_leftParser (p : ConfigParser) : profileNames (leftParser p) = profileNames p := by
  rw [profileNames, sectionNames_leftParser, ← profileNames]

theorem loadApiConfig_leftParser (h : Normal p) : loadApiConfig (leftParser p) = loadApiConfig p := by
  refine loadApiConfig_congr (by rw [sectionNames_leftParser]) fun o => ?_
  rw [look, look, raw_leftParser_api h, defaults_leftParser]

/-- A profile reads the same in the next construction. -/
theorem readAwsConfig_leftParser (h : Normal p) (hs : s ∈ profileNames p) :
    readAwsConfig (settled (leftParser p)) s = readAwsConfig (settled p) s := by
  have hn := sectionNames_leftParser p
  have hd := defaults_leftParser p
  obtain ⟨i, hi⟩ := List.mem_iff_getElem?.1 hs
  refine readAwsConfig_congr ?_ fun o => ?_
  · rw [settled, settled, sectionNames_settle, sectionNames_settle, hn]
  · rw [look, look, raw_settled_again h (normal_leftParser h) hn hd (fun _ => rfl) hi, settled, settled,
      defaults_settle, defaults_settle, hd]

/-- What is left by a construction can be read again. -/
theorem readable_left {text text' : Str} {l : ConfigLoader} (h : Built text text' l p) (hs : s ∈ profileNames p) :
    Readable s text' := by
  have hnormal := read_normal h.read
  refine ⟨leftParser p, h.file ▸ read_leftIn h.read, ⟨l.apiConfig, ?_⟩, fun s' hs' => ?_, ?_⟩
  · rw [loadApiConfig_leftParser hnormal, h.api]
  · rw [profileNames_leftParser] at hs'
    rw [readAwsConfig_leftParser hnormal hs']
    exact h.reads s' hs'
  · rwa [profileNames_leftParser]

/-- A profile of a loader that was just built lacks no default. -/
theorem loadAwsConfig_settled (h : Normal p) (hs : s ∈ profileNames p) {aws : AwsConfig}
    (haws : readAwsConfig (settled p) s = .ok aws) : ∃ q, loadAwsConfig (settled p) s = .ok (aws, q) := by
  obtain ⟨i, hi⟩ := List.mem_iff_getElem?.1 hs
  obtain ⟨hord, hm⟩ := profiles_ordinary h s hs
  have hm' : s ∈ (settled p).sectionNames := by rwa [settled, sectionNames_settle]
  refine ⟨withDefaults s (settled p), loadAwsConfig_eq_ok.2 ⟨setDefaults_eq hord hm', ?_⟩⟩
  rw [← haws]
  refine readAwsConfig_congr (by rw [withDefaults, sectionNames_foldl_withDefault]) fun k => ?_
  rw [look, look, withDefaults, raw_foldl_withDefault hm' nodup_awsDefaults, defaults_foldl_withDefault]
  split
  · rename_i hnone
    rw [default_of_look_none h hi hnone.2, (Option.or_eq_none_iff.1 hnone.2).1]
  · rfl

/-- **A text from which a loader can be built is left so.** -/
theorem Readable.build {text : Str} (h : Readable s text) : ∃ l text', build text = (.ok l, text') ∧ Readable s text' ∧
    ∃ aws l', l.loadAws s = .ok (aws, l') := by
  obtain ⟨p, hread, ⟨api, hapi⟩, hreads, hs⟩ := h
  obtain ⟨cs, hbuild⟩ := build_ok hread hapi hreads
  obtain ⟨aws, haws⟩ := hreads s hs
  obtain ⟨q, hq⟩ := loadAwsConfig_settled (read_normal hread) hs haws
  have hbuilt : Built text (leftIn p text) ⟨settled p, api, cs⟩ p := ⟨hread, hapi, hreads, rfl, rfl⟩
  refine ⟨_, _, hbuild, readable_left hbuilt hs, aws, ⟨q, api, cs⟩, ?_⟩
  show (loadAwsConfig (settled p) s >>= _) = _
  rw [hq]
  rfl

theorem readable_of_build {text text' : Str} {l : ConfigLoader} (h : build text = (.ok l, text'))
    (hread : ConfigParser.read text = .ok p) (hs : s ∈ profileNames p) : Readable s text := by
  obtain ⟨q, hq⟩ := built_of_build h
  obtain rfl : p = q := Except.ok.inj (hread.symm.trans hq.read)
  exact ⟨p, hread, ⟨_, hq.api⟩, hq.reads, hs⟩

end ConfigLoader
end Iprotate
