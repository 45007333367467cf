import Iprotate.Built

/-!
# All of `write_changes` or nothing

`write_changes` copies the options of the loader's section one by one and writes the file at the end.

- Each copy can raise, and changes one option of the section if it does not (`copyOptions_cases`).
- So either the file stays as it is, and a reason for that is in the file or in the loader, or it gets a configuration
  in which only this section is changed (`changes_section_or_nothing`).
-/

namespace Iprotate
namespace WriteChanges

open ConfigParser Loader ConfigLoader

/-- The raw options of a section; `DEFAULT` is one here. -/
def content (p : ConfigParser) (s : Str) : Option (Dict Str Str) :=
  if s = defaultSection then some p.defaults else p.sections.get? s

/-- The raw value of an option of a section. -/
def value (p : ConfigParser) (s k : Str) : Option Str := (content p s).bind (·.get? k)

/-- The section of the file, with these options of the loader's section copied into it. -/
structure Copied (mem : ConfigParser) (s : Str) (keys : List Str) (file p' : ConfigParser) : Prop where
  sectionNames : p'.sectionNames = file.sectionNames
  others : ∀ t, t ≠ s → content p' t = content file t
  copied : ∀ k ∈ keys, ∃ v, mem.get s k = .ok v ∧ value p' s (optionxform k) = some v
  kept : ∀ k, k ∉ keys.map optionxform → value p' s k = value file s k

/-- What is so of the parser of every loader: its sections have names that a header can have, and its options are in
lower case. -/
structure Proper (p : ConfigParser) : Prop where
  names : ∀ t ∈ p.sectionNames, Ordinary t
  keys : ∀ s k v, p.look s k = some v → optionxform k = k

/-- Why an option is not copied: it cannot be interpolated, or what it reads as cannot be stored. -/
def CopyRaises (mem : ConfigParser) (s k : Str) (e : ConfigError) : Prop :=
  (∃ v why, e = .interpolation k s v why ∧ mem.get s k = .error e) ∨
    ∃ v, e = .invalidInterpolation v ∧ mem.get s k = .ok v ∧ ¬Accepts v

/-- Why `write_changes` raises: the text does not read, the loader has no such section, or an option of it is not
copied. -/
inductive Refused (mem : ConfigParser) (text s : Str) : ConfigError → Prop
  | unread {e : ConfigError} (h : ConfigParser.read text = .error e) : Refused mem text s e
  | unknown (h : mem.contains s = false) : Refused mem text s (.keyError s)
  | option {k : Str} {e : ConfigError} (hk : k ∈ mem.options s) (h : CopyRaises mem s k e) : Refused mem text s e

/-- What is written: the file with one section changed, which comes last if the file did not have it. -/
structure OnlySection (mem : ConfigParser) (s : Str) (file p' : ConfigParser) : Prop where
  sectionNames : p'.sectionNames = if file.contains s then file.sectionNames else file.sectionNames ++ [s]
  others : ∀ t, t ≠ s → content p' t = content file t
  copied : ∀ k ∈ mem.options s, ∃ v, mem.get s k = .ok v ∧ value p' s (optionxform k) = some v
  kept : ∀ k, k ∉ (mem.options s).map optionxform → value p' s k = value file s k

/-! ## One option -/

section Copy

variable {mem temp p' : ConfigParser} {s k v : Str}

theorem value_of_ordinary (hs : Ordinary s) : value temp s k = temp.raw s k := by
  rw [value, content, if_neg hs.2]
  rfl

/-- What storing a raw value leaves. -/
structure Stored (p : ConfigParser) (s k v : Str) (p' : ConfigParser) : Prop where
  sectionNames : p'.sectionNames = p.sectionNames
  others : ∀ t, t ≠ s → content p' t = content p t
  self : ∀ k', value p' s k' = if k = k' then some v else value p s k'

theorem stored_default (p : ConfigParser) (k v : Str) :
    Stored p defaultSection k v { p with defaults := p.defaults.set k v } where
  sectionNames := rfl
  others t ht := by rw [content, content, if_neg ht, if_neg ht]
  self k' := by
    simp only [value, content, if_pos, Option.bind_some]
    exact Dict.get?_set _ _ _ _

theorem stored_put (hs : Ordinary s) (hm : s ∈ temp.sectionNames) : Stored temp s k v (temp.put s k v) where
  sectionNames := sectionNames_put ..
  others t ht := by
    rw [content, content, defaults_put, sections_put_ne ht.symm]
  self k' := by
    rw [value_of_ordinary hs, value_of_ordinary hs, raw_put hm]
    exact if_congr (and_iff_right rfl) rfl rfl

theorem contains_cases (hs : s = defaultSection ∨ Ordinary s) (hc : temp.contains s = true) :
    s = defaultSection ∨ Ordinary s ∧ s ∈ temp.sectionNames :=
  hs.imp_right fun hs => ⟨hs, (contains_iff hs temp).1 hc⟩

/-- A `set` on a section that is there. -/
theorem set_cases (hs : s = defaultSection ∨ Ordinary s) (hc : temp.contains s = true) (k v : Str) :
    ¬Accepts v ∧ temp.set s k v = .error (.invalidInterpolation v) ∨
      ∃ p', temp.set s k v = .ok p' ∧ Stored temp s (optionxform k) v p' := by
  by_cases hv : Accepts v
  · right
    rcases contains_cases hs hc with rfl | ⟨hs, hm⟩
    · refine ⟨_, ?_, stored_default temp (optionxform k) v⟩
      rw [ConfigParser.set, if_neg, if_pos (.inr rfl)]
      exact fun h => hv.elim h.1 fun hv => by simp [hv] at h
    · exact ⟨_, set_ok hs hm k hv, stored_put hs hm⟩
  · refine .inl ⟨hv, ?_⟩
    rw [ConfigParser.set, if_pos]
    simpa [Accepts] using hv

theorem Stored.contains (h : Stored temp s k v p') (t : Str) : p'.contains t = temp.contains t := by
  rw [ConfigParser.contains, ConfigParser.contains, h.sectionNames]

/-- One option, then the others. -/
theorem Stored.copied {keys : List Str} {q : ConfigParser} (hget : mem.get s k = .ok v)
    (h : Stored temp s (optionxform k) v q) (hrest : Copied mem s keys q p') : Copied mem s (k :: keys) temp p' where
  sectionNames := hrest.sectionNames.trans h.sectionNames
  others t ht := (hrest.others t ht).trans (h.others t ht)
  copied k' hk' := by
    by_cases hmem : optionxform k' ∈ keys.map optionxform
    · obtain ⟨k'', hk'', heq⟩ := List.mem_map.1 hmem
      obtain ⟨v', hget', hv'⟩ := hrest.copied k'' hk''
      refine ⟨v', ?_, heq ▸ hv'⟩
      rw [← get_optionxform, ← heq, get_optionxform, hget']
    · rcases List.mem_cons.1 hk' with rfl | hk'
      · refine ⟨v, hget, ?_⟩
        rw [hrest.kept _ hmem, h.self, if_pos rfl]
      · exact absurd (List.mem_map_of_mem hk') hmem
  kept k' hk' := by
    rw [List.map_cons, List.mem_cons, not_or] at hk'
    rw [hrest.kept k' hk'.2, h.self, if_neg (Ne.symm hk'.1)]

/-- An option that the section has. -/
theorem get_cases (hk : ∀ v, mem.look s k = some v → optionxform k = k) (hc : mem.contains s = true)
    (hmem : k ∈ mem.options s) :
    (∃ v, mem.get s k = .ok v) ∨ ∃ v why, mem.get s k = .error (.interpolation k s v why) := by
  obtain ⟨v, hv⟩ := exists_look_of_mem_options hmem
  have hfound : s ∈ mem.sectionNames ∨ s = defaultSection := by
    rw [ConfigParser.contains, Bool.or_eq_true, decide_eq_true_eq, decide_eq_true_eq] at hc
    exact hc.symm
  rw [ConfigParser.get, if_pos hfound, hk v hv, hv]
  cases hx : Interpolation.expand (mem.look s) Interpolation.maxInterpolationDepth v with
  | ok r =>
    left
    refine ⟨r, ?_⟩
    simp only [hx]
  | error why =>
    right
    refine ⟨v, why, ?_⟩
    simp only [hx]

/-- **The copy loop**: it raises at some option, or every option is copied. -/
theorem copyOptions_cases (hmem : Proper mem) (hs : s = defaultSection ∨ Ordinary s) (hfound : mem.contains s = true) :
    ∀ (keys : List Str) {temp : ConfigParser}, (∀ k ∈ keys, k ∈ mem.options s) → temp.contains s = true →
    (∃ e, copyOptions mem s keys temp = .error e ∧ ∃ k ∈ keys, CopyRaises mem s k e) ∨
      ∃ p', copyOptions mem s keys temp = .ok p' ∧ Copied mem s keys temp p'
  | [], temp, _, _ => .inr ⟨temp, rfl, rfl, fun _ _ => rfl, fun _ h => (nomatch h), fun _ _ => rfl⟩
  | k :: keys, temp, hkeys, hc => by
    have hloop : copyOptions mem s (k :: keys) temp =
        ((mem.get s k >>= fun v => temp.set s k v) >>= copyOptions mem s keys) := rfl
    rcases get_cases (hmem.keys s k) hfound (hkeys k List.mem_cons_self) with ⟨v, hget⟩ | ⟨v, why, hget⟩
    · rw [hget] at hloop
      rcases set_cases hs hc k v with ⟨hv, hset⟩ | ⟨q, hset, hstored⟩
      · refine .inl ⟨.invalidInterpolation v, ?_, k, List.mem_cons_self, .inr ⟨v, rfl, hget, hv⟩⟩
        rw [hloop, show (Except.ok v >>= fun v => temp.set s k v) = temp.set s k v from rfl, hset]
        rfl
      · have hnext : copyOptions mem s (k :: keys) temp = copyOptions mem s keys q := by
          rw [hloop, show (Except.ok v >>= fun v => temp.set s k v) = temp.set s k v from rfl, hset]
          rfl
        rw [hnext]
        rcases copyOptions_cases hmem hs hfound keys (fun k' hk' => hkeys k' (List.mem_cons_of_mem _ hk'))
          ((hstored.contains s).trans hc) with ⟨e, he, k', hk', hraises⟩ | ⟨p', hp, hcopied⟩
        · exact .inl ⟨e, he, k', List.mem_cons_of_mem _ hk', hraises⟩
        · exact .inr ⟨p', hp, hstored.copied hget hcopied⟩
    · rw [hget] at hloop
      exact .inl ⟨_, hloop, k, List.mem_cons_self, .inl ⟨v, why, rfl, hget⟩⟩

end Copy

/-! ## The section -/

section Merge

variable {mem file p' : ConfigParser} {s : Str}

/-- A section that is found is `DEFAULT`, or one that a header can name. -/
theorem Proper.ordinary (hmem : Proper mem) (h : mem.contains s = true) : s = defaultSection ∨ Ordinary s := by
  rw [contains, Bool.or_eq_true, decide_eq_true_eq, decide_eq_true_eq] at h
  exact h.imp_right (hmem.names s)

theorem contains_mergeBase (file : ConfigParser) (s : Str) : (mergeBase file s).contains s = true := by
  unfold mergeBase
  split
  · assumption
  · simp [contains, addSection, sectionNames]

/-- A new section has no options. -/
theorem Copied.only {keys : List Str} (h : Copied mem s keys (mergeBase file s) p') (hkeys : keys = mem.options s) :
    OnlySection mem s file p' := by
  subst hkeys
  have hcontent : ∀ t, t ≠ s → content (mergeBase file s) t = content file t := fun t ht => by
    have hdefaults : (mergeBase file s).defaults = file.defaults := by
      unfold mergeBase
      split <;> rfl
    rw [content, content, hdefaults, sections_mergeBase_ne ht]
  have hvalue : ∀ k, value (mergeBase file s) s k = value file s k := fun k => by
    by_cases hdef : s = defaultSection
    · have hbase : mergeBase file s = file := if_pos (by simp [contains, hdef])
      rw [hbase]
    · rw [value, value, content, content, if_neg hdef, if_neg hdef]
      exact raw_mergeBase file s k
  refine ⟨?_, fun t ht => (h.others t ht).trans (hcontent t ht), h.copied, fun k hk => (h.kept k hk).trans (hvalue k)⟩
  rw [h.sectionNames, mergeBase]
  split
  · rfl
  · simp [addSection, ConfigParser.sectionNames]

theorem mergeSection_cases (hmem : Proper mem) (file : ConfigParser) (text : Str) :
    (∃ e, mergeSection mem file s = .error e ∧ Refused mem text s e) ∨
      ∃ p', mergeSection mem file s = .ok p' ∧ OnlySection mem s file p' := by
  by_cases hc : mem.contains s = false
  · exact .inl ⟨_, if_pos hc, .unknown hc⟩
  have hmerge : mergeSection mem file s = copyOptions mem s (mem.options s) (mergeBase file s) := if_neg hc
  have hfound : mem.contains s = true := by simpa using hc
  rw [hmerge]
  rcases copyOptions_cases hmem (hmem.ordinary hfound) hfound (mem.options s) (fun _ h => h)
    (contains_mergeBase file s) with ⟨e, he, k, hk, hraises⟩ | ⟨p', hp, hcopied⟩
  · exact .inl ⟨e, he, .option hk hraises⟩
  · exact .inr ⟨p', hp, hcopied.only rfl⟩

end Merge

/-! ## The loaders there are -/

/-- A loader at some time after its construction. -/
inductive Reached : ConfigLoader → Prop
  | built {text text' : Str} {l : ConfigLoader} (h : build text = (.ok l, text')) : Reached l
  | setValue {l l' : ConfigLoader} {s key : Str} {v : Option Str} (h : l.setValue s key v = .ok l') (hl : Reached l) :
      Reached l'
  | loadAws {l l' : ConfigLoader} {s : Str} {aws : AwsConfig} (h : l.loadAws s = .ok (aws, l')) (hl : Reached l) :
      Reached l'

theorem Proper.of_normal {p : ConfigParser} (h : Normal p) : Proper p where
  names _ ht := ordinary_of_normal h ht
  keys _ _ _ hv := (h.writable.entryOk hv).key.lower

/-- A `set` writes its option in lower case. -/
theorem Proper.set {p p' : ConfigParser} {s option v : Str} (hp : Proper p) (h : p.set s option v = .ok p') :
    Proper p' where
  names t ht := hp.names t (sectionNames_set h ▸ ht)
  keys s' k r hr := by
    have hlower : optionxform (optionxform option) = optionxform option := Text.lower_lower option
    unfold ConfigParser.set at h
    split at h
    · cases h
    split at h
    · cases h
      rcases Option.or_eq_some_iff.1 hr with hraw | ⟨hraw, hdef⟩
      · exact hp.keys s' k r (look_of_raw hraw)
      · rw [Dict.get?_set] at hdef
        split at hdef
        · rename_i hk
          rw [← hk, hlower]
        · exact hp.keys s' k r (Option.or_eq_some_iff.2 (.inr ⟨hraw, hdef⟩))
    split at h
    · rename_i hm
      cases h
      rw [look_put hm] at hr
      split at hr
      · rename_i hk
        rw [← hk.2, hlower]
      · exact hp.keys s' k r hr
    · cases h

theorem Reached.proper {l : ConfigLoader} (h : Reached l) : Proper l.config := by
  induction h with
  | @built text text' l h =>
    obtain ⟨p, hp⟩ := built_of_build h
    rw [hp.config]
    exact .of_normal (normal_settle _ _ (read_normal hp.read))
  | @setValue l l' s key v h _ ih =>
    cases v with
    | none => cases h
    | some v =>
      obtain ⟨p, hset, hret⟩ := except_bind_eq_ok.1 h
      cases hret
      exact ih.set hset
  | @loadAws l l' s aws h _ ih =>
    have hdefaults := (loadAwsConfig_eq_ok.1 (loadAwsConfig_of_loadAws h)).1
    exact setDefaults_keeps (P := Proper) hdefaults ih fun _ _ _ _ _ hset hq => hq.set hset

/-! ## The law -/

/-- **`write_changes` changes this section of the file, or nothing.** -/
theorem changes_section_or_nothing (l : ConfigLoader) (text s : Str) (hl : Proper l.config) :
    (∃ e, l.writeChanges s text = (.error e, text) ∧ Refused l.config text s e) ∨
      ∃ file p', ConfigParser.read text = .ok file ∧ l.writeChanges s text = (.ok (), write p') ∧
        OnlySection l.config s file p' := by
  cases hread : ConfigParser.read text with
  | error e =>
    refine .inl ⟨e, ?_, .unread hread⟩
    simp only [writeChanges, readConfig, Prog.run_bind, Prog.run_get, Prog.run_ofExcept, hread]
  | ok file =>
    rcases mergeSection_cases hl file text with ⟨e, he, hrefused⟩ | ⟨p', hp, honly⟩
    · refine .inl ⟨e, ?_, hrefused⟩
      simp only [writeChanges, readConfig, Prog.run_bind, Prog.run_get, Prog.run_ofExcept, hread, he]
    · refine .inr ⟨file, p', rfl, ?_, honly⟩
      simp only [writeChanges, readConfig, writeConfig, Prog.run_bind, Prog.run_get, Prog.run_ofExcept, Prog.run_set,
        hread, hp]

/-- A loader of the example file, with another region for the profile. -/
def regionLoader : ConfigLoader :=
  ⟨exampleConfig.put "aws1" "region" "us-east-1", ⟨"api", "3000", "", "", "", "", "1.1.1.1", "/root/.ssh/id_rsa"⟩, []⟩

theorem proper_regionLoader : Proper regionLoader.config := by
  have hset : exampleConfig.set "aws1" "region" "us-east-1" = .ok regionLoader.config := by decide
  exact (Proper.of_normal normal_example).set hset

theorem changes_aws1 : ∃ p', regionLoader.writeChanges "aws1" (write exampleConfig) = (.ok (), write p') ∧
    OnlySection regionLoader.config "aws1" exampleConfig p' := by
  have hok : (regionLoader.writeChanges "aws1" (write exampleConfig)).1.toOption = some () := by decide +kernel
  rcases changes_section_or_nothing regionLoader (write exampleConfig) "aws1" proper_regionLoader with
    ⟨e, he, -⟩ | ⟨file, p', hread, hrun, honly⟩
  · rw [he] at hok
    cases hok
  · obtain rfl := Except.ok.inj (read_example.symm.trans hread)
    exact ⟨p', hrun, honly⟩

end WriteChanges
end Iprotate
