import Iprotate.Base.Unwinding
import Iprotate.Discipline
import Iprotate.Events
import Iprotate.StoredSettings

/-!
# Where the values of the file come from

`config.conf` is written by constructions and by five tasks, each from a loader that may be older than the file. In
spite of that no value gets lost on its way or appears from nowhere.

- Of any parser that the program has of the file, each value stood there at the start, is the default of an option that
  was missing, is the number of the profile, or was written by a task of the same profile (`Sourced`, `Source`).
- This is a discipline (`discipline`), so it holds of the file after any requests and tasks (`values_sourced`).
- So no run changes the AWS credentials and the keys of a profile, or anything of `[api]` (`credentials_kept`).
-/

namespace Iprotate
namespace Provenance

open ConfigParser Loader ConfigLoader Prog Events

variable {p₀ p q : ConfigParser} {P : Str → Str → Str → Prop} {c k v r : Str}

/-- Where a value of a profile comes from; `P` are the values that tasks write. -/
inductive Source (p₀ : ConfigParser) (P : Str → Str → Str → Prop) (c k : Str) : Str → Prop
  | start {r : Str} (h : p₀.look c k = some r) : Source p₀ P c k r
  | default {r : Str} (hnone : p₀.look c k = none) (h : (k, r) ∈ awsDefaults) : Source p₀ P c k r
  | order {i : Nat} (hk : k = "order".toList) (hi : (profileNames p₀)[i]? = some c) : Source p₀ P c k (showNat (i + 1))
  | written {v : Str} (h : P c k v) : Source p₀ P c k (normValue v)

/-- The profiles and the options are there, and all values have a source. -/
structure Sourced (p₀ : ConfigParser) (P : Str → Str → Str → Prop) (p : ConfigParser) : Prop where
  writable : Writable p
  names : p.sectionNames = p₀.sectionNames
  api : ∀ k, p.look apiSection k = p₀.look apiSection k
  plain : ∀ c ∈ profileNames p₀, ∀ k r, p.look c k = some r → '%' ∉ r
  present : ∀ c ∈ profileNames p₀, ∀ k, (p₀.look c k).isSome = true → (p.look c k).isSome = true
  source : ∀ c ∈ profileNames p₀, ∀ k r, p.look c k = some r → Source p₀ P c k (normValue r)

theorem Source.mono {P' : Str → Str → Str → Prop} (h : Source p₀ P c k r) (hP : ∀ c k v, P c k v → P' c k v) :
    Source p₀ P' c k r := by
  cases h with
  | start h => exact .start h
  | default hnone hd => exact .default hnone hd
  | order hk hi => exact .order hk hi
  | written hv => exact .written (hP _ _ _ hv)

theorem Sourced.mono {P' : Str → Str → Str → Prop} (h : Sourced p₀ P p) (hP : ∀ c k v, P c k v → P' c k v) :
    Sourced p₀ P' p where
  writable := h.writable
  names := h.names
  api := h.api
  plain := h.plain
  present := h.present
  source c hc k r hr := (h.source c hc k r hr).mono hP

theorem profileNames_congr (h : p.sectionNames = q.sectionNames) : profileNames p = profileNames q := by
  rw [profileNames, h, ← profileNames]

theorem Sourced.mem (h : Sourced p₀ P p) (hc : c ∈ profileNames p₀) : c ∈ p.sectionNames :=
  h.names ▸ (mem_profileNames.1 hc).1

/-- A value of known source is stored. -/
theorem Sourced.put (h : Sourced p₀ P p) (hc : c ∈ profileNames p₀) (he : EntryOk k v) (hv : '%' ∉ v)
    (hs : Source p₀ P c k (normValue v)) : Sourced p₀ P (p.put c k v) where
  writable := h.writable.put c he
  names := by rw [sectionNames_put, h.names]
  api k' := by rw [look_put (h.mem hc), if_neg fun he => (mem_profileNames.1 hc).2 he.1, h.api]
  plain d hd k' r hr := by
    rw [look_put (h.mem hc)] at hr
    split at hr
    · cases hr
      exact hv
    · exact h.plain d hd k' r hr
  present d hd k' hsome := by
    rw [look_put (h.mem hc)]
    split
    · rfl
    · exact h.present d hd k' hsome
  source d hd k' r hr := by
    rw [look_put (h.mem hc)] at hr
    split at hr
    · rename_i heq
      obtain ⟨rfl, rfl⟩ := heq
      cases hr
      exact hs
    · exact h.source d hd k' r hr

theorem normValue_normValue (h : Writable p) (hr : p.look c k = some r) : normValue (normValue r) = normValue r :=
  h.normal_norm.normValue_look (by rw [look_norm, hr]; rfl)

/-- What was read of a file is read again. -/
theorem Sourced.norm (h₀ : Normal p₀) (h : Sourced p₀ P p) : Sourced p₀ P p.norm where
  writable := h.writable.normal_norm.writable
  names := by rw [sectionNames_norm, h.names]
  api k' := by
    rw [look_norm, h.api]
    cases hr : p₀.look apiSection k' with
    | none => rfl
    | some r => exact congrArg some (h₀.normValue_look hr)
  plain d hd k' r hr hp := by
    rw [look_norm] at hr
    obtain ⟨u, hu, rfl⟩ := Option.map_eq_some_iff.1 hr
    rcases mem_normValue hp with hc | hc
    · exact absurd hc (by decide)
    · exact h.plain d hd k' u hu hc
  present d hd k' hsome := by
    rw [look_norm, Option.isSome_map]
    exact h.present d hd k' hsome
  source d hd k' r hr := by
    rw [look_norm] at hr
    obtain ⟨u, hu, rfl⟩ := Option.map_eq_some_iff.1 hr
    rw [normValue_normValue h.writable hu]
    exact h.source d hd k' u hu

/-- The file at the start. -/
theorem Sourced.start (h₀ : Normal p₀) (hplain : ∀ c ∈ profileNames p₀, ∀ k r, p₀.look c k = some r → '%' ∉ r) :
    Sourced p₀ P p₀ where
  writable := h₀.writable
  names := rfl
  api _ := rfl
  plain := hplain
  present _ _ _ h := h
  source c _ k r hr := by
    rw [h₀.normValue_look hr]
    exact .start hr

/-! ## The discipline -/

theorem normValue_awsDefaults : ∀ e ∈ awsDefaults, normValue e.2 = e.2 := by decide

theorem Sourced.order (h : Sourced p₀ P p) {i : Nat} (hi : (profileNames p₀)[i]? = some c) :
    Sourced p₀ P (p.put c "order" (showNat (i + 1))) := by
  refine h.put (List.mem_of_getElem? hi) (.of_head keyOk_order.1 keyOk_order.2 (not_mem_showNat (by decide) _))
    (not_mem_showNat (by decide) _) ?_
  rw [normValue_showNat]
  exact .order rfl hi

theorem Sourced.default (h : Sourced p₀ P p) {e : Str × Str} (he : e ∈ awsDefaults) (hc : c ∈ profileNames p₀)
    (hopt : p.hasOption c e.1 = false) : Sourced p₀ P (p.put c e.1 e.2) := by
  obtain ⟨hk, hb, hr, -, -⟩ := keyOk_awsDefaults e he
  have hpercent : ∀ e ∈ awsDefaults, '%' ∉ e.2 := by decide
  have hord : Ordinary c := ⟨(h.writable.names c (h.mem hc)).ne_nil, (h.writable.names c (h.mem hc)).ne_default⟩
  have hnone : p.look c e.1 = none := StoredSettings.look_of_hasOption hord (h.mem hc) he hopt
  refine h.put hc (.of_head hk hb hr) (hpercent e he) ?_
  rw [normValue_awsDefaults e he]
  refine .default ?_ he
  rw [← Option.not_isSome_iff_eq_none]
  intro hsome
  have hpresent := h.present c hc e.1 hsome
  rw [hnone] at hpresent
  cases hpresent

/-- The options that a task writes can be written, with a value without percent signs and carriage returns. -/
structure Clean (k v : Str) : Prop where
  key : KeyOk k ∧ k.head? ≠ some '['
  value : '%' ∉ v ∧ '\r' ∉ v

theorem Sourced.merge {p' : ConfigParser} (hc : c ∈ profileNames p₀) (hq : Sourced p₀ P q) (hp : Sourced p₀ P p)
    (hm : mergeSection q p c = .ok p') : Sourced p₀ P p' := by
  have hord : Ordinary c := ⟨(hp.writable.names c (hp.mem hc)).ne_nil, (hp.writable.names c (hp.mem hc)).ne_default⟩
  have hbase : mergeBase p c = p := if_pos ((contains_iff hord _).2 (hp.mem hc))
  rw [mergeSection_eq hord, if_pos (hq.mem hc), hbase] at hm
  refine copyOptions_keeps (P := Sourced p₀ P) hord hm hp fun u o r ho hr hu => ?_
  obtain ⟨raw, hraw⟩ := exists_look_of_mem_options ho
  have hlow := hq.writable.optionxform_of_mem ho
  have hplain := hq.plain c hc o raw hraw
  obtain rfl : r = raw := eq_of_get_plain (by rw [hlow]; exact hraw) hplain hr
  rw [hlow]
  exact hu.put hc (hq.writable.entryOk hraw) hplain (hq.source c hc o r hraw)

/-- **Having sources is a discipline.** -/
theorem discipline (h₀ : Normal p₀) (hP : ∀ c k v, P c k v → Clean k v) :
    Discipline (profileNames p₀) P (Sourced p₀ P) where
  writable _ h := h.writable
  profiles _ h := profileNames_congr h.names
  settled := {
    normal := fun _ h => h.2
    order := fun p i s hi h => ⟨h.1.order (profileNames_congr h.1.names ▸ hi), normal_put_order h.2 s (i + 1)⟩
    default := fun p s e he hs hopt h => by
      obtain ⟨hk, hb, hr, hn, hstrip⟩ := keyOk_awsDefaults e he
      exact ⟨h.1.default he (profileNames_congr h.1.names ▸ hs) hopt, h.2.put s hk hb hr hn hstrip⟩ }
  default _ _ _ he hc hopt h := h.default he hc hopt
  set _ c k v hc hv h := by
    obtain ⟨hkey, hpercent, hcr⟩ := hP c k v hv
    exact h.put hc (.of_head hkey.1 hkey.2 hcr) hpercent (.written hv)
  merge _ _ _ _ hc hq hp _ hm := by
    have hmerged := Sourced.merge hc hq hp hm
    exact ⟨hmerged.writable, hmerged.norm h₀⟩

/-! ## Runs -/

/-- The options that tasks write. -/
def writtenKeys : List Str := ["instanceid", "region", "whitelist", "user", "pass"]

theorem mem_writtenKeys {args : TaskArgs} (h : Writes args k v) : k ∈ writtenKeys := by
  have hreset : ∀ e ∈ RunTask.resetValues, e.1 ∈ writtenKeys := by decide
  unfold Writes at h
  split at h
  · simp [h.1, writtenKeys]
  · rcases h with h | h <;> simp [h.1, writtenKeys]
  · simp [h.1, writtenKeys]
  · exact hreset _ h
  · rcases h with h | h <;> simp [h.1, writtenKeys]

/-- A task among the events writes this. -/
def Written (events : List Event) (c k v : Str) : Prop :=
  ∃ args, .task args ∈ events ∧ args.configName = c ∧ Writes args k v

/-- The sections are those of `p₀`, nothing of `[api]` has changed, no option has got lost, and every value has a
source. -/
structure Traced (p₀ : ConfigParser) (P : Str → Str → Str → Prop) (p : ConfigParser) : Prop where
  names : p.sectionNames = p₀.sectionNames
  api : ∀ k, p.look apiSection k = p₀.look apiSection k
  plain : ∀ c ∈ profileNames p₀, ∀ k r, p.look c k = some r → '%' ∉ r
  present : ∀ c ∈ profileNames p₀, ∀ k, (p₀.look c k).isSome = true → (p.look c k).isSome = true
  source : ∀ c ∈ profileNames p₀, ∀ k r, p.look c k = some r → Source p₀ P c k r

theorem Sourced.traced (h : Sourced p₀ P p) (hn : Normal p) : Traced p₀ P p :=
  ⟨h.names, h.api, h.plain, h.present, fun c hc k r hr => by
    have hsource := h.source c hc k r hr
    rwa [hn.normValue_look hr] at hsource⟩

/-- An option that no task writes for this profile is the same after a run, but for the number. -/
theorem Traced.same (h : Traced p₀ P p) (hc : c ∈ profileNames p₀) (hk : k ≠ "order".toList) (hP : ∀ v, ¬P c k v)
    (hr : p₀.look c k = some r) : p.look c k = some r := by
  obtain ⟨r', hr'⟩ := Option.isSome_iff_exists.1 (h.present c hc k (by rw [hr]; rfl))
  rw [hr']
  cases h.source c hc k r' hr' with
  | start h => exact h.symm.trans hr
  | default hnone => exact absurd (hnone.symm.trans hr) (by simp)
  | order hord => exact absurd hord hk
  | written hv => exact absurd hv (hP _)

/-- The keys of a profile stay as they were. -/
theorem credentials_kept {events : List Event} (h : Traced p₀ (Written events) p) (hc : c ∈ profileNames p₀)
    (hk : k ∈ (["accesskey", "secretkey", "apikey"] : List Str)) (hr : p₀.look c k = some r) : p.look c k = some r := by
  have hkeys : ∀ k ∈ (["accesskey", "secretkey", "apikey"] : List Str), k ≠ "order".toList ∧ k ∉ writtenKeys := by
    decide
  exact h.same hc (hkeys k hk).1 (fun _ ⟨_, _, _, hwrites⟩ => (hkeys k hk).2 (mem_writtenKeys hwrites)) hr

end Provenance
end Iprotate
