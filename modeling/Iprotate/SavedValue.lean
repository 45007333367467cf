import Iprotate.Built
import Iprotate.Base.Percents

/-!
# A value that is saved

`set_value` stores a raw value; `write_changes` stores what it reads as a raw value again, and so it does with all
options of the section. A loader built afterwards expands the values a second time.

- What a later loader has of the section (`look_after`): a value survives if expanding twice gives everything back
  (`survives_of_twice`), and only then (`twice_of_survives`).
- A new value without percent signs survives among raw values whose percent signs all begin references
  (`twice_of_storable`). Apart from coincidences of the two expansions there is no other way (`storable_of_twice`).
- The password `50%%` cannot be saved (`percent_not_saved`).
-/

namespace Iprotate
namespace SavedValue

open ConfigParser Loader ConfigLoader Prog
open Interpolation (expand maxInterpolationDepth Made)

/-- An option of a profile was set in a loader that was built from a file. -/
structure Stored (text text' : Str) (l l' : ConfigLoader) (c k v : Str) : Prop where
  built : build text = (.ok l, text')
  profile : c ∈ profileNames l.config
  set : l.setValue c k (some v) = .ok l'

/-- It is saved, and a loader built afterwards reads it, and the other options as the first loader read them. -/
def Survives (text' : Str) (l l' : ConfigLoader) (c k v : Str) : Prop :=
  ∃ saved l₂ text₂, l'.writeChanges c text' = (.ok (), saved) ∧ build saved = (.ok l₂, text₂) ∧
    l₂.config.get c k = .ok v ∧
    ∀ o r, optionxform o ≠ optionxform k → l.config.get c o = .ok r → l₂.config.get c o = .ok r

/-! ## The raw values of a section -/

/-- The option reads as this text. -/
def Reads (look : Str → Option Str) (o r : Str) : Prop :=
  ∃ u, look o = some u ∧ expand look maxInterpolationDepth u = .ok r

/-- The text an option reads as, if it does. -/
def reading (look : Str → Option Str) (o : Str) : Option Str :=
  (look o).bind fun u => (expand look maxInterpolationDepth u).toOption

/-- The raw values after `set_value`. -/
def withValue (look : Str → Option Str) (key v : Str) : Str → Option Str := fun o => if o = key then some v else look o

/-- What can become of an option with the raw value `u` when the others change. If it could be read, each of its percent
signs begins a reference to an option that is so made, and its text stays the same in a file. If it could not be read,
it can be now, and its text can be stored. -/
def Kept (look look' : Str → Option Str) (o u : Str) : Prop :=
  ∃ r, expand look' maxInterpolationDepth u = .ok r ∧ Headerless o r ∧
    match expand look maxInterpolationDepth u with
    | .ok b => Made look' maxInterpolationDepth u ∧ normValue r = b
    | .error _ => Accepts r

/-- A new value without percent signs that stands in a file as it is, and so do the options that are interpolated. The
number is not changed. -/
structure Storable (look : Str → Option Str) (key v : Str) : Prop where
  plain : '%' ∉ v
  kept : normValue v = v
  line : EntryOk key v
  order : key = "order".toList → look "order" = some v
  others : ∀ o u, o ≠ key → look o = some u → '%' ∈ u → Kept look (withValue look key v) o u

/-- The raw values that a later loader finds: the number, and what was read, as a file keeps it. -/
def again (look : Str → Option Str) (key v : Str) : Str → Option Str := fun o =>
  if o = "order".toList then look o else (reading (withValue look key v) o).map normValue

/-- Expanding twice gives everything back. -/
structure Twice (look : Str → Option Str) (key v : Str) : Prop where
  copied : ∀ o u, withValue look key v o = some u →
    ∃ r, expand (withValue look key v) maxInterpolationDepth u = .ok r ∧ Accepts r ∧ EntryOk o r
  new : Reads (again look key v) key v
  others : ∀ o r, o ≠ key → Reads look o r → Reads (again look key v) o r

/-- No option that could not be read is stored with a percent sign now, and not both the new value and another option
have percent signs. -/
structure Usual (look : Str → Option Str) (key v : Str) : Prop where
  revived : ∀ o r, o ≠ key → (∀ b, ¬Reads look o b) → Reads (withValue look key v) o r → '%' ∉ normValue r
  percents : '%' ∉ v ∨ ∀ o b, o ≠ key → Reads look o b → '%' ∉ b

/-- What is lost in one expansion comes back in the other. -/
def Coincidence (look : Str → Option Str) (key v : Str) : Prop := ¬Usual look key v ∧ Twice look key v

/-- What is known of the section of a loader that was just built. -/
structure Found (look : Str → Option Str) : Prop where
  entry : ∀ o u, look o = some u → EntryOk o u ∧ normValue u = u
  order : ∃ n, look "order" = some (showNat n)

section expansions

variable {look : Str → Option Str} {key v o t u r a b : Str} {n : Nat}

theorem reading_eq_some : reading look o = some r ↔ Reads look o r := by
  rw [reading, Option.bind_eq_some_iff]
  refine exists_congr fun u => and_congr_right fun _ => ?_
  cases expand look maxInterpolationDepth u <;> simp [Except.toOption]

theorem again_order : again look key v "order" = look "order" := if_pos rfl

theorem again_eq_some (ho : o ≠ "order".toList) : again look key v o = some t ↔
    ∃ r, Reads (withValue look key v) o r ∧ normValue r = t := by
  rw [again, if_neg ho, Option.map_eq_some_iff]
  exact exists_congr fun r => and_congr_left fun _ => reading_eq_some

theorem withValue_self : withValue look key v key = some v := if_pos rfl

theorem withValue_ne (ho : o ≠ key) : withValue look key v o = look o := if_neg ho

theorem Reads.unique (h : Reads look o a) (h' : Reads look o b) : a = b := by
  obtain ⟨u, hu, ha⟩ := h
  obtain ⟨u', hu', hb⟩ := h'
  obtain rfl := Option.some.inj (hu.symm.trans hu')
  exact Interpolation.expand_unique ha hb

/-- A raw value without percent signs. -/
theorem reads_plain (hu : look o = some u) (hp : '%' ∉ u) : Reads look o r ↔ r = u := by
  refine ⟨fun h => h.unique ⟨u, hu, Interpolation.expand_plain _ _ hp⟩, ?_⟩
  rintro rfl
  exact ⟨_, hu, Interpolation.expand_plain _ _ hp⟩

namespace Found

variable (hf : Found look)

include hf

theorem order_plain (hu : look "order" = some u) : '%' ∉ u ∧ normValue u = u := by
  obtain ⟨n, hn⟩ := hf.order
  rw [hn] at hu
  cases hu
  exact ⟨not_mem_showNat (by decide) n, normValue_showNat n⟩

theorem not_mem_cr (hv : '\r' ∉ v) (hr : Reads (withValue look key v) o r) : '\r' ∉ r := by
  have hlook : ∀ x u, withValue look key v x = some u → ∀ d ∈ u, d ≠ '\r' := by
    intro x u hu d hd he
    by_cases hx : x = key
    · rw [hx, withValue_self] at hu
      cases hu
      exact hv (he ▸ hd)
    · rw [withValue_ne hx] at hu
      exact (hf.entry x u hu).1.cr (he ▸ hd)
  obtain ⟨u, hu, he⟩ := hr
  exact fun hm => Interpolation.mem_expand hlook _ (hlook _ _ hu) he _ hm rfl

end Found

/-! ## What is enough -/

/-- **Storable values are expanded twice to what they were.** -/
theorem twice_of_storable (hf : Found look) (hs : Storable look key v) : Twice look key v where
  copied o u hu := by
    by_cases ho : o = key
    · rw [ho, withValue_self] at hu
      cases hu
      exact ⟨v, Interpolation.expand_plain _ _ hs.plain, accepts_plain hs.plain, ho ▸ hs.line⟩
    · have hlook := hu
      rw [withValue_ne ho] at hlook
      obtain ⟨hentry, -⟩ := hf.entry o u hlook
      by_cases hp : '%' ∈ u
      · obtain ⟨r, hr, hheader, hkept⟩ := hs.others o u ho hlook hp
        have hcr : '\r' ∉ r := hf.not_mem_cr hs.line.cr ⟨u, hu, hr⟩
        refine ⟨r, hr, ?_, hentry.key, hcr, hheader⟩
        split at hkept
        · obtain ⟨r', hr', hplain⟩ := Interpolation.made_iff.1 hkept.1
          obtain rfl := Interpolation.expand_unique hr hr'
          exact accepts_plain hplain
        · exact hkept
      · exact ⟨u, Interpolation.expand_plain _ _ hp, accepts_plain hp, hentry⟩
  new := by
    by_cases hk : key = "order".toList
    · have horder := hs.order hk
      rw [hk]
      exact (reads_plain (again_order.trans horder) hs.plain).2 rfl
    · have hread : Reads (withValue look key v) key v := (reads_plain withValue_self hs.plain).2 rfl
      exact (reads_plain ((again_eq_some hk).2 ⟨v, hread, hs.kept⟩) hs.plain).2 rfl
  others o b ho hb := by
    obtain ⟨u, hu, he⟩ := hb
    by_cases hord : o = "order".toList
    · subst hord
      have hagain : again look key v "order" = some u := again_order.trans hu
      have hplain := (hf.order_plain hu).1
      obtain rfl := (reads_plain hu hplain).1 ⟨u, hu, he⟩
      exact (reads_plain hagain hplain).2 rfl
    by_cases hp : '%' ∈ u
    · obtain ⟨r, hr, -, hkept⟩ := hs.others o u ho hu hp
      rw [he] at hkept
      obtain ⟨hmade, rfl⟩ := hkept
      obtain ⟨r', hr', hplain⟩ := Interpolation.made_iff.1 hmade
      obtain rfl := Interpolation.expand_unique hr hr'
      refine (reads_plain ((again_eq_some hord).2 ⟨r, ⟨u, (withValue_ne ho).trans hu, hr⟩, rfl⟩) fun hm => ?_).2 rfl
      exact (mem_normValue hm).elim (by decide) hplain
    · obtain rfl := (reads_plain hu hp).1 ⟨u, hu, he⟩
      have hread := (reads_plain (r := b) ((withValue_ne (v := v) ho).trans hu) hp).2 rfl
      exact (reads_plain ((again_eq_some hord).2 ⟨b, hread, (hf.entry o b hu).2⟩) hp).2 rfl

/-! ## What is needed -/

section needed

variable (hf : Found look) (hu : Usual look key v) (ht : Twice look key v)

include hf hu ht

/-- If the new value has no percent sign, the saved ones have none. -/
theorem not_mem_again (hv : '%' ∉ v) : ∀ (n : Nat) {o t a : Str}, again look key v o = some t →
    expand (again look key v) n t = .ok a → '%' ∉ t
  | 0, _, _, _, _, h => by cases h
  | n + 1, o, t, a, hlook, ha => by
    intro hp
    by_cases hord : o = "order".toList
    · subst hord
      exact (hf.order_plain (again_order.symm.trans hlook)).1 hp
    obtain ⟨r, hr, rfl⟩ := (again_eq_some hord).1 hlook
    have hnorm := count_normValue_le (c := '%') (by decide) r
    have hpos := List.count_pos_iff.2 hp
    by_cases hk : o = key
    · rw [hk] at hr
      rw [(reads_plain withValue_self hv).1 hr, List.count_eq_zero_of_not_mem hv] at hnorm
      rw [(reads_plain withValue_self hv).1 hr] at hpos
      omega
    by_cases hb : ∃ b, Reads look o b
    · obtain ⟨b, hb⟩ := hb
      obtain ⟨u', hu', he'⟩ := ht.others o b hk hb
      rw [hlook] at hu'
      cases hu'
      obtain rfl := Interpolation.expand_unique ha he'
      -- the references have no percent signs, so fewer are left than there were
      have hlits := Interpolation.count_expandPieces (fun x u a' _ hu' ha' => by
        unfold Interpolation.inner at ha'
        split at ha'
        · rename_i hpu
          exact absurd hpu (not_mem_again hv n hu' ha')
        · rename_i hpu
          cases ha'
          exact hpu) ha
      have hlt := Interpolation.lits_lt hp
      obtain ⟨u, hlu, hlr⟩ := hr
      obtain ⟨u₀, hu₀, hb₀⟩ := hb
      rw [withValue_ne hk, hu₀] at hlu
      cases hlu
      have hle := Interpolation.count_expand_le (fun x hx => withValue_ne hx) withValue_self hv hlr hb₀
      omega
    · exact hu.revived o r hk (fun b hb' => hb ⟨b, hb'⟩) hr hp

/-- **What survives, of a value without percent signs.** -/
theorem storable_of_plain (hv : '%' ∉ v) : Storable look key v := by
  obtain ⟨r, hr, -, hentry⟩ := ht.copied key v withValue_self
  obtain rfl := (reads_plain withValue_self hv).1 ⟨v, withValue_self, hr⟩
  have horder : key = "order".toList → look "order" = some r := by
    intro hk
    obtain ⟨n, hn⟩ := hf.order
    have hnew := ht.new
    rw [hk] at hnew
    rw [hn, (reads_plain (again_order.trans hn) (not_mem_showNat (by decide) n)).1 hnew]
  refine ⟨hv, ?_, hentry, horder, fun o u ho hlook hp => ?_⟩
  · by_cases hk : key = "order".toList
    · exact (hf.entry _ _ (horder hk)).2
    · have hread : Reads (withValue look key r) key r := (reads_plain withValue_self hv).2 rfl
      have hagain := (again_eq_some hk).2 ⟨r, hread, rfl⟩
      obtain ⟨t, ht', he⟩ := ht.new
      rw [hagain] at ht'
      cases ht'
      exact ((reads_plain hagain (not_mem_again hf hu ht hv _ hagain he)).1 ⟨_, hagain, he⟩).symm
  · have hlook' := (withValue_ne (v := r) ho).trans hlook
    obtain ⟨r', hr', haccepts, hentry'⟩ := ht.copied o u hlook'
    refine ⟨r', hr', hentry'.header, ?_⟩
    split
    · rename_i b hb
      have hord : o ≠ "order".toList := by
        rintro rfl
        exact (hf.order_plain hlook).1 hp
      have hagain := (again_eq_some hord).2 ⟨r', ⟨u, hlook', hr'⟩, rfl⟩
      obtain ⟨t, ht', he⟩ := ht.others o b ho ⟨u, hlook, hb⟩
      rw [hagain] at ht'
      cases ht'
      have hplain := not_mem_again hf hu ht hv _ hagain he
      obtain rfl := (reads_plain hagain hplain).1 ⟨_, hagain, he⟩
      have hle := Interpolation.count_expand_le (fun x hx => withValue_ne hx) withValue_self hv hr' hb
      rw [List.count_eq_zero_of_not_mem hplain] at hle
      exact ⟨Interpolation.made_iff.2 ⟨r', hr', fun hm => absurd (List.count_pos_iff.2 hm) (by omega)⟩, rfl⟩
    · exact haccepts

/-- A new value with percent signs does not survive among options without. -/
theorem not_mem_new (hother : ∀ o b, o ≠ key → Reads look o b → '%' ∉ b) : '%' ∉ v := by
  intro hv
  have hord : key ≠ "order".toList := by
    intro hk
    obtain ⟨n, hn⟩ := hf.order
    have hnew := ht.new
    rw [hk] at hnew
    have hplain := not_mem_showNat (c := '%') (by decide) n
    exact hplain ((reads_plain (again_order.trans hn) hplain).1 hnew ▸ hv)
  obtain ⟨r, hr, -⟩ := ht.copied key v withValue_self
  have hagain := (again_eq_some hord).2 ⟨r, ⟨v, withValue_self, hr⟩, rfl⟩
  obtain ⟨t, ht', hnew⟩ := ht.new
  rw [hagain] at ht'
  cases ht'
  have hnorm := count_normValue_le (c := '%') (by decide) r
  have hlits := Interpolation.two_mul_lits (normValue r)
  have hlt := Interpolation.lits_lt hv
  -- the first expansion keeps the pairs of the value only
  have hfirst : r.count '%' = Interpolation.lits (Interpolation.pieces v) := by
    refine Interpolation.count_expand_self withValue_self hr fun m hm hnot x u a hx hu' _ ha => ?_
    have hold := Interpolation.expand_unused (fun y hy => withValue_ne hy) withValue_self hv
      (fun j hj => hnot j (by omega)) ha
    rw [withValue_ne hx] at hu'
    exact hother _ a hx ⟨u, hu', Interpolation.expand_mono hm hold⟩
  -- so does the second
  have hsecond : v.count '%' = Interpolation.lits (Interpolation.pieces (normValue r)) := by
    refine Interpolation.count_expand_self hagain hnew fun m _ _ x u a hx hu' hp ha => ?_
    by_cases hxo : Text.lower x = "order".toList
    · rw [hxo] at hu'
      exact absurd hp (hf.order_plain (again_order.symm.trans hu')).1
    obtain ⟨r₁, hr₁, rfl⟩ := (again_eq_some hxo).1 hu'
    by_cases hb : ∃ b, Reads look (Text.lower x) b
    · obtain ⟨b, hb⟩ := hb
      obtain ⟨t, ht', he⟩ := ht.others _ b hx hb
      rw [hu'] at ht'
      cases ht'
      rw [Interpolation.expand_unique ha he]
      exact hother _ b hx hb
    · exact absurd hp (hu.revived _ r₁ hx (fun b hb' => hb ⟨b, hb'⟩) hr₁)
  omega

/-- **What survives is storable.** -/
theorem storable_of_twice : Storable look key v := by
  refine storable_of_plain hf hu ht ?_
  rcases hu.percents with hv | hother
  · exact hv
  · exact not_mem_new hf hu ht hother

end needed

end expansions

/-! ## What is stored -/

/-- What is known of such a loader: the parser of its file and the place of the profile. -/
structure Change (text' : Str) (l l' : ConfigLoader) (c k v : Str) (p : ConfigParser) (i : Nat) : Prop where
  normal : Normal p
  place : (profileNames p)[i]? = some c
  reads : ∀ s ∈ profileNames p, ∃ aws, readAwsConfig (settled p) s = .ok aws
  api : ∃ api, loadApiConfig p = .ok api
  file : ConfigParser.read text' = .ok (leftParser p)
  config : l.config = settled p
  accepts : Accepts v
  changed : l'.config = (settled p).put c (optionxform k) v

variable {text text' : Str} {l l' : ConfigLoader} {c k v o r : Str} {p p' q : ConfigParser} {i : Nat}

theorem Stored.change (h : Stored text text' l l' c k v) : ∃ p i, Change text' l l' c k v p i := by
  obtain ⟨p, hb⟩ := built_of_build h.built
  have hnormal := read_normal hb.read
  have hprofile := h.profile
  rw [hb.config, profileNames, settled, sectionNames_settle, ← profileNames] at hprofile
  obtain ⟨i, hi⟩ := List.mem_iff_getElem?.1 hprofile
  obtain ⟨q, hq, hl⟩ := except_bind_eq_ok.1 h.set
  cases hl
  obtain ⟨hord, -⟩ := profiles_ordinary hnormal c hprofile
  obtain ⟨haccepts, -, rfl⟩ := (set_eq_ok hord).1 hq
  refine ⟨p, i, hnormal, hi, hb.reads, ⟨_, hb.api⟩, ?_, hb.config, haccepts, ?_⟩
  · rw [hb.file]
    exact read_leftIn hb.read
  · rw [hb.config]

theorem get_iff (hm : c ∈ q.sectionNames) : q.get c o = .ok r ↔ Reads (q.look c) (optionxform o) r :=
  get_eq_ok.trans (and_iff_right (.inl hm))

namespace Change

variable (h : Change text' l l' c k v p i)

include h

theorem ordinary : Ordinary c := (profiles_ordinary h.normal c (List.mem_of_getElem? h.place)).1

theorem mem : c ∈ (settled p).sectionNames := by
  rw [settled, sectionNames_settle]
  exact (profiles_ordinary h.normal c (List.mem_of_getElem? h.place)).2

theorem mem' : c ∈ l'.config.sectionNames := by
  rw [h.changed, sectionNames_put]
  exact h.mem

theorem normal_settled : Normal (settled p) := normal_settle _ _ h.normal

theorem look_changed : l'.config.look c = withValue (l.config.look c) (optionxform k) v := by
  funext o
  rw [h.changed, h.config, look_put h.mem]
  exact if_congr ((and_iff_right rfl).trans eq_comm) rfl rfl

theorem found : Found (l.config.look c) where
  entry o u hu := by
    rw [h.config] at hu
    exact ⟨h.normal_settled.writable.entryOk hu, h.normal_settled.normValue_look hu⟩
  order := by
    rw [h.config]
    exact ⟨i + 1, look_of_raw (raw_settled_order h.normal h.place)⟩

/-- Every option of the section is one that the first loader had, or the new one. -/
theorem optionxform_of_look {u : Str} (hu : l'.config.look c o = some u) : optionxform o = o := by
  rw [h.look_changed] at hu
  by_cases ho : o = optionxform k
  · rw [ho]
    simp [optionxform]
  · rw [withValue_ne ho] at hu
    exact (h.found.entry o u hu).1.key.lower

theorem optionxform_of_mem (ho : o ∈ l'.config.options c) : optionxform o = o :=
  let ⟨_, hu⟩ := exists_look_of_mem_options ho
  h.optionxform_of_look hu

/-- What the changed loader reads. -/
theorem get_changed (ho : optionxform o = o) : l'.config.get c o = .ok r ↔
    Reads (withValue (l.config.look c) (optionxform k) v) o r := by
  rw [get_iff h.mem', h.look_changed, ho]

theorem look_eq_none (ho : o ∉ l'.config.options c) : (settled p).look c o = none := by
  refine Option.eq_none_iff_forall_ne_some.2 fun u hu => ho ?_
  by_cases hk : o = optionxform k
  · exact mem_options_of_look (by rw [h.look_changed, hk, withValue_self])
  · exact mem_options_of_look (v := u) (by rw [h.look_changed, withValue_ne hk, h.config, hu])

/-- What `write_changes` does. -/
theorem writeChanges_eq : l'.writeChanges c text' =
    match mergeSection l'.config (leftParser p) c with
    | .ok p' => (.ok (), write p')
    | .error e => (.error e, text') := by
  rw [run_writeChanges, h.file]
  rfl

theorem mem_left : c ∈ (leftParser p).sectionNames := by
  rw [sectionNames_leftParser]
  exact (profiles_ordinary h.normal c (List.mem_of_getElem? h.place)).2

theorem writable_merge (hm : mergeSection l'.config (leftParser p) c = .ok p')
    (hentry : ∀ o ∈ l'.config.options c, ∀ r, l'.config.get c o = .ok r → EntryOk o r) : Writable p' := by
  rw [mergeSection_eq h.ordinary, if_pos h.mem'] at hm
  have hbase : mergeBase (leftParser p) c = leftParser p := if_pos ((contains_iff h.ordinary _).2 h.mem_left)
  rw [hbase] at hm
  refine copyOptions_keeps (P := Writable) h.ordinary hm (normal_leftParser h.normal).writable ?_
  intro q o r ho hr hq
  rw [h.optionxform_of_mem ho]
  exact hq.put c (hentry o ho r hr)

/-- What the saved file reads as. -/
theorem raw_saved (hm : mergeSection l'.config (leftParser p) c = .ok p') (o : Str) : p'.norm.raw c o =
    if o ∈ l'.config.options c then (l'.config.get c o).toOption.map normValue else none := by
  have hraw := (Merged.of_eq h.ordinary hm).raw_self o
  have hkeys : (l'.config.options c).map optionxform = l'.config.options c :=
    (List.map_congr_left fun o ho => h.optionxform_of_mem ho).trans (List.map_id _)
  rw [raw_norm, hraw, hkeys]
  split
  · rfl
  · rename_i ho
    have hl := h.look_eq_none ho
    rcases raw_leftParser h.normal c o with heq | ⟨-, hnone, -⟩
    · rw [heq, (Option.or_eq_none_iff.1 hl).1]
      rfl
    · rw [(Option.or_eq_none_iff.1 hnone).1]
      rfl

theorem sectionNames_saved (hm : mergeSection l'.config (leftParser p) c = .ok p') :
    p'.norm.sectionNames = p.sectionNames := by
  rw [sectionNames_norm, (Merged.of_eq h.ordinary hm).sectionNames, if_pos h.mem_left, sectionNames_leftParser]

theorem defaults_saved (hm : mergeSection l'.config (leftParser p) c = .ok p') : p'.norm.defaults = p.defaults := by
  have hd : (leftParser p).norm.defaults = (leftParser p).defaults :=
    congrArg ConfigParser.defaults (normal_leftParser h.normal).fixed
  have hp' : p'.norm.defaults = (leftParser p).norm.defaults := by
    rw [ConfigParser.norm, ConfigParser.norm, (Merged.of_eq h.ordinary hm).defaults]
  rw [hp', hd, defaults_leftParser]

/-- The other sections are as the first construction left them. -/
theorem raw_saved_ne (hm : mergeSection l'.config (leftParser p) c = .ok p') {s : Str} (hs : s ≠ c) (o : Str) :
    p'.norm.raw s o = (leftParser p).raw s o := by
  rw [raw_norm, (Merged.of_eq h.ordinary hm).raw_ne hs, ← raw_norm, (normal_leftParser h.normal).fixed]

/-- **What a later loader has of the section.** -/
theorem look_after (hm : mergeSection l'.config (leftParser p) c = .ok p') (hw : Writable p') :
    (settled p'.norm).look c = again (l.config.look c) (optionxform k) v := by
  funext o
  have hplace : (profileNames p'.norm)[i]? = some c := by
    rw [profileNames, h.sectionNames_saved hm, ← profileNames]
    exact h.place
  have hraw := raw_settled hw.normal_norm hplace o
  by_cases ho : o = "order".toList
  · rw [if_pos ho] at hraw
    rw [look_of_raw hraw, ho, again_order, h.config]
    exact (look_of_raw (raw_settled_order h.normal h.place)).symm
  rw [if_neg ho] at hraw
  have hsaved := h.raw_saved hm o
  by_cases hmem : o ∈ l'.config.options c
  · obtain ⟨r, hr, -⟩ := (Merged.of_eq h.ordinary hm).accepts o hmem
    rw [if_pos hmem, hr] at hsaved
    rw [look_of_raw hsaved, if_neg (Option.some_ne_none _), hsaved] at hraw
    rw [look_of_raw hraw]
    exact ((again_eq_some ho).2 ⟨r, (h.get_changed (h.optionxform_of_mem hmem)).1 hr, rfl⟩).symm
  · have hl := h.look_eq_none hmem
    rw [if_neg hmem] at hsaved
    have hdef : p.defaults.get? o = none := by
      rw [← defaults_settle (profileNames p) 1 p]
      exact (Option.or_eq_none_iff.1 hl).2
    have hlook : p'.norm.look c o = none := by
      rw [look, hsaved, h.defaults_saved hm, hdef]
      rfl
    rw [hlook, if_pos rfl, default_of_look_none h.normal h.place hl] at hraw
    have hnone : l'.config.look c o = none := Option.eq_none_iff_forall_ne_some.2 fun u hu =>
      hmem (mem_options_of_look hu)
    rw [look, hraw, settled, defaults_settle, h.defaults_saved hm, hdef, again, if_neg ho, ← h.look_changed, reading,
      hnone]
    rfl

theorem mem_after (hm : mergeSection l'.config (leftParser p) c = .ok p') : c ∈ (settled p'.norm).sectionNames := by
  rw [settled, sectionNames_settle, h.sectionNames_saved hm]
  exact (profiles_ordinary h.normal c (List.mem_of_getElem? h.place)).2

/-- The other profiles read as before. -/
theorem readAwsConfig_ne (hm : mergeSection l'.config (leftParser p) c = .ok p') (hw : Writable p') {s : Str}
    (hs : s ∈ profileNames p) (hne : s ≠ c) : readAwsConfig (settled p'.norm) s = readAwsConfig (settled p) s := by
  obtain ⟨j, hj⟩ := List.mem_iff_getElem?.1 hs
  have hn := h.sectionNames_saved hm
  have hd := h.defaults_saved hm
  refine readAwsConfig_congr ?_ fun o => ?_
  · rw [settled, settled, sectionNames_settle, sectionNames_settle, hn]
  · rw [look, look, raw_settled_again h.normal hw.normal_norm hn hd (h.raw_saved_ne hm hne) hj, settled, settled,
      defaults_settle, defaults_settle, hd]

/-- A construction from the saved file ends normally if it can read the profile. -/
theorem build_saved (hm : mergeSection l'.config (leftParser p) c = .ok p') (hw : Writable p')
    (hreads : ∃ aws, readAwsConfig (settled p'.norm) c = .ok aws) :
    ∃ l₂ text₂, build (write p') = (.ok l₂, text₂) ∧ l₂.config = settled p'.norm := by
  obtain ⟨api, hapi⟩ := h.api
  have hn := h.sectionNames_saved hm
  have hc : apiSection ≠ c := fun he => (mem_profileNames.1 (List.mem_of_getElem? h.place)).2 he.symm
  have hapi' : loadApiConfig p'.norm = .ok api := by
    rw [← hapi]
    refine loadApiConfig_congr (by rw [hn]) fun o => ?_
    rw [look, look, h.raw_saved_ne hm hc, raw_leftParser_api h.normal, h.defaults_saved hm]
  obtain ⟨cs, hbuild⟩ := build_ok (read_write hw) hapi' fun s hs => by
    rw [profileNames, hn, ← profileNames] at hs
    by_cases hsc : s = c
    · rw [hsc]
      exact hreads
    · rw [h.readAwsConfig_ne hm hw hs hsc]
      exact h.reads s hs
  exact ⟨_, _, hbuild, rfl⟩

end Change

/-- **What is expanded twice to what it was survives.** -/
theorem survives_of_twice (hst : Stored text text' l l' c k v) (ht : Twice (l.config.look c) (optionxform k) v) :
    Survives text' l l' c k v := by
  obtain ⟨p, i, h⟩ := hst.change
  have hcopied : ∀ o ∈ l'.config.options c, ∃ r, l'.config.get c o = .ok r ∧ Accepts r ∧ EntryOk o r := by
    intro o ho
    obtain ⟨u, hu⟩ := exists_look_of_mem_options ho
    rw [h.look_changed] at hu
    obtain ⟨r, hr, haccepts, hentry⟩ := ht.copied o u hu
    exact ⟨r, (h.get_changed (h.optionxform_of_mem ho)).2 ⟨u, hu, hr⟩, haccepts, hentry⟩
  obtain ⟨p', hm⟩ := mergeSection_ok h.ordinary h.mem' (fun o ho => by
    obtain ⟨r, hr, haccepts, -⟩ := hcopied o ho
    exact ⟨r, hr, haccepts⟩) (leftParser p)
  have hw : Writable p' := h.writable_merge hm fun o ho r hr => by
    obtain ⟨r', hr', -, hentry⟩ := hcopied o ho
    rw [hr] at hr'
    cases hr'
    exact hentry
  have hget : ∀ o r, (settled p'.norm).get c o = .ok r ↔
      Reads (again (l.config.look c) (optionxform k) v) (optionxform o) r := fun o r => by
    rw [get_iff (h.mem_after hm), h.look_after hm hw]
  have hother : ∀ o r, optionxform o ≠ optionxform k → l.config.get c o = .ok r →
      (settled p'.norm).get c o = .ok r := by
    intro o r hne hr
    rw [h.config, get_iff h.mem, ← h.config] at hr
    exact (hget o r).2 (ht.others _ r hne hr)
  have hreads : ∃ aws, readAwsConfig (settled p'.norm) c = .ok aws := by
    refine readAwsConfig_ok_iff.2 fun o ho => ?_
    obtain ⟨r, hr⟩ := readAwsConfig_ok_iff.1 (h.reads c (List.mem_of_getElem? h.place)) o ho
    by_cases hk : optionxform o = optionxform k
    · exact ⟨v, (hget o v).2 (hk ▸ ht.new)⟩
    · exact ⟨r, hother o r hk (by rw [h.config]; exact hr)⟩
  obtain ⟨l₂, text₂, hbuild, hl₂⟩ := h.build_saved hm hw hreads
  refine ⟨write p', l₂, text₂, by rw [h.writeChanges_eq, hm], hbuild, ?_, fun o r hne hr => ?_⟩
  · rw [hl₂]
    exact (hget k v).2 ht.new
  · rw [hl₂]
    exact hother o r hne hr

/-- **What survives is expanded twice to what it was**, if no line is taken for the header of a section. -/
theorem twice_of_survives (hst : Stored text text' l l' c k v)
    (hheader : ∀ o r, Reads (withValue (l.config.look c) (optionxform k) v) o r → Headerless o r)
    (hs : Survives text' l l' c k v) : Twice (l.config.look c) (optionxform k) v := by
  obtain ⟨p, i, h⟩ := hst.change
  obtain ⟨saved, l₂, text₂, hwrite, hbuild, hnew, hother⟩ := hs
  rw [h.writeChanges_eq] at hwrite
  split at hwrite
  · rename_i p' hm
    cases hwrite
    obtain ⟨p₂, hb⟩ := built_of_build hbuild
    have hw₂ : Writable l₂.config := by
      rw [hb.config]
      exact (normal_settle _ _ (read_normal hb.read)).writable
    -- the name and the value have been read from a file
    obtain ⟨-, raw, hraw, -⟩ := get_eq_ok.1 hnew
    have hkey : KeyOk (optionxform k) := (hw₂.entryOk hraw).key
    have hcr : '\r' ∉ v := hw₂.not_mem_get hnew
    have hentry : ∀ o r, Reads (withValue (l.config.look c) (optionxform k) v) o r → EntryOk o r := by
      intro o r hr
      refine ⟨?_, h.found.not_mem_cr hcr hr, hheader o r hr⟩
      by_cases ho : o = optionxform k
      · rw [ho]
        exact hkey
      · obtain ⟨u, hu, -⟩ := hr
        rw [withValue_ne ho] at hu
        exact (h.found.entry o u hu).1.key
    have hw := h.writable_merge hm fun o ho r hr => hentry o r ((h.get_changed (h.optionxform_of_mem ho)).1 hr)
    have hp₂ : p₂ = p'.norm := Except.ok.inj (hb.read.symm.trans (read_write hw))
    have hget : ∀ o r, l₂.config.get c o = .ok r ↔
        Reads (again (l.config.look c) (optionxform k) v) (optionxform o) r := fun o r => by
      rw [hb.config, hp₂, get_iff (h.mem_after hm), h.look_after hm hw]
    refine ⟨fun o u hu => ?_, (hget k v).1 hnew, fun o r ho hr => ?_⟩
    · rw [← h.look_changed] at hu
      obtain ⟨r, hr, haccepts⟩ := (Merged.of_eq h.ordinary hm).accepts o (mem_options_of_look hu)
      have hread := (h.get_changed (h.optionxform_of_look hu)).1 hr
      rw [← h.look_changed] at hread ⊢
      obtain ⟨u', hu', he⟩ := hread
      rw [hu] at hu'
      cases hu'
      exact ⟨r, he, haccepts, hentry o r (by rw [← h.look_changed]; exact ⟨u, hu, he⟩)⟩
    · obtain ⟨u, hu, he⟩ := hr
      have hlower : optionxform o = o := (h.found.entry o u hu).1.key.lower
      have hl : l.config.get c o = .ok r := by
        rw [h.config, get_iff h.mem, ← h.config, hlower]
        exact ⟨u, hu, he⟩
      have := (hget o r).1 (hother o r (by rw [hlower]; exact ho) hl)
      rwa [hlower] at this
  · cases hwrite

/-- **When a configuration value is saved.** It is if it is storable, and otherwise by a coincidence only, as long as no
line is taken for the header of a section. -/
theorem saved_iff (hst : Stored text text' l l' c k v) :
    (Storable (l.config.look c) (optionxform k) v → Survives text' l l' c k v) ∧
      ((∀ o r, Reads (withValue (l.config.look c) (optionxform k) v) o r → Headerless o r) →
        (Survives text' l l' c k v ↔
          Storable (l.config.look c) (optionxform k) v ∨ Coincidence (l.config.look c) (optionxform k) v)) := by
  obtain ⟨p, i, h⟩ := hst.change
  have hstorable : Storable (l.config.look c) (optionxform k) v → Survives text' l l' c k v := fun hs =>
    survives_of_twice hst (twice_of_storable h.found hs)
  refine ⟨hstorable, fun hheader => ⟨fun hs => ?_, fun hs => ?_⟩⟩
  · have ht := twice_of_survives hst hheader hs
    by_cases hu : Usual (l.config.look c) (optionxform k) v
    · exact .inl (storable_of_twice h.found hu ht)
    · exact .inr ⟨hu, ht⟩
  · exact hs.elim hstorable fun hc => survives_of_twice hst hc.2

/-! ## Values of the example's profile -/

/-- A value that is set in a loader built from this file. -/
theorem exists_stored {api : ApiConfig} (hread : ConfigParser.read text = .ok p) (hapi : loadApiConfig p = .ok api)
    (hreads : ∀ s ∈ profileNames p, ∃ aws, readAwsConfig (settled p) s = .ok aws) (hc : c ∈ profileNames p)
    (k : Str) (hv : Accepts v) : ∃ l l', Stored text (leftIn p text) l l' c k v ∧ l.config = settled p ∧
      l'.config = (settled p).put c (optionxform k) v := by
  obtain ⟨cs, hbuild⟩ := build_ok hread hapi hreads
  obtain ⟨hord, hm⟩ := profiles_ordinary (read_normal hread) c hc
  have hm' : c ∈ (settled p).sectionNames := by rwa [settled, sectionNames_settle]
  have hc' : c ∈ profileNames (settled p) := by rwa [profileNames, settled, sectionNames_settle, ← profileNames]
  refine ⟨⟨settled p, api, cs⟩, ⟨(settled p).put c (optionxform k) v, api, cs⟩, ⟨hbuild, hc', ?_⟩, rfl, rfl⟩
  show ((settled p).set c k v >>= _) = _
  rw [set_ok hord hm' k hv]
  rfl

/-- The example file with more options in its profile. -/
def noted (notes : List (Str × Str)) : ConfigParser := notes.foldl (fun p e => p.put "aws1" e.1 e.2) exampleConfig

theorem normal_noted {notes : List (Str × Str)} (h : ∀ e ∈ notes, KeyOk e.1 ∧ e.1.head? ≠ some '[' ∧ '\r' ∉ e.2 ∧
    '\n' ∉ e.2 ∧ Text.strip e.2 = e.2) : Normal (noted notes) := by
  unfold noted
  induction notes using List.reverseRecOn with
  | nil => exact normal_example
  | append_singleton notes e ih =>
    obtain ⟨hkey, hhead, hcr, hnl, hstrip⟩ := h e (List.mem_append_right _ List.mem_cons_self)
    rw [List.foldl_append, List.foldl_cons, List.foldl_nil]
    exact (ih fun e he => h e (List.mem_append_left _ he)).put "aws1" hkey hhead hcr hnl hstrip

/-- A value that is set in a loader built from such a file. -/
theorem exists_stored_noted {notes : List (Str × Str)} (hnormal : Normal (noted notes))
    (hapi : (loadApiConfig (noted notes)).toOption.isSome = true)
    (hreads : ∀ s ∈ profileNames (noted notes), (readAwsConfig (settled (noted notes)) s).toOption.isSome = true)
    (hc : "aws1".toList ∈ profileNames (noted notes)) (k : Str) (hv : Accepts v) :
    ∃ l l', Stored (write (noted notes)) (leftIn (noted notes) (write (noted notes))) l l' "aws1" k v ∧
      l.config = settled (noted notes) ∧ l'.config = (settled (noted notes)).put "aws1" (optionxform k) v := by
  obtain ⟨api, hapi⟩ := except_exists_ok hapi
  exact exists_stored hnormal.read_write hapi (fun s hs => except_exists_ok (hreads s hs)) hc k hv

/-- An option that refers to the login. -/
def greeting : List (Str × Str) := [("note", "for %(user)s")]

/-- Another region for a profile with a reference in it. -/
theorem saved_example : ∃ text text' l l', Stored text text' l l' "aws1" "region" "us-west-2" ∧
    Survives text' l l' "aws1" "region" "us-west-2" := by
  have hreads : (loadApiConfig (noted greeting)).toOption.isSome = true ∧
      (∀ s ∈ profileNames (noted greeting), (readAwsConfig (settled (noted greeting)) s).toOption.isSome = true) ∧
      "aws1".toList ∈ profileNames (noted greeting) := by
    simp (disch := exact rfl) only [noted, greeting, exampleConfig, toList_of_eq]
    decide +kernel
  obtain ⟨l, l', hst, hl, -⟩ := exists_stored_noted (normal_noted (by decide)) hreads.1 hreads.2.1 hreads.2.2 "region"
    (v := "us-west-2") (by decide)
  refine ⟨_, _, l, l', hst, (saved_iff hst).1 ?_⟩
  have hothers : (∀ o ∈ (settled (noted greeting)).options "aws1", o ≠ "region".toList →
      ∀ u ∈ (settled (noted greeting)).look "aws1" o, '%' ∈ u → o = "note".toList ∧ u = "for %(user)s".toList) ∧
      expand ((settled (noted greeting)).look "aws1") maxInterpolationDepth "for %(user)s" = .ok "for ilyas" ∧
      expand (withValue ((settled (noted greeting)).look "aws1") "region" "us-west-2") maxInterpolationDepth
        "for %(user)s" = .ok "for ilyas" := by
    simp (disch := exact rfl) only [noted, greeting, exampleConfig, toList_of_eq]
    decide +kernel
  rw [hl]
  refine ⟨by decide, by decide, .of_head (by decide) (by decide) (by decide), by decide, fun o u ho hu hp => ?_⟩
  obtain ⟨rfl, rfl⟩ := hothers.1 o (mem_options_of_look hu) ho u hu hp
  refine ⟨_, hothers.2.2, fun t ht => ?_, ?_⟩
  · have hhead : "note".toList.head? ≠ some '[' := by decide
    exact absurd (by rw [ht]; rfl) hhead
  · rw [hothers.2.1]
    exact ⟨Interpolation.made_iff.2 ⟨_, hothers.2.2, by decide⟩, by decide⟩

/-! ### By coincidence -/

/-- The checks of `Twice`, as a computation. -/
def Check (look : Str → Option Str) (key v o : Str) : Prop :=
  (∃ r ∈ reading (withValue look key v) o, Accepts r ∧ KeyOk o ∧ o.head? ≠ some '[' ∧ '\r' ∉ r) ∧
    if o = key then reading (again look key v) o = some v
    else reading look o = none ∨ reading (again look key v) o = reading look o

instance (look : Str → Option Str) (key v o : Str) : Decidable (Check look key v o) :=
  inferInstanceAs (Decidable (_ ∧ _))

theorem twice_of_check (hm : c ∈ q.sectionNames) {key : Str}
    (h : ∀ o ∈ (q.put c key v).options c, Check (q.look c) key v o) : Twice (q.look c) key v := by
  have hlook : (q.put c key v).look c = withValue (q.look c) key v := by
    funext o
    rw [look_put hm]
    exact if_congr ((and_iff_right rfl).trans eq_comm) rfl rfl
  have hcheck : ∀ o u, withValue (q.look c) key v o = some u → Check (q.look c) key v o := fun o u hu =>
    h o (mem_options_of_look (by rw [hlook]; exact hu))
  refine ⟨fun o u hu => ?_, ?_, fun o r ho hr => ?_⟩
  · obtain ⟨⟨r, hr, haccepts, hkey, hhead, hcr⟩, -⟩ := hcheck o u hu
    obtain ⟨u', hu', he⟩ := reading_eq_some.1 hr
    rw [hu] at hu'
    cases hu'
    exact ⟨r, he, haccepts, .of_head hkey hhead hcr⟩
  · have hnew := (hcheck key v withValue_self).2
    rw [if_pos rfl] at hnew
    exact reading_eq_some.1 hnew
  · obtain ⟨u, hu, he⟩ := hr
    have hother := (hcheck o u ((withValue_ne ho).trans hu)).2
    rw [if_neg ho, reading_eq_some.2 ⟨u, hu, he⟩] at hother
    exact reading_eq_some.1 (hother.resolve_left (by simp))

/-- An option that refers to one that is missing, and an option that reads as its name. -/
def echo : List (Str × Str) := [("note", "%%%%(note)s%(foo)s"), ("echo", "%%(note)s")]

/-- Once `foo` is there `note` is stored with a percent sign, and so `echo` reads as before, though its pair of percent
signs is gone. -/
theorem survives_by_coincidence : ∃ text text' l l', Stored text text' l l' "aws1" "foo" "" ∧
    Survives text' l l' "aws1" "foo" "" ∧ ¬Storable (l.config.look "aws1") "foo" "" := by
  have hreads : (loadApiConfig (noted echo)).toOption.isSome = true ∧
      (∀ s ∈ profileNames (noted echo), (readAwsConfig (settled (noted echo)) s).toOption.isSome = true) ∧
      "aws1".toList ∈ profileNames (noted echo) := by
    simp (disch := exact rfl) only [noted, echo, exampleConfig, toList_of_eq]
    decide +kernel
  obtain ⟨l, l', hst, hl, -⟩ := exists_stored_noted (normal_noted (by decide)) hreads.1 hreads.2.1 hreads.2.2 "foo"
    (v := "") (by decide)
  have hcheck : (∀ o ∈ ((settled (noted echo)).put "aws1" "foo" "").options "aws1",
      Check ((settled (noted echo)).look "aws1") "foo" "" o) ∧ "aws1".toList ∈ (settled (noted echo)).sectionNames ∧
      (settled (noted echo)).look "aws1" "echo" = some "%%(note)s" ∧
      expand ((settled (noted echo)).look "aws1") maxInterpolationDepth "%%(note)s" = .ok "%(note)s" ∧
      expand (withValue ((settled (noted echo)).look "aws1") "foo" "") maxInterpolationDepth "%%(note)s" =
        .ok "%(note)s" := by
    simp (disch := exact rfl) only [noted, echo, exampleConfig, toList_of_eq]
    decide +kernel
  obtain ⟨hcheck, hm, hecho, hbefore, hafter⟩ := hcheck
  refine ⟨_, _, l, l', hst, survives_of_twice hst ?_, fun hs => ?_⟩
  · rw [hl]
    exact twice_of_check hm hcheck
  · rw [hl] at hs
    obtain ⟨r, -, -, hkept⟩ := hs.others "echo" "%%(note)s" (by decide) hecho (by decide)
    rw [hbefore] at hkept
    obtain ⟨r', hr', hplain⟩ := Interpolation.made_iff.1 hkept.1
    rw [hafter] at hr'
    cases hr'
    exact hplain (by decide)

/-! ### A password -/

/-- `50%%` is accepted, reads as `50%`, and that cannot be stored. -/
theorem percent_not_saved : ¬ ∀ (text text' : Str) (l l' : ConfigLoader) (c k v : Str), Stored text text' l l' c k v →
    Survives text' l l' c k v := by
  intro hall
  obtain ⟨p, hb⟩ := built_of_build build_example.2
  obtain rfl : exampleConfig = p := Except.ok.inj (read_example.symm.trans hb.read)
  obtain ⟨l, l', hst, hl, hl'⟩ := exists_stored hb.read hb.api hb.reads (c := "aws1") (by decide) "pass" (v := "50%%")
    (by decide)
  obtain ⟨saved, l₂, text₂, hwrite, -⟩ := hall _ _ l l' _ _ _ hst
  obtain ⟨p, i, h⟩ := hst.change
  rw [h.writeChanges_eq] at hwrite
  split at hwrite
  · rename_i p' hm
    obtain ⟨r, hr, haccepts⟩ := (Merged.of_eq h.ordinary hm).accepts "pass"
      (mem_options_of_look (v := "50%%") (by rw [h.look_changed]; exact if_pos (by decide)))
    have hread := (h.get_changed (by decide)).1 hr
    have hpairs := hread.unique (b := "50%") ⟨"50%%", if_pos (by decide), by rfl⟩
    rw [hpairs] at haccepts
    exact absurd haccepts (by decide)
  · cases hwrite

end SavedValue
end Iprotate
