import Iprotate.Base.ConfigText
import Mathlib.Data.List.Count

/-!
# Configurations that were read

Whatever a file contains, the parser it reads as can be written, and writing and reading it once more changes
nothing (`Normal`, `read_normal`). So along a run of reads, stores and writes the text of the file is determined by
one parser (`Normal.read_write`), and storing values free of carriage returns keeps it so (`Writable.put`).
-/

namespace Iprotate
namespace ConfigParser

open Text

/-! ## Values that were read -/

/-- The lines a reader collects for an option: the first may be a comment, the others are not. -/
structure LinesOk (k : Str) (ls : List Str) : Prop where
  strip : ∀ l ∈ ls, strip l = l
  newline : ∀ l ∈ ls, '\n' ∉ l
  cr : ∀ l ∈ ls, '\r' ∉ l
  comment : ∀ l ∈ ls.tail, isComment l = false
  header : ∀ t, k = '[' :: t → ']' ∉ t.drop 1 ∧ ']' ∉ ls.headD []

theorem intercalate_concat (ls : List Str) (l : Str) : ∃ u, ['\n'].intercalate (ls ++ [l]) = u ++ l := by
  induction ls with
  | nil => exact ⟨[], by simp⟩
  | cons m ls ih =>
    obtain ⟨u, hu⟩ := ih
    refine ⟨m ++ '\n' :: u, ?_⟩
    rw [List.cons_append, List.intercalate_cons_of_ne_nil (by simp), hu]
    simp

/-- A value that was read is empty, or is the text of a nonempty beginning of its lines. -/
theorem joinValue_cases {k : Str} {ls : List Str} (h : LinesOk k ls) : joinValue ls = [] ∨
    ∃ ls', ls' <+: ls ∧ (joinValue ls).splitOn '\n' = ls' ∧ joinValue ls' = joinValue ls := by
  induction ls using List.reverseRecOn with
  | nil => exact .inl rfl
  | append_singleton ls l ih =>
    rcases List.eq_nil_or_concat l with rfl | ⟨u, c, hl⟩
    · have h' : LinesOk k ls := by
        refine ⟨fun l hl => h.strip l (by simp [hl]), fun l hl => h.newline l (by simp [hl]),
          fun l hl => h.cr l (by simp [hl]), fun l hl => h.comment l ?_, fun t ht => ?_⟩
        · cases ls with
          | nil => cases hl
          | cons m ls => simpa using .inl hl
        · cases ls with
          | nil => exact ⟨(h.header t ht).1, by simp⟩
          | cons m ls => exact h.header t ht
      rw [joinValue_append_nil]
      rcases ih h' with ih | ⟨ls', hp, hs, hj⟩
      · exact .inl ih
      · exact .inr ⟨ls', hp.trans (List.prefix_append _ _), hs, hj⟩
    · have hsolid : isSpace c = false := by
        have hr := rstrip_strip l
        rw [h.strip l (by simp), hl, List.concat_eq_append] at hr
        by_contra hc
        rw [rstrip, List.rdropWhile_concat_pos _ _ _ (by simpa using hc)] at hr
        have := (List.rdropWhile_prefix isSpace u).length_le
        rw [hr, List.length_append, List.length_singleton] at this
        omega
      obtain ⟨w, hw⟩ := intercalate_concat ls l
      have hj : joinValue (ls ++ [l]) = ['\n'].intercalate (ls ++ [l]) := by
        rw [joinValue, hw, hl, List.concat_eq_append, ← List.append_assoc]
        exact rstrip_append_solid hsolid (w ++ u) []
      exact .inr ⟨ls ++ [l], List.prefix_rfl, by
        rw [hj]
        exact List.splitOn_intercalate '\n' h.newline (by simp), rfl⟩

theorem mem_joinValue {ls : List Str} {c : Char} (h : c ∈ joinValue ls) : c = '\n' ∨ ∃ l ∈ ls, c ∈ l :=
  mem_intercalate (mem_of_mem_rstrip h)

theorem LinesOk.entryOk {k : Str} {ls : List Str} (hk : KeyOk k) (h : LinesOk k ls) : EntryOk k (joinValue ls) where
  key := hk
  cr hm := by
    rcases mem_joinValue hm with hm | ⟨l, hl, hm⟩
    · exact absurd hm (by decide)
    · exact h.cr l hl hm
  header t ht := by
    refine ⟨(h.header t ht).1, ?_⟩
    rcases joinValue_cases h with he | ⟨ls', hp, hs, _⟩
    · simp [he, firstLine]
    · rw [firstLine, hs]
      cases ls' with
      | nil => simp
      | cons l ls' =>
        obtain ⟨u, rfl⟩ := hp
        exact (h.header t ht).2

theorem LinesOk.normValue {k : Str} {ls : List Str} (h : LinesOk k ls) : normValue (joinValue ls) = joinValue ls := by
  rcases joinValue_cases h with he | ⟨ls', hp, hs, hj⟩
  · rw [he]; rfl
  · have hlines : valueLines (joinValue ls) = ls' := by
      rw [valueLines, hs]
      cases ls' with
      | nil => rfl
      | cons l ls' =>
        obtain ⟨u, rfl⟩ := hp
        have htail : ls'.map Text.strip = ls' := by
          conv_rhs => rw [← List.map_id ls']
          exact List.map_congr_left fun m hm => h.strip m (by simp [hm])
        have hfilter : ls'.filter (!isComment ·) = ls' := List.filter_eq_self.2 fun m hm => by
          simp [h.comment m (by simp [hm])]
        simp only [htail, hfilter, h.strip l (by simp)]
    rw [ConfigParser.normValue, hlines, hj]

/-! ## What a reading keeps -/

/-- The options collected for one section. -/
structure LinesDictOk (d : Dict Str (List Str)) : Prop where
  nodup : d.keys.Nodup
  keys : ∀ e ∈ d, KeyOk e.1
  ne_nil : ∀ e ∈ d, e.2 ≠ []
  lines : ∀ e ∈ d, LinesOk e.1 e.2

theorem LinesDictOk.nil : LinesDictOk [] := ⟨List.nodup_nil, by simp, by simp, by simp⟩

theorem LinesDictOk.set {d : Dict Str (List Str)} (h : LinesDictOk d) {k l : Str} (hk : KeyOk k)
    (hl : LinesOk k [l]) : LinesDictOk (d.set k [l]) where
  nodup := Dict.nodup_set h.nodup ..
  keys e he := (Dict.mem_set he).elim (h.keys e) fun h => by rw [h]; exact hk
  ne_nil e he := (Dict.mem_set he).elim (h.ne_nil e) fun h => by rw [h]; simp
  lines e he := (Dict.mem_set he).elim (h.lines e) fun h => by rw [h]; exact hl

theorem LinesOk.append {k : Str} {ls : List Str} (hne : ls ≠ []) (h : LinesOk k ls) {l : Str} (hs : Text.strip l = l)
    (hn : '\n' ∉ l) (hr : '\r' ∉ l) (hc : isComment l = false) : LinesOk k (ls ++ [l]) := by
  have hmem : ∀ m ∈ ls ++ [l], m ∈ ls ∨ m = l := fun m hm => by simpa using hm
  cases ls with
  | nil => exact absurd rfl hne
  | cons m ls =>
    refine ⟨fun x hx => (hmem x hx).elim (h.strip x) (· ▸ hs), fun x hx => (hmem x hx).elim (h.newline x) (· ▸ hn),
      fun x hx => (hmem x hx).elim (h.cr x) (· ▸ hr), fun x hx => ?_, h.header⟩
    simp only [List.cons_append, List.tail_cons, List.mem_append, List.mem_singleton] at hx
    exact hx.elim (h.comment x) (· ▸ hc)

theorem LinesDictOk.append {d : Dict Str (List Str)} (h : LinesDictOk d) (k : Str) {l : Str} (hs : Text.strip l = l)
    (hn : '\n' ∉ l) (hr : '\r' ∉ l) (hc : isComment l = false) : LinesDictOk (d.modify k (· ++ [l])) where
  nodup := by rw [Dict.keys_modify]; exact h.nodup
  keys e he := by
    rcases Dict.mem_modify he with he | ⟨v, hv, rfl⟩
    · exact h.keys e he
    · exact h.keys (k, v) hv
  ne_nil e he := by
    rcases Dict.mem_modify he with he | ⟨v, hv, rfl⟩
    · exact h.ne_nil e he
    · simp
  lines e he := by
    rcases Dict.mem_modify he with he | ⟨v, hv, rfl⟩
    · exact h.lines e he
    · exact (h.lines _ hv).append (h.ne_nil _ hv) hs hn hr hc

namespace Reading

/-- Everything collected so far can be written. -/
structure Ok (r : Reading) : Prop where
  defaults : LinesDictOk r.defaults
  nodup : r.sections.keys.Nodup
  names : ∀ name ∈ r.sections.keys, NameOk name
  items : ∀ e ∈ r.sections, LinesDictOk e.2

theorem Ok.start : Reading.start.Ok := ⟨.nil, List.nodup_nil, by simp [Reading.start], by simp [Reading.start]⟩

theorem Ok.update {r : Reading} (h : r.Ok) {f : Dict Str (List Str) → Dict Str (List Str)}
    (hf : ∀ d, LinesDictOk d → LinesDictOk (f d)) : (r.update f).Ok := by
  obtain ⟨ds, ss, cur, opt, ind, bad⟩ := r
  cases cur with
  | none => exact h
  | some s =>
    by_cases hs : s = defaultSection
    · simp only [Reading.update, hs, if_true]
      exact ⟨hf _ h.defaults, h.nodup, h.names, h.items⟩
    · simp only [Reading.update, hs, if_false]
      refine ⟨h.defaults, by simpa using h.nodup, by simpa using h.names, fun e he => ?_⟩
      rcases Dict.mem_modify he with he | ⟨v, hv, rfl⟩
      · exact h.items e he
      · exact hf _ (h.items _ hv)

theorem Ok.append {r : Reading} (h : r.Ok) {l : Str} (hs : Text.strip l = l) (hn : '\n' ∉ l) (hr : '\r' ∉ l)
    (hc : isComment l = false) : (r.append l).Ok := by
  unfold Reading.append
  split
  · exact h
  · split
    · exact h
    · exact h.update fun d hd => hd.append _ hs hn hr hc

theorem mem_sectionHeader {value name : Str} (h : sectionHeader value = some name) :
    name ≠ [] ∧ ∀ c ∈ name, c ∈ value := by
  cases value with
  | nil => cases h
  | cons c t =>
    simp only [sectionHeader] at h
    split at h
    · split at h
      · cases h
      · rename_i hne
        cases h
        exact ⟨hne, fun c hc => List.mem_cons_of_mem _ ((List.rdropWhile_prefix _ _).subset
          (List.dropLast_subset _ hc))⟩
    · cases h

theorem Ok.enter {r r' : Reading} (h : r.Ok) {value name : Str} (hv : sectionHeader value = some name)
    (hn : '\n' ∉ value) (hr : '\r' ∉ value) (he : r.enter name = .ok r') : r'.Ok := by
  obtain ⟨hne, hmem⟩ := mem_sectionHeader hv
  unfold Reading.enter at he
  split at he
  · cases he
  · rename_i hnew
    split at he
    · cases he
      exact ⟨h.defaults, h.nodup, h.names, h.items⟩
    · rename_i hd
      cases he
      refine ⟨h.defaults, ?_, fun n hn' => ?_, fun e he => ?_⟩
      · simp only [Dict.keys_append, Dict.keys_cons, Dict.keys_nil]
        exact List.nodup_append.2 ⟨h.nodup, List.nodup_singleton _, fun a ha b hb hab => hnew (by
          rw [List.mem_singleton.1 hb] at hab; exact hab ▸ ha)⟩
      · simp only [Dict.keys_append, Dict.keys_cons, Dict.keys_nil, List.mem_append, List.mem_singleton] at hn'
        rcases hn' with hn' | rfl
        · exact h.names n hn'
        · exact ⟨hne, hd, fun hm => hn (hmem _ hm), fun hm => hr (hmem _ hm)⟩
      · rcases List.mem_append.1 he with he | he
        · exact h.items e he
        · rw [List.mem_singleton.1 he]; exact .nil

/-- An option line that is neither a comment nor a header has a key and a value that can be written. -/
theorem splitOption_ok {value name optval : Str} (hs : strip value = value) (hn : '\n' ∉ value) (hr : '\r' ∉ value)
    (hc : isComment value = false) (hh : sectionHeader value = none)
    (h : splitOption value = some (name, optval)) (hne : name ≠ []) :
    KeyOk (optionxform name) ∧ LinesOk (optionxform name) [optval] := by
  set w := value.takeWhile (fun c => !isDelim c) with hw
  unfold splitOption at h
  cases hd : value.dropWhile (fun c => !isDelim c) with
  | nil => rw [hd] at h; cases h
  | cons d after =>
    rw [hd] at h
    simp only [Option.some.injEq, Prod.mk.injEq] at h
    obtain ⟨rfl, rfl⟩ := h
    rw [← hw] at hne ⊢
    have hval : value = w ++ d :: after := by rw [hw, ← hd, List.takeWhile_append_dropWhile]
    have hwv : ∀ c ∈ rstrip w, c ∈ value := fun c hc => by
      rw [hval]; exact List.mem_append_left _ (mem_of_mem_rstrip hc)
    have hav : ∀ c ∈ strip after, c ∈ after := fun c hc => mem_of_mem_strip hc
    obtain ⟨c, t, hct⟩ : ∃ c t, w = c :: t := by
      cases hw' : w with
      | nil => rw [hw'] at hne; exact absurd rfl hne
      | cons c t => exact ⟨c, t, rfl⟩
    have hvc : value = c :: (t ++ d :: after) := by rw [hval, hct]; rfl
    have hsolid : isSpace c = false := strip_head (hs.trans hvc)
    have hname : rstrip w = c :: rstrip t := by rw [hct, rstrip_cons_solid hsolid]
    have hmem : ∀ x, ¬(97 ≤ x.toNat ∧ x.toNat ≤ 122) → x ∈ optionxform (rstrip w) → x ∈ value := fun x hx hm =>
      hwv x (mem_of_mem_lower hx hm)
    refine ⟨⟨?_, ?_, ?_, ?_, ?_, ?_, ?_⟩, ⟨?_, ?_, ?_, ?_, ?_⟩⟩
    · simpa [optionxform, lower_eq_nil] using hne
    · simp [optionxform]
    · rw [optionxform, strip, lstrip_lower, rstrip_lower, hname, lstrip_cons_solid hsolid, ← hname, rstrip_rstrip]
    · intro x hx
      have hdelim : ∀ y ∈ rstrip w, isDelim y = false := fun y hy => by
        have := List.mem_takeWhile_imp (mem_of_mem_rstrip hy)
        simpa using this
      by_contra hx'
      simp only [isDelim, Bool.not_eq_false, Bool.or_eq_true, decide_eq_true_eq] at hx'
      rcases hx' with rfl | rfl
      · exact absurd (hdelim _ (mem_of_mem_lower (by decide) hx)) (by decide)
      · exact absurd (hdelim _ (mem_of_mem_lower (by decide) hx)) (by decide)
    · exact fun hm => hn (hmem _ (by decide) hm)
    · exact fun hm => hr (hmem _ (by decide) hm)
    · rw [hvc] at hc
      rw [optionxform, hname, lower_cons]
      rcases lowerChar_cases c with h | ⟨h, _⟩
      · rw [h]; exact hc
      · simp only [isComment, List.head?_cons, Option.some.injEq, Bool.or_eq_false_iff, decide_eq_false_iff_not]
        exact ⟨fun e => by rw [e] at h; revert h; decide, fun e => by rw [e] at h; revert h; decide⟩
    · intro l hl; rw [List.mem_singleton.1 hl, strip_strip]
    · intro l hl hm
      rw [List.mem_singleton.1 hl] at hm
      exact hn (by rw [hval]; simp [hav _ hm])
    · intro l hl hm
      rw [List.mem_singleton.1 hl] at hm
      exact hr (by rw [hval]; simp [hav _ hm])
    · intro l hl; cases hl
    · intro u hu
      rw [optionxform, hname, lower_cons] at hu
      simp only [List.cons.injEq] at hu
      have hc' : c = '[' := by
        rcases lowerChar_cases c with h | ⟨h, _⟩
        · rw [← h]; exact hu.1
        · rw [hu.1] at h; exact absurd h (by decide)
      rw [hvc, hc', sectionHeader_eq_none] at hh
      constructor
      · intro hm
        rw [← hu.2, lower, ← List.map_drop] at hm
        have := mem_of_mem_lower (c := ']') (by decide) hm
        obtain ⟨u', hu'⟩ : rstrip t <+: t := List.rdropWhile_prefix _ _
        apply hh
        rw [← hu', List.drop_append, List.drop_append]
        exact List.mem_append_left _ (List.mem_append_left _ this)
      · intro hm
        have := hav _ hm
        apply hh
        cases t with
        | nil => simpa using this
        | cons e t => simp [this]

/-- Every line keeps what was collected writable, or is no option. -/
theorem Ok.readLine {r r' : Reading} (h : r.Ok) {line : Str} (hn : '\n' ∉ line) (hr : '\r' ∉ line)
    (he : r.readLine line = .ok r') : r'.bad = true ∨ r'.Ok := by
  have hn' : '\n' ∉ strip line := fun hm => hn (mem_of_mem_strip hm)
  have hr' : '\r' ∉ strip line := fun hm => hr (mem_of_mem_strip hm)
  unfold Reading.readLine at he
  dsimp only at he
  split at he
  · cases he; exact .inr h
  · rename_i hc
    have hc' : isComment (strip line) = false := by simpa using hc
    split at he
    · cases he
      exact .inr (h.append (by simp) (by simp) (by simp) rfl)
    · split at he
      · cases he
        exact .inr (h.append (strip_strip _) hn' hr' hc')
      · split at he
        · rename_i name hname
          exact .inr (Ok.enter (r := { r with indent := (line.takeWhile isSpace).length })
            ⟨h.defaults, h.nodup, h.names, h.items⟩ hname hn' hr' he)
        · rename_i hnone
          split at he
          · cases he
          · unfold Reading.option at he
            split at he
            · cases he; exact .inl rfl
            · rename_i name optval hsplit
              dsimp only at he
              split at he
              · cases he
              · cases he
                by_cases hne : name = []
                · exact .inl (by simp [hne])
                · obtain ⟨hk, hl⟩ := splitOption_ok (strip_strip _) hn' hr' hc' hnone hsplit hne
                  have := Ok.update (r := { r with indent := (line.takeWhile isSpace).length })
                    ⟨h.defaults, h.nodup, h.names, h.items⟩ fun d hd => hd.set hk hl
                  exact .inr ⟨this.defaults, this.nodup, this.names, this.items⟩

/-- A line that is no option is remembered. -/
theorem bad_readLine {r r' : Reading} {line : Str} (he : r.readLine line = .ok r') (hb : r.bad = true) :
    r'.bad = true := by
  unfold Reading.readLine at he
  dsimp only at he
  split at he
  · cases he; exact hb
  · split at he
    · cases he; rw [bad_append]; exact hb
    · split at he
      · cases he; rw [bad_append]; exact hb
      · split at he
        · unfold Reading.enter at he
          split at he
          · cases he
          · split at he <;> (cases he; exact hb)
        · split at he
          · cases he
          · unfold Reading.option at he
            split at he
            · cases he; rfl
            · dsimp only at he
              split at he
              · cases he
              · cases he; simp [hb]

theorem Ok.readLines : ∀ {ls : List Str} {r r' : Reading}, (∀ l ∈ ls, '\n' ∉ l ∧ '\r' ∉ l) →
    r.bad = true ∨ r.Ok → readLines ls r = .ok r' → r'.bad = true ∨ r'.Ok
  | [], r, r', _, h, he => by cases he; exact h
  | l :: ls, r, r', hl, h, he => by
    unfold Reading.readLines at he
    split at he
    · rename_i r₁ h₁
      refine Ok.readLines (fun m hm => hl m (List.mem_cons_of_mem _ hm)) ?_ he
      rcases h with h | h
      · exact .inl (bad_readLine h₁ h)
      · exact h.readLine (hl l List.mem_cons_self).1 (hl l List.mem_cons_self).2 h₁
    · cases he

end Reading

/-- A parser that can be written and comes back unchanged. -/
structure Normal (p : ConfigParser) : Prop where
  writable : Writable p
  fixed : p.norm = p

theorem LinesDictOk.items {d : Dict Str (List Str)} (h : LinesDictOk d) : ItemsOk (d.mapVal joinValue) where
  nodup := by rw [Dict.keys_mapVal]; exact h.nodup
  entries e he := by
    obtain ⟨⟨k, ls⟩, hm, rfl⟩ := List.mem_map.1 he
    exact (h.lines (k, ls) hm).entryOk (h.keys (k, ls) hm)

theorem LinesDictOk.fixed {d : Dict Str (List Str)} (h : LinesDictOk d) :
    (d.mapVal joinValue).mapVal normValue = d.mapVal joinValue := by
  simp only [Dict.mapVal, List.map_map, Function.comp_def]
  exact List.map_congr_left fun e he => by rw [(h.lines e he).normValue]

theorem Reading.Ok.normal {r : Reading} (h : r.Ok) : Normal r.result where
  writable := by
    refine ⟨h.defaults.items, ?_, ?_, fun e he => ?_⟩
    · simpa [result] using h.nodup
    · simpa [result] using h.names
    · obtain ⟨⟨name, d⟩, hm, rfl⟩ := List.mem_map.1 he
      exact (h.items (name, d) hm).items
  fixed := by
    simp only [norm, result, h.defaults.fixed, ConfigParser.mk.injEq, true_and]
    simp only [Dict.mapVal, List.map_map, Function.comp_def]
    refine List.map_congr_left fun e he => ?_
    have := (h.items e he).fixed
    simp only [Dict.mapVal, List.map_map, Function.comp_def] at this
    rw [this]

/-- **A parser that was read can be written, and comes back unchanged.** -/
theorem read_normal {text : Str} {p : ConfigParser} (h : read text = .ok p) : Normal p := by
  unfold read at h
  split at h
  · cases h
  · rename_i r hr
    split at h
    · cases h
    · rename_i hbad
      cases h
      rcases Reading.Ok.readLines (fun l hl => not_mem_of_mem_lines hl) (.inr .start) hr with hb | hok
      · exact absurd hb hbad
      · exact hok.normal

theorem Normal.read_write {p : ConfigParser} (h : Normal p) : read (write p) = .ok p := by
  rw [ConfigParser.read_write h.writable, h.fixed]

/-! ## Storing into a configuration that was read -/

instance (k : Str) : Decidable (KeyOk k) :=
  decidable_of_iff (k ≠ [] ∧ Text.lower k = k ∧ Text.strip k = k ∧ (∀ c ∈ k, isDelim c = false) ∧ '\n' ∉ k ∧ '\r' ∉ k ∧
      isComment k = false)
    ⟨fun ⟨a, b, c, d, e, f, g⟩ => ⟨a, b, c, d, e, f, g⟩, fun ⟨a, b, c, d, e, f, g⟩ => ⟨a, b, c, d, e, f, g⟩⟩

/-- An option whose name does not begin with a bracket can have any value free of carriage returns. -/
theorem EntryOk.of_head {k v : Str} (hk : KeyOk k) (hb : k.head? ≠ some '[') (hv : '\r' ∉ v) : EntryOk k v :=
  ⟨hk, hv, fun t ht => absurd (by simp [ht]) hb⟩

theorem ItemsOk.set {d : Dict Str Str} (h : ItemsOk d) {k v : Str} (he : EntryOk k v) : ItemsOk (d.set k v) :=
  ⟨Dict.nodup_set h.nodup .., fun e hm => (Dict.mem_set hm).elim (h.entries e) fun hm => by rw [hm]; exact he⟩

theorem Writable.put {p : ConfigParser} (h : Writable p) (s : Str) {k v : Str} (he : EntryOk k v) :
    Writable (p.put s k v) where
  defaults := h.defaults
  nodup := by simpa [ConfigParser.put] using h.nodup
  names := by simpa [ConfigParser.put] using h.names
  items e hm := by
    rcases Dict.mem_modify hm with hm | ⟨d, hd, rfl⟩
    · exact h.items e hm
    · exact (h.items _ hd).set he

theorem Writable.addSection {p : ConfigParser} (h : Writable p) {s : Str} (hs : NameOk s) (hn : s ∉ p.sectionNames) :
    Writable (p.addSection s) where
  defaults := h.defaults
  nodup := by
    rw [ConfigParser.addSection, Dict.keys_append]
    refine List.Nodup.append h.nodup (List.nodup_singleton s) ?_
    rintro t ht hts
    rw [List.mem_singleton.1 hts] at ht
    exact hn ht
  names name hname := by
    rw [ConfigParser.addSection, Dict.keys_append] at hname
    rcases List.mem_append.1 hname with hname | hname
    · exact h.names name hname
    · rw [List.mem_singleton.1 hname]
      exact hs
  items e he := by
    rcases List.mem_append.1 he with he | he
    · exact h.items e he
    · rw [List.mem_singleton.1 he]
      exact ⟨List.nodup_nil, fun _ h => (nomatch h)⟩

theorem norm_put (p : ConfigParser) (s k v : Str) : (p.put s k v).norm = p.norm.put s k (normValue v) := by
  have hmod : ∀ ss : Dict Str (Dict Str Str), Dict.mapVal (·.mapVal normValue) (ss.modify s (·.set k v)) =
      (ss.mapVal (·.mapVal normValue)).modify s (·.set k (normValue v)) := by
    intro ss
    induction ss with
    | nil => rfl
    | cons e ss ih =>
      have hset := Dict.mapVal_set normValue e.2 k v
      simp only [Dict.mapVal] at ih hset
      by_cases hs : e.1 = s <;> simp [Dict.mapVal, Dict.modify, hs, ih, hset]
  simp only [norm, put, hmod]

/-- Every value a reader of a section finds can stand under its option. -/
theorem Writable.entryOk {p : ConfigParser} (h : Writable p) {s k v : Str} (hl : p.look s k = some v) :
    EntryOk k v := by
  rcases Option.or_eq_some_iff.1 hl with hraw | ⟨_, hdef⟩
  · obtain ⟨d, hd, hv⟩ := Option.bind_eq_some_iff.1 hraw
    exact (h.items _ (Dict.mem_of_get? hd)).entries _ (Dict.mem_of_get? hv)
  · exact h.defaults.entries _ (Dict.mem_of_get? hdef)

/-- Every option of a section has a value. -/
theorem exists_look_of_mem_options {p : ConfigParser} {s k : Str} (h : k ∈ p.options s) : ∃ v, p.look s k = some v := by
  unfold options at h
  rcases List.mem_append.1 h with h | h
  · cases hd : p.sections.get? s with
    | none => rw [hd] at h; cases h
    | some d =>
      rw [hd] at h
      obtain ⟨v, hv⟩ := Dict.mem_keys_iff.1 h
      exact ⟨v, look_of_raw (Option.bind_eq_some_iff.2 ⟨d, hd, hv⟩)⟩
  · obtain ⟨v, hv⟩ := Dict.mem_keys_iff.1 (List.mem_filter.1 h).1
    unfold look
    cases hraw : p.raw s k with
    | none => exact ⟨v, by simp [hv]⟩
    | some u => exact ⟨u, by simp⟩

theorem mem_options_of_look {p : ConfigParser} {s k v : Str} (h : p.look s k = some v) : k ∈ p.options s := by
  unfold options
  rcases Option.or_eq_some_iff.1 h with hraw | ⟨hraw, hdef⟩
  · obtain ⟨d, hd, hv⟩ := Option.bind_eq_some_iff.1 hraw
    rw [hd]
    exact List.mem_append_left _ (Dict.mem_keys_of_get? hv)
  · by_cases hk : k ∈ ((p.sections.get? s).getD []).keys
    · exact List.mem_append_left _ hk
    · exact List.mem_append_right _ (List.mem_filter.2 ⟨Dict.mem_keys_of_get? hdef, by simpa using hk⟩)

/-- The option names of a parser that can be written are in lower case already. -/
theorem Writable.optionxform_of_mem {p : ConfigParser} (h : Writable p) {s k : Str} (hk : k ∈ p.options s) :
    optionxform k = k := by
  obtain ⟨v, hv⟩ := exists_look_of_mem_options hk
  exact (h.entryOk hv).key.lower

/-- What is read holds no carriage return. -/
theorem Writable.not_mem_get {p : ConfigParser} (h : Writable p) {s k v : Str} (hg : p.get s k = .ok v) : '\r' ∉ v := by
  obtain ⟨_, raw, hl, he⟩ := get_eq_ok.1 hg
  have hlook : ∀ k v, p.look s k = some v → ∀ c ∈ v, c ≠ '\r' := fun k v hv c hc he =>
    (h.entryOk hv).cr (he ▸ hc)
  intro hm
  exact Interpolation.mem_expand hlook _ (hlook _ _ hl) he _ hm rfl

/-! ## Values after a write and a read -/

@[simp] theorem sectionNames_norm (p : ConfigParser) : p.norm.sectionNames = p.sectionNames := Dict.keys_mapVal ..

theorem sections_norm (p : ConfigParser) (s : Str) :
    p.norm.sections.get? s = (p.sections.get? s).map (·.mapVal normValue) := Dict.get?_mapVal ..

theorem raw_norm (p : ConfigParser) (s k : Str) : p.norm.raw s k = (p.raw s k).map normValue := by
  rw [raw, raw, sections_norm]
  cases p.sections.get? s with
  | none => rfl
  | some d => exact Dict.get?_mapVal ..

theorem look_norm (p : ConfigParser) (s k : Str) : p.norm.look s k = (p.look s k).map normValue := by
  rw [look, look, raw_norm, show p.norm.defaults.get? k = (p.defaults.get? k).map normValue from Dict.get?_mapVal ..]
  cases p.raw s k <;> rfl

theorem Writable.normal_norm {p : ConfigParser} (h : Writable p) : Normal p.norm := read_normal (read_write h)

/-- A value of a parser that was read is read again as it is. -/
theorem Normal.normValue_look {p : ConfigParser} (h : Normal p) {s k v : Str} (hv : p.look s k = some v) :
    normValue v = v := by
  have hfixed := look_norm p s k
  rw [h.fixed, hv] at hfixed
  exact (Option.some.inj hfixed).symm

/-- A value of one line without blanks around it comes back as it is. -/
theorem normValue_line {v : Str} (hn : '\n' ∉ v) (hs : strip v = v) : normValue v = v := by
  rw [normValue, valueLines, List.splitOn_eq_singleton hn]
  simp only [List.map_nil, List.filter_nil, joinValue, hs]
  rw [show ['\n'].intercalate [v] = v by simp, ← hs, rstrip_strip]

/-- A value is made of its own characters and newlines when it is read again. -/
theorem mem_normValue {v : Str} {c : Char} (h : c ∈ normValue v) : c = '\n' ∨ c ∈ v := by
  rcases mem_joinValue h with h | ⟨l, hl, hc⟩
  · exact .inl h
  · right
    have hlines : ∀ m ∈ v.splitOn '\n', ∀ x ∈ m, x ∈ v := fun m hm x hx => mem_of_mem_splitOn hm hx
    unfold valueLines at hl
    cases hv : v.splitOn '\n' with
    | nil => rw [hv] at hl; cases hl
    | cons m ms =>
      rw [hv] at hl hlines
      rcases List.mem_cons.1 hl with rfl | hl
      · exact hlines m List.mem_cons_self c (mem_of_mem_strip hc)
      · obtain ⟨m', hm', rfl⟩ := List.mem_map.1 (List.mem_of_mem_filter hl)
        exact hlines m' (List.mem_cons_of_mem _ hm') c (mem_of_mem_strip hc)

theorem firstLine_eq (v : Str) : firstLine v = v.takeWhile (· != '\n') := by
  unfold firstLine
  induction v with
  | nil => rfl
  | cons c v ih =>
    rw [List.splitOn_cons_eq_if_modifyHead]
    by_cases hc : c = '\n'
    · simp [hc]
    · cases hv : v.splitOn '\n' with
      | nil => exact absurd hv (List.splitOn_ne_nil _ _)
      | cons l ls =>
        rw [hv] at ih
        simp only [List.headD_cons] at ih
        simp [hc, ih]

/-- What stands in the first line of a value, blanks aside, still does when the value is read again. -/
theorem mem_firstLine_normValue {v : Str} {c : Char} (hc : isSpace c = false) (h : c ∈ firstLine v) :
    c ∈ firstLine (normValue v) := by
  have hv := List.splitOn_ne_nil '\n' v
  rw [firstLine] at h
  unfold normValue valueLines
  have hlines : ∀ l ∈ v.splitOn '\n', '\n' ∉ l := fun l hl => not_mem_of_mem_splitOn hl
  cases hsplit : v.splitOn '\n' with
  | nil => exact absurd hsplit hv
  | cons l ls =>
    rw [hsplit] at h hlines
    simp only [List.headD_cons] at h
    dsimp only
    generalize (ls.map strip).filter (!isComment ·) = rest
    -- the character stays in the line, and whatever is stripped off the end comes after it
    obtain ⟨a, b, hab⟩ := List.append_of_mem (mem_strip hc h)
    have hna : ∀ x ∈ a, (x != '\n') = true := fun x hx => by
      have hmem : x ∈ strip l := by rw [hab]; exact List.mem_append_left _ hx
      have hne : x ≠ '\n' := fun he => hlines l List.mem_cons_self (he ▸ mem_of_mem_strip hmem)
      simpa using hne
    have hcn : (c != '\n') = true := by
      have hne : c ≠ '\n' := fun he => by rw [he] at hc; revert hc; decide
      simpa using hne
    obtain ⟨t, ht⟩ : ∃ t, ['\n'].intercalate (strip l :: rest) = a ++ c :: t := by
      cases rest with
      | nil => exact ⟨b, by rw [List.intercalate_singleton, hab]⟩
      | cons m ms =>
        refine ⟨b ++ ['\n'] ++ ['\n'].intercalate (m :: ms), ?_⟩
        rw [List.intercalate_cons_cons, hab]
        simp
    rw [joinValue, ht, rstrip_append_solid hc, firstLine_eq, List.takeWhile_append_of_pos hna, List.takeWhile_cons,
      if_pos hcn]
    exact List.mem_append_right _ List.mem_cons_self

theorem count_intercalate {c : Char} (hc : c ≠ '\n') : ∀ ls : List Str,
    (['\n'].intercalate ls).count c = ls.flatten.count c
  | [] => rfl
  | [l] => by simp
  | l :: m :: ls => by
    have ih := count_intercalate hc (m :: ls)
    have hline : (['\n'] : Str).count c = 0 := List.count_eq_zero_of_not_mem fun h => hc (List.mem_singleton.1 h)
    rw [List.intercalate_cons_cons, List.count_append, List.count_append, ih, hline, Nat.add_zero]
    exact List.count_append.symm

/-- No character but a newline is more often in a value when it is read again. -/
theorem count_normValue_le {c : Char} (hc : c ≠ '\n') (v : Str) : (normValue v).count c ≤ v.count c := by
  have hstrip : ∀ l : Str, (strip l).count c ≤ l.count c := fun l =>
    ((List.rdropWhile_prefix _ _).sublist.trans (List.dropWhile_sublist _)).count_le c
  have hlines : ∀ ls : List Str, ((ls.map strip).filter (!isComment ·)).flatten.count c ≤ ls.flatten.count c := by
    intro ls
    induction ls with
    | nil => exact Nat.le_refl _
    | cons l ls ih =>
      have hl := hstrip l
      rw [List.map_cons, List.filter_cons, List.flatten_cons, List.count_append]
      split
      · rw [List.flatten_cons, List.count_append]
        omega
      · omega
  have hsplit : v.count c = (v.splitOn '\n').flatten.count c := by
    rw [← count_intercalate hc, List.intercalate_splitOn]
  have hrstrip : (normValue v).count c ≤ (valueLines v).flatten.count c := by
    rw [← count_intercalate hc]
    exact (List.rdropWhile_prefix _ _).sublist.count_le c
  rw [hsplit]
  refine hrstrip.trans ?_
  unfold valueLines
  cases v.splitOn '\n' with
  | nil => exact Nat.le_refl _
  | cons l ls =>
    have hl := hstrip l
    have hrest := hlines ls
    rw [List.flatten_cons, List.flatten_cons, List.count_append, List.count_append]
    omega

/-- Storing a value of one line keeps a parser normal. -/
theorem Normal.put {p : ConfigParser} (h : Normal p) (s : Str) {k v : Str} (hk : KeyOk k) (hb : k.head? ≠ some '[')
    (hr : '\r' ∉ v) (hn : '\n' ∉ v) (hs : strip v = v) : Normal (p.put s k v) where
  writable := h.writable.put s (.of_head hk hb hr)
  fixed := by rw [norm_put, h.fixed, normValue_line hn hs]

end ConfigParser
end Iprotate
