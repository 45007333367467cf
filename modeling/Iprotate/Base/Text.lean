import Mathlib.Data.List.DropRight

/-!
# Python strings

Strings are lists of characters. This file has the string operations of Python's standard library that the
developments above it use, as far as they use them:

- `strip`, `lstrip` and `rstrip` with the white space of `str.isspace` (`isSpace`);
- `lower` (`str.lower`), exact on ASCII and on everything that is compared with an ASCII name (`lowerChar`);
- `lines`, the lines of a text file read with universal newlines, and `unlines`, what writing lines produces
  (`lines_unlines`).
-/

namespace Iprotate

/-- A Python string. -/
abbrev Str := List Char

instance : Coe String Str := ⟨String.toList⟩

/-- A literal as its characters. The kernel decodes a literal in time quadratic in its length, so an evaluation first
rewrites with this; the hypothesis is `rfl`. -/
theorem toList_of_eq {s : String} {l : Str} (h : s = String.ofList l) : s.toList = l := by rw [h, String.toList_ofList]

/-- A statement about the characters of a string is decided on the string, not on all characters there are. -/
instance (s : Str) (p : Char → Prop) [DecidablePred p] : Decidable (∀ c ∈ s, p c) := List.decidableBAll p s

instance (s : Str) (p : Char → Prop) [DecidablePred p] : Decidable (∃ c ∈ s, p c) := List.decidableBEx p s

instance (s : Str) (l : List Str) : Decidable (s ∈ l) := inferInstance

namespace Text

/-! ## White space -/

/-- `str.isspace` for one character. -/
def isSpace (c : Char) : Bool :=
  let n := c.toNat
  (9 ≤ n && n ≤ 13) || (28 ≤ n && n ≤ 32) || n == 0x85 || n == 0xA0 || n == 0x1680 ||
    (0x2000 ≤ n && n ≤ 0x200A) || n == 0x2028 || n == 0x2029 || n == 0x202F || n == 0x205F || n == 0x3000

/-- `str.lstrip()`. -/
def lstrip (s : Str) : Str := s.dropWhile isSpace

/-- `str.rstrip()`. -/
def rstrip (s : Str) : Str := s.rdropWhile isSpace

/-- `str.strip()`. -/
def strip (s : Str) : Str := rstrip (lstrip s)

@[simp] theorem lstrip_nil : lstrip [] = [] := rfl

@[simp] theorem rstrip_nil : rstrip [] = [] := rfl

@[simp] theorem strip_nil : strip [] = [] := rfl

theorem lstrip_cons_space {c : Char} (h : isSpace c = true) (s : Str) : lstrip (c :: s) = lstrip s := by
  simp [lstrip, h]

theorem lstrip_cons_solid {c : Char} (h : isSpace c = false) (s : Str) : lstrip (c :: s) = c :: s := by
  simp [lstrip, h]

/-- Dropping from the end stops at the last character that is to stay. -/
theorem rdropWhile_append_stop {p : Char → Bool} {x : Char} (h : p x = false) (a b : Str) :
    (a ++ x :: b).rdropWhile p = a ++ x :: b.rdropWhile p := by
  induction b using List.reverseRecOn with
  | nil => rw [List.rdropWhile_concat_neg _ _ _ (by simp [h])]; rfl
  | append_singleton b d ih =>
    have he : a ++ x :: (b ++ [d]) = (a ++ x :: b) ++ [d] := by simp
    by_cases hd : p d = true
    · rw [he, List.rdropWhile_concat_pos _ _ _ hd, List.rdropWhile_concat_pos _ _ _ hd, ih]
    · rw [he, List.rdropWhile_concat_neg _ _ _ hd, List.rdropWhile_concat_neg _ _ _ hd]
      simp

/-- Stripping stops at the last character that is not a space. -/
theorem rstrip_append_solid {c : Char} (h : isSpace c = false) (a b : Str) :
    rstrip (a ++ c :: b) = a ++ c :: rstrip b := rdropWhile_append_stop h a b

theorem rstrip_cons_solid {c : Char} (h : isSpace c = false) (b : Str) : rstrip (c :: b) = c :: rstrip b :=
  rstrip_append_solid h [] b

@[simp] theorem rstrip_rstrip (s : Str) : rstrip (rstrip s) = rstrip s := List.rdropWhile_idempotent _ _

@[simp] theorem lstrip_lstrip (s : Str) : lstrip (lstrip s) = lstrip s := List.dropWhile_idempotent _ _

/-- A string is blank, or has a first character that is not a space. -/
theorem lstrip_cases (s : Str) : lstrip s = [] ∨ ∃ c t, lstrip s = c :: t ∧ isSpace c = false := by
  induction s with
  | nil => exact .inl rfl
  | cons c s ih =>
    cases h : isSpace c with
    | true => rw [lstrip_cons_space h]; exact ih
    | false => exact .inr ⟨c, s, lstrip_cons_solid h s, h⟩

/-- The two strips commute. -/
theorem lstrip_rstrip (s : Str) : lstrip (rstrip s) = rstrip (lstrip s) := by
  induction s with
  | nil => rfl
  | cons c s ih =>
    cases h : isSpace c with
    | false => rw [rstrip_cons_solid h, lstrip_cons_solid h, lstrip_cons_solid h, rstrip_cons_solid h]
    | true =>
      rw [lstrip_cons_space h, ← ih]
      rcases List.eq_nil_or_concat (rstrip s) with hs | ⟨t, d, hs⟩
      · -- nothing but spaces follows
        have hall : ∀ x ∈ s, isSpace x = true := List.rdropWhile_eq_nil_iff.1 hs
        have : rstrip (c :: s) = [] := List.rdropWhile_eq_nil_iff.2 (by
          intro x hx
          rcases List.mem_cons.1 hx with rfl | hx
          · exact h
          · exact hall x hx)
        rw [this, hs]
      · obtain ⟨u, hu⟩ : rstrip s <+: s := List.rdropWhile_prefix _ _
        have hd : isSpace d = false := by
          have hne : s.rdropWhile isSpace ≠ [] := by
            intro h0
            have h1 : rstrip s = [] := h0
            rw [h1] at hs
            simp at hs
          have := List.rdropWhile_last_not isSpace s hne
          have hlast : (s.rdropWhile isSpace).getLast hne = d := by
            have h1 : s.rdropWhile isSpace = t ++ [d] := by rw [← List.concat_eq_append]; exact hs
            simp [h1]
          rw [hlast] at this
          simpa using this
        have hs' : s = t ++ d :: u := by rw [← hu, hs]; simp
        have hrs : rstrip s = t ++ d :: rstrip u := by rw [hs', rstrip_append_solid hd]
        have hrc : rstrip (c :: s) = c :: (t ++ d :: rstrip u) := by
          rw [hs', ← List.cons_append, rstrip_append_solid hd]; rfl
        rw [hrc, lstrip_cons_space h, hrs]

theorem strip_eq (s : Str) : strip s = lstrip (rstrip s) := (lstrip_rstrip s).symm

@[simp] theorem rstrip_strip (s : Str) : rstrip (strip s) = strip s := rstrip_rstrip _

@[simp] theorem lstrip_strip (s : Str) : lstrip (strip s) = strip s := by rw [strip_eq, lstrip_lstrip]

@[simp] theorem strip_strip (s : Str) : strip (strip s) = strip s := by rw [strip, lstrip_strip, rstrip_strip]

@[simp] theorem strip_rstrip (s : Str) : strip (rstrip s) = strip s := by rw [strip_eq, rstrip_rstrip, strip_eq]

@[simp] theorem strip_lstrip (s : Str) : strip (lstrip s) = strip s := by rw [strip, lstrip_lstrip, strip]

theorem strip_cons_space {c : Char} (h : isSpace c = true) (s : Str) : strip (c :: s) = strip s := by
  rw [strip, lstrip_cons_space h, strip]

theorem mem_of_mem_rstrip {c : Char} {s : Str} (h : c ∈ rstrip s) : c ∈ s := (List.rdropWhile_prefix _ _).subset h

theorem mem_of_mem_lstrip {c : Char} {s : Str} (h : c ∈ lstrip s) : c ∈ s := (List.dropWhile_suffix _).subset h

theorem mem_of_mem_strip {c : Char} {s : Str} (h : c ∈ strip s) : c ∈ s := mem_of_mem_lstrip (mem_of_mem_rstrip h)

/-- Stripping takes no solid character away. -/
theorem mem_strip {c : Char} (hc : isSpace c = false) {s : Str} (h : c ∈ s) : c ∈ strip s := by
  obtain ⟨a, b, rfl⟩ := List.append_of_mem h
  rw [strip_eq, rstrip_append_solid hc, lstrip]
  have hl : c ∈ a.dropWhile isSpace ++ c :: rstrip b := List.mem_append_right _ List.mem_cons_self
  by_cases ha : ∀ x ∈ a, isSpace x = true
  · rw [List.dropWhile_append_of_pos ha, List.dropWhile_cons, if_neg (by simp [hc])]
    exact List.mem_cons_self
  · rw [List.dropWhile_append, if_neg (by simpa [List.isEmpty_iff, List.dropWhile_eq_nil_iff] using ha)]
    exact hl

/-- A stripped string that is not empty begins with a character that is not a space. -/
theorem strip_head {s : Str} {c : Char} {t : Str} (h : strip s = c :: t) : isSpace c = false := by
  rcases lstrip_cases (strip s) with h' | ⟨d, u, h', hd⟩
  · rw [lstrip_strip, h] at h'; cases h'
  · rw [lstrip_strip, h] at h'
    cases h'
    exact hd

/-- A text without white space. -/
theorem strip_solid {s : Str} (h : ∀ c ∈ s, isSpace c = false) : strip s = s := by
  have hl : lstrip s = s := List.dropWhile_eq_self_iff.2 fun hl => by simp [h _ (List.getElem_mem hl)]
  rw [strip, hl]
  exact List.rdropWhile_eq_self_iff.2 fun hl => by simp [h _ (List.getLast_mem hl)]

theorem not_isSpace_of_isDigit {c : Char} (h : c.isDigit = true) : isSpace c = false := by
  have hn : 48 ≤ c.toNat ∧ c.toNat ≤ 57 := by
    simpa [Char.isDigit, UInt32.le_iff_toNat_le] using h
  simp only [isSpace, Bool.or_eq_false_iff, Bool.and_eq_false_iff, decide_eq_false_iff_not, beq_eq_false_iff_ne]
  omega

theorem not_isSpace_of_isAlphanum {c : Char} (h : c.isAlphanum = true) : isSpace c = false := by
  have hn : (65 ≤ c.toNat ∧ c.toNat ≤ 90 ∨ 97 ≤ c.toNat ∧ c.toNat ≤ 122) ∨ 48 ≤ c.toNat ∧ c.toNat ≤ 57 := by
    have hclass : ((decide (c.val ≥ 65 ∧ c.val ≤ 90) || c.val ≥ 97 && c.val ≤ 122) ||
        c.val ≥ 48 && c.val ≤ 57) = true := h
    simpa [UInt32.le_iff_toNat_le] using hclass
  simp only [isSpace, Bool.or_eq_false_iff, Bool.and_eq_false_iff, decide_eq_false_iff_not, beq_eq_false_iff_ne]
  omega

/-! ## Lower case -/

/-- `str.lower` for one character. Besides the ASCII letters only the Kelvin sign has a lower case that is an
ASCII character; every other character is left alone, which cannot make it equal to an ASCII name. This is the limit of
the model: names that differ in the case of a letter outside ASCII are one name for Python and different ones here. -/
def lowerChar (c : Char) : Char := if c = '\u212A' then 'k' else c.toLower

/-- `str.lower()`. -/
def lower (s : Str) : Str := s.map lowerChar

/-- `toLower` moves the upper-case ASCII letters and nothing else. -/
theorem toLower_cases (c : Char) : c.toLower = c ∧ ¬(65 ≤ c.toNat ∧ c.toNat ≤ 90) ∨
    (65 ≤ c.toNat ∧ c.toNat ≤ 90) ∧ c.toLower.toNat = c.toNat + 32 := by
  unfold Char.toLower
  have hA : 'A'.val.toNat = 65 := rfl
  have hZ : 'Z'.val.toNat = 90 := rfl
  split
  · rename_i h
    simp only [ge_iff_le, UInt32.le_iff_toNat_le, hA, hZ] at h
    refine .inr ⟨h, ?_⟩
    show (c.val + ('a'.val - 'A'.val)).toNat = c.val.toNat + 32
    rw [UInt32.toNat_add]
    have h32 : ('a'.val - 'A'.val).toNat = 32 := rfl
    rw [h32]
    omega
  · rename_i h
    simp only [ge_iff_le, UInt32.le_iff_toNat_le, hA, hZ] at h
    exact .inl ⟨rfl, h⟩

/-- Lowering a character leaves it alone, or turns an upper-case letter into a lower-case ASCII letter. -/
theorem lowerChar_cases (c : Char) : lowerChar c = c ∨
    (97 ≤ (lowerChar c).toNat ∧ (lowerChar c).toNat ≤ 122) ∧ (65 ≤ c.toNat ∧ c.toNat ≤ 90 ∨ c.toNat = 0x212A) := by
  unfold lowerChar
  split
  · rename_i h
    subst h
    exact .inr ⟨by decide, .inr (by decide)⟩
  · rcases toLower_cases c with ⟨h, _⟩ | ⟨h, h'⟩
    · exact .inl h
    · exact .inr ⟨by omega, .inl h⟩

theorem lowerChar_of_lower {c : Char} (h : 97 ≤ c.toNat ∧ c.toNat ≤ 122) : lowerChar c = c := by
  rcases lowerChar_cases c with h' | ⟨_, h'⟩
  · exact h'
  · omega

@[simp] theorem lowerChar_lowerChar (c : Char) : lowerChar (lowerChar c) = lowerChar c := by
  rcases lowerChar_cases c with h | ⟨h, _⟩
  · rw [h, h]
  · exact lowerChar_of_lower h

@[simp] theorem lower_lower (s : Str) : lower (lower s) = lower s := by simp [lower, Function.comp_def]

@[simp] theorem isSpace_lowerChar (c : Char) : isSpace (lowerChar c) = isSpace c := by
  rcases lowerChar_cases c with h | ⟨h, h'⟩
  · rw [h]
  · -- neither a lower-case ASCII letter nor a letter that has one is a space
    have h1 : isSpace (lowerChar c) = false := by simp [isSpace]; omega
    have h2 : isSpace c = false := by simp [isSpace]; omega
    rw [h1, h2]

/-- A character that is no lower-case ASCII letter is in a lowered string only if it was there before. -/
theorem mem_of_mem_lower {c : Char} (hc : ¬(97 ≤ c.toNat ∧ c.toNat ≤ 122)) {s : Str} (h : c ∈ lower s) : c ∈ s := by
  obtain ⟨d, hd, rfl⟩ := List.mem_map.1 h
  rcases lowerChar_cases d with h' | ⟨h', _⟩
  · rwa [h']
  · exact absurd h' hc

theorem lower_eq_nil {s : Str} : lower s = [] ↔ s = [] := List.map_eq_nil_iff

theorem lower_cons (c : Char) (s : Str) : lower (c :: s) = lowerChar c :: lower s := rfl

theorem lstrip_lower (s : Str) : lstrip (lower s) = lower (lstrip s) := by
  induction s with
  | nil => rfl
  | cons c s ih =>
    rw [lower_cons]
    cases h : isSpace c with
    | true => rw [lstrip_cons_space (by simpa using h), lstrip_cons_space h, ih]
    | false => rw [lstrip_cons_solid (by simpa using h), lstrip_cons_solid h]; rfl

theorem rstrip_lower (s : Str) : rstrip (lower s) = lower (rstrip s) := by
  have h := lstrip_lower s.reverse
  have hr : (lower s).reverse = lower s.reverse := by simp [lower]
  have hl : rstrip (lower s) = (lstrip (lower s).reverse).reverse := rfl
  rw [hl, hr, h]
  simp [lower, rstrip, lstrip, List.rdropWhile]

/-! ## Lines -/

/-- Universal newlines: a carriage return, alone or before a line feed, reads as a line feed. The flag says that the
character before was a carriage return. -/
def universalNewlines : Bool → Str → Str
  | _, [] => []
  | cr, c :: s =>
    if c = '\r' then '\n' :: universalNewlines true s
    else if cr && c = '\n' then universalNewlines false s
    else c :: universalNewlines false s

/-- The lines of a text file, without their line ends; text after the last line end is a line too. -/
def lines (s : Str) : List Str :=
  let pieces := (universalNewlines false s).splitOn '\n'
  if pieces.getLast? = some [] then pieces.dropLast else pieces

/-- The text of a list of lines, each with its line end. -/
def unlines (ls : List Str) : Str := ls.flatMap fun l => l ++ ['\n']

theorem universalNewlines_eq_self {s : Str} (h : '\r' ∉ s) : ∀ cr, cr = false → universalNewlines cr s = s := by
  rintro _ rfl
  induction s with
  | nil => rfl
  | cons c s ih =>
    simp only [List.mem_cons, not_or] at h
    simp [universalNewlines, Ne.symm h.1, ih h.2]

theorem cr_not_mem_universalNewlines (s : Str) : ∀ cr, '\r' ∉ universalNewlines cr s := by
  induction s with
  | nil => intro cr; simp [universalNewlines]
  | cons c s ih =>
    intro cr
    unfold universalNewlines
    split
    · simpa using ih true
    · rename_i hc
      split
      · exact ih false
      · simpa [Ne.symm hc] using ih false

/-- No piece of a split has the separator in it. -/
theorem not_mem_of_mem_splitOn {c : Char} {s l : Str} (h : l ∈ s.splitOn c) : c ∉ l := by
  induction s generalizing l with
  | nil => rw [List.splitOn_nil, List.mem_singleton] at h; simp [h]
  | cons d s ih =>
    rw [List.splitOn_cons_eq_if_modifyHead] at h
    split at h
    · rcases List.mem_cons.1 h with h | h
      · simp [h]
      · exact ih h
    · rename_i hd
      cases hs : s.splitOn c with
      | nil => exact absurd hs (List.splitOn_ne_nil _ _)
      | cons p ps =>
        rw [hs] at h
        simp only [List.modifyHead_cons, List.mem_cons] at h
        rcases h with rfl | h
        · have hp : c ∉ p := ih (by simp [hs])
          have hcd : ¬c = d := fun hcd => hd (by simp [hcd])
          simp [hcd, hp]
        · exact ih (by simp [hs, h])

theorem mem_of_mem_splitOn {c d : Char} {s l : Str} (h : l ∈ s.splitOn c) (hd : d ∈ l) : d ∈ s := by
  induction s generalizing l with
  | nil =>
    rw [List.splitOn_nil, List.mem_singleton] at h
    rw [h] at hd; cases hd
  | cons e s ih =>
    rw [List.splitOn_cons_eq_if_modifyHead] at h
    split at h
    · rcases List.mem_cons.1 h with h | h
      · rw [h] at hd; cases hd
      · exact List.mem_cons_of_mem _ (ih h hd)
    · cases hs : s.splitOn c with
      | nil => exact absurd hs (List.splitOn_ne_nil _ _)
      | cons p ps =>
        rw [hs] at h
        simp only [List.modifyHead_cons, List.mem_cons] at h
        rcases h with rfl | h
        · rcases List.mem_cons.1 hd with rfl | hd
          · exact List.mem_cons_self
          · exact List.mem_cons_of_mem _ (ih (by simp [hs]) hd)
        · exact List.mem_cons_of_mem _ (ih (by simp [hs, h]) hd)

theorem mem_intercalate {c d : Char} : ∀ {ls : List Str}, d ∈ [c].intercalate ls → d = c ∨ ∃ l ∈ ls, d ∈ l
  | [], h => by simp at h
  | [l], h => by rw [List.intercalate_singleton] at h; exact .inr ⟨l, by simp, h⟩
  | l :: l' :: ls, h => by
    rw [List.intercalate_cons_cons] at h
    simp only [List.append_assoc, List.mem_append, List.mem_singleton] at h
    rcases h with h | h | h
    · exact .inr ⟨l, by simp, h⟩
    · exact .inl h
    · rcases mem_intercalate h with h | ⟨m, hm, h⟩
      · exact .inl h
      · exact .inr ⟨m, List.mem_cons_of_mem _ hm, h⟩

theorem unlines_eq_intercalate : ∀ ls : List Str, unlines ls = ['\n'].intercalate (ls ++ [[]])
  | [] => rfl
  | l :: ls => by
    have ih := unlines_eq_intercalate ls
    rw [List.cons_append, List.intercalate_cons_of_ne_nil (by simp), ← ih]
    simp [unlines]

/-- **Lines that were written are read back.** -/
theorem lines_unlines {ls : List Str} (h : ∀ l ∈ ls, '\n' ∉ l ∧ '\r' ∉ l) : lines (unlines ls) = ls := by
  have hcr : '\r' ∉ unlines ls := by
    intro hm
    obtain ⟨l, hl, hm⟩ := List.mem_flatMap.1 hm
    rcases List.mem_append.1 hm with hm | hm
    · exact (h l hl).2 hm
    · simp at hm
  have hsplit : (unlines ls).splitOn '\n' = ls ++ [[]] := by
    rw [unlines_eq_intercalate]
    apply List.splitOn_intercalate
    · intro l hl
      rcases List.mem_append.1 hl with hl | hl
      · exact (h l hl).1
      · rw [List.mem_singleton.1 hl]; simp
    · simp
  simp [lines, universalNewlines_eq_self hcr false rfl, hsplit]

/-- A line that was read has no line end in it. -/
theorem not_mem_of_mem_lines {s l : Str} (h : l ∈ lines s) : '\n' ∉ l ∧ '\r' ∉ l := by
  have hl : l ∈ (universalNewlines false s).splitOn '\n' := by
    simp only [lines] at h
    split at h
    · exact List.dropLast_subset _ h
    · exact h
  exact ⟨not_mem_of_mem_splitOn hl, fun hcr => cr_not_mem_universalNewlines s false (mem_of_mem_splitOn hl hcr)⟩

@[simp] theorem unlines_append (ls ls' : List Str) : unlines (ls ++ ls') = unlines ls ++ unlines ls' :=
  List.flatMap_append

end Text

end Iprotate
