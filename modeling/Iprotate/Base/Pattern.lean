import Iprotate.Base.Text
import Mathlib.Data.List.Infix

/-!
# Simple patterns

Regular expressions in which the full stop stands for any character and every other character for itself, as `grep` and
`pkill -f` read a pattern without other special characters.

- A pattern in two parts matches a text in two parts (`here_append`), and one without full stops is a prefix
  (`here_literal`).
- `selects_after`: where a pattern can match that has as many of a character as the line, this character being in
  neither part before its first occurrence.
-/

namespace Iprotate
namespace Pattern

variable {p q s t : Str}

/-- The pattern matches at the beginning of the text. -/
def here : Str → Str → Bool
  | [], _ => true
  | _ :: _, [] => false
  | x :: p, c :: s => (x = '.' || x = c) && here p s

/-- The pattern matches somewhere in the line. -/
def selects (p line : Str) : Bool := line.tails.any (here p)

theorem here_append : ∀ {p s : Str}, here (p ++ q) s = true ↔
    ∃ a t, s = a ++ t ∧ a.length = p.length ∧ here p a = true ∧ here q t = true
  | [], s => ⟨fun h => ⟨[], s, rfl, rfl, rfl, h⟩, fun ⟨a, t, hs, ha, _, h⟩ => by
      rw [List.length_eq_zero_iff.1 ha] at hs
      exact hs ▸ h⟩
  | _ :: _, [] => ⟨fun h => (by cases h), fun ⟨a, t, hs, ha, _, _⟩ => by
      rw [(List.append_eq_nil_iff.1 hs.symm).1] at ha
      cases ha⟩
  | x :: p, c :: s => by
    show ((x = '.' || x = c) && here (p ++ q) s) = true ↔ _
    rw [Bool.and_eq_true, here_append]
    constructor
    · rintro ⟨hx, a, t, rfl, hlen, ha, ht⟩
      exact ⟨c :: a, t, rfl, congrArg (· + 1) hlen, by rw [here, hx, ha]; rfl, ht⟩
    · rintro ⟨a, t, hs, hlen, ha, ht⟩
      cases a with
      | nil => cases hlen
      | cons d a =>
        cases hs
        rw [here, Bool.and_eq_true] at ha
        exact ⟨ha.1, a, t, rfl, Nat.succ.inj hlen, ha.2, ht⟩

theorem here_literal : ∀ {p s : Str}, '.' ∉ p → (here p s = true ↔ p <+: s)
  | [], _, _ => ⟨fun _ => List.nil_prefix, fun _ => rfl⟩
  | _ :: _, [], _ => ⟨fun h => (by cases h), fun h => by cases List.prefix_nil.1 h⟩
  | x :: p, c :: s, h => by
    have hx : x ≠ '.' := fun hx => h (hx ▸ List.mem_cons_self)
    rw [here, List.cons_prefix_cons, ← here_literal fun hp => h (List.mem_cons_of_mem _ hp)]
    simp [hx]

theorem here_self : ∀ s t : Str, here s (s ++ t) = true
  | [], _ => rfl
  | c :: s, t => by
    show ((c = '.' || c = c) && here s (s ++ t)) = true
    rw [here_self s t]
    simp

/-- After the same text the rest must match. -/
theorem here_cancel (h : here (p ++ q) (p ++ s) = true) : here q s = true := by
  obtain ⟨a, t, hs, hlen, -, ht⟩ := here_append.1 h
  rwa [(List.append_inj hs hlen.symm).2]

/-- What is matched has every character that the pattern has, as often. -/
theorem count_le {x : Char} (hx : x ≠ '.') : ∀ {p s : Str}, here p s = true → p.count x ≤ s.count x
  | [], _, _ => Nat.zero_le _
  | _ :: _, [], h => by cases h
  | y :: p, c :: s, h => by
    rw [here, Bool.and_eq_true] at h
    have hle := count_le hx h.2
    rw [List.count_cons, List.count_cons]
    have hhead : (if y == x then 1 else 0) ≤ if c == x then 1 else 0 := by
      by_cases hy : y = x
      · subst hy
        obtain rfl : y = c := by simpa [hx] using h.1
        exact Nat.le_refl _
      · simp [hy]
    omega

theorem selects_iff {line : Str} : selects p line = true ↔ ∃ a t, line = a ++ t ∧ here p t = true := by
  rw [selects, List.any_eq_true]
  constructor
  · rintro ⟨t, ht, h⟩
    obtain ⟨a, rfl⟩ := (List.mem_tails _ _).1 ht
    exact ⟨a, t, rfl, h⟩
  · rintro ⟨a, t, rfl, h⟩
    exact ⟨t, (List.mem_tails _ _).2 (List.suffix_append a t), h⟩

theorem selects_self (s : Str) : selects s s = true :=
  selects_iff.2 ⟨[], s, rfl, by simpa using here_self s []⟩

/-- Two texts with the same first part before a character. -/
theorem cons_inj {x : Char} {a b : Str} (ha : x ∉ a) (hb : x ∉ b) (h : a ++ x :: s = b ++ x :: t) : a = b ∧ s = t := by
  have hsplit := congrArg (List.splitOn x) h
  rw [List.splitOn_append_cons_self_of_not_mem ha, List.splitOn_append_cons_self_of_not_mem hb] at hsplit
  obtain rfl := (List.cons.inj hsplit).1
  exact ⟨rfl, (List.cons.inj (List.append_cancel_left h)).2⟩

/-- The pattern has the character as often as the line, so the first occurrences of the two meet. -/
theorem selects_after {x : Char} {a b : Str} (hx : x ≠ '.') (ha : x ∉ a) (hdot : '.' ∉ a) (hb : x ∉ b)
    (hcount : t.count x ≤ s.count x) (h : selects (a ++ x :: s) (b ++ x :: t) = true) :
    a <:+ b ∧ here s t = true := by
  obtain ⟨pre, u, hline, hhere⟩ := selects_iff.1 h
  obtain ⟨a', v, rfl, hlen, ha', hv⟩ := here_append.1 hhere
  obtain rfl : a = a' := ((here_literal hdot).1 ha').eq_of_length hlen.symm
  cases v with
  | nil => cases hv
  | cons c v =>
    rw [here, Bool.and_eq_true] at hv
    obtain rfl : x = c := by simpa [hx] using hv.1
    -- no occurrence is left for what comes before
    have hle := count_le hx hv.2
    have htotal := congrArg (List.count x) hline
    simp only [List.count_append, List.count_cons_self, List.count_eq_zero.2 ha, List.count_eq_zero.2 hb] at htotal
    have hpre : x ∉ pre := List.count_eq_zero.1 (by omega)
    have hboth : x ∉ pre ++ a := fun hmem => (List.mem_append.1 hmem).elim hpre ha
    obtain ⟨rfl, rfl⟩ := cons_inj hb hboth (hline.trans (List.append_assoc _ _ _).symm)
    exact ⟨List.suffix_append _ _, hv.2⟩

end Pattern
end Iprotate
