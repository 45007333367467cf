import Iprotate.Base.Text

/-!
# Replacing a text everywhere

`replaceAll old new s` puts `new` in the place of every occurrence of `old` in `s`, from left to right.

- Its equations, by whether the text begins with `old`: `replaceAll_append`, `replaceAll_cons`.
- It works on both sides of a character that is not in `old` (`replaceAll_separated`), so it may be done line by line
  (`replaceAll_lines`).
- A text stays as it is exactly if `old` does not occur in it or is replaced by itself (`replaceAll_eq_self_iff`).
-/

namespace Iprotate
namespace Replace

variable {α : Type} {old new s t : List α}

/-- A prefix without the separator lies before it. -/
theorem prefix_of_prefix_append {x : α} (hx : x ∉ old) (h : old <+: s ++ x :: t) : old <+: s := by
  obtain ⟨u, hu⟩ := h
  rcases List.append_eq_append_iff.1 hu with ⟨v, rfl, -⟩ | ⟨v, rfl, hv⟩
  · exact List.prefix_append _ _
  · cases v with
    | nil => simp
    | cons y v =>
      obtain rfl := (List.cons.inj hv).1
      exact absurd (List.mem_append_right _ List.mem_cons_self) hx

variable [DecidableEq α]

/-- Replace after passing over some characters. -/
def replaceAfter (old new : List α) : Nat → List α → List α
  | _, [] => []
  | k + 1, _ :: s => replaceAfter old new k s
  | 0, c :: s =>
    if old.isPrefixOf (c :: s) then new ++ replaceAfter old new (old.length - 1) s else c :: replaceAfter old new 0 s

def replaceAll (old new s : List α) : List α := replaceAfter old new 0 s

theorem replaceAfter_eq : ∀ (k : Nat) (s : List α), replaceAfter old new k s = replaceAll old new (s.drop k)
  | 0, _ => rfl
  | _ + 1, [] => rfl
  | k + 1, _ :: s => replaceAfter_eq k s

@[simp] theorem replaceAll_nil : replaceAll old new [] = [] := rfl

/-- A text that does not begin with `old`. -/
theorem replaceAll_cons {c : α} (h : ¬old <+: c :: s) : replaceAll old new (c :: s) = c :: replaceAll old new s := by
  rw [replaceAll, replaceAfter, if_neg (by simpa using h)]
  rfl

/-- A text that begins with `old`. -/
theorem replaceAll_append (hold : old ≠ []) (s : List α) :
    replaceAll old new (old ++ s) = new ++ replaceAll old new s := by
  obtain ⟨c, rest, rfl⟩ := List.exists_cons_of_ne_nil hold
  have hprefix : (c :: rest).isPrefixOf (c :: (rest ++ s)) = true :=
    List.isPrefixOf_iff_prefix.2 (List.prefix_append (c :: rest) s)
  rw [List.cons_append, replaceAll, replaceAfter, if_pos hprefix, replaceAfter_eq]
  simp

/-- **Induction along a replacement**: the text is empty, begins with `old`, or begins with a character that stays. -/
@[elab_as_elim] theorem replaceInduction {motive : List α → Prop} (hold : old ≠ []) (nil : motive [])
    (found : ∀ t, motive t → motive (old ++ t)) (other : ∀ c s, ¬old <+: c :: s → motive s → motive (c :: s))
    (s : List α) : motive s := by
  induction hn : s.length using Nat.strong_induction_on generalizing s with
  | h n ih =>
    cases s with
    | nil => exact nil
    | cons c s =>
      subst hn
      by_cases h : old <+: c :: s
      · obtain ⟨t, ht⟩ := h
        have hpos := List.length_pos_of_ne_nil hold
        have hlen := congrArg List.length ht
        rw [List.length_append] at hlen
        rw [← ht]
        exact found t (ih t.length (by omega) t rfl)
      · exact other c s h (ih s.length (Nat.lt_succ_self _) s rfl)

/-- The parts before and after a character that is not in `old` are worked on by themselves. -/
theorem replaceAll_separated (hold : old ≠ []) {x : α} (hx : x ∉ old) (s t : List α) :
    replaceAll old new (s ++ x :: t) = replaceAll old new s ++ x :: replaceAll old new t := by
  refine replaceInduction hold ?_ (fun u ih => ?_) (fun c s hno ih => ?_) s
  · exact replaceAll_cons fun h => hold (List.prefix_nil.1 (prefix_of_prefix_append (s := []) hx h))
  · rw [List.append_assoc, replaceAll_append hold, replaceAll_append hold, ih, List.append_assoc]
  · have hno' : ¬old <+: c :: (s ++ x :: t) := fun h => hno (prefix_of_prefix_append (s := c :: s) hx h)
    rw [List.cons_append, replaceAll_cons hno', replaceAll_cons hno, ih, List.cons_append]

/-- Line by line or all at once. -/
theorem replaceAll_lines (hold : old ≠ []) {x : α} (hx : x ∉ old) : ∀ ls : List (List α),
    replaceAll old new ([x].intercalate ls) = [x].intercalate (ls.map (replaceAll old new))
  | [] => rfl
  | [l] => by simp
  | l :: l' :: ls => by
    rw [List.intercalate_cons_cons, List.append_assoc, List.singleton_append, replaceAll_separated hold hx,
      replaceAll_lines hold hx (l' :: ls)]
    simp [List.intercalate_cons_cons]

/-! ## Texts that stay as they are -/

theorem replaceAll_of_not_infix : ∀ {s : List α}, ¬old <:+: s → replaceAll old new s = s
  | [], _ => rfl
  | c :: s, h => by
    rw [replaceAll_cons fun hp => h hp.isInfix,
      replaceAll_of_not_infix fun hi => h (hi.trans (List.suffix_cons c s).isInfix)]

theorem replaceAll_self (hold : old ≠ []) (s : List α) : replaceAll old old s = s := by
  refine replaceInduction hold rfl (fun u ih => ?_) (fun c s hno ih => ?_) s
  · rw [replaceAll_append hold, ih]
  · rw [replaceAll_cons hno, ih]

/-- Replacing by a text at least as long makes nothing shorter. -/
theorem length_le_replaceAll (hold : old ≠ []) (hlen : old.length ≤ new.length) (s : List α) :
    s.length ≤ (replaceAll old new s).length := by
  refine replaceInduction hold (Nat.zero_le _) (fun u ih => ?_) (fun c s hno ih => ?_) s
  · rw [replaceAll_append hold, List.length_append, List.length_append]
    omega
  · rw [replaceAll_cons hno, List.length_cons, List.length_cons]
    omega

/-- Replacing by a text at most as long makes nothing longer. -/
theorem replaceAll_length_le (hold : old ≠ []) (hlen : new.length ≤ old.length) (s : List α) :
    (replaceAll old new s).length ≤ s.length := by
  refine replaceInduction hold (Nat.zero_le _) (fun u ih => ?_) (fun c s hno ih => ?_) s
  · rw [replaceAll_append hold, List.length_append, List.length_append]
    omega
  · rw [replaceAll_cons hno, List.length_cons, List.length_cons]
    omega

/-- If a text with `old` in it stays as it is, the replacement is `old`: the lengths leave no other way. -/
theorem eq_of_replaceAll_eq_self (hold : old ≠ []) (s : List α) : replaceAll old new s = s → old <:+: s →
    new = old := by
  refine replaceInduction hold (fun _ hinfix => ?_) (fun u _ h _ => ?_) (fun c s hno ih h hinfix => ?_) s
  · exact absurd (List.infix_nil.1 hinfix) hold
  · rw [replaceAll_append hold] at h
    have hlen := congrArg List.length h
    rw [List.length_append, List.length_append] at hlen
    have hsame : new.length = old.length := by
      rcases Nat.le_total old.length new.length with hle | hle
      · have := length_le_replaceAll hold hle u
        omega
      · have := replaceAll_length_le hold hle u
        omega
    exact (List.append_inj h hsame).1
  · rw [replaceAll_cons hno] at h
    exact ih (List.cons.inj h).2 ((List.infix_cons_iff.1 hinfix).resolve_left hno)

/-- **Which texts stay as they are.** -/
theorem replaceAll_eq_self_iff (hold : old ≠ []) : replaceAll old new s = s ↔ new = old ∨ ¬old <:+: s := by
  constructor
  · intro h
    by_cases hinfix : old <:+: s
    · exact .inl (eq_of_replaceAll_eq_self hold s h hinfix)
    · exact .inr hinfix
  · rintro (rfl | hno)
    · exact replaceAll_self hold s
    · exact replaceAll_of_not_infix hno

theorem mem_replaceAll (hold : old ≠ []) {c : α} (s : List α) : c ∈ replaceAll old new s → c ∈ new ∨ c ∈ s := by
  refine replaceInduction hold (fun h => .inr h) (fun u ih h => ?_) (fun d s hno ih h => ?_) s
  · rw [replaceAll_append hold] at h
    rcases List.mem_append.1 h with h | h
    · exact .inl h
    · exact (ih h).imp_right (List.mem_append_right _)
  · rw [replaceAll_cons hno] at h
    rcases List.mem_cons.1 h with rfl | h
    · exact .inr List.mem_cons_self
    · exact (ih h).imp_right (List.mem_cons_of_mem _)

end Replace
end Iprotate
