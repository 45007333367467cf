import Iprotate.Base.Interpolation
import Mathlib.Data.List.Count
import Mathlib.Data.Nat.Find

/-!
# The percent signs of an expansion

An expansion has fewer percent signs than the value, unless an option that the value refers to brings some in. So
values that expansions leave as they are have no percent signs at all.

- More levels do not change what an expansion gives (`expand_mono`).
- An expansion without percent signs is that of a value without `%%`, and so are those of the options it refers to
  (`made_iff`).
- Of a value that refers to options without percent signs at most half of the percent signs are left
  (`count_expandPieces`, `two_mul_lits`).
- Changing an option to a value without percent signs brings no new ones (`count_expand_le`).
- An option that is not looked up can be changed (`expand_unused`).
-/

namespace Iprotate
namespace Interpolation

open Text

variable {look look' : Str → Option Str} {sub sub' : Str → Except Failure Str} {ps : List Piece} {v r : Str} {n : Nat}

/-! ## The value of a reference -/

/-- What stands in an expansion for the value of an option. -/
def inner (sub : Str → Except Failure Str) (u : Str) : Except Failure Str := if '%' ∈ u then sub u else .ok u

theorem expandPieces_lit {c : Char} : expandPieces look sub (.lit c :: ps) = .ok r ↔
    ∃ r', expandPieces look sub ps = .ok r' ∧ r = c :: r' := by
  rw [expandPieces]
  cases expandPieces look sub ps with
  | error e => simp
  | ok r' => simp [eq_comm]

theorem expandPieces_ref {x : Str} : expandPieces look sub (.ref x :: ps) = .ok r ↔
    ∃ u a r', look (lower x) = some u ∧ inner sub u = .ok a ∧ expandPieces look sub ps = .ok r' ∧ r = a ++ r' := by
  rw [expandPieces]
  cases look (lower x) with
  | none => simp
  | some u =>
    have hinner : (if '%' ∈ u then sub u else .ok u) = inner sub u := rfl
    simp only [hinner]
    cases hu : inner sub u with
    | error e => simp [hu]
    | ok a =>
      cases expandPieces look sub ps with
      | error e => simp
      | ok r' => simp [hu, eq_comm]

/-- Another way to expand that gives the same for what is looked up. -/
theorem expandPieces_imp (hlook : ∀ x u a, .ref x ∈ ps → look (lower x) = some u → inner sub u = .ok a →
    look' (lower x) = some u ∧ inner sub' u = .ok a) (h : expandPieces look sub ps = .ok r) :
    expandPieces look' sub' ps = .ok r := by
  induction ps generalizing r with
  | nil => exact h
  | cons q ps ih =>
    have hrest := fun r => ih (r := r) fun x u a hx => hlook x u a (List.mem_cons_of_mem _ hx)
    cases q with
    | lit c =>
      obtain ⟨r', hr', rfl⟩ := expandPieces_lit.1 h
      exact expandPieces_lit.2 ⟨r', hrest r' hr', rfl⟩
    | ref x =>
      obtain ⟨u, a, r', hu, ha, hr', rfl⟩ := expandPieces_ref.1 h
      obtain ⟨hu', ha'⟩ := hlook x u a List.mem_cons_self hu ha
      exact expandPieces_ref.2 ⟨u, a, r', hu', ha', hrest r' hr', rfl⟩
    | bad rest => cases h

/-- One more level changes nothing. -/
theorem expand_succ : ∀ {n : Nat} {v r : Str}, expand look n v = .ok r → expand look (n + 1) v = .ok r
  | 0, _, _, h => by cases h
  | n + 1, v, r, h => by
    refine expandPieces_imp (fun x u a _ hu ha => ⟨hu, ?_⟩) h
    unfold inner at ha ⊢
    split at ha
    · rename_i hp
      rw [if_pos hp]
      exact expand_succ ha
    · rename_i hp
      rw [if_neg hp]
      exact ha

/-- More levels change nothing. -/
theorem expand_mono {m : Nat} (hle : n ≤ m) (h : expand look n v = .ok r) : expand look m v = .ok r := by
  induction hle with
  | refl => exact h
  | step _ ih => exact expand_succ ih

/-- An expansion has one result. -/
theorem expand_unique {m : Nat} {r' : Str} (h : expand look n v = .ok r) (h' : expand look m v = .ok r') : r = r' := by
  have h₁ := expand_mono (Nat.le_max_left n m) h
  have h₂ := expand_mono (Nat.le_max_right n m) h'
  exact Except.ok.inj (h₁.symm.trans h₂)

/-- Another way to expand that gives something for what is looked up. -/
theorem exists_expandPieces (hlook : ∀ x u a, .ref x ∈ ps → look (lower x) = some u → inner sub u = .ok a →
    ∃ u' a', look' (lower x) = some u' ∧ inner sub' u' = .ok a') (h : expandPieces look sub ps = .ok r) :
    ∃ r', expandPieces look' sub' ps = .ok r' := by
  induction ps generalizing r with
  | nil => exact ⟨[], rfl⟩
  | cons q ps ih =>
    have hrest := fun r => ih (r := r) fun x u a hx => hlook x u a (List.mem_cons_of_mem _ hx)
    cases q with
    | lit c =>
      obtain ⟨t, ht, -⟩ := expandPieces_lit.1 h
      obtain ⟨t', ht'⟩ := hrest t ht
      exact ⟨c :: t', expandPieces_lit.2 ⟨t', ht', rfl⟩⟩
    | ref x =>
      obtain ⟨u, a, t, hu, ha, ht, -⟩ := expandPieces_ref.1 h
      obtain ⟨u', a', hu', ha'⟩ := hlook x u a List.mem_cons_self hu ha
      obtain ⟨t', ht'⟩ := hrest t ht
      exact ⟨a' ++ t', expandPieces_ref.2 ⟨u', a', t', hu', ha', ht', rfl⟩⟩
    | bad rest => cases h

/-- What can be expanded can be if some options get values without percent signs. -/
theorem exists_expand (hlook : ∀ x u, look x = some u → look' x = some u ∨ ∃ u', look' x = some u' ∧ '%' ∉ u') :
    ∀ {n : Nat} {v r : Str}, expand look n v = .ok r → ∃ r', expand look' n v = .ok r'
  | 0, _, _, h => by cases h
  | n + 1, v, r, h => by
    refine exists_expandPieces (fun x u a _ hu ha => ?_) h
    rcases hlook _ u hu with hu' | ⟨u', hu', hplain⟩
    · unfold inner at ha
      split at ha
      · rename_i hp
        obtain ⟨a', ha'⟩ := exists_expand hlook ha
        exact ⟨u, a', hu', by rw [inner, if_pos hp, ha']⟩
      · rename_i hp
        exact ⟨u, u, hu', if_neg hp⟩
    · exact ⟨u', u', hu', if_neg hplain⟩

/-! ## Expansions without percent signs -/

/-- The piece is a character other than a percent sign, or refers to an option of which `P` holds if it has one. -/
def Piece.Made (look : Str → Option Str) (P : Str → Prop) : Piece → Prop
  | .lit c => c ≠ '%'
  | .ref x => ∃ u, look (lower x) = some u ∧ ('%' ∈ u → P u)
  | .bad _ => False

/-- Each percent sign of the raw value begins a reference to an option that is there and is made so in turn. -/
def Made (look : Str → Option Str) : Nat → Str → Prop
  | 0, _ => False
  | n + 1, v => ∀ q ∈ pieces v, q.Made look (Made look n)

theorem made_pieces {P : Str → Prop} (hsub : ∀ u, P u ↔ ∃ r, sub u = .ok r ∧ '%' ∉ r) :
    (∀ q ∈ ps, q.Made look P) ↔ ∃ r, expandPieces look sub ps = .ok r ∧ '%' ∉ r := by
  have hinner : ∀ u, ('%' ∈ u → P u) ↔ ∃ a, inner sub u = .ok a ∧ '%' ∉ a := by
    intro u
    unfold inner
    by_cases hp : '%' ∈ u
    · rw [if_pos hp, ← hsub]
      exact ⟨fun h => h hp, fun h _ => h⟩
    · rw [if_neg hp]
      exact iff_of_true (fun h => absurd h hp) ⟨u, rfl, hp⟩
  induction ps with
  | nil => exact iff_of_true (fun q hq => by cases hq) ⟨[], rfl, List.not_mem_nil⟩
  | cons q ps ih =>
    refine List.forall_mem_cons.trans ((and_congr_right' ih).trans ?_)
    constructor
    · rintro ⟨hq, r, hr, hplain⟩
      cases q with
      | lit c => exact ⟨c :: r, expandPieces_lit.2 ⟨r, hr, rfl⟩, List.not_mem_cons_of_ne_of_not_mem (Ne.symm hq) hplain⟩
      | ref x =>
        obtain ⟨u, hu, hP⟩ := hq
        obtain ⟨a, ha, hplain'⟩ := (hinner u).1 hP
        exact ⟨a ++ r, expandPieces_ref.2 ⟨u, a, r, hu, ha, hr, rfl⟩, List.not_mem_append hplain' hplain⟩
      | bad rest => cases hq
    · rintro ⟨r, hr, hplain⟩
      cases q with
      | lit c =>
        obtain ⟨r', hr', rfl⟩ := expandPieces_lit.1 hr
        exact ⟨fun hc => hplain (hc ▸ List.mem_cons_self), r', hr', fun hp => hplain (List.mem_cons_of_mem _ hp)⟩
      | ref x =>
        obtain ⟨u, a, r', hu, ha, hr', rfl⟩ := expandPieces_ref.1 hr
        exact ⟨⟨u, hu, (hinner u).2 ⟨a, ha, fun hp => hplain (List.mem_append_left _ hp)⟩⟩, r', hr',
          fun hp => hplain (List.mem_append_right _ hp)⟩
      | bad rest => cases hr

/-- **The values that read without percent signs.** -/
theorem made_iff : ∀ {n : Nat} {v : Str}, Made look n v ↔ ∃ r, expand look n v = .ok r ∧ '%' ∉ r
  | 0, _ => iff_of_false id fun ⟨_, h, _⟩ => by cases h
  | n + 1, _ => made_pieces fun _ => made_iff (n := n)

/-! ## Counting -/

/-- The percent signs among the pieces. -/
def lits (ps : List Piece) : Nat := ps.count (.lit '%')

/-- The references among the pieces. -/
def refs (ps : List Piece) : Nat := ps.countP fun q => match q with
  | .ref _ => true
  | _ => false

/-- Each percent sign of an expansion takes two of the value, and each reference one. -/
theorem two_mul_lits_scan : ∀ (s : Str) (m : Mode), 2 * lits (scan m s) + refs (scan m s) ≤
    s.count '%' + match m with
      | .text => 0
      | _ => 1
  | [], .text | [], .percent _ | [], .name _ _ | [], .close _ _ => by simp [scan, lits, refs]
  | c :: s, .text => by
    rw [scan]
    by_cases hc : c = '%'
    · have ih := two_mul_lits_scan s (.percent (c :: s))
      rw [if_pos hc, hc, List.count_cons_self]
      rw [hc] at ih
      simpa using ih
    · have ih := two_mul_lits_scan s .text
      rw [if_neg hc, List.count_cons_of_ne hc]
      simpa [lits, refs, hc] using ih
  | c :: s, .percent start => by
    rw [scan]
    by_cases hc : c = '%'
    · have ih := two_mul_lits_scan s .text
      rw [if_pos hc, hc, List.count_cons_self]
      simp only [lits, refs, List.count_cons_self, List.countP_cons] at ih ⊢
      simp only [Bool.false_eq_true, if_false]
      omega
    · rw [if_neg hc, List.count_cons_of_ne hc]
      split
      · exact two_mul_lits_scan s (.name start [])
      · simp [lits, refs]
  | c :: s, .name start acc => by
    have hle : s.count '%' ≤ (c :: s).count '%' := List.count_le_count_cons
    rw [scan]
    split
    · split
      · simp [lits, refs]
      · have ih := two_mul_lits_scan s (.close start acc)
        simp only at ih ⊢
        omega
    · have ih := two_mul_lits_scan s (.name start (acc ++ [c]))
      simp only at ih ⊢
      omega
  | c :: s, .close start name => by
    have hle : s.count '%' ≤ (c :: s).count '%' := List.count_le_count_cons
    rw [scan]
    split
    · have ih := two_mul_lits_scan s .text
      simp only [lits, refs, List.countP_cons, if_true] at ih ⊢
      rw [List.count_cons_of_ne (by simp)]
      omega
    · simp [lits, refs]

/-- At most half of the percent signs of a value stand for one. -/
theorem two_mul_lits (v : Str) : 2 * lits (pieces v) ≤ v.count '%' := by
  have h := two_mul_lits_scan v .text
  simp only at h
  rw [pieces]
  omega

theorem lits_lt (h : '%' ∈ v) : lits (pieces v) < v.count '%' := by
  have hpos := List.count_pos_iff.2 h
  have htwo := two_mul_lits v
  omega

/-- What references without percent signs leave. -/
theorem count_expandPieces (href : ∀ x u a, .ref x ∈ ps → look (lower x) = some u → inner sub u = .ok a → '%' ∉ a)
    (h : expandPieces look sub ps = .ok r) : r.count '%' = lits ps := by
  induction ps generalizing r with
  | nil =>
    cases h
    rfl
  | cons q ps ih =>
    have hrest := fun r => ih (r := r) fun x u a hx => href x u a (List.mem_cons_of_mem _ hx)
    cases q with
    | lit c =>
      obtain ⟨r', hr', rfl⟩ := expandPieces_lit.1 h
      rw [lits, List.count_cons, List.count_cons, hrest r' hr', lits]
      by_cases hc : c = '%' <;> simp [hc]
    | ref x =>
      obtain ⟨u, a, r', hu, ha, hr', rfl⟩ := expandPieces_ref.1 h
      rw [lits, List.count_append, List.count_eq_zero_of_not_mem (href x u a List.mem_cons_self hu ha), hrest r' hr',
        List.count_cons_of_ne (by simp), lits, Nat.zero_add]
    | bad rest => cases h

/-- The value of an option does not refer to the option itself, so it is enough to know the others. -/
theorem count_expand_self {key value : Str} (hkey : look key = some value)
    (h : expand look n value = .ok r)
    (href : ∀ m, m ≤ n → (∀ j ≤ m, ∀ b, expand look j value ≠ .ok b) → ∀ x u a, lower x ≠ key →
      look (lower x) = some u → '%' ∈ u → expand look m u = .ok a → '%' ∉ a) : r.count '%' = lits (pieces value) := by
  classical
  -- the least number of levels that are enough
  have hex : ∃ m, ∃ b, expand look m value = .ok b := ⟨n, r, h⟩
  obtain ⟨b, hb⟩ := Nat.find_spec hex
  have hmin : ∀ j < Nat.find hex, ∀ b, expand look j value ≠ .ok b := fun j hj b hb => Nat.find_min hex hj ⟨b, hb⟩
  have hle : Nat.find hex ≤ n := Nat.find_min' hex ⟨r, h⟩
  have hbr := expand_unique hb h
  subst hbr
  generalize Nat.find hex = m at hb hmin hle
  cases m with
  | zero => cases hb
  | succ m =>
    refine count_expandPieces (fun x u a _ hu ha => ?_) hb
    unfold inner at ha
    split at ha
    · rename_i hp
      by_cases hx : lower x = key
      · rw [hx, hkey] at hu
        cases hu
        exact absurd ha (hmin m (Nat.lt_succ_self m) a)
      · exact href m (by omega) (fun j hj => hmin j (by omega)) x u a hx hu hp ha
    · rename_i hp
      cases ha
      exact hp

/-! ## Changing an option -/

section change

variable {key : Str} (hlook : ∀ k, k ≠ key → look k = look' k)

include hlook

/-- A new value without percent signs brings none into an expansion. -/
theorem count_expand_le {value : Str} (hkey : look key = some value) (hv : '%' ∉ value) : ∀ {n : Nat} {t a b : Str},
    expand look n t = .ok a → expand look' n t = .ok b → a.count '%' ≤ b.count '%'
  | 0, _, _, _, h, _ => by cases h
  | n + 1, t, a, b, h, h' => by
    have hpieces : ∀ {ps : List Piece} {a b : Str}, expandPieces look (expand look n) ps = .ok a →
        expandPieces look' (expand look' n) ps = .ok b → a.count '%' ≤ b.count '%' := by
      intro ps
      induction ps with
      | nil =>
        intro a b ha hb
        cases ha
        exact Nat.zero_le _
      | cons q ps ih =>
        intro a b ha hb
        cases q with
        | lit c =>
          obtain ⟨a', ha', rfl⟩ := expandPieces_lit.1 ha
          obtain ⟨b', hb', rfl⟩ := expandPieces_lit.1 hb
          rw [List.count_cons, List.count_cons]
          have := ih ha' hb'
          omega
        | ref x =>
          obtain ⟨u, a₁, a₂, hu, ha₁, ha₂, rfl⟩ := expandPieces_ref.1 ha
          obtain ⟨u', b₁, b₂, hu', hb₁, hb₂, rfl⟩ := expandPieces_ref.1 hb
          have hrest := ih ha₂ hb₂
          have hfirst : a₁.count '%' ≤ b₁.count '%' := by
            by_cases hx : lower x = key
            · rw [hx, hkey] at hu
              cases hu
              rw [inner, if_neg hv] at ha₁
              cases ha₁
              rw [List.count_eq_zero_of_not_mem hv]
              exact Nat.zero_le _
            · rw [← hlook _ hx, hu] at hu'
              cases hu'
              unfold inner at ha₁ hb₁
              split at ha₁
              · rename_i hp
                rw [if_pos hp] at hb₁
                exact count_expand_le hkey hv ha₁ hb₁
              · rename_i hp
                rw [if_neg hp] at hb₁
                cases ha₁
                cases hb₁
                exact Nat.le_refl _
          rw [List.count_append, List.count_append]
          omega
        | bad rest => cases ha
    exact hpieces h h'

/-- An option whose value has percent signs and cannot be expanded has not been looked up. -/
theorem expand_unused {value : Str} (hkey : look key = some value) (hv : '%' ∈ value) : ∀ {n : Nat} {t a : Str},
    (∀ m < n, ∀ b, expand look m value ≠ .ok b) → expand look n t = .ok a → expand look' n t = .ok a
  | 0, _, _, _, h => by cases h
  | n + 1, t, a, hnot, h => by
    refine expandPieces_imp (fun x u b _ hu hb => ?_) h
    have hx : lower x ≠ key := by
      intro hx
      rw [hx, hkey] at hu
      cases hu
      rw [inner, if_pos hv] at hb
      exact hnot n (Nat.lt_succ_self n) b hb
    refine ⟨(hlook _ hx) ▸ hu, ?_⟩
    unfold inner at hb ⊢
    split at hb
    · rename_i hp
      rw [if_pos hp]
      exact expand_unused hkey hv (fun m hm => hnot m (Nat.lt_succ_of_lt hm)) hb
    · rename_i hp
      rw [if_neg hp]
      exact hb

end change

end Interpolation
end Iprotate
