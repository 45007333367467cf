import Mathlib.Data.List.Basic
import Mathlib.Data.List.Nodup

/-!
# Insertion-ordered dictionaries

A dictionary is the list of its entries in insertion order, as a Python `dict` keeps them: `set` overwrites an
existing key in place and appends a new one, so iteration order is the order of first insertion.

- `get?`, `set`, `modify`, `keys` and `mapVal`, with the lookup lemmas of each (`get?_set_self`, `get?_set_ne`, …);
- a dictionary with distinct keys is determined by its key list and its lookups (`ext_of_keys`).
-/

namespace Iprotate

/-- Entries in insertion order. -/
abbrev Dict (α β : Type) := List (α × β)

namespace Dict

variable {α β γ : Type}

/-- The keys in insertion order. -/
def keys (d : Dict α β) : List α := d.map Prod.fst

@[simp] theorem keys_nil : keys ([] : Dict α β) = [] := rfl

@[simp] theorem keys_cons (e : α × β) (d : Dict α β) : keys (e :: d) = e.1 :: keys d := rfl

@[simp] theorem keys_append (d d' : Dict α β) : keys (d ++ d') = keys d ++ keys d' := List.map_append

variable [DecidableEq α]

/-- The value of a key. -/
def get? : Dict α β → α → Option β
  | [], _ => none
  | (k', v) :: d, k => if k' = k then some v else get? d k

/-- Overwrite a key in place, or append it. -/
def set : Dict α β → α → β → Dict α β
  | [], k, v => [(k, v)]
  | (k', v') :: d, k, v => if k' = k then (k', v) :: d else (k', v') :: set d k v

/-- Apply a function to the value of a key, if it is there. -/
def modify : Dict α β → α → (β → β) → Dict α β
  | [], _, _ => []
  | (k', v) :: d, k, f => if k' = k then (k', f v) :: d else (k', v) :: modify d k f

/-- Remove a key. -/
def erase (d : Dict α β) (k : α) : Dict α β := d.filter fun e => e.1 ≠ k

/-- Apply a function to every value. -/
def mapVal (f : β → γ) (d : Dict α β) : Dict α γ := d.map fun e => (e.1, f e.2)

/-! ## Lookups -/

@[simp] theorem get?_nil (k : α) : get? ([] : Dict α β) k = none := rfl

@[simp] theorem get?_cons_self (k : α) (v : β) (d : Dict α β) : get? ((k, v) :: d) k = some v := by simp [get?]

theorem get?_cons_ne {k k' : α} (h : k' ≠ k) (v : β) (d : Dict α β) : get? ((k', v) :: d) k = get? d k := by
  simp [get?, h]

theorem get?_eq_none_iff {d : Dict α β} {k : α} : get? d k = none ↔ k ∉ keys d := by
  induction d with
  | nil => simp
  | cons e d ih =>
    obtain ⟨k', v⟩ := e
    by_cases h : k' = k
    · simp [get?, h]
    · simp [get?, h, ih, Ne.symm h]

theorem mem_keys_iff {d : Dict α β} {k : α} : k ∈ keys d ↔ ∃ v, get? d k = some v := by
  rw [← Option.ne_none_iff_exists', ne_eq, get?_eq_none_iff, not_not]

theorem mem_keys_of_get? {d : Dict α β} {k : α} {v : β} (h : get? d k = some v) : k ∈ keys d :=
  mem_keys_iff.2 ⟨v, h⟩

theorem mem_of_get? {d : Dict α β} {k : α} {v : β} (h : get? d k = some v) : (k, v) ∈ d := by
  induction d with
  | nil => cases h
  | cons e d ih =>
    obtain ⟨k', v'⟩ := e
    by_cases hk : k' = k
    · simp only [get?, hk, if_true, Option.some.injEq] at h
      simp [hk, h]
    · exact List.mem_cons_of_mem _ (ih (by rwa [get?_cons_ne hk] at h))

theorem get?_of_mem {d : Dict α β} {k : α} {v : β} (hd : (keys d).Nodup) (h : (k, v) ∈ d) : get? d k = some v := by
  induction d with
  | nil => cases h
  | cons e d ih =>
    obtain ⟨k', v'⟩ := e
    rw [keys_cons, List.nodup_cons] at hd
    rcases List.mem_cons.1 h with h | h
    · cases h; exact get?_cons_self ..
    · have hk : k' ≠ k := fun hk => hd.1 (by simpa [hk, keys] using ⟨v, h⟩)
      rw [get?_cons_ne hk]
      exact ih hd.2 h

theorem get?_append (d d' : Dict α β) (k : α) : get? (d ++ d') k = (get? d k).or (get? d' k) := by
  induction d with
  | nil => rfl
  | cons e d ih =>
    by_cases h : e.1 = k
    · simp [get?, h]
    · simp [get?, h, ih]

/-! ## Setting a key -/

@[simp] theorem get?_set_self (d : Dict α β) (k : α) (v : β) : get? (set d k v) k = some v := by
  induction d with
  | nil => simp [set]
  | cons e d ih => by_cases h : e.1 = k <;> simp [set, get?, h, ih]

theorem get?_set_ne (d : Dict α β) {k k' : α} (h : k ≠ k') (v : β) : get? (set d k v) k' = get? d k' := by
  induction d with
  | nil => simp [set, get?, h]
  | cons e d ih =>
    by_cases hk : e.1 = k
    · simp [set, get?, hk, h]
    · by_cases hk' : e.1 = k'
      · simp [set, get?, hk', Ne.symm h]
      · simp [set, get?, hk, hk', ih]

theorem get?_set (d : Dict α β) (k k' : α) (v : β) : get? (set d k v) k' = if k = k' then some v else get? d k' := by
  by_cases h : k = k'
  · subst h; simp
  · simp [h, get?_set_ne d h]

theorem keys_set (d : Dict α β) (k : α) (v : β) : keys (set d k v) = if k ∈ keys d then keys d else keys d ++ [k] := by
  induction d with
  | nil => simp [set]
  | cons e d ih =>
    by_cases h : e.1 = k
    · simp [set, h]
    · simp only [set, h, if_false, keys_cons, ih, List.mem_cons, Ne.symm h, false_or]
      split <;> rfl

theorem set_of_not_mem {d : Dict α β} {k : α} (h : k ∉ keys d) (v : β) : set d k v = d ++ [(k, v)] := by
  induction d with
  | nil => rfl
  | cons e d ih =>
    simp only [keys_cons, List.mem_cons, not_or] at h
    simp [set, Ne.symm h.1, ih h.2]

theorem nodup_set {d : Dict α β} (h : (keys d).Nodup) (k : α) (v : β) : (keys (set d k v)).Nodup := by
  rw [keys_set]
  split
  · exact h
  · rename_i hk
    rw [List.nodup_append]
    exact ⟨h, List.nodup_singleton k, fun a ha b hb hab => hk (by rw [List.mem_singleton.1 hb] at hab; exact hab ▸ ha)⟩

/-- Writing back the value a key already has changes nothing. -/
theorem set_get? {d : Dict α β} {k : α} {v : β} (h : get? d k = some v) : set d k v = d := by
  induction d with
  | nil => cases h
  | cons e d ih =>
    obtain ⟨k', v'⟩ := e
    by_cases hk : k' = k
    · simp only [get?, hk, if_true, Option.some.injEq] at h
      simp [set, hk, h]
    · rw [get?_cons_ne hk] at h
      simp [set, hk, ih h]

theorem set_set (d : Dict α β) (k : α) (v v' : β) : set (set d k v) k v' = set d k v' := by
  induction d with
  | nil => simp [set]
  | cons e d ih => by_cases h : e.1 = k <;> simp [set, h, ih]

theorem mem_set {d : Dict α β} {k : α} {v : β} {e : α × β} (h : e ∈ set d k v) : e ∈ d ∨ e = (k, v) := by
  induction d with
  | nil => simpa [set] using h
  | cons e' d ih =>
    by_cases hk : e'.1 = k
    · simp only [set, hk, if_true, List.mem_cons] at h
      exact h.elim (fun h => .inr (by rw [h])) (fun h => .inl (List.mem_cons_of_mem _ h))
    · simp only [set, hk, if_false, List.mem_cons] at h
      rcases h with h | h
      · exact .inl (by simp [h])
      · exact (ih h).imp (List.mem_cons_of_mem _) id

/-! ## Changing the value of a key -/

@[simp] theorem keys_modify (d : Dict α β) (k : α) (f : β → β) : keys (modify d k f) = keys d := by
  induction d with
  | nil => rfl
  | cons e d ih => by_cases h : e.1 = k <;> simp [modify, h, ih]

theorem get?_modify_self (d : Dict α β) (k : α) (f : β → β) : get? (modify d k f) k = (get? d k).map f := by
  induction d with
  | nil => rfl
  | cons e d ih => by_cases h : e.1 = k <;> simp [modify, get?, h, ih]

theorem get?_modify_ne (d : Dict α β) {k k' : α} (h : k ≠ k') (f : β → β) :
    get? (modify d k f) k' = get? d k' := by
  induction d with
  | nil => rfl
  | cons e d ih =>
    by_cases hk : e.1 = k
    · simp [modify, get?, hk, h]
    · by_cases hk' : e.1 = k'
      · simp [modify, get?, hk', Ne.symm h]
      · simp [modify, get?, hk, hk', ih]

theorem modify_eq_set {d : Dict α β} {k : α} {v : β} (h : get? d k = some v) (f : β → β) :
    modify d k f = set d k (f v) := by
  induction d with
  | nil => cases h
  | cons e d ih =>
    obtain ⟨k', v'⟩ := e
    by_cases hk : k' = k
    · simp only [get?, hk, if_true, Option.some.injEq] at h
      simp [modify, set, hk, h]
    · rw [get?_cons_ne hk] at h
      simp [modify, set, hk, ih h]

theorem modify_modify (d : Dict α β) (k : α) (f g : β → β) : modify (modify d k f) k g = modify d k (g ∘ f) := by
  induction d with
  | nil => rfl
  | cons e d ih => by_cases h : e.1 = k <;> simp [modify, h, ih]

theorem modify_append_of_not_mem {d : Dict α β} {k : α} (h : k ∉ keys d) (d' : Dict α β) (f : β → β) :
    modify (d ++ d') k f = d ++ modify d' k f := by
  induction d with
  | nil => rfl
  | cons e d ih =>
    simp only [keys_cons, List.mem_cons, not_or] at h
    simp [modify, Ne.symm h.1, ih h.2]

theorem modify_congr {d : Dict α β} {k : α} {f g : β → β} (h : ∀ v, get? d k = some v → f v = g v) :
    modify d k f = modify d k g := by
  induction d with
  | nil => rfl
  | cons e d ih =>
    by_cases he : e.1 = k
    · simp [modify, he, h e.2 (by simp [get?, he])]
    · simp [modify, he, ih fun v hv => h v (by rwa [get?_cons_ne he])]

theorem modify_id {d : Dict α β} {k : α} {f : β → β} (h : ∀ v, get? d k = some v → f v = v) : modify d k f = d := by
  cases hk : get? d k with
  | none =>
    induction d with
    | nil => rfl
    | cons e d ih =>
      have he : e.1 ≠ k := fun he => by simp [get?, he] at hk
      have hd : get? d k = none := by rwa [get?_cons_ne he] at hk
      simp [modify, he, ih (fun v hv => by rw [hd] at hv; cases hv) hd]
  | some v => rw [modify_eq_set hk, h v hk, set_get? hk]

theorem mem_modify {d : Dict α β} {k : α} {f : β → β} {e : α × β} (h : e ∈ modify d k f) :
    e ∈ d ∨ ∃ v, (k, v) ∈ d ∧ e = (k, f v) := by
  induction d with
  | nil => cases h
  | cons e' d ih =>
    by_cases hk : e'.1 = k
    · simp only [modify, hk, if_true, List.mem_cons] at h
      rcases h with h | h
      · exact .inr ⟨e'.2, by simp [← hk], h⟩
      · exact .inl (List.mem_cons_of_mem _ h)
    · simp only [modify, hk, if_false, List.mem_cons] at h
      rcases h with h | h
      · exact .inl (by simp [h])
      · rcases ih h with h | ⟨v, hv, h⟩
        · exact .inl (List.mem_cons_of_mem _ h)
        · exact .inr ⟨v, List.mem_cons_of_mem _ hv, h⟩

/-! ## Changing every value -/

omit [DecidableEq α] in
@[simp] theorem keys_mapVal (f : β → γ) (d : Dict α β) : keys (mapVal f d) = keys d := by
  simp [keys, mapVal]

@[simp] theorem get?_mapVal (f : β → γ) (d : Dict α β) (k : α) : get? (mapVal f d) k = (get? d k).map f := by
  induction d with
  | nil => rfl
  | cons e d ih =>
    have ih' : get? (d.map fun e => (e.1, f e.2)) k = (get? d k).map f := ih
    by_cases h : e.1 = k <;> simp [mapVal, get?, h, ih']

theorem mapVal_set (f : β → γ) (d : Dict α β) (k : α) (v : β) : mapVal f (set d k v) = set (mapVal f d) k (f v) := by
  induction d with
  | nil => rfl
  | cons e d ih =>
    have ih' : (set d k v).map (fun e => (e.1, f e.2)) = set (d.map fun e => (e.1, f e.2)) k (f v) := ih
    by_cases h : e.1 = k <;> simp [mapVal, set, h, ih']

/-- A change that `f` does not see disappears under `mapVal f`. -/
theorem mapVal_modify {f : β → γ} {g : β → β} (h : ∀ v, f (g v) = f v) (d : Dict α β) (k : α) :
    mapVal f (modify d k g) = mapVal f d := by
  induction d with
  | nil => rfl
  | cons e d ih =>
    have ih' : (modify d k g).map (fun e => (e.1, f e.2)) = d.map fun e => (e.1, f e.2) := ih
    by_cases hk : e.1 = k <;> simp [mapVal, modify, hk, h, ih']

/-! ## Extensionality -/

/-- Distinct keys in the same order, and the same lookups: the same dictionary. -/
theorem ext_of_keys : ∀ {d d' : Dict α β}, (keys d).Nodup → keys d = keys d' → (∀ k, get? d k = get? d' k) → d = d'
  | [], [], _, _, _ => rfl
  | [], _ :: _, _, h, _ => by cases h
  | _ :: _, [], _, h, _ => by cases h
  | (k, v) :: d, (k', v') :: d', hd, h, hg => by
    simp only [keys_cons, List.cons.injEq] at h
    obtain ⟨rfl, hk⟩ := h
    rw [keys_cons, List.nodup_cons] at hd
    have hv : v = v' := by simpa using hg k
    subst hv
    have hrest : d = d' := ext_of_keys hd.2 hk fun j => by
      by_cases hj : k = j
      · subst hj
        rw [get?_eq_none_iff.2 hd.1, get?_eq_none_iff.2 (hk ▸ hd.1)]
      · simpa [get?_cons_ne hj] using hg j
    rw [hrest]

end Dict

end Iprotate
