import Mathlib.Data.List.Basic

/-!
# Events that leave no trace

A machine answers every event. Some events are hidden; which ones can depend on the state they come in.

- `purge` drops the hidden events of a run, `seen` and `unseen` are the answers to the others and to the hidden ones.
- A relation of states unwinds (`Unwinding`) if a hidden event does not leave it, and any other event is answered the
  same in related states and leads to related ones. Then a run without its hidden events is answered as it was with
  them, and ends in a related state (`Unwinding.no_trace`).
-/

namespace Iprotate

variable {σ α β : Type}

/-- The answers to the events, and the state after them. -/
def outcome (step : σ → α → β × σ) : σ → List α → List β × σ
  | s, [] => ([], s)
  | s, a :: as => ((step s a).1 :: (outcome step (step s a).2 as).1, (outcome step (step s a).2 as).2)

/-- The events that are not hidden. -/
def purge (step : σ → α → β × σ) (hidden : σ → α → Bool) : σ → List α → List α
  | _, [] => []
  | s, a :: as => if hidden s a then purge step hidden (step s a).2 as else a :: purge step hidden (step s a).2 as

/-- The answers to the events that are not hidden. -/
def seen (step : σ → α → β × σ) (hidden : σ → α → Bool) : σ → List α → List β
  | _, [] => []
  | s, a :: as =>
    if hidden s a then seen step hidden (step s a).2 as else (step s a).1 :: seen step hidden (step s a).2 as

/-- The answers to the hidden events. -/
def unseen (step : σ → α → β × σ) (hidden : σ → α → Bool) : σ → List α → List β
  | _, [] => []
  | s, a :: as =>
    if hidden s a then (step s a).1 :: unseen step hidden (step s a).2 as else unseen step hidden (step s a).2 as

/-- A relation of states that hidden events cannot leave, and that any other event cannot tell. -/
structure Unwinding (step : σ → α → β × σ) (hidden : σ → α → Bool) (R : σ → σ → Prop) : Prop where
  hides : ∀ s t a, R s t → hidden s a = true → R (step s a).2 t
  agrees : ∀ s t a, R s t → hidden s a = false → (step s a).1 = (step t a).1 ∧ R (step s a).2 (step t a).2

variable {step : σ → α → β × σ} {hidden : σ → α → Bool} {R : σ → σ → Prop}

/-- **The hidden events leave no trace.** -/
theorem Unwinding.no_trace (h : Unwinding step hidden R) : ∀ (as : List α) {s t : σ}, R s t →
    (outcome step t (purge step hidden s as)).1 = seen step hidden s as ∧
      R (outcome step s as).2 (outcome step t (purge step hidden s as)).2
  | [], _, _, hr => ⟨rfl, hr⟩
  | a :: as, s, t, hr => by
    cases ha : hidden s a with
    | true =>
      have hrest := Unwinding.no_trace h as (h.hides s t a hr ha)
      simp only [purge, seen, outcome, ha, if_true]
      exact hrest
    | false =>
      obtain ⟨heq, hnext⟩ := h.agrees s t a hr ha
      have hrest := Unwinding.no_trace h as hnext
      simp only [purge, seen, outcome, ha, Bool.false_eq_true, if_false]
      exact ⟨by rw [heq, hrest.1], hrest.2⟩

/-- What is said of each hidden answer holds of all. -/
theorem forall_unseen {P : β → Prop} (h : ∀ s a, hidden s a = true → P (step s a).1) :
    ∀ (as : List α) (s : σ), ∀ b ∈ unseen step hidden s as, P b
  | [], _, _, hb => by cases hb
  | a :: as, s, b, hb => by
    unfold unseen at hb
    split at hb
    · rename_i ha
      rcases List.mem_cons.1 hb with rfl | hb
      · exact h s a ha
      · exact forall_unseen h as _ b hb
    · exact forall_unseen h as _ b hb

end Iprotate
