import Mathlib.Data.List.Basic

/-!
# Runs of a machine

A machine is a partial step function over events: `step s a = none` when event `a` is not possible in state `s`.

- `exec` is the state after a list of events;
- `Along` says that a guard holds at every event of a run;
- what every guarded step preserves, every guarded run preserves (`exec_invariant`);
- if the guard says exactly which steps preserve a property, the property holds all along a run exactly if the guard
  does (`along_iff`).
-/

namespace Iprotate

variable {σ α : Type} {step : σ → α → Option σ} {Guard : σ → α → Prop} {s s' : σ} {a : α} {as : List α}

/-- The state after a list of events. -/
def exec (step : σ → α → Option σ) : σ → List α → Option σ
  | s, [] => some s
  | s, a :: as => (step s a).bind (exec step · as)

/-- The guard holds at every event of the run. -/
def Along (step : σ → α → Option σ) (Guard : σ → α → Prop) : σ → List α → Prop
  | _, [] => True
  | s, a :: as => Guard s a ∧ ∀ s', step s a = some s' → Along step Guard s' as

instance Along.decidable [∀ s a, Decidable (Guard s a)] : ∀ (s : σ) (as : List α), Decidable (Along step Guard s as)
  | _, [] => isTrue trivial
  | s, a :: as =>
    match h : step s a with
    | none => decidable_of_iff (Guard s a) (by simp [Along, h])
    | some t =>
      have := Along.decidable t as
      decidable_of_iff (Guard s a ∧ Along step Guard t as) (by simp [Along, h])

theorem Along.of_forall {P : α → Prop} : ∀ {as : List α} {s : σ}, (∀ a ∈ as, P a) → Along step (fun _ => P) s as
  | [], _, _ => trivial
  | a :: _, _, h => ⟨h a List.mem_cons_self, fun _ _ => .of_forall fun b hb => h b (List.mem_cons_of_mem _ hb)⟩

theorem exec_cons_eq_some : exec step s (a :: as) = some s' ↔ ∃ t, step s a = some t ∧ exec step t as = some s' := by
  simp [exec, Option.bind_eq_some_iff]

theorem Along.of_append {bs : List α} : ∀ {as : List α} {s : σ}, Along step Guard s (as ++ bs) →
    Along step Guard s as ∧ ∀ t, exec step s as = some t → Along step Guard t bs
  | [], s, h => ⟨trivial, fun t ht => by cases ht; exact h⟩
  | a :: as, s, h => by
    refine ⟨⟨h.1, fun t ht => (Along.of_append (h.2 t ht)).1⟩, fun t ht => ?_⟩
    obtain ⟨u, hu, hrest⟩ := exec_cons_eq_some.1 ht
    exact (Along.of_append (h.2 u hu)).2 t hrest

theorem Along.append {bs : List α} : ∀ {as : List α} {s : σ}, Along step Guard s as →
    (∀ t, exec step s as = some t → Along step Guard t bs) → Along step Guard s (as ++ bs)
  | [], _, _, hbs => hbs _ rfl
  | _ :: _, _, has, hbs => ⟨has.1, fun u hu => (has.2 u hu).append fun t ht => hbs t (exec_cons_eq_some.2 ⟨u, hu, ht⟩)⟩

/-- **What every guarded step preserves, every guarded run preserves.** -/
theorem exec_invariant {I : σ → Prop} (h : ∀ s a s', I s → Guard s a → step s a = some s' → I s') :
    ∀ {as : List α} {s s' : σ}, exec step s as = some s' → Along step Guard s as → I s → I s'
  | [], s, s', he, _, hi => by cases he; exact hi
  | a :: as, s, s', he, hg, hi => by
    obtain ⟨t, ht, he⟩ := exec_cons_eq_some.1 he
    exact exec_invariant h he (hg.2 t ht) (h s a t hi hg.1 ht)

/-- **A property that exactly the guarded steps preserve holds all along exactly the guarded runs.** -/
theorem along_iff {I : σ → Prop} (h : ∀ s a s', I s → step s a = some s' → (I s' ↔ Guard s a)) :
    ∀ {as : List α} {s s' : σ}, I s → exec step s as = some s' →
    ((∀ pre t, pre <+: as → exec step s pre = some t → I t) ↔ Along step Guard s as)
  | [], s, s', hi, _ => by
    refine ⟨fun _ => trivial, fun _ pre t hp ht => ?_⟩
    rw [List.prefix_nil.1 hp] at ht
    cases ht
    exact hi
  | a :: as, s, s', hi, he => by
    obtain ⟨u, hu, hrun⟩ := exec_cons_eq_some.1 he
    constructor
    · intro hall
      have hi' : I u := hall [a] u (List.prefix_append [a] as) (exec_cons_eq_some.2 ⟨u, hu, rfl⟩)
      refine ⟨(h s a u hi hu).1 hi', fun v hv => ?_⟩
      rw [hu] at hv
      cases hv
      refine (along_iff h hi' hrun).1 fun pre t hp ht => ?_
      exact hall (a :: pre) t (List.cons_prefix_cons.2 ⟨rfl, hp⟩) (exec_cons_eq_some.2 ⟨u, hu, ht⟩)
    · rintro ⟨hg, hrest⟩ pre t hp ht
      cases pre with
      | nil => cases ht; exact hi
      | cons b pre =>
        obtain ⟨rfl, hpre⟩ := List.cons_prefix_cons.1 hp
        obtain ⟨v, hv, hrest'⟩ := exec_cons_eq_some.1 ht
        rw [hu] at hv
        cases hv
        exact (along_iff h ((h s b u hi hu).2 hg) hrun).2 (hrest u hu) pre t hpre hrest'

end Iprotate
