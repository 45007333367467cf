import Mathlib.Logic.Basic

/-!
# Programs with a state and exceptions

A program takes a state to a result or an exception, and to a state in both cases: what was done before an exception
stays done.

- `Prog.Triple P m Q E`: from a state with `P`, the program ends normally with `Q` or by an exception with `E`;
- one rule for each way to build a program (`Triple.pure`, `Triple.bind`, `Triple.tryCatch`, …), and for loops over a
  list (`Triple.each`);
- `Prog.Keeps I m`: the program keeps the property `I` of states, however it ends, with rules of the same names.
-/

namespace Iprotate

theorem except_bind_eq_ok {ε α β : Type} {x : Except ε α} {f : α → Except ε β} {b : β} :
    (x >>= f) = .ok b ↔ ∃ a, x = .ok a ∧ f a = .ok b := by
  cases x with
  | error e => exact ⟨fun h => (by cases h), fun ⟨_, h, _⟩ => (by cases h)⟩
  | ok a => exact ⟨fun h => ⟨a, rfl, h⟩, fun ⟨_, h, h'⟩ => by cases h; exact h'⟩

/-- A computation that was seen to return. -/
theorem except_exists_ok {ε α : Type} {x : Except ε α} (h : x.toOption.isSome = true) : ∃ a, x = .ok a := by
  cases x with
  | ok a => exact ⟨a, rfl⟩
  | error e => cases h

/-- A program over states `σ` with exceptions `ε`. -/
def Prog (σ ε α : Type) : Type := σ → Except ε α × σ

namespace Prog

variable {σ ε α β : Type}

instance : Monad (Prog σ ε) where
  pure a := fun s => (.ok a, s)
  bind m f := fun s =>
    match m s with
    | (.ok a, t) => f a t
    | (.error e, t) => (.error e, t)

instance : MonadExceptOf ε (Prog σ ε) where
  throw e := fun s => (.error e, s)
  tryCatch m h := fun s =>
    match m s with
    | (.ok a, t) => (.ok a, t)
    | (.error e, t) => h e t

instance : MonadStateOf σ (Prog σ ε) where
  get := fun s => (.ok s, s)
  set t := fun _ => (.ok (), t)
  modifyGet f := fun s => (.ok (f s).1, (f s).2)

/-- A computation without effects. -/
def ofExcept (x : Except ε α) : Prog σ ε α := fun s => (x, s)

/-- Run a program for each element of a list. -/
def each (f : α → Prog σ ε Unit) : List α → Prog σ ε Unit
  | [] => pure ()
  | a :: as => do f a; each f as

/-! ## Running -/

@[simp] theorem run_pure (a : α) (s : σ) : (Pure.pure a : Prog σ ε α) s = (.ok a, s) := rfl

@[simp] theorem run_throw (e : ε) (s : σ) : (throw e : Prog σ ε α) s = (.error e, s) := rfl

@[simp] theorem run_get (s : σ) : (get : Prog σ ε σ) s = (.ok s, s) := rfl

@[simp] theorem run_set (s t : σ) : (set t : Prog σ ε Unit) s = (.ok (), t) := rfl

@[simp] theorem run_modify (f : σ → σ) (s : σ) : (modify f : Prog σ ε Unit) s = (.ok (), f s) := rfl

@[simp] theorem run_ofExcept (x : Except ε α) (s : σ) : (ofExcept x : Prog σ ε α) s = (x, s) := rfl

theorem run_bind (m : Prog σ ε α) (f : α → Prog σ ε β) (s : σ) : (m >>= f) s =
    match m s with
    | (.ok a, t) => f a t
    | (.error e, t) => (.error e, t) := rfl

theorem run_bind_ok {m : Prog σ ε α} {f : α → Prog σ ε β} {s t : σ} {a : α} (h : m s = (.ok a, t)) :
    (m >>= f) s = f a t := by rw [run_bind, h]

theorem run_bind_error {m : Prog σ ε α} {f : α → Prog σ ε β} {s t : σ} {e : ε} (h : m s = (.error e, t)) :
    (m >>= f) s = (.error e, t) := by rw [run_bind, h]

/-- A sequence returns exactly if both of its parts do. -/
theorem bind_eq_ok {m : Prog σ ε α} {f : α → Prog σ ε β} {s t : σ} {b : β} :
    (m >>= f) s = (.ok b, t) ↔ ∃ a u, m s = (.ok a, u) ∧ f a u = (.ok b, t) := by
  rw [run_bind]
  cases m s with
  | mk x u =>
    cases x with
    | ok a => exact ⟨fun h => ⟨a, u, rfl, h⟩, fun ⟨_, _, h, h'⟩ => by cases h; exact h'⟩
    | error e => exact ⟨fun h => (by cases h), fun ⟨_, _, h, _⟩ => (by cases h)⟩

theorem pure_bind (a : α) (f : α → Prog σ ε β) : Pure.pure a >>= f = f a := rfl

theorem bind_assoc {γ : Type} (m : Prog σ ε α) (f : α → Prog σ ε β) (g : β → Prog σ ε γ) :
    m >>= f >>= g = m >>= fun a => f a >>= g := by
  funext s
  rw [run_bind (m >>= f), run_bind m f, run_bind m]
  cases m s with
  | mk x t => cases x <;> rfl

/-- A program that was seen to return. -/
theorem exists_ok {m : Prog σ ε α} {s : σ} (h : (m s).1.toOption.isSome = true) : ∃ a t, m s = (.ok a, t) := by
  obtain ⟨a, ha⟩ := except_exists_ok h
  exact ⟨a, (m s).2, Prod.ext ha rfl⟩

theorem run_tryCatch (m : Prog σ ε α) (h : ε → Prog σ ε α) (s : σ) : (tryCatch m h) s =
    match m s with
    | (.ok a, t) => (.ok a, t)
    | (.error e, t) => h e t := rfl

/-! ## Triples -/

/-- From a state with `P`, the program returns with `Q` or raises with `E`. -/
def Triple (P : σ → Prop) (m : Prog σ ε α) (Q : α → σ → Prop) (E : ε → σ → Prop) : Prop :=
  ∀ s, P s → match m s with
    | (.ok a, t) => Q a t
    | (.error e, t) => E e t

namespace Triple

variable {P P' : σ → Prop} {m : Prog σ ε α} {f : α → Prog σ ε β} {Q Q' : α → σ → Prop} {R : β → σ → Prop}
  {E E' : ε → σ → Prop}

theorem ok (h : Triple P m Q E) {s t : σ} {a : α} (hs : P s) (hm : m s = (.ok a, t)) : Q a t := by
  have := h s hs
  rwa [hm] at this

theorem error (h : Triple P m Q E) {s t : σ} {e : ε} (hs : P s) (hm : m s = (.error e, t)) : E e t := by
  have := h s hs
  rwa [hm] at this

theorem pure {a : α} (h : ∀ s, P s → Q a s) : Triple P (Pure.pure a) Q E := h

theorem throw {e : ε} (h : ∀ s, P s → E e s) : Triple P (throw e) Q E := h

theorem ofExcept {x : Except ε α} (hok : ∀ a s, x = .ok a → P s → Q a s) (herr : ∀ e s, x = .error e → P s → E e s) :
    Triple P (ofExcept x) Q E := by
  intro s hs
  cases x with
  | ok a => exact hok a s rfl hs
  | error e => exact herr e s rfl hs

theorem bind (hm : Triple P m Q E) (hf : ∀ a, Triple (Q a) (f a) R E) : Triple P (m >>= f) R E := by
  intro s hs
  have h := hm s hs
  rw [run_bind]
  cases hr : m s with
  | mk r t =>
    rw [hr] at h
    cases r with
    | ok a => exact hf a t h
    | error e => exact h

theorem tryCatch {h : ε → Prog σ ε α} (hm : Triple P m Q E) (hh : ∀ e, Triple (E e) (h e) Q E') :
    Triple P (tryCatch m h) Q E' := by
  intro s hs
  have h' := hm s hs
  rw [run_tryCatch]
  cases hr : m s with
  | mk r t =>
    rw [hr] at h'
    cases r with
    | ok a => exact h'
    | error e => exact hh e t h'

theorem conseq (h : Triple P m Q E) (hP : ∀ s, P' s → P s) (hQ : ∀ a s, Q a s → Q' a s) (hE : ∀ e s, E e s → E' e s) :
    Triple P' m Q' E' := by
  intro s hs
  have := h s (hP s hs)
  cases hr : m s with
  | mk r t =>
    rw [hr] at this
    cases r with
    | ok a => exact hQ a t this
    | error e => exact hE e t this

/-- Two things that are brought about stand beside each other. -/
theorem and (h : Triple P m Q E) (h' : Triple P' m Q' E') :
    Triple (fun s => P s ∧ P' s) m (fun a s => Q a s ∧ Q' a s) (fun e s => E e s ∧ E' e s) := by
  intro s hs
  have hfirst := h s hs.1
  have hsecond := h' s hs.2
  cases hr : m s with
  | mk r t =>
    rw [hr] at hfirst hsecond
    cases r with
    | ok a => exact ⟨hfirst, hsecond⟩
    | error e => exact ⟨hfirst, hsecond⟩

theorem get : Triple P (get : Prog σ ε σ) (fun a s => a = s ∧ P s) E := fun _ hs => ⟨rfl, hs⟩

theorem modify {g : σ → σ} {Q : Unit → σ → Prop} (h : ∀ s, P s → Q () (g s)) :
    Triple P (modify g : Prog σ ε Unit) Q E := h

/-- A loop keeps what each round keeps. -/
theorem each {I : σ → Prop} {g : α → Prog σ ε Unit} : ∀ {as : List α},
    (∀ a ∈ as, Triple I (g a) (fun _ => I) (fun _ => I)) → Triple I (each g as) (fun _ => I) (fun _ => I)
  | [], _ => pure fun _ h => h
  | a :: _, h => bind (h a List.mem_cons_self) fun _ => each fun b hb => h b (List.mem_cons_of_mem _ hb)

end Triple

/-! ## Properties that are kept -/

/-- The program keeps the property, whether it returns or raises. -/
def Keeps (I : σ → Prop) (m : Prog σ ε α) : Prop := ∀ s, I s → I (m s).2

namespace Keeps

variable {I : σ → Prop} {m : Prog σ ε α} {f : α → Prog σ ε β}

theorem triple (h : Keeps I m) : Triple I m (fun _ => I) (fun _ => I) := by
  intro s hs
  have := h s hs
  cases hr : m s with
  | mk r t =>
    rw [hr] at this
    cases r <;> exact this

theorem of_triple {Q : α → σ → Prop} {E : ε → σ → Prop} (h : Triple I m Q E) (hQ : ∀ a s, Q a s → I s)
    (hE : ∀ e s, E e s → I s) : Keeps I m := by
  intro s hs
  have := h s hs
  cases hr : m s with
  | mk r t =>
    rw [hr] at this
    cases r with
    | ok a => exact hQ a t this
    | error e => exact hE e t this

/-- What is kept stands beside what is brought about. -/
theorem and {P : σ → Prop} {Q : α → σ → Prop} {E : ε → σ → Prop} (h : Keeps I m) (hm : Triple P m Q E) :
    Triple (fun s => P s ∧ I s) m (fun a s => Q a s ∧ I s) (fun e s => E e s ∧ I s) := Triple.and hm h.triple

theorem pure (a : α) : Keeps I (Pure.pure a : Prog σ ε α) := fun _ h => h

theorem throw (e : ε) : Keeps I (throw e : Prog σ ε α) := fun _ h => h

theorem ofExcept (x : Except ε α) : Keeps I (ofExcept x : Prog σ ε α) := fun _ h => h

theorem get : Keeps I (get : Prog σ ε σ) := fun _ h => h

theorem modify {g : σ → σ} (h : ∀ s, I s → I (g s)) : Keeps I (modify g : Prog σ ε Unit) := h

theorem bind (hm : Keeps I m) (hf : ∀ a, Keeps I (f a)) : Keeps I (m >>= f) := by
  intro s hs
  have h := hm s hs
  rw [run_bind]
  cases hr : m s with
  | mk r t =>
    rw [hr] at h
    cases r with
    | ok a => exact hf a t h
    | error e => exact h

theorem run (h : Keeps I m) {s t : σ} {x : Except ε α} (hm : m s = (x, t)) (hs : I s) : I t := by
  have := h s hs
  rwa [hm] at this

/-- What the first part brings about, the rest keeps. -/
theorem after (hf : ∀ a, Keeps I (f a)) {s : σ} (hm : I (m s).2) : I ((m >>= f) s).2 := by
  rw [run_bind]
  cases hr : m s with
  | mk r t =>
    rw [hr] at hm
    cases r with
    | ok a => exact hf a t hm
    | error e => exact hm

theorem tryCatch {h : ε → Prog σ ε α} (hm : Keeps I m) (hh : ∀ e, Keeps I (h e)) : Keeps I (tryCatch m h) := by
  intro s hs
  have h' := hm s hs
  rw [run_tryCatch]
  cases hr : m s with
  | mk r t =>
    rw [hr] at h'
    cases r with
    | ok a => exact h'
    | error e => exact hh e t h'

theorem ite {c : Prop} [Decidable c] {m m' : Prog σ ε α} (hm : Keeps I m) (hm' : Keeps I m') :
    Keeps I (if c then m else m') := by
  split
  · exact hm
  · exact hm'

theorem each {g : α → Prog σ ε Unit} (h : ∀ a, Keeps I (g a)) : ∀ as : List α, Keeps I (each g as)
  | [] => pure ()
  | a :: as => bind (h a) fun _ => each h as

end Keeps

end Prog
end Iprotate
