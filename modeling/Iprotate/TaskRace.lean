import Iprotate.Base.Run
import Iprotate.TaskManager

/-!
# Handlers against task threads

The requests that start tasks, and the task threads, as they share the records of `TaskManager`. A handler looks its
record up, logs in, reads the status (two of the five do) and starts a thread; a task thread marks the record busy,
runs the method, notes its end and puts a new record in place. All these steps interleave freely.

- While no start, reset of the status or status check falls into a window of another task (`Guard`), a profile has one
  unfinished task at most and its record is busy as long as that runs (`Invariant.step`).
- So in such runs no two methods run for one profile, and whoever arrives while one runs is told so
  (`one_task_at_a_time`).
- Without that, two requests that read the status before the other's thread marks it start two tasks
  (`both_checks_pass`).
-/

namespace Iprotate
namespace TaskRace

/-! ## The machine -/

/-- What a request was told. -/
inductive Answered
  | busy
  | started
  /-- The login failed. -/
  | failed
  /-- The new region is the old one. -/
  | sameRegion
  /-- An exception. -/
  | error
  deriving DecidableEq

inductive HandlerStage
  /-- The key was good. -/
  | arrived
  /-- `register_profile` has found no record. -/
  | unregistered
  | registered
  | loggedIn
  /-- The status was idle, when this many threads had been started. -/
  | cleared (started : Nat)
  | answered (a : Answered)
  deriving DecidableEq

structure Handler where
  kind : TaskType
  name : Str
  stage : HandlerStage
  /-- A task of the profile was running when the request arrived. -/
  during : Bool

inductive TaskStage
  | starting
  | marked
  /-- In the task method. -/
  | running
  | stopping
  | reloading
  | done
  /-- Ended by an exception. -/
  | dead
  deriving DecidableEq

structure TaskThread where
  kind : TaskType
  name : Str
  stage : TaskStage

structure State where
  profile : Dict Str Record
  handlers : List Handler
  tasks : List TaskThread

inductive Event
  | arrive (kind : TaskType) (name : Str)
  /-- The handler looks for the record. -/
  | lookup (i : Nat)
  /-- `register_profile` stores a new record. -/
  | register (i : Nat) (aws : AwsConfig)
  | login (i : Nat)
  /-- The login raises: `set_stop_task`. -/
  | loginFails (i : Nat) (message : Json PyError) (time : Nat)
  | sameRegion (i : Nat)
  | readStatus (i : Nat)
  | spawn (i : Nat)
  | markBusy (j taskStart lastStart : Nat)
  /-- `RunTask()`, and the method is called. -/
  | call (j : Nat)
  | return (j : Nat)
  | setStopTask (j : Nat) (result : Str) (data : Json PyError) (time : Nat)
  | reload (j : Nat) (aws : AwsConfig)
  /-- An exception outside the method. -/
  | die (j : Nat)

namespace TaskStage

def unfinished : TaskStage → Bool
  | .done | .dead => false
  | _ => true

/-- From the mark to `set_stop_task`. -/
def holdsStatus : TaskStage → Bool
  | .marked | .running | .stopping => true
  | _ => false

end TaskStage

/-- The two handlers that read the status. -/
def checksStatus : TaskType → Bool
  | .changeIp | .changeRegion => true
  | _ => false

namespace State

variable (s : State)

/-- A task method runs for the profile. -/
def Running (name : Str) : Prop := ∃ t ∈ s.tasks, t.name = name ∧ t.stage = .running

instance (name : Str) : Decidable (s.Running name) := inferInstanceAs (Decidable (∃ t ∈ s.tasks, _))

/-- The profile has a task thread that is not over. -/
def Unfinished (name : Str) : Prop := ∃ t ∈ s.tasks, t.name = name ∧ t.stage.unfinished = true

/-- A thread of the profile is before its mark, or between `set_stop_task` and the end of `reload_profile`. -/
def InWindow (name : Str) : Prop := ∃ t ∈ s.tasks, t.name = name ∧ (t.stage = .starting ∨ t.stage = .reloading)

def setHandler (i : Nat) (h : Handler) (stage : HandlerStage) : State :=
  { s with handlers := s.handlers.set i { h with stage } }

def setTask (j : Nat) (t : TaskThread) (stage : TaskStage) : State :=
  { s with tasks := s.tasks.set j { t with stage } }

def setRecord (name : Str) (r : Record) : State := { s with profile := s.profile.set name r }

end State

def start (profile : Dict Str Record) : State := ⟨profile, [], []⟩

/-- A step of a handler. -/
def handlerStep (s : State) (i : Nat) (h : Handler) : Event → Option State
  | .lookup _ =>
    if h.stage = .arrived then
      match h.kind, s.profile.get? h.name with
      | .changeIp, none => some (s.setHandler i h .unregistered)
      | .changeRegion, none => some (s.setHandler i h (.answered .error))
      | .changeWhitelist, _ => some (s.setHandler i h .loggedIn)
      | _, _ => some (s.setHandler i h .registered)
    else none
  | .register _ aws =>
    if h.stage = .unregistered then some ((s.setRecord h.name (.new aws)).setHandler i h .registered) else none
  | .login _ => if h.stage = .registered then some (s.setHandler i h .loggedIn) else none
  | .loginFails _ message time =>
    if h.stage = .registered then
      match s.profile.get? h.name with
      | some r => some ((s.setRecord h.name (r.setStopTask "failed" message time)).setHandler i h (.answered .failed))
      | none => some (s.setHandler i h (.answered .error))
    else none
  | .sameRegion _ =>
    if h.stage = .loggedIn ∧ h.kind = .changeRegion then some (s.setHandler i h (.answered .sameRegion)) else none
  | .readStatus _ =>
    if h.stage = .loggedIn ∧ checksStatus h.kind then
      match s.profile.get? h.name with
      | none => none
      | some r =>
        match r.status with
        | .busy => some (s.setHandler i h (.answered .busy))
        | .idle => some (s.setHandler i h (.cleared s.tasks.length))
    else none
  | .spawn _ =>
    match h.stage with
    | .cleared _ =>
      some { s.setHandler i h (.answered .started) with tasks := s.tasks ++ [⟨h.kind, h.name, .starting⟩] }
    | .loggedIn =>
      if checksStatus h.kind then none
      else some { s.setHandler i h (.answered .started) with tasks := s.tasks ++ [⟨h.kind, h.name, .starting⟩] }
    | _ => none
  | _ => none

/-- A step of a task thread. -/
def taskStep (s : State) (j : Nat) (t : TaskThread) : Event → Option State
  | .markBusy _ taskStart lastStart =>
    if t.stage = .starting then
      (s.profile.get? t.name).map fun r =>
        (s.setRecord t.name (r.markBusy t.kind taskStart lastStart)).setTask j t .marked
    else none
  | .call _ => if t.stage = .marked then some (s.setTask j t .running) else none
  | .return _ => if t.stage = .running then some (s.setTask j t .stopping) else none
  | .setStopTask _ result data time =>
    if t.stage = .stopping then
      (s.profile.get? t.name).map fun r => (s.setRecord t.name (r.setStopTask result data time)).setTask j t .reloading
    else none
  | .reload _ aws =>
    if t.stage = .reloading then
      (s.profile.get? t.name).map fun r => (s.setRecord t.name (r.reload aws)).setTask j t .done
    else none
  | .die _ => if t.stage.unfinished ∧ t.stage ≠ .running then some (s.setTask j t .dead) else none
  | _ => none

def step (s : State) (e : Event) : Option State :=
  match e with
  | .arrive kind name => some { s with handlers := s.handlers ++ [⟨kind, name, .arrived, s.Running name⟩] }
  | .lookup i | .register i _ | .login i | .loginFails i _ _ | .sameRegion i | .readStatus i | .spawn i => do
    let h ← s.handlers[i]?
    handlerStep s i h e
  | .markBusy j _ _ | .call j | .return j | .setStopTask j _ _ _ | .reload j _ | .die j => do
    let t ← s.tasks[j]?
    taskStep s j t e

/-! ## The property and the condition -/

/-- No two methods run for one profile, and who arrived while one ran was answered that, if at all. -/
structure OneAtATime (s : State) : Prop where
  running : ∀ (i j : Nat) (t u : TaskThread), s.tasks[i]? = some t → s.tasks[j]? = some u → t.stage = .running →
    u.stage = .running →
    t.name = u.name → i = j
  busy : ∀ h ∈ s.handlers, h.during = true → ∀ a, h.stage = .answered a → a = .busy

/-- A handler that arrived while a task ran goes on only as long as a task runs. -/
def InTime (s : State) (h : Handler) : Prop := h.during = true → s.Running h.name

/-- The condition on a step of a handler. -/
def HandlerGuard (s : State) (h : Handler) : Event → Prop
  | .lookup _ | .login _ => InTime s h
  | .register _ _ | .loginFails _ _ _ => h.during = false ∧ ¬s.Unfinished h.name
  | .sameRegion _ => h.during = false
  | .readStatus _ => InTime s h ∧ ¬s.InWindow h.name
  | .spawn _ =>
    match h.stage with
    | .cleared started => ∀ t ∈ s.tasks.drop started, t.name ≠ h.name
    | _ => ¬s.Unfinished h.name
  | _ => True

/-- The condition on a step. -/
def Guard (s : State) (e : Event) : Prop :=
  match e with
  | .arrive kind name => s.Running name → checksStatus kind = true
  | .lookup i | .register i _ | .login i | .loginFails i _ _ | .sameRegion i | .readStatus i | .spawn i =>
    ∀ h ∈ s.handlers[i]?, HandlerGuard s h e
  | _ => True

instance (s : State) (name : Str) : Decidable (s.Unfinished name) := inferInstanceAs (Decidable (∃ t ∈ s.tasks, _))

instance (s : State) (name : Str) : Decidable (s.InWindow name) := inferInstanceAs (Decidable (∃ t ∈ s.tasks, _))

instance (s : State) (h : Handler) : Decidable (InTime s h) := inferInstanceAs (Decidable (_ → _))

instance (s : State) (h : Handler) : (e : Event) → Decidable (HandlerGuard s h e)
  | .lookup _ | .login _ => inferInstanceAs (Decidable (InTime s h))
  | .register _ _ | .loginFails _ _ _ => inferInstanceAs (Decidable (_ ∧ _))
  | .sameRegion _ => inferInstanceAs (Decidable (_ = _))
  | .readStatus _ => inferInstanceAs (Decidable (_ ∧ _))
  | .spawn _ => by
    unfold HandlerGuard
    cases h.stage <;> infer_instance
  | .arrive _ _ | .markBusy _ _ _ | .call _ | .return _ | .setStopTask _ _ _ _ | .reload _ _ | .die _ => isTrue trivial

instance (s : State) : (e : Event) → Decidable (Guard s e)
  | .arrive _ _ => inferInstanceAs (Decidable (_ → _))
  | .lookup i | .register i _ | .login i | .loginFails i _ _ | .sameRegion i | .readStatus i | .spawn i =>
    inferInstanceAs (Decidable (∀ h ∈ s.handlers[i]?, _))
  | .markBusy _ _ _ | .call _ | .return _ | .setStopTask _ _ _ _ | .reload _ _ | .die _ => isTrue trivial

/-! ## The invariant -/

/-- Where a handler that arrived while a task ran may be. -/
def Waiting (h : Handler) : Prop :=
  checksStatus h.kind = true ∧
    (h.stage = .arrived ∨ h.stage = .registered ∨ h.stage = .loggedIn ∨ h.stage = .answered .busy)

/-- No thread of the profile among the first so many is unfinished. -/
def Over (s : State) (name : Str) (started : Nat) : Prop :=
  started ≤ s.tasks.length ∧ ∀ (j : Nat) (t : TaskThread), s.tasks[j]? = some t → j < started → t.name = name →
    t.stage.unfinished = false

structure Invariant (s : State) : Prop where
  single : ∀ (i j : Nat) (t u : TaskThread), s.tasks[i]? = some t → s.tasks[j]? = some u → t.stage.unfinished = true →
    u.stage.unfinished = true → t.name = u.name → i = j
  busy : ∀ (j : Nat) (t : TaskThread), s.tasks[j]? = some t → t.stage.holdsStatus = true →
    ∃ r, s.profile.get? t.name = some r ∧ r.status = .busy
  cleared : ∀ h ∈ s.handlers, ∀ started, h.stage = .cleared started → Over s h.name started
  during : ∀ h ∈ s.handlers, h.during = true → Waiting h

variable {s s' : State}

theorem Invariant.start (profile : Dict Str Record) : Invariant (start profile) :=
  ⟨fun _ _ _ _ h => (by cases h), fun _ _ h => (by cases h), fun _ h => (by cases h), fun _ h => (by cases h)⟩

/-- In a state with the invariant one task runs at a time. -/
theorem Invariant.oneAtATime (h : Invariant s) : OneAtATime s where
  running i j t u hi hj ht hu hn := h.single i j t u hi hj (by rw [ht]; rfl) (by rw [hu]; rfl) hn
  busy hd hm hdur a ha := by
    obtain ⟨_, hst | hst | hst | hst⟩ := h.during hd hm hdur
    all_goals
      rw [ha] at hst
      cases hst
    rfl

/-- A running task has a busy record. -/
theorem Invariant.record_of_running (h : Invariant s) {name : Str} (hr : s.Running name) :
    ∃ r, s.profile.get? name = some r ∧ r.status = .busy := by
  obtain ⟨t, ht, rfl, hst⟩ := hr
  obtain ⟨j, hj⟩ := List.getElem?_of_mem ht
  exact h.busy j t hj (by rw [hst]; rfl)

/-! ### What each kind of change keeps -/

/-- A handler moves on. -/
theorem Invariant.setHandler (h : Invariant s) (i : Nat) {hd : Handler} {stage : HandlerStage}
    (hcleared : ∀ started, stage = .cleared started → Over s hd.name started)
    (hduring : hd.during = true → Waiting { hd with stage }) : Invariant (s.setHandler i hd stage) where
  single := h.single
  busy := h.busy
  cleared h' hm started hst := by
    rcases List.mem_or_eq_of_mem_set hm with hm | rfl
    · exact h.cleared h' hm started hst
    · exact hcleared started hst
  during h' hm hdur := by
    rcases List.mem_or_eq_of_mem_set hm with hm | rfl
    · exact h.during h' hm hdur
    · exact hduring hdur

/-- A task thread moves on. -/
theorem Invariant.setTask (h : Invariant s) {j : Nat} {t : TaskThread} (hj : s.tasks[j]? = some t)
    {stage : TaskStage} (ht : t.stage.unfinished = true)
    (hbusy : stage.holdsStatus = true → ∃ r, s.profile.get? t.name = some r ∧ r.status = .busy) :
    Invariant (s.setTask j t stage) := by
  -- a thread after the step was one before it, with the same name, and unfinished if it is now
  have hold : ∀ (i : Nat) u, (s.setTask j t stage).tasks[i]? = some u →
      ∃ v, s.tasks[i]? = some v ∧ v.name = u.name ∧ (u.stage.unfinished = true → v.stage.unfinished = true) ∧
        (u = v ∨ i = j ∧ u = { t with stage }) := by
    intro i u hu
    simp only [State.setTask, List.getElem?_set] at hu
    split at hu
    · rename_i hij
      subst hij
      split at hu
      · cases hu
        exact ⟨t, hj, rfl, fun _ => ht, .inr ⟨rfl, rfl⟩⟩
      · cases hu
    · exact ⟨u, hu, rfl, id, .inl rfl⟩
  refine ⟨fun i k u v hi hk hu hv hn => ?_, fun i u hi hu => ?_, fun hd hm n hst => ⟨?_, fun i u hi hlt hn => ?_⟩,
    h.during⟩
  · obtain ⟨u', hu', hnu, hsu, _⟩ := hold i u hi
    obtain ⟨v', hv', hnv, hsv, _⟩ := hold k v hk
    exact h.single i k u' v' hu' hv' (hsu hu) (hsv hv) (by rw [hnu, hnv, hn])
  · obtain ⟨v, hv, _, _, rfl | ⟨_, rfl⟩⟩ := hold i u hi
    · exact h.busy i u hv hu
    · exact hbusy hu
  · simpa [State.setTask] using (h.cleared hd hm n hst).1
  · obtain ⟨v, hv, hnv, hsv, _⟩ := hold i u hi
    have := (h.cleared hd hm n hst).2 i v hv hlt (hnv.trans hn)
    by_contra hc
    rw [hsv (by simpa using hc)] at this
    cases this

/-- A record changes; it stays busy if a task relies on it. -/
theorem Invariant.setRecord (h : Invariant s) {name : Str} {r : Record}
    (hr : r.status = .busy ∨ ∀ (j : Nat) (t : TaskThread), s.tasks[j]? = some t → t.name = name →
      t.stage.holdsStatus = false) :
    Invariant (s.setRecord name r) where
  single := h.single
  busy j t hj ht := by
    by_cases hn : t.name = name
    · rcases hr with hr | hr
      · exact ⟨r, by rw [hn]; exact Dict.get?_set_self .., hr⟩
      · rw [hr j t hj hn] at ht
        cases ht
    · obtain ⟨r', hr', hb⟩ := h.busy j t hj ht
      exact ⟨r', (Dict.get?_set_ne _ (Ne.symm hn) r).trans hr', hb⟩
  cleared := h.cleared
  during := h.during

/-- A thread starts for a profile without an unfinished one. -/
theorem Invariant.spawn (h : Invariant s) {kind : TaskType} {name : Str} (hnone : ¬s.Unfinished name) :
    Invariant { s with tasks := s.tasks ++ [⟨kind, name, .starting⟩] } := by
  have hnew : ∀ (i : Nat) u, (s.tasks ++ [⟨kind, name, .starting⟩])[i]? = some u →
      s.tasks[i]? = some u ∨ i = s.tasks.length ∧ u = ⟨kind, name, .starting⟩ := by
    intro i u hu
    rw [List.getElem?_append] at hu
    split at hu
    · exact .inl hu
    · rename_i hlt
      have hi : i - s.tasks.length = 0 := by
        by_contra hc
        rw [List.getElem?_eq_none (by simp; omega)] at hu
        cases hu
      rw [hi] at hu
      cases hu
      exact .inr ⟨by omega, rfl⟩
  have hold : ∀ (i : Nat) u, s.tasks[i]? = some u → u.stage.unfinished = true → u.name ≠ name := fun i u hu hs hn =>
    hnone ⟨u, List.mem_of_getElem? hu, hn, hs⟩
  refine ⟨fun i j t u hi hj ht hu hn => ?_, fun j t hj ht => ?_, fun hd hm n hst => ⟨?_, fun j t hj hlt hn => ?_⟩,
    h.during⟩
  · rcases hnew i t hi with hi | ⟨hi', rfl⟩ <;> rcases hnew j u hj with hj | ⟨hj', rfl⟩
    · exact h.single i j t u hi hj ht hu hn
    · exact absurd hn (hold i t hi ht)
    · exact absurd hn.symm (hold j u hj hu)
    · rw [hi', hj']
  · rcases hnew j t hj with hj | ⟨_, rfl⟩
    · exact h.busy j t hj ht
    · cases ht
  · have := (h.cleared hd hm n hst).1
    simp only [List.length_append, List.length_singleton]
    omega
  · rcases hnew j t hj with hj | ⟨hj, _⟩
    · exact (h.cleared hd hm n hst).2 j t hj hlt hn
    · have := (h.cleared hd hm n hst).1
      omega

/-! ### Every step -/

theorem Over.of_idle (h : Invariant s) {name : Str} {r : Record} (hr : s.profile.get? name = some r)
    (hidle : r.status = .idle) (hw : ¬s.InWindow name) : Over s name s.tasks.length := by
  refine ⟨le_rfl, fun j t hj _ hn => ?_⟩
  by_contra hu
  have hheld : t.stage.holdsStatus = true := by
    by_contra hc
    refine hw ⟨t, List.mem_of_getElem? hj, hn, ?_⟩
    cases hst : t.stage <;> simp_all [TaskStage.unfinished, TaskStage.holdsStatus]
  obtain ⟨r', hr', hb⟩ := h.busy j t hj hheld
  rw [hn, hr] at hr'
  cases hr'
  rw [hidle] at hb
  cases hb

/-- The status of a record is set back while nothing of the profile is under way. -/
theorem Invariant.idleRecord (h : Invariant s) {name : Str} (r : Record) (hnone : ¬s.Unfinished name) :
    Invariant (s.setRecord name r) := by
  refine h.setRecord (.inr fun j t hj hn => ?_)
  by_contra hc
  refine hnone ⟨t, List.mem_of_getElem? hj, hn, ?_⟩
  cases hst : t.stage <;> simp_all [TaskStage.unfinished, TaskStage.holdsStatus]

theorem Invariant.handlerStep (h : Invariant s) {i : Nat} {hd : Handler} (hi : s.handlers[i]? = some hd) {e : Event}
    (hg : HandlerGuard s hd e) (hs : handlerStep s i hd e = some s') : Invariant s' := by
  have hmem : hd ∈ s.handlers := List.mem_of_getElem? hi
  have hwait := h.during hd hmem
  cases e with
  | lookup i' =>
    simp only [TaskRace.handlerStep] at hs
    split at hs
    · -- a handler that arrived during a task finds the record of that task
      have hrec : hd.during = true → s.profile.get? hd.name ≠ none := fun hdur hnone => by
        obtain ⟨r, hr, _⟩ := h.record_of_running (hg hdur)
        rw [hr] at hnone
        cases hnone
      split at hs
      · rename_i hnone
        cases hs
        exact h.setHandler i (fun _ h => by cases h) fun hdur => absurd hnone (hrec hdur)
      · rename_i hnone
        cases hs
        exact h.setHandler i (fun _ h => by cases h) fun hdur => absurd hnone (hrec hdur)
      · rename_i hkind
        cases hs
        refine h.setHandler i (fun _ h => by cases h) fun hdur => ?_
        have := (hwait hdur).1
        rw [hkind] at this
        cases this
      · cases hs
        exact h.setHandler i (fun _ h => by cases h) fun hdur => ⟨(hwait hdur).1, .inr (.inl rfl)⟩
    · cases hs
  | register i' aws =>
    simp only [TaskRace.handlerStep] at hs
    split at hs
    · cases hs
      refine (h.idleRecord (.new aws) hg.2).setHandler i (fun _ h => by cases h) fun hdur => ?_
      rw [hg.1] at hdur
      cases hdur
    · cases hs
  | login i' =>
    simp only [TaskRace.handlerStep] at hs
    split at hs
    · cases hs
      exact h.setHandler i (fun _ h => by cases h) fun hdur => ⟨(hwait hdur).1, .inr (.inr (.inl rfl))⟩
    · cases hs
  | loginFails i' message time =>
    simp only [TaskRace.handlerStep] at hs
    have hdur : ¬hd.during = true := by simp [hg.1]
    split at hs
    · split at hs
      · cases hs
        exact (h.idleRecord _ hg.2).setHandler i (fun _ h => by cases h) fun h => absurd h hdur
      · cases hs
        exact h.setHandler i (fun _ h => by cases h) fun h => absurd h hdur
    · cases hs
  | sameRegion i' =>
    simp only [TaskRace.handlerStep] at hs
    split at hs
    · cases hs
      refine h.setHandler i (fun _ h => by cases h) fun hdur => ?_
      rw [show hd.during = false from hg] at hdur
      cases hdur
    · cases hs
  | readStatus i' =>
    simp only [TaskRace.handlerStep] at hs
    split at hs
    · split at hs
      · cases hs
      · rename_i r hr
        split at hs
        · cases hs
          exact h.setHandler i (fun _ h => by cases h) fun hdur => ⟨(hwait hdur).1, .inr (.inr (.inr rfl))⟩
        · rename_i hidle
          cases hs
          refine h.setHandler i (fun n hn => ?_) fun hdur => ?_
          · cases hn
            exact .of_idle h hr hidle hg.2
          · -- while a task runs the record is not idle
            obtain ⟨r', hr', hb⟩ := h.record_of_running (hg.1 hdur)
            rw [hr] at hr'
            cases hr'
            rw [hidle] at hb
            cases hb
    · cases hs
  | spawn i' =>
    simp only [TaskRace.handlerStep] at hs
    split at hs
    · rename_i started hst
      cases hs
      have hnone : ¬s.Unfinished hd.name := by
        rintro ⟨t, ht, hn, hu⟩
        obtain ⟨j, hj⟩ := List.getElem?_of_mem ht
        by_cases hlt : j < started
        · rw [(h.cleared hd hmem started hst).2 j t hj hlt hn] at hu
          cases hu
        · simp only [HandlerGuard, hst] at hg
          refine hg t (List.mem_of_getElem? (i := j - started) ?_) hn
          rw [List.getElem?_drop, ← hj]
          congr 1
          omega
      refine (h.setHandler i (fun _ h => by cases h) fun hdur => ?_).spawn hnone
      obtain ⟨_, hc | hc | hc | hc⟩ := hwait hdur
      all_goals
        rw [hst] at hc
        cases hc
    · rename_i hst
      split at hs
      · cases hs
      · rename_i hkind
        cases hs
        simp only [HandlerGuard, hst] at hg
        exact (h.setHandler i (fun _ h => by cases h) fun hdur => absurd (hwait hdur).1 hkind).spawn hg
    · cases hs
  | _ => cases hs

theorem Invariant.taskStep (h : Invariant s) {j : Nat} {t : TaskThread} (hj : s.tasks[j]? = some t) {e : Event}
    (hs : taskStep s j t e = some s') : Invariant s' := by
  -- the thread itself is the only unfinished one of its profile
  have honly : ∀ (stage : TaskStage), t.stage.unfinished = true → stage.holdsStatus = false →
      ∀ (k : Nat) (u : TaskThread), (s.setTask j t stage).tasks[k]? = some u → u.name = t.name →
      u.stage.holdsStatus = false := by
    intro stage ht hstage k u hu hn
    simp only [State.setTask, List.getElem?_set] at hu
    split at hu
    · split at hu
      · cases hu
        exact hstage
      · cases hu
    · rename_i hne
      by_contra hc
      refine hne (h.single j k t u hj hu ht ?_ hn.symm)
      cases hst : u.stage <;> simp_all [TaskStage.unfinished, TaskStage.holdsStatus]
  cases e with
  | markBusy j' taskStart lastStart =>
    simp only [TaskRace.taskStep] at hs
    split at hs
    · rename_i hst
      obtain ⟨r, hr, rfl⟩ := Option.map_eq_some_iff.1 hs
      refine (h.setRecord (.inl rfl)).setTask (t := t) hj (by rw [hst]; rfl) fun _ => ?_
      exact ⟨_, Dict.get?_set_self .., rfl⟩
    · cases hs
  | call j' =>
    simp only [TaskRace.taskStep] at hs
    split at hs
    · rename_i hst
      cases hs
      exact h.setTask hj (by rw [hst]; rfl) fun _ => h.busy j t hj (by rw [hst]; rfl)
    · cases hs
  | «return» j' =>
    simp only [TaskRace.taskStep] at hs
    split at hs
    · rename_i hst
      cases hs
      exact h.setTask hj (by rw [hst]; rfl) fun _ => h.busy j t hj (by rw [hst]; rfl)
    · cases hs
  | setStopTask j' result data time =>
    simp only [TaskRace.taskStep] at hs
    split at hs
    · rename_i hst
      obtain ⟨r, _, rfl⟩ := Option.map_eq_some_iff.1 hs
      have ht : t.stage.unfinished = true := by rw [hst]; rfl
      exact (h.setTask hj ht fun hc => by cases hc).setRecord (.inr (honly .reloading ht rfl))
    · cases hs
  | reload j' aws =>
    simp only [TaskRace.taskStep] at hs
    split at hs
    · rename_i hst
      obtain ⟨r, _, rfl⟩ := Option.map_eq_some_iff.1 hs
      have ht : t.stage.unfinished = true := by rw [hst]; rfl
      exact (h.setTask hj ht fun hc => by cases hc).setRecord (.inr (honly .done ht rfl))
    · cases hs
  | die j' =>
    simp only [TaskRace.taskStep] at hs
    split at hs
    · rename_i hst
      cases hs
      exact h.setTask hj hst.1 fun hc => by cases hc
    · cases hs
  | _ => cases hs

/-- **Every step within the condition keeps the invariant.** -/
theorem Invariant.step (h : Invariant s) {e : Event} (hg : Guard s e) (hs : step s e = some s') : Invariant s' := by
  have onHandler : ∀ {i : Nat}, (∀ hd, s.handlers[i]? = some hd → HandlerGuard s hd e) →
      (s.handlers[i]?.bind fun hd => TaskRace.handlerStep s i hd e) = some s' → Invariant s' := by
    intro i hg hs
    obtain ⟨hd, hi, hs⟩ := Option.bind_eq_some_iff.1 hs
    exact h.handlerStep hi (hg hd hi) hs
  have onTask : ∀ {j : Nat}, (s.tasks[j]?.bind fun t => TaskRace.taskStep s j t e) = some s' → Invariant s' := by
    intro j hs
    obtain ⟨t, hj, hs⟩ := Option.bind_eq_some_iff.1 hs
    exact h.taskStep hj hs
  cases e with
  | arrive kind name =>
    cases hs
    refine ⟨h.single, h.busy, fun hd hm n hst => ?_, fun hd hm hdur => ?_⟩
    · rcases List.mem_append.1 hm with hm | hm
      · exact h.cleared hd hm n hst
      · rw [List.mem_singleton.1 hm] at hst
        cases hst
    · rcases List.mem_append.1 hm with hm | hm
      · exact h.during hd hm hdur
      · rw [List.mem_singleton.1 hm] at hdur ⊢
        exact ⟨hg (by simpa using hdur), .inl rfl⟩
  | lookup i => exact onHandler hg hs
  | register i aws => exact onHandler hg hs
  | login i => exact onHandler hg hs
  | loginFails i message time => exact onHandler hg hs
  | sameRegion i => exact onHandler hg hs
  | readStatus i => exact onHandler hg hs
  | spawn i => exact onHandler hg hs
  | markBusy j taskStart lastStart => exact onTask hs
  | call j => exact onTask hs
  | «return» j => exact onTask hs
  | setStopTask j result data time => exact onTask hs
  | reload j aws => exact onTask hs
  | die j => exact onTask hs

/-- **In a run within the condition, one task runs at a time.** -/
theorem one_task_at_a_time {profile : Dict Str Record} {events : List Event} {s : State}
    (h : exec step (start profile) events = some s) (hg : Along step Guard (start profile) events) : OneAtATime s :=
  (exec_invariant (I := Invariant) (fun _ _ _ hi hg hs => hi.step hg hs) h hg (.start profile)).oneAtATime

/-! ## Two runs -/

/-- The table with one idle profile. -/
def oneProfile : Dict Str Record := [("aws1", ⟨"aws1", .idle, none, none, some "us-east-1", .empty⟩)]

/-- A request of a kind that reads the status, until it has done so. -/
def untilCheck (i : Nat) : List Event := [.lookup i, .login i, .readStatus i]

/-- A `/change_ip` starts its task, and another one arrives while that runs. -/
def secondIsBusy : List Event :=
  .arrive .changeIp "aws1" :: untilCheck 0 ++ [.spawn 0, .markBusy 0 0 1, .call 0, .arrive .changeIp "aws1"] ++
    untilCheck 1 ++ [.return 0]

theorem one_task_at_a_time_secondIsBusy : ∃ s, exec step (start oneProfile) secondIsBusy = some s ∧ OneAtATime s := by
  have hrun : (exec step (start oneProfile) secondIsBusy).isSome = true := by decide +kernel
  obtain ⟨s, hs⟩ := Option.isSome_iff_exists.1 hrun
  exact ⟨s, hs, one_task_at_a_time hs (by decide +kernel)⟩

/-- Two `/change_ip` read the status before either thread marks it. -/
def bothCheck : List Event :=
  [.arrive .changeIp "aws1", .arrive .changeIp "aws1"] ++ untilCheck 0 ++ untilCheck 1 ++
    [.spawn 0, .spawn 1, .markBusy 0 0 1, .markBusy 1 2 3, .call 0, .call 1]

/-- Two requests that both find the status idle run two tasks at once. -/
theorem both_checks_pass : ¬∀ (profile : Dict Str Record) (events : List Event) (s : State),
    exec step (start profile) events = some s → OneAtATime s := by
  intro h
  have hrun : ((exec step (start oneProfile) bothCheck).map fun s =>
      s.tasks.map fun t => decide (t.stage = .running ∧ t.name = "aws1".toList)) = some [true, true] := by
    decide +kernel
  obtain ⟨s, hs, htasks⟩ := Option.map_eq_some_iff.1 hrun
  obtain ⟨t, u, htu⟩ : ∃ t u, s.tasks = [t, u] := by
    have hlen := congrArg List.length htasks
    rw [List.length_map] at hlen
    exact List.length_eq_two.1 hlen
  rw [htu] at htasks
  simp only [List.map_cons, List.map_nil, List.cons.injEq, decide_eq_true_eq, and_true] at htasks
  have := (h oneProfile bothCheck s hs).running 0 1 t u (by rw [htu]; rfl) (by rw [htu]; rfl) htasks.1.1 htasks.2.1
    (htasks.1.2.trans htasks.2.2.symm)
  omega

end TaskRace
end Iprotate
