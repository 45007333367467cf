import Iprotate.Base.Run
import Iprotate.TaskManager

/-!
# The fields of `last_task`

The tasks and the failed logins of one profile, one after another, write by write: `set_start_task` notes a start in
five writes, `set_stop_task` an end in five, and `reload_profile` puts a new record around the same `last_task`. A state
is `Coherent` when the fields of `last_task` come from one task, and from the right one.

- Together the writes are `Record.markBusy` and `Record.setStopTask` (`exec_marking`, `exec_stopping`).
- As long as no task starts on a `last_task` that holds something, and no login fails, every state is coherent
  (`coherent_of_fresh`).
- A second task runs with the end, the status and the data of the first (`second_task_mixes`).
-/

namespace Iprotate
namespace LastTaskFields

/-! ## The machine -/

/-- How far `set_stop_task` has come. -/
inductive StopStage
  | called
  | idled
  | cleared
  | ended (time : Nat)
  | judged (time : Nat)

/-- What is under way for the profile. -/
inductive Phase
  | idle
  /-- In `set_start_task`, after its first write, its second, and so on. -/
  | marked (kind : TaskType)
  | timed (kind : TaskType)
  | started (kind : TaskType) (start : Nat)
  | named (kind : TaskType) (start : Nat)
  | running (kind : TaskType) (start : Nat)
  /-- In `set_stop_task`, for a task or after a failed login. -/
  | stopping (task : Option (TaskType × Nat)) (result : Str) (data : Json PyError) (stage : StopStage)
  | reloading
  /-- The thread ended by an exception while its task was running. -/
  | dead (kind : TaskType) (start : Nat)

structure State where
  record : Record
  phase : Phase
  /-- What the most recently finished task was. -/
  finished : Option LastTask
  clock : Nat

inductive Event
  | start (kind : TaskType)
  /-- The next write of the method under way, at this time. -/
  | write (time : Nat)
  | return (result : Str) (data : Json PyError)
  | die
  | loginFails (message : Json PyError)
  | reload (aws : AwsConfig)

/-- The state before the first request. -/
def start (r : Record) (clock : Nat) : State := ⟨{ r with lastTask := .empty }, .idle, none, clock⟩

/-- A record with another `last_task`. -/
def onLast (r : Record) (f : LastTask → LastTask) : Record := { r with lastTask := f r.lastTask }

/-- The next write. -/
def write (s : State) (time : Nat) : Option State :=
  match s.phase with
  | .marked kind => some { s with record := { s.record with taskStartTime := some time }, phase := .timed kind }
  | .timed kind =>
    some { s with record := onLast s.record fun l => { l with startTime := some time }, phase := .started kind time }
  | .started kind start =>
    some { s with record := { s.record with currentTask := some (some kind) }, phase := .named kind start }
  | .named kind start =>
    some { s with record := onLast s.record fun l => { l with taskType := some kind }, phase := .running kind start }
  | .stopping task result data .called =>
    some { s with record := { s.record with status := .idle }, phase := .stopping task result data .idled }
  | .stopping task result data .idled =>
    some { s with record := { s.record with currentTask := some none }, phase := .stopping task result data .cleared }
  | .stopping task result data .cleared =>
    some { s with
      record := onLast s.record fun l => { l with endTime := some time }
      phase := .stopping task result data (.ended time) }
  | .stopping task result data (.ended t) =>
    some { s with
      record := onLast s.record fun l => { l with status := some result }
      phase := .stopping task result data (.judged t) }
  | .stopping none _ data (.judged _) =>
    some { s with record := onLast s.record fun l => { l with data := some data }, phase := .idle }
  | .stopping (some (kind, start)) result data (.judged t) =>
    some { s with
      record := onLast s.record fun l => { l with data := some data }
      phase := .reloading
      finished := some ⟨some start, some kind, some t, some result, some data⟩ }
  | _ => none

def step (s : State) : Event → Option State
  | .start kind =>
    match s.phase with
    | .idle | .dead _ _ => some { s with record := { s.record with status := .busy }, phase := .marked kind }
    | _ => none
  | .write time => if s.clock ≤ time then write { s with clock := time } time else none
  | .return result data =>
    match s.phase with
    | .running kind start => some { s with phase := .stopping (some (kind, start)) result data .called }
    | _ => none
  | .die =>
    match s.phase with
    | .running kind start => some { s with phase := .dead kind start }
    | .reloading => some { s with phase := .idle }
    | _ => none
  | .loginFails message =>
    match s.phase with
    | .idle | .dead _ _ => some { s with phase := .stopping none "failed" message .called }
    | _ => none
  | .reload aws =>
    match s.phase with
    | .reloading => some { s with record := s.record.reload aws, phase := .idle }
    | _ => none

/-! ## The writes together -/

variable {s s' : State}

/-- The writes of `set_start_task` before the method. -/
theorem exec_marking {t₁ t₂ t₃ t₄ : Nat} (hp : s.phase = .idle) (h₁ : s.clock ≤ t₁) (h₂ : t₁ ≤ t₂) (h₃ : t₂ ≤ t₃)
    (h₄ : t₃ ≤ t₄) (kind : TaskType) :
    exec step s [.start kind, .write t₁, .write t₂, .write t₃, .write t₄] =
      some { s with record := s.record.markBusy kind t₁ t₂, phase := .running kind t₂, clock := t₄ } := by
  simp [exec, step, write, hp, h₁, h₂, h₃, h₄, onLast, Record.markBusy]

/-- The writes of `set_stop_task` at the end of a task. -/
theorem exec_stopping {t₁ t₂ t₃ t₄ t₅ start : Nat} {kind : TaskType} (hp : s.phase = .running kind start)
    (h₁ : s.clock ≤ t₁) (h₂ : t₁ ≤ t₂) (h₃ : t₂ ≤ t₃) (h₄ : t₃ ≤ t₄) (h₅ : t₄ ≤ t₅) (result : Str)
    (data : Json PyError) :
    exec step s [.return result data, .write t₁, .write t₂, .write t₃, .write t₄, .write t₅] =
      some { s with
        record := s.record.setStopTask result data t₃
        phase := .reloading
        finished := some ⟨some start, some kind, some t₃, some result, some data⟩
        clock := t₅ } := by
  simp [exec, step, write, hp, h₁, h₂, h₃, h₄, h₅, onLast, Record.setStopTask]

/-! ## The property and the condition -/

/-- Every field that is there is that of the other one. -/
structure Part (a b : LastTask) : Prop where
  startTime : ∀ x, a.startTime = some x → b.startTime = some x
  taskType : ∀ x, a.taskType = some x → b.taskType = some x
  endTime : ∀ x, a.endTime = some x → b.endTime = some x
  status : ∀ x, a.status = some x → b.status = some x
  data : ∀ x, a.data = some x → b.data = some x

/-- What there is to know about the task under way. -/
def current : Phase → Option LastTask
  | .marked kind | .timed kind => some ⟨none, some kind, none, none, none⟩
  | .started kind start | .named kind start | .running kind start | .dead kind start =>
    some ⟨some start, some kind, none, none, none⟩
  | .stopping (some (kind, start)) result data (.ended t) | .stopping (some (kind, start)) result data (.judged t) =>
    some ⟨some start, some kind, some t, some result, some data⟩
  | .stopping (some (kind, start)) result data _ => some ⟨some start, some kind, none, some result, some data⟩
  | .stopping none _ _ _ | .idle | .reloading => none

/-- What `last_task` is when nothing is under way. -/
def ofFinished (s : State) : LastTask := s.finished.getD .empty

/-- The fields of `last_task` come from one task: from the running one if one runs, from the one that finished last if
none does, with a start not after its end, and from one of the two in between. -/
def Coherent (s : State) : Prop :=
  match s.phase with
  | .idle | .reloading =>
    s.record.lastTask = ofFinished s ∧
      ∀ a b, s.record.lastTask.startTime = some a → s.record.lastTask.endTime = some b → a ≤ b
  | .running kind start => s.record.lastTask = ⟨some start, some kind, none, none, none⟩
  | phase => Part s.record.lastTask (ofFinished s) ∨ ∃ t, current phase = some t ∧ Part s.record.lastTask t

/-- The condition on a step: a task starts on an empty `last_task`, and no login fails. -/
def Guard (s : State) : Event → Prop
  | .start _ => s.record.lastTask.entries.isEmpty = true
  | .loginFails _ => False
  | _ => True

instance (s : State) : (e : Event) → Decidable (Guard s e)
  | .start _ => inferInstanceAs (Decidable (_ = true))
  | .loginFails _ => isFalse id
  | .write _ | .return _ _ | .die | .reload _ => isTrue trivial

/-! ## The invariant -/

theorem eq_empty_of_entries {l : LastTask} (h : l.entries.isEmpty = true) : l = .empty := by
  obtain ⟨startTime, taskType, endTime, status, data⟩ := l
  cases startTime <;> cases taskType <;> cases endTime <;> cases status <;> cases data <;>
    simp_all [LastTask.entries, LastTask.empty]

/-- What `last_task` is in each phase of the first task. -/
def Fresh (s : State) : Prop :=
  match s.phase with
  | .idle | .reloading =>
    s.record.lastTask = ofFinished s ∧
      ∀ a b, s.record.lastTask.startTime = some a → s.record.lastTask.endTime = some b → a ≤ b
  | .marked _ | .timed _ => s.record.lastTask = .empty
  | .started _ start | .named _ start => s.record.lastTask = ⟨some start, none, none, none, none⟩ ∧ start ≤ s.clock
  | .running kind start | .dead kind start =>
    s.record.lastTask = ⟨some start, some kind, none, none, none⟩ ∧ start ≤ s.clock
  | .stopping none _ _ _ => False
  | .stopping (some (kind, start)) _ _ .called | .stopping (some (kind, start)) _ _ .idled
  | .stopping (some (kind, start)) _ _ .cleared =>
    s.record.lastTask = ⟨some start, some kind, none, none, none⟩ ∧ start ≤ s.clock
  | .stopping (some (kind, start)) _ _ (.ended t) =>
    s.record.lastTask = ⟨some start, some kind, some t, none, none⟩ ∧ start ≤ t
  | .stopping (some (kind, start)) result _ (.judged t) =>
    s.record.lastTask = ⟨some start, some kind, some t, some result, none⟩ ∧ start ≤ t

theorem Fresh.start (r : Record) (clock : Nat) : Fresh (start r clock) := ⟨rfl, fun _ _ h => by cases h⟩

theorem Part.empty (t : LastTask) : Part .empty t := by constructor <;> intro x h <;> cases h

/-- In the first task everything is in order. -/
theorem Fresh.coherent (h : Fresh s) : Coherent s := by
  obtain ⟨r, phase, finished, clock⟩ := s
  cases phase with
  | idle => exact h
  | reloading => exact h
  | running kind start => exact h.1
  | marked kind =>
    refine .inl ?_
    rw [show r.lastTask = .empty from h]
    exact .empty _
  | timed kind =>
    refine .inl ?_
    rw [show r.lastTask = .empty from h]
    exact .empty _
  | started kind start =>
    refine .inr ⟨_, rfl, ?_⟩
    rw [show r.lastTask = _ from h.1]
    constructor <;> simp
  | named kind start =>
    refine .inr ⟨_, rfl, ?_⟩
    rw [show r.lastTask = _ from h.1]
    constructor <;> simp
  | dead kind start =>
    refine .inr ⟨_, rfl, ?_⟩
    rw [show r.lastTask = _ from h.1]
    constructor <;> simp
  | stopping task result data stage =>
    cases task with
    | none => exact absurd h id
    | some task =>
      cases stage <;> refine .inr ⟨_, rfl, ?_⟩ <;> rw [show r.lastTask = _ from h.1] <;> constructor <;> simp

/-- A write of the first task. -/
theorem Fresh.write (h : Fresh s) {time : Nat} (ht : s.clock ≤ time)
    (hs : write { s with clock := time } time = some s') :
    Fresh s' := by
  obtain ⟨r, phase, finished, clock⟩ := s
  cases phase with
  | marked kind =>
    cases hs
    exact h
  | timed kind =>
    cases hs
    have hl : r.lastTask = .empty := h
    exact ⟨by simp [onLast, hl, LastTask.empty], le_rfl⟩
  | started kind start =>
    cases hs
    exact ⟨h.1, h.2.trans ht⟩
  | named kind start =>
    cases hs
    have hl : r.lastTask = _ := h.1
    exact ⟨by simp [onLast, hl], h.2.trans ht⟩
  | stopping task result data stage =>
    cases task with
    | none => exact absurd h id
    | some task =>
      obtain ⟨kind, start⟩ := task
      cases stage with
      | called => cases hs; exact ⟨h.1, h.2.trans ht⟩
      | idled => cases hs; exact ⟨h.1, h.2.trans ht⟩
      | cleared =>
        cases hs
        have hl : r.lastTask = _ := h.1
        exact ⟨by simp [onLast, hl], h.2.trans ht⟩
      | ended t =>
        cases hs
        have hl : r.lastTask = _ := h.1
        exact ⟨by simp [onLast, hl], h.2⟩
      | judged t =>
        cases hs
        have hfull : (onLast r fun l => { l with data := some data }).lastTask =
            ⟨some start, some kind, some t, some result, some data⟩ := by simp [onLast, show r.lastTask = _ from h.1]
        refine ⟨hfull, fun a b ha hb => ?_⟩
        rw [hfull] at ha hb
        cases ha
        cases hb
        exact h.2
  | _ => cases hs

/-- A step within the condition. -/
theorem Fresh.step (h : Fresh s) {e : Event} (hg : Guard s e) (hs : step s e = some s') : Fresh s' := by
  cases e with
  | start kind =>
    have hempty : s.record.lastTask = .empty := eq_empty_of_entries hg
    simp only [LastTaskFields.step] at hs
    split at hs
    · cases hs; exact hempty
    · cases hs; exact hempty
    · cases hs
  | write time =>
    simp only [LastTaskFields.step] at hs
    split at hs
    · rename_i ht
      exact h.write ht hs
    · cases hs
  | «return» result data =>
    simp only [LastTaskFields.step] at hs
    split at hs
    · rename_i hp
      cases hs
      simp only [Fresh, hp] at h
      exact h
    · cases hs
  | die =>
    simp only [LastTaskFields.step] at hs
    split at hs
    · rename_i hp
      cases hs
      simp only [Fresh, hp] at h
      exact h
    · rename_i hp
      cases hs
      simp only [Fresh, hp] at h
      exact h
    · cases hs
  | loginFails message => exact absurd hg id
  | reload aws =>
    simp only [LastTaskFields.step] at hs
    split at hs
    · rename_i hp
      cases hs
      simp only [Fresh, hp] at h
      exact h
    · cases hs

/-- **While every task starts on an empty `last_task` and no login fails, its fields come from one task.** -/
theorem coherent_of_fresh {r : Record} {clock : Nat} {events : List Event}
    (h : exec step (start r clock) events = some s) (hg : Along step Guard (start r clock) events) : Coherent s :=
  (exec_invariant (I := Fresh) (fun _ _ _ hi hg hs => hi.step hg hs) h hg (.start r clock)).coherent

/-! ## Two runs -/

/-- The record of a profile that was just registered. -/
def newRecord : Record := ⟨"aws1", .idle, none, none, some "us-east-1", .empty⟩

/-- The same profile as it is loaded. -/
def newAws : AwsConfig := ⟨"aws1", "1", [], [], [], "us-east-1", [], [], [], []⟩

/-- A task from its start to the end of `set_start_task`. -/
def wholeTask (kind : TaskType) (t : Nat) (data : Json PyError) : List Event :=
  [.start kind, .write t, .write (t + 1), .write (t + 1), .write (t + 1), .return "success" data, .write (t + 2),
   .write (t + 2), .write (t + 2), .write (t + 2), .write (t + 2)]

theorem coherent_firstTask : ∃ s, exec step (start newRecord 0) (wholeTask .reset 0 .null) = some s ∧ Coherent s := by
  have hrun : (exec step (start newRecord 0) (wholeTask .reset 0 .null)).isSome = true := by decide +kernel
  obtain ⟨s, hs⟩ := Option.isSome_iff_exists.1 hrun
  exact ⟨s, hs, coherent_of_fresh hs (by decide +kernel)⟩

/-- A second task runs with the status of the first one. -/
theorem second_task_mixes : ¬∀ (r : Record) (clock : Nat) (events : List Event) (s : State),
    exec step (start r clock) events = some s → Coherent s := by
  intro h
  have hrun : ((exec step (start newRecord 0) (wholeTask .reset 0 .null ++
      [.reload newAws, .start .changeIp, .write 3, .write 3, .write 3, .write 3])).map fun s =>
      (match s.phase with | .running _ _ => true | _ => false, s.record.lastTask.status)) =
      some (true, some "success".toList) := by decide +kernel
  obtain ⟨s, hs, hlast⟩ := Option.map_eq_some_iff.1 hrun
  have hco := h _ _ _ s hs
  obtain ⟨r, phase, finished, clock⟩ := s
  cases phase with
  | running kind start =>
    rw [show r.lastTask = _ from hco] at hlast
    cases hlast
  | _ => cases hlast

end LastTaskFields
end Iprotate
