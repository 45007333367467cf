import Iprotate.TaskRace

/-!
# The status of a running task

The machine of handlers and task threads, with the requests that start no task: of these, `/get_config` and
`/get_available_region` write to the record when their login fails. The status is `Shown` when the record of every
thread between its mark and its own `set_stop_task` is busy.

- A step keeps the status shown exactly if it does not set a record back to idle while another thread of the profile is
  between its mark and its `set_stop_task` (`shown_step_iff`), and so do the steps of a run (`shown_iff`).
- A failed login of `/get_config` shows a running task as idle (`failed_view_hides`).
-/

namespace Iprotate
namespace BusyStatus

open TaskRace

/-! ## The machine -/

inductive Event
  /-- A step of a handler that may start a task, or of a task thread. -/
  | own (e : TaskRace.Event)
  /-- A request that only reads the records. -/
  | view
  /-- `/get_config` or `/get_available_region`, whose login fails: `set_stop_task`. -/
  | viewFails (name : Str) (message : Json PyError) (time : Nat)

def step (s : State) : Event → Option State
  | .own e => TaskRace.step s e
  | .view => some s
  | .viewFails name message time =>
    match s.profile.get? name with
    | some r => some (s.setRecord name (r.setStopTask "failed" message time))
    | none => some s

/-- Some thread of the profile is between its mark and its own `set_stop_task`. -/
def Holding (s : State) (name : Str) : Prop := ∃ t ∈ s.tasks, t.name = name ∧ t.stage.holdsStatus = true

instance (s : State) (name : Str) : Decidable (Holding s name) := inferInstanceAs (Decidable (∃ t ∈ s.tasks, _))

/-- The record of every such thread is busy. -/
def Shown (s : State) : Prop :=
  ∀ t ∈ s.tasks, t.stage.holdsStatus = true → ∃ r, s.profile.get? t.name = some r ∧ r.status = .busy

instance (s : State) : Decidable (Shown s) :=
  decidable_of_iff (∀ t ∈ s.tasks, t.stage.holdsStatus = true →
    (s.profile.get? t.name).any (fun r => decide (r.status = .busy)) = true) (by simp [Shown, Option.any_eq_true])

/-- Some thread of the profile other than thread `j` is between its mark and its own `set_stop_task`. -/
def OtherHolding (s : State) (j : Nat) (name : Str) : Prop :=
  ∃ t ∈ s.tasks.eraseIdx j, t.name = name ∧ t.stage.holdsStatus = true

instance (s : State) (j : Nat) (name : Str) : Decidable (OtherHolding s j name) :=
  inferInstanceAs (Decidable (∃ t ∈ s.tasks.eraseIdx j, _))

/-- The condition on a step: a record is set to idle only when no other thread of the profile needs it busy. -/
def Guard (s : State) : Event → Prop
  | .own (.register i _) | .own (.loginFails i _ _) => ∀ h ∈ s.handlers[i]?, ¬Holding s h.name
  | .own (.setStopTask j _ _ _) | .own (.reload j _) => ∀ t ∈ s.tasks[j]?, ¬OtherHolding s j t.name
  | .viewFails name _ _ => ¬Holding s name
  | _ => True

instance (s : State) : (e : Event) → Decidable (Guard s e)
  | .own (.register i _) | .own (.loginFails i _ _) => inferInstanceAs (Decidable (∀ h ∈ s.handlers[i]?, _))
  | .own (.setStopTask j _ _ _) | .own (.reload j _) => inferInstanceAs (Decidable (∀ t ∈ s.tasks[j]?, _))
  | .viewFails _ _ _ => inferInstanceAs (Decidable (¬_))
  | .view | .own (.arrive _ _) | .own (.lookup _) | .own (.login _) | .own (.sameRegion _) | .own (.readStatus _)
  | .own (.spawn _) | .own (.markBusy _ _ _) | .own (.call _) | .own (.return _) | .own (.die _) => isTrue trivial

variable {s s' : State}

/-! ## What each kind of change does to the property -/

theorem mem_set_iff {α : Type} {a x : α} : ∀ {l : List α} {j : Nat}, j < l.length →
    (x ∈ l.set j a ↔ x = a ∨ x ∈ l.eraseIdx j)
  | _ :: _, 0, _ => by simp
  | b :: l, j + 1, h => by
    have ih := mem_set_iff (a := a) (x := x) (l := l) (j := j) (by simpa using h)
    simp only [List.set_cons_succ, List.eraseIdx_cons_succ, List.mem_cons, ih]
    exact or_left_comm

theorem mem_of_mem_eraseIdx {t : TaskThread} {j : Nat} (h : t ∈ s.tasks.eraseIdx j) : t ∈ s.tasks :=
  (List.eraseIdx_sublist _ _).subset h

/-- A thread moves on. -/
theorem shown_setTask {j : Nat} {t : TaskThread} (hj : s.tasks[j]? = some t) (stage : TaskStage) :
    Shown (s.setTask j t stage) ↔
      (stage.holdsStatus = true → ∃ r, s.profile.get? t.name = some r ∧ r.status = .busy) ∧
      ∀ u ∈ s.tasks.eraseIdx j, u.stage.holdsStatus = true → ∃ r, s.profile.get? u.name = some r ∧
        r.status = .busy := by
  have hlt : j < s.tasks.length := (List.getElem?_eq_some_iff.1 hj).1
  constructor
  · intro h
    exact ⟨fun hst => h { t with stage } ((mem_set_iff hlt).2 (.inl rfl)) hst,
      fun u hu => h u ((mem_set_iff hlt).2 (.inr hu))⟩
  · rintro ⟨ht, hrest⟩ u hu
    rcases (mem_set_iff hlt).1 hu with rfl | hu
    · exact ht
    · exact hrest u hu

/-- A thread moves on and needs the record no more than before. -/
theorem Shown.setTask (h : Shown s) {j : Nat} {t : TaskThread} (hj : s.tasks[j]? = some t) {stage : TaskStage}
    (hst : stage.holdsStatus = true → t.stage.holdsStatus = true) : Shown (s.setTask j t stage) :=
  (shown_setTask hj stage).2 ⟨fun hs => h t (List.mem_of_getElem? hj) (hst hs), fun u hu =>
    h u (mem_of_mem_eraseIdx hu)⟩

/-- What a record that is set to idle does to the threads of a list. -/
theorem idle_iff {ts : List TaskThread} {name : Str} {r : Record} (hr : r.status = .idle)
    (h : ∀ t ∈ ts, t.stage.holdsStatus = true → ∃ r, s.profile.get? t.name = some r ∧ r.status = .busy) :
    (∀ t ∈ ts, t.stage.holdsStatus = true → ∃ r', (s.setRecord name r).profile.get? t.name = some r' ∧
      r'.status = .busy) ↔ ¬∃ t ∈ ts, t.name = name ∧ t.stage.holdsStatus = true := by
  constructor
  · rintro hall ⟨t, ht, rfl, hst⟩
    obtain ⟨r', hr', hb⟩ := hall t ht hst
    simp only [State.setRecord, Dict.get?_set_self, Option.some.injEq] at hr'
    rw [← hr', hr] at hb
    cases hb
  · intro hnone t ht hst
    have hne : name ≠ t.name := fun hn => hnone ⟨t, ht, hn.symm, hst⟩
    obtain ⟨r', hr', hb⟩ := h t ht hst
    exact ⟨r', (Dict.get?_set_ne _ hne r).trans hr', hb⟩

/-- Somebody who is no thread sets a record to idle. -/
theorem shown_setRecord (h : Shown s) {name : Str} {r : Record} (hr : r.status = .idle) :
    Shown (s.setRecord name r) ↔ ¬Holding s name := idle_iff hr h

/-- A thread sets its record to idle and needs it no more. -/
theorem shown_setRecord_setTask (h : Shown s) {j : Nat} {t : TaskThread} (hj : s.tasks[j]? = some t) {r : Record}
    (hr : r.status = .idle) {stage : TaskStage} (hst : stage.holdsStatus = false) :
    Shown ((s.setRecord t.name r).setTask j t stage) ↔ ¬OtherHolding s j t.name := by
  rw [shown_setTask (s := s.setRecord t.name r) hj, hst]
  simp only [Bool.false_eq_true, false_imp_iff, true_and]
  exact idle_iff hr fun u hu => h u (mem_of_mem_eraseIdx hu)

/-- A thread marks its record. -/
theorem Shown.markBusy (h : Shown s) {name : Str} {r : Record} (hr : r.status = .busy) :
    Shown (s.setRecord name r) := by
  intro t ht hst
  by_cases hn : name = t.name
  · exact ⟨r, by rw [hn]; exact Dict.get?_set_self .., hr⟩
  · obtain ⟨r', hr', hb⟩ := h t ht hst
    exact ⟨r', (Dict.get?_set_ne _ hn r).trans hr', hb⟩

/-- A new thread needs no record. -/
theorem Shown.spawn (h : Shown s) (kind : TaskType) (name : Str) :
    Shown { s with tasks := s.tasks ++ [⟨kind, name, .starting⟩] } := by
  intro t ht hst
  rcases List.mem_append.1 ht with ht | ht
  · exact h t ht hst
  · rw [List.mem_singleton.1 ht] at hst
    cases hst

/-! ## Every step -/

/-- The steps of handlers that may start a task. -/
theorem handlerStep_iff (h : Shown s) {i : Nat} {hd : Handler} {e : TaskRace.Event}
    (hs : handlerStep s i hd e = some s') :
    Shown s' ↔ match e with
      | .register _ _ | .loginFails _ _ _ => ¬Holding s hd.name
      | _ => True := by
  cases e with
  | register i' aws =>
    simp only [handlerStep] at hs
    split at hs
    · cases hs
      exact shown_setRecord h rfl
    · cases hs
  | loginFails i' message time =>
    simp only [handlerStep] at hs
    split at hs
    · split at hs
      · cases hs
        exact shown_setRecord h rfl
      · -- without a record there is no thread that needs it
        rename_i hnone
        cases hs
        refine iff_of_true h ?_
        rintro ⟨t, ht, hn, hst⟩
        obtain ⟨r, hr, _⟩ := h t ht hst
        rw [hn, hnone] at hr
        cases hr
    · cases hs
  | lookup i' =>
    simp only [handlerStep] at hs
    refine iff_of_true ?_ trivial
    split at hs
    · split at hs <;> cases hs <;> exact h
    · cases hs
  | login i' =>
    simp only [handlerStep] at hs
    refine iff_of_true ?_ trivial
    split at hs
    · cases hs; exact h
    · cases hs
  | sameRegion i' =>
    simp only [handlerStep] at hs
    refine iff_of_true ?_ trivial
    split at hs
    · cases hs; exact h
    · cases hs
  | readStatus i' =>
    simp only [handlerStep] at hs
    refine iff_of_true ?_ trivial
    split at hs
    · split at hs
      · cases hs
      · split at hs <;> cases hs <;> exact h
    · cases hs
  | spawn i' =>
    simp only [handlerStep] at hs
    refine iff_of_true ?_ trivial
    split at hs
    · cases hs; exact h.spawn _ _
    · split at hs
      · cases hs
      · cases hs; exact h.spawn _ _
    · cases hs
  | _ => cases hs

/-- The steps of task threads. -/
theorem taskStep_iff (h : Shown s) {j : Nat} {t : TaskThread} (hj : s.tasks[j]? = some t) {e : TaskRace.Event}
    (hs : taskStep s j t e = some s') :
    Shown s' ↔ match e with
      | .setStopTask _ _ _ _ | .reload _ _ => ¬OtherHolding s j t.name
      | _ => True := by
  cases e with
  | setStopTask j' result data time =>
    simp only [taskStep] at hs
    split at hs
    · obtain ⟨r, _, rfl⟩ := Option.map_eq_some_iff.1 hs
      exact shown_setRecord_setTask h hj rfl rfl
    · cases hs
  | reload j' aws =>
    simp only [taskStep] at hs
    split at hs
    · obtain ⟨r, _, rfl⟩ := Option.map_eq_some_iff.1 hs
      exact shown_setRecord_setTask h hj rfl rfl
    · cases hs
  | markBusy j' taskStart lastStart =>
    simp only [taskStep] at hs
    refine iff_of_true ?_ trivial
    split at hs
    · obtain ⟨r, _, rfl⟩ := Option.map_eq_some_iff.1 hs
      refine (shown_setTask (s := s.setRecord _ _) hj _).2 ⟨fun _ => ⟨_, Dict.get?_set_self .., rfl⟩, fun u hu => ?_⟩
      exact (h.markBusy rfl) u (mem_of_mem_eraseIdx hu)
    · cases hs
  | call j' =>
    simp only [taskStep] at hs
    refine iff_of_true ?_ trivial
    split at hs
    · rename_i hst
      cases hs
      exact h.setTask hj fun _ => by rw [hst]; rfl
    · cases hs
  | «return» j' =>
    simp only [taskStep] at hs
    refine iff_of_true ?_ trivial
    split at hs
    · rename_i hst
      cases hs
      exact h.setTask hj fun _ => by rw [hst]; rfl
    · cases hs
  | die j' =>
    simp only [taskStep] at hs
    refine iff_of_true ?_ trivial
    split at hs
    · cases hs
      exact h.setTask hj fun hc => by cases hc
    · cases hs
  | _ => cases hs

/-- **The steps that keep the status shown.** -/
theorem shown_step_iff (h : Shown s) {e : Event} (hs : step s e = some s') : Shown s' ↔ Guard s e := by
  have onHandler : ∀ {i : Nat} {e : TaskRace.Event}, (s.handlers[i]?.bind fun hd => handlerStep s i hd e) = some s' →
      ∃ hd, s.handlers[i]? = some hd ∧ handlerStep s i hd e = some s' := fun hs => Option.bind_eq_some_iff.1 hs
  have onTask : ∀ {j : Nat} {e : TaskRace.Event}, (s.tasks[j]?.bind fun t => taskStep s j t e) = some s' →
      ∃ t, s.tasks[j]? = some t ∧ taskStep s j t e = some s' := fun hs => Option.bind_eq_some_iff.1 hs
  cases e with
  | view => cases hs; exact iff_of_true h trivial
  | viewFails name message time =>
    simp only [step] at hs
    split at hs
    · cases hs
      exact shown_setRecord h rfl
    · rename_i hnone
      cases hs
      refine iff_of_true h ?_
      rintro ⟨t, ht, hn, hst⟩
      obtain ⟨r, hr, _⟩ := h t ht hst
      rw [hn, hnone] at hr
      cases hr
  | own e =>
    cases e with
    | arrive kind name => cases hs; exact iff_of_true h trivial
    | register i aws =>
      obtain ⟨hd, hi, hs⟩ := onHandler hs
      exact (handlerStep_iff h hs).trans (by simp [Guard, hi])
    | loginFails i message time =>
      obtain ⟨hd, hi, hs⟩ := onHandler hs
      exact (handlerStep_iff h hs).trans (by simp [Guard, hi])
    | setStopTask j result data time =>
      obtain ⟨t, hj, hs⟩ := onTask hs
      exact (taskStep_iff h hj hs).trans (by simp [Guard, hj])
    | reload j aws =>
      obtain ⟨t, hj, hs⟩ := onTask hs
      exact (taskStep_iff h hj hs).trans (by simp [Guard, hj])
    | lookup i => obtain ⟨hd, hi, hs⟩ := onHandler hs; exact handlerStep_iff h hs
    | login i => obtain ⟨hd, hi, hs⟩ := onHandler hs; exact handlerStep_iff h hs
    | sameRegion i => obtain ⟨hd, hi, hs⟩ := onHandler hs; exact handlerStep_iff h hs
    | readStatus i => obtain ⟨hd, hi, hs⟩ := onHandler hs; exact handlerStep_iff h hs
    | spawn i => obtain ⟨hd, hi, hs⟩ := onHandler hs; exact handlerStep_iff h hs
    | markBusy j taskStart lastStart => obtain ⟨t, hj, hs⟩ := onTask hs; exact taskStep_iff h hj hs
    | call j => obtain ⟨t, hj, hs⟩ := onTask hs; exact taskStep_iff h hj hs
    | «return» j => obtain ⟨t, hj, hs⟩ := onTask hs; exact taskStep_iff h hj hs
    | die j => obtain ⟨t, hj, hs⟩ := onTask hs; exact taskStep_iff h hj hs

/-- **A running task is shown as busy all along a run exactly if no step of it violates the condition.** -/
theorem shown_iff {profile : Dict Str Record} {events : List Event} {s : State}
    (h : exec step (start profile) events = some s) :
    (∀ pre t, pre <+: events → exec step (start profile) pre = some t → Shown t) ↔
      Along step Guard (start profile) events :=
  along_iff (fun _ _ _ hi hs => shown_step_iff hi hs) (fun _ ht => (by cases ht)) h

/-! ## Two runs -/

/-- A `/change_ip` whose task is in its method. -/
def changingIp : List Event :=
  let events : List TaskRace.Event :=
    .arrive .changeIp "aws1" :: untilCheck 0 ++ [.spawn 0, .markBusy 0 0 1, .call 0]
  events.map .own

/-- A `/get_config` comes and the task comes to its end. -/
def undisturbed : List Event := changingIp ++ [.view, .own (.return 0), .own (.setStopTask 0 "success" .null 2)]

theorem shown_undisturbed : ∃ s, exec step (start oneProfile) undisturbed = some s ∧
    ∀ pre t, pre <+: undisturbed → exec step (start oneProfile) pre = some t → Shown t := by
  have hrun : (exec step (start oneProfile) undisturbed).isSome = true := by decide +kernel
  obtain ⟨s, hs⟩ := Option.isSome_iff_exists.1 hrun
  exact ⟨s, hs, (shown_iff hs).2 (by decide +kernel)⟩

/-- A `/get_config` whose login fails while the task runs. -/
theorem failed_view_hides : ¬∀ (profile : Dict Str Record) (events : List Event) (s : State),
    exec step (start profile) events = some s → Shown s := by
  intro h
  have hrun : ((exec step (start oneProfile) (changingIp ++ [.viewFails "aws1" .null 2])).map fun s =>
      decide (Shown s)) = some false := by decide +kernel
  obtain ⟨s, hs, hidle⟩ := Option.map_eq_some_iff.1 hrun
  exact of_decide_eq_false hidle (h _ _ s hs)

end BusyStatus
end Iprotate
