import Iprotate.RecordFrame

/-!
# How `set_start_task` ends

The record of a profile after `set_start_task`, however that ends.

- A task method is one `try` block and does not raise (`run_ok`), and nothing it does touches the records.
- `reload_profile` raises or puts a new record around the same `last_task`; in both cases what `set_stop_task` has
  written stays (`keeps_reloadProfile`).
- So the profile is released exactly if `RunTask()` can be built: that is the only step between the busy mark and
  `set_stop_task` that raises (`released_iff`).
- With an unreadable `config.conf` it stays busy (`stays_busy`).
-/

namespace Iprotate
namespace TaskEnd

open TaskManager Py Prog RecordFrame

/-- The profile is free, and `last_task` is about this task, which was started at `start`: it has an end and a
status. -/
structure ReleasedBy (args : TaskArgs) (start : Nat) (r : Record) : Prop where
  idle : r.status = .idle
  noTask : r.currentTask = some none
  taskType : r.lastTask.taskType = some args.taskType
  ended : ∃ s t, r.lastTask.startTime = some s ∧ r.lastTask.endTime = some t ∧ start ≤ s ∧ s ≤ t
  judged : r.lastTask.status = some "success" ∨ r.lastTask.status = some "failed"

/-- The record of the task's profile is that of a released profile. -/
def Released (args : TaskArgs) (start : Nat) (w : World) : Prop :=
  ∃ r, w.profile.get? args.configName = some r ∧ ReleasedBy args start r

variable {args : TaskArgs} {start : Nat} {r : Record} {w : World}

theorem ReleasedBy.reload (h : ReleasedBy args start r) (aws : AwsConfig) : ReleasedBy args start (r.reload aws) :=
  ⟨rfl, rfl, h.taskType, h.ended, h.judged⟩

/-! ## The steps of `set_start_task` -/

/-- A task method catches everything. -/
theorem run_ok (t : RunTask) (args : TaskArgs) (w : World) : ∃ result, (t.run args w).1 = .ok result := by
  have hattempt : ∀ m : Py TaskResult, ∃ result, (RunTask.attempt m w).1 = .ok result := by
    intro m
    rw [RunTask.attempt, run_tryCatch]
    split
    · exact ⟨_, rfl⟩
    · exact ⟨_, rfl⟩
  unfold RunTask.run
  cases args.taskType with
  | changeIp => exact hattempt _
  | changeRegion => exact hattempt _
  | changeWhitelist => exact hattempt _
  | reset => exact hattempt _
  | changeAuth => exact hattempt _

/-- The records, and a lower bound of the time. -/
theorem wideFrame (P : Dict Str Record) (n : Nat) : WideFrame fun w => w.profile = P ∧ n ≤ w.clock where
  call c w hw := by
    unfold Py.call
    split <;> exact hw
  refuse _ _ hw := hw
  clock _ hw := ⟨hw.1, hw.2.trans (Nat.le_succ _)⟩
  files _ _ hw := hw
  rules _ _ hw := hw
  nextId _ _ hw := hw
  grow _ _ _ _ _ _ hw := hw
  build w hw := by
    unfold onConfig
    split <;> exact hw
  config _ _ hw := hw
  cloud _ _ hw := hw

/-- `reload_profile`, whether it raises or not. -/
theorem keeps_reloadProfile (args : TaskArgs) (start : Nat) :
    Keeps (Released args start) (reloadProfile args.configName) := by
  refine .bind (fun w hw => ?_) fun all => ?_
  · unfold onConfig
    split <;> exact hw
  · rintro w ⟨r, hr, hrel⟩
    rw [run_bind_ok (run_record hr)]
    cases all.find? (·.configName = args.configName) with
    | none => exact ⟨r, hr, hrel⟩
    | some aws => exact ⟨r.reload aws, Dict.get?_set_self _ _ _, hrel.reload aws⟩

/-- The end of `set_start_task` releases a record that was marked. -/
theorem finish_releases {r : Record} (h : w.profile.get? args.configName = some r) {s : Nat}
    (htask : r.lastTask.taskType = some args.taskType) (hs : r.lastTask.startTime = some s) (hstart : start ≤ s)
    (htime : s ≤ w.clock) (result : TaskResult) : Released args start (finish args.configName result w).2 := by
  have hstop : ∀ (status : Str) (data : Json PyError), status = "success" ∨ status = "failed" →
      Released args start { w with
        clock := w.clock + 1, profile := w.profile.set args.configName (r.setStopTask status data w.clock) } := by
    intro status data hstatus
    refine ⟨_, Dict.get?_set_self _ _ _, rfl, rfl, htask, ⟨s, w.clock, hs, rfl, hstart, htime⟩, ?_⟩
    exact hstatus.imp (congrArg some) (congrArg some)
  cases result with
  | success data =>
    rw [finish, run_bind_ok (run_setStopTask h _ _)]
    exact keeps_reloadProfile args start _ (hstop _ _ (.inl rfl))
  | failed data =>
    rw [finish, run_bind_ok (run_setStopTask h _ _)]
    exact keeps_reloadProfile args start _ (hstop _ _ (.inr rfl))

/-! ## The result -/

/-- **`set_start_task` releases the profile exactly if `RunTask()` can be built from `config.conf`.** -/
theorem released_iff (args : TaskArgs) (w : World) (r : Record) (h : w.profile.get? args.configName = some r) :
    Released args w.clock (setStartTask args w).2 ↔ ∃ l text, ConfigLoader.build w.config = (.ok l, text) := by
  have hmark := run_markBusy h
  generalize hw₁ : { w with
    clock := w.clock + 2
    profile := w.profile.set args.configName (r.markBusy args.taskType w.clock (w.clock + 1)) } = w₁ at hmark
  have hconfig : w₁.config = w.config := by rw [← hw₁]
  have hbusy : w₁.profile.get? args.configName = some (r.markBusy args.taskType w.clock (w.clock + 1)) := by
    rw [← hw₁]
    exact Dict.get?_set_self _ _ _
  cases hb : ConfigLoader.build w.config with
  | mk x text =>
    cases x with
    | error e =>
      -- the thread ends here, with the record still marked
      have hinit : RunTask.init w₁ = (.error (.config e), { w₁ with config := text }) := by
        rw [RunTask.init, run_bind_error]
        rw [onConfig, hconfig, hb]
      refine iff_of_false ?_ ?_
      · rintro ⟨r', hr', hrel⟩
        rw [setStartTask, run_bind_ok hmark, run_bind_error (by rw [RunTask.perform, run_bind_error hinit]), hbusy]
          at hr'
        cases hr'
        cases hrel.idle
      · rintro ⟨_, _, hok⟩
        cases hok
    | ok l =>
      refine iff_of_true ?_ ⟨l, text, rfl⟩
      have hinit : RunTask.init w₁ = (.ok ⟨l⟩, { w₁ with config := text }) := by
        rw [RunTask.init, run_bind_ok (t := { w₁ with config := text }) (a := l)]
        · rfl
        · rw [onConfig, hconfig, hb]
      obtain ⟨result, hresult⟩ := run_ok ⟨l⟩ args { w₁ with config := text }
      have hkeep := (wideFrame w₁.profile w₁.clock).run ⟨l⟩ args { w₁ with config := text } ⟨rfl, Nat.le_refl _⟩
      obtain ⟨hprofile, hclock⟩ := hkeep
      rw [setStartTask, run_bind_ok hmark, run_bind_ok (m := RunTask.perform args) (a := result)
        (t := (RunTask.run ⟨l⟩ args { w₁ with config := text }).2)
          (by rw [RunTask.perform, run_bind_ok hinit, ← hresult])]
      have hreleased : Released args w.clock (finish args.configName result
          (RunTask.run ⟨l⟩ args { w₁ with config := text }).2).2 := by
        refine finish_releases (s := w.clock + 1) (by rw [hprofile, hbusy]) rfl rfl (Nat.le_succ _) ?_ result
        have htwo : w₁.clock = w.clock + 2 := by rw [← hw₁]
        omega
      rw [run_bind]
      split
      · rename_i hf
        rw [hf] at hreleased
        exact hreleased
      · rename_i hf
        rw [hf] at hreleased
        exact hreleased

/-- A reset of the example's profile. -/
def resetArgs : TaskArgs := ⟨.reset, "aws1", none, none, none, none⟩

theorem released_example : Released resetArgs freshWorld.clock (setStartTask resetArgs freshWorld).2 := by
  refine (released_iff resetArgs freshWorld freshRecord (by rfl)).2 ?_
  exact ⟨_, _, ConfigLoader.build_example.2⟩

/-- An empty file, as it is in the middle of a write. -/
def emptyWorld : World := { freshWorld with config := [] }

/-- While `config.conf` is empty no task can begin, and the profile of one that tries stays busy. -/
theorem stays_busy : ¬∀ (args : TaskArgs) (w : World) (r : Record), w.profile.get? args.configName = some r →
    Released args w.clock (setStartTask args w).2 := by
  intro h
  obtain ⟨r, hr, hrel⟩ := h resetArgs emptyWorld freshRecord rfl
  have hstatus : ((setStartTask resetArgs emptyWorld).2.profile.get? resetArgs.configName).map (·.status) =
      some .busy := by decide +kernel
  rw [hr, Option.map_some, hrel.idle] at hstatus
  cases hstatus

end TaskEnd
end Iprotate
