import Iprotate.RecordFrame

/-!
# Tasks that run too long

A busy record with the time it was marked, and the next request for its profile.

- The time of the mark is looked at by `check_last_task` only, which leaves every record as it is
  (`checkLastTask_keeps`); the handlers ask `check_task_status`, which knows no time.
- So a request treats a busy record the way the ten minutes ask exactly if they are not over and the request's login
  does not fail (`timely_iff`).
- A record that was marked more than an hour ago is still busy after the next request (`still_busy`).
-/

namespace Iprotate
namespace Timeout

open App Py Prog RecordFrame

/-- More than ten minutes have passed since the record was marked. -/
def Overdue (w : World) (r : Record) : Prop := ∃ start, r.taskStartTime = some start ∧ start + taskTimeout < w.clock

/-- The answer is that the profile is busy. -/
def SaysBusy (x : Except PyError (Json PyError)) : Prop :=
  ∃ entries : Entries, x = .ok (.obj entries) ∧ entries.get? "message" = some (.str "Process is busy")

/-- What is to become of a busy record: when it is overdue, the next request releases it and does not answer that it is
busy; until then the request does not release it. -/
structure Timely (e : Endpoint) (req : Request) (w : World) (r : Record) : Prop where
  late : Overdue w r → ¬SaysBusy (handle e req w).1 ∧
    ∃ r', (handle e req w).2.profile.get? (configName req) = some r' ∧ r'.status = .idle ∧
      r'.lastTask.status = some "Timeout" ∧ r'.lastTask.endTime.isSome = true
  early : ¬Overdue w r → ∃ r', (handle e req w).2.profile.get? (configName req) = some r' ∧ r'.status = .busy

/-- `check_last_task` releases nothing. -/
theorem checkLastTask_keeps {name : Str} {w : World} {r : Record} (h : w.profile.get? name = some r) :
    checkLastTask name w = (.ok r.lastTask, w) := by
  have hno : "task_start_time".toList ∉ dictAttributes := by decide
  simp only [checkLastTask, run_bind, run_get, h, if_neg hno, run_pure]

/-- **When a request treats a busy record as the ten minutes ask.** -/
theorem timely_iff (e : Endpoint) (req : Request) (w : World) (r : Record)
    (h : w.profile.get? (configName req) = some r) (hbusy : r.status = .busy) :
    Timely e req w r ↔ ¬Overdue w r ∧ ∀ err time, ¬LoginFails (.keyed e) req w err time := by
  have heffect := effect_handle e req h
  by_cases hf : ∃ err time, LoginFails (.keyed e) req w err time
  · -- the record is set to idle, and its task is said to have failed
    obtain ⟨err, time, hf⟩ := hf
    have hafter : (handle e req w).2.profile.get? (configName req) =
        some (r.setStopTask "failed" (.textOf err) time) := by
      rw [heffect.fails err time hf, Dict.get?_set_self]
    refine iff_of_false (fun ht => ?_) fun hc => hc.2 err time hf
    by_cases hlate : Overdue w r
    · obtain ⟨-, r', hr', -, htimeout, -⟩ := ht.late hlate
      rw [hafter] at hr'
      cases hr'
      exact absurd (Option.some.inj htimeout) (by decide)
    · obtain ⟨r', hr', hst⟩ := ht.early hlate
      rw [hafter] at hr'
      cases hr'
      cases hst
  · have hno : ∀ err time, ¬LoginFails (.keyed e) req w err time := fun err time h => hf ⟨err, time, h⟩
    have hafter : (handle e req w).2.profile.get? (configName req) = some r := by rw [heffect.otherwise hno, h]
    constructor
    · refine fun ht => ⟨fun hlate => ?_, hno⟩
      obtain ⟨-, r', hr', hidle, -⟩ := ht.late hlate
      rw [hafter] at hr'
      cases hr'
      rw [hbusy] at hidle
      cases hidle
    · rintro ⟨hearly, -⟩
      exact ⟨fun hlate => absurd hlate hearly, fun _ => ⟨r, hafter, hbusy⟩⟩

/-- A request with a valid key and a good login, in the second the task was marked. -/
theorem timely_busy : Timely .changeIp (viewRequest "api") reachableWorld busyRecord := by
  refine (timely_iff .changeIp (viewRequest "api") reachableWorld busyRecord rfl rfl).2
    ⟨?_, not_loginFails_reachable .changeIp "api"⟩
  rintro ⟨start, -, hlate⟩
  exact absurd hlate (Nat.not_lt_zero _)

/-- More than an hour after the mark; the login goes well. -/
def laterWorld : World := { reachableWorld with clock := 4000 }

/-- The next request finds the profile busy and leaves it so. -/
theorem still_busy : ¬∀ (req : Request) (w : World) (r : Record), w.profile.get? (configName req) = some r →
    r.status = .busy → Timely .changeIp req w r := by
  intro h
  obtain ⟨-, r, hr, hidle, -⟩ := (h (viewRequest "api") laterWorld busyRecord rfl rfl).late ⟨0, rfl, by decide⟩
  have hstatus : ((handle .changeIp (viewRequest "api") laterWorld).2.profile.get? (configName (viewRequest "api"))).map
      (·.status) = some .busy := by
    rw [handle, getStartProcess, KeyCheck.checkKey_example rfl rfl rfl]
    simp (disch := exact rfl) only [laterWorld, reachableWorld, busyWorld, busyRecord, ConfigLoader.exampleAwsConfig,
      ConfigLoader.exampleApiConfig, toList_of_eq]
    decide +kernel
  rw [hr, Option.map_some, hidle] at hstatus
  cases hstatus

end Timeout
end Iprotate
