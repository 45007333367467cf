import Iprotate.RecordFrame

/-!
# Requests and tasks

The program from outside: requests come, and the threads of tasks run, in any order (`Event`, `step`).

- A property of the world is a server frame (`ServerFrame`) when it is a quiet frame and has nothing to do with the task
  records and the list of threads; every request keeps these (`ServerFrame.answer`).
- A thread keeps what its task keeps (`ServerFrame.setStartTask`).
-/

namespace Iprotate
namespace Events

open App Py Prog RecordFrame

/-- What happens to the program: a request, or the thread of a task from its start to its end. -/
inductive Event
  | request (route : Route) (req : Request)
  | task (args : TaskArgs)
  deriving DecidableEq, Repr

/-- What comes of an event. -/
inductive Outcome
  | answered (x : Except PyError (Json PyError))
  | ended (x : Except PyError TaskResult)

/-- An event is dealt with at a stretch. -/
def step (w : World) : Event → Outcome × World
  | .request route req => (.answered (answer route req w).1, (answer route req w).2)
  | .task args => (.ended (TaskManager.setStartTask args w).1, (TaskManager.setStartTask args w).2)

structure ServerFrame (I : World → Prop) : Prop extends QuietFrame I where
  records : ∀ w profile, I w → I { w with profile }
  threads : ∀ w threads, I w → I { w with threads }

/-- A property of the text of `config.conf` that constructions keep. -/
theorem ServerFrame.of_config {J : Str → Prop} (h : Keeps J ConfigLoader.build) : ServerFrame fun w => J w.config where
  toQuietFrame := (Frame.of_config h).toQuietFrame
  records _ _ hw := hw
  threads _ _ hw := hw

namespace ServerFrame

variable {I : World → Prop}

/-! ## Records -/

theorem record (name : Str) : Keeps I (TaskManager.record name) := by
  refine .bind .get fun w => ?_
  split
  · exact .pure _
  · exact .throw _

theorem change (h : ServerFrame I) (name : Str) (f : Record → Record) : Keeps I (TaskManager.change name f) :=
  .bind (record name) fun _ => .modify fun w hw => h.records w _ hw

theorem registerProfile (h : ServerFrame I) (name : Str) : Keeps I (TaskManager.registerProfile name) := by
  refine .bind .get fun w => ?_
  split
  · exact .pure _
  · exact .bind h.build fun _ => .bind (Frame.ofConfig _) fun _ => .modify fun w hw => h.records w _ hw

theorem setStopTask (h : ServerFrame I) (name result : Str) (data : Json PyError) :
    Keeps I (TaskManager.setStopTask name result data) := .bind h.now fun _ => h.change name _

theorem checkTaskStatus (h : ServerFrame I) (name : Str) : Keeps I (checkTaskStatus name) := by
  refine .bind .get fun w => ?_
  dsimp only
  split
  · exact .bind (record name) fun _ => .pure _
  · exact .bind (h.registerProfile name) fun _ => .bind (record name) fun _ => .pure _

theorem spawn (h : ServerFrame I) (args : TaskArgs) : Keeps I (spawn args) := .modify fun w hw => h.threads w _ hw

/-! ## Handlers -/

theorem withLogin (h : ServerFrame I) (name : Str) {response : Py Entries} {rest : Aws → Py (Json PyError)}
    (hresponse : Keeps I response) (hrest : ∀ a, Keeps I (rest a)) : Keeps I (withLogin name response rest) := by
  refine .bind (h.awsInit name) fun a => .bind (.tryCatch (.bind ?_ fun _ => .pure _) fun _ => .pure _) fun login => ?_
  · exact .of_triple (h.login a) (fun _ _ hb => hb.1) fun _ _ hw => hw
  · cases login with
    | ok a => exact hrest a
    | error e => exact .bind (h.setStopTask _ _ _) fun _ => .bind hresponse fun _ => .pure _

theorem checkKey (h : ServerFrame I) (req : Request) {rest : ApiConfig → AwsConfig → Py (Json PyError)}
    (hrest : ∀ api aws, Keeps I (rest api aws)) : Keeps I (checkKey req rest) :=
  .bind (.bind h.build fun _ => .bind (Frame.ofConfig _) fun _ => .bind (Frame.ofConfig _) fun _ =>
    .bind (Frame.ofConfig _) fun _ => .pure _) fun _ => .ite (hrest _ _) (.pure _)

theorem regionEntries (name oldRegion newRegion : Str) : Keeps I (regionEntries name oldRegion newRegion) :=
  .bind (record name) fun _ => .pure _

/-- A busy profile gets an answer, an idle one a thread. -/
theorem start (h : ServerFrame I) (name : Str) {busy idle : Py (Json PyError)} (hbusy : Keeps I busy)
    (hidle : Keeps I idle) : Keeps I (do
      let status ← App.checkTaskStatus name
      match status with
      | .busy => busy
      | .idle => idle) := by
  refine .bind (h.checkTaskStatus name) fun status => ?_
  cases status with
  | busy => exact hbusy
  | idle => exact hidle

theorem changeRegionTo (h : ServerFrame I) (name newRegion : Str) (aws : AwsConfig) :
    Keeps I (changeRegionTo name newRegion aws) := by
  have hanswer : ∀ text, Keeps I (regionAnswer name aws.region newRegion text) := fun text =>
    .bind (regionEntries _ _ _) fun _ => .pure _
  refine .bind (record name) fun _ => h.withLogin name (regionEntries _ _ _) fun _ => .bind (record name) fun _ => ?_
  exact .ite (hanswer _) (h.start name (hanswer _) (.bind (h.spawn _) fun _ => hanswer _))

/-- **What every request keeps.** -/
theorem answer (h : ServerFrame I) (route : Route) (req : Request) : Keeps I (answer route req) := by
  have hspawn : ∀ args, Keeps I (do App.spawn args; return message "Process started" : Py (Json PyError)) := fun args =>
    .bind (h.spawn args) fun _ => .pure _
  have hproxies : ∀ api aws, Keeps I (proxies api aws) := fun _ _ => .bind (Frame.int _) fun _ => .pure _
  cases route with
  | getTask =>
    exact .bind h.build fun _ => .bind (Frame.ofConfig _) fun _ => .ite (.pure _) (.bind .get fun _ => .pure _)
  | keyed e =>
    cases e with
    | changeIp =>
      refine h.checkKey req fun api aws => .bind (hproxies api aws) fun _ => .bind ?_ fun _ =>
        .bind (record _) fun _ => ?_
      · exact .ite (.pure _) (h.registerProfile _)
      · exact h.withLogin _ (.pure _) fun _ => h.start _ (.pure _) (.bind (h.spawn _) fun _ => .pure _)
    | reset => exact h.checkKey req fun _ _ => h.withLogin _ (.pure _) fun _ => hspawn _
    | changeAuth => exact h.checkKey req fun _ _ => h.withLogin _ (.pure _) fun _ => hspawn _
    | changeRegion =>
      show Keeps I (getChangeRegion req)
      unfold getChangeRegion
      cases req.newRegion with
      | none => exact .pure _
      | some newRegion => exact h.checkKey req fun _ aws => h.changeRegionTo _ _ aws
    | getAvailableRegion =>
      exact h.checkKey req fun _ _ => h.withLogin _ (.pure _) fun a => .bind (h.getAllRegions a) fun _ => .pure _
    | getConfig =>
      refine h.checkKey req fun api aws => h.withLogin _ (.pure _) fun a => .bind (h.getAllRegions a) fun _ => ?_
      refine .bind .get fun w => ?_
      split
      · exact .throw _
      · exact .bind (hproxies api aws) fun _ => .pure _
    | changeWhitelist => exact h.checkKey req fun _ _ => hspawn _

/-! ## Threads -/

theorem reloadProfile (h : ServerFrame I) (hload : Keeps I (onConfig TaskManager.loadAll)) (name : Str) :
    Keeps I (TaskManager.reloadProfile name) := by
  refine .bind hload fun all => .bind (record name) fun r => ?_
  split
  · exact .throw _
  · exact .modify fun w hw => h.records w _ hw

/-- **What a thread keeps**, if its task and the loading of all profiles keep it. -/
theorem setStartTask (h : ServerFrame I) (hload : Keeps I (onConfig TaskManager.loadAll)) {args : TaskArgs}
    (hperform : Keeps I (RunTask.perform args)) : Keeps I (TaskManager.setStartTask args) := by
  refine .bind (.bind h.now fun _ => .bind h.now fun _ => h.change _ _) fun _ => .bind hperform fun result =>
    .bind ?_ fun _ => .pure _
  cases result with
  | success data => exact .bind (h.setStopTask _ _ _) fun _ => h.reloadProfile hload _
  | failed data => exact .bind (h.setStopTask _ _ _) fun _ => h.reloadProfile hload _

end ServerFrame
end Events
end Iprotate
