import Iprotate.RunTask

/-!
# `TaskManager`

The records of the tasks (`task_manager.py`): one for each profile that was seen, with its status and what is known
of its last task. The changes of one record are functions of it (`Record.markBusy`, `Record.setStopTask`,
`Record.reload`); `setStartTask` is the body of a task thread.
-/

namespace Iprotate

open Py

/-! ## Records -/

namespace LastTask

/-- `{}` -/
def empty : LastTask := ⟨none, none, none, none, none⟩

def taskTypeName : TaskType → Str
  | .changeIp => "change_ip"
  | .changeRegion => "change_region"
  | .changeWhitelist => "change_whitelist"
  | .reset => "reset"
  | .changeAuth => "change_auth"

/-- The entries that are there. -/
def entries (t : LastTask) : List (Str × Json PyError) :=
  [("start_time", t.startTime.map fun n => .num n), ("task_type", t.taskType.map fun k => .str (taskTypeName k)),
   ("end_time", t.endTime.map fun n => .num n), ("status", t.status.map .str), ("data", t.data)].filterMap
    fun e => e.2.map fun v => (e.1, v)

def json (t : LastTask) : Json PyError := .obj t.entries

end LastTask

namespace Record

/-- A record as `TaskManager()` and `register_profile` make it. -/
def new (aws : AwsConfig) : Record where
  configName := aws.configName
  status := .idle
  currentTask := none
  taskStartTime := none
  awsCurrentRegion := if aws.region = [] then none else some aws.region
  lastTask := .empty

/-- What `set_start_task` notes before the task runs. -/
def markBusy (r : Record) (taskType : TaskType) (taskStart lastStart : Nat) : Record :=
  { r with
    status := .busy, taskStartTime := some taskStart, currentTask := some (some taskType)
    lastTask := { r.lastTask with startTime := some lastStart, taskType := some taskType } }

/-- `set_stop_task` -/
def setStopTask (r : Record) (result : Str) (data : Json PyError) (time : Nat) : Record :=
  { r with
    status := .idle, currentTask := some none
    lastTask := { r.lastTask with endTime := some time, status := some result, data := some data } }

/-- The record that `reload_profile` puts in the place of another one. -/
def reload (r : Record) (aws : AwsConfig) : Record :=
  { Record.new aws with currentTask := some none, lastTask := r.lastTask }

def statusName : Status → Str
  | .idle => "idle"
  | .busy => "busy"

/-- The entries of a record. -/
def json (r : Record) : Json PyError :=
  let currentTask : List (Str × Json PyError) :=
    match r.currentTask with
    | none => []
    | some t => [("current_task", (t.map fun k => .str (LastTask.taskTypeName k)).getD .null)]
  let startTime : List (Str × Json PyError) :=
    match r.taskStartTime with
    | none => []
    | some n => [("task_start_time", .num n)]
  .obj (([("config_name", .str r.configName), ("status", .str (statusName r.status)),
    ("aws_current_region", (r.awsCurrentRegion.map Json.str).getD .null), ("last_task", r.lastTask.json)] :
      List (Str × Json PyError)) ++ currentTask ++ startTime)

end Record

/-! ## The table -/

namespace TaskManager

/-- `self.profile[config_name]` -/
def record (configName : Str) : Py Record := do
  let w ← get
  match w.profile.get? configName with
  | some r => return r
  | none => throw (.keyError configName)

/-- Replace a record that is there. -/
def change (configName : Str) (f : Record → Record) : Py Unit := do
  let r ← record configName
  modify fun w => { w with profile := w.profile.set configName (f r) }

/-- `ConfigLoader().load_all_aws_config()`: the construction loads all profiles, and this loads them again. -/
def loadAll : ConfigFile (List AwsConfig) := do
  let config ← ConfigLoader.build
  let (all, _) ← ConfigLoader.loadAllAwsConfig (Loader.profileNames config.config) 1 config.config
  return all

/-- `TaskManager()` -/
def init : Py Unit := do
  let _ ← now
  let all ← onConfig loadAll
  modify fun w => { w with profile := all.foldl (fun d aws => d.set aws.configName (.new aws)) [] }

/-- `reload_profile` -/
def reloadProfile (configName : Str) : Py Unit := do
  let all ← onConfig loadAll
  let r ← record configName
  match all.find? (·.configName = configName) with
  | none => throw (.attributeError "get")
  | some aws => modify fun w => { w with profile := w.profile.set configName (r.reload aws) }

/-- `register_profile` -/
def registerProfile (configName : Str) : Py Unit := do
  let w ← get
  match w.profile.get? configName with
  | some _ => return
  | none =>
    let config ← onConfig ConfigLoader.build
    let (aws, _) ← Py.ofConfig (config.loadAws configName)
    modify fun w => { w with profile := w.profile.set configName (.new aws) }

/-- `set_stop_task` -/
def setStopTask (configName result : Str) (data : Json PyError) : Py Unit := do
  let time ← now
  change configName (·.setStopTask result data time)

/-- The beginning of `set_start_task`. -/
def markBusy (args : TaskArgs) : Py Unit := do
  let taskStart ← now
  let lastStart ← now
  change args.configName (·.markBusy args.taskType taskStart lastStart)

/-- The end of `set_start_task`. -/
def finish (configName : Str) (result : TaskResult) : Py Unit := do
  match result with
  | .success data =>
    setStopTask configName "success" (.obj [("status", .str "success"), ("data", data)])
    reloadProfile configName
  | .failed data =>
    setStopTask configName "failed" (.obj [("status", .str "failed"), ("data", data)])
    reloadProfile configName

/-- `set_start_task` -/
def setStartTask (args : TaskArgs) : Py TaskResult := do
  markBusy args
  let result ← RunTask.perform args
  finish args.configName result
  return result

end TaskManager

/-! ## An example -/

/-- The record of the example's profile before its first task. -/
def freshRecord : Record := ⟨"aws1", .idle, none, none, some "ap-southeast-2", .empty⟩

/-- The example file, with its profile registered. -/
def freshWorld : World := { exampleWorld with profile := [("aws1", freshRecord)] }

end Iprotate
