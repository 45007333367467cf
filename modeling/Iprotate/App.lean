import Iprotate.TaskManager

/-!
# The request handlers

The routes of `app.py`. Seven of them begin with the same key check (`checkKey`), and six of these log in to AWS next
(`withLogin`). A handler returns the JSON of its answer; an exception it does not catch is an internal server error.
-/

namespace Iprotate

open Py

/-- The query parameters of a request. -/
structure Request where
  apikey : Option Str
  configName : Option Str
  newRegion : Option Str
  newWhitelist : Option Str
  newUser : Option Str
  newPass : Option Str
  deriving DecidableEq, Repr

namespace App

/-- The entries of an answer, under their keys. -/
abbrev Entries : Type := Dict Str (Json PyError)

def baseSocks5Port : Nat := 50000
def baseHttpPort : Nat := 60000

/-- `{"message": text}` -/
def message (text : Str) : Json PyError := RunTask.message text

def invalidKey : Json PyError := message "Invalid API key"

/-- The name of the profile a request is about. `None` goes the way of the empty name: no section has it. -/
def configName (req : Request) : Str := req.configName.getD []

/-! ## What the handlers share -/

/-- What seven handlers load first: the profile once to see that it is there, then `[api]` and the profile. -/
def loadProfile (name : Str) : Py (ApiConfig × AwsConfig) := do
  let config ← onConfig ConfigLoader.build
  let (_, config) ← Py.ofConfig (config.loadAws name)
  let api ← Py.ofConfig (Loader.loadApiConfig config.config)
  let (aws, _) ← Py.ofConfig (config.loadAws name)
  return (api, aws)

/-- The key is that of `[api]` or that of the profile. -/
def validKey (req : Request) (api : ApiConfig) (aws : AwsConfig) : Bool :=
  req.apikey = some api.apikey || req.apikey = some aws.apikey

/-- The beginning of seven handlers; `rest` is what they do once the key is found valid. -/
def checkKey (req : Request) (rest : ApiConfig → AwsConfig → Py (Json PyError)) : Py (Json PyError) := do
  let (api, aws) ← loadProfile (configName req)
  if validKey req api aws then rest api aws else return invalidKey

/-- `Aws(config_name)` and `login`; when that fails, the answer says so and the task record as well. -/
def withLogin (name : Str) (response : Py Entries) (rest : Aws → Py (Json PyError)) : Py (Json PyError) := do
  let aws ← Aws.init name
  let login ← tryCatch (do let aws ← aws.login; return Except.ok aws) fun e => return Except.error e
  match login with
  | .ok aws => rest aws
  | .error e =>
    TaskManager.setStopTask name "failed" (.textOf e)
    let response ← response
    return .obj ((response.set "status" (.str "failed")).set "message" (.textOf e))

/-- `check_task_status` -/
def checkTaskStatus (name : Str) : Py Status := do
  let w ← get
  match w.profile.get? name with
  | some _ => pure ()
  | none => TaskManager.registerProfile name
  let r ← TaskManager.record name
  return r.status

/-- `threading.Thread(target=task.set_start_task, kwargs=kwargs).start()` -/
def spawn (args : TaskArgs) : Py Unit := modify fun w => { w with threads := w.threads ++ [args] }

/-- The keyword arguments of a task without arguments of its own. -/
def plainArgs (taskType : TaskType) (name : Str) : TaskArgs := ⟨taskType, name, none, none, none, none⟩

/-- The address of a proxy, with its credentials if both are set. -/
def proxyAddress (publicip : Str) (port : Int) (user password : Str) : Str :=
  let address := publicip ++ ":".toList ++ showInt port
  if user ≠ [] ∧ password ≠ [] then address ++ ":".toList ++ user ++ ":".toList ++ password else address

/-- The addresses of both proxies of a profile. -/
def proxies (api : ApiConfig) (aws : AwsConfig) : Py Entries := do
  let order ← int aws.order
  return [("socks5_proxy", .str (proxyAddress api.publicip (baseSocks5Port + order) aws.user aws.pass)),
    ("http_proxy", .str (proxyAddress api.publicip (baseHttpPort + order) aws.user aws.pass))]

/-- The two entries with which most answers begin. -/
def nameAndRegion (name : Str) (aws : AwsConfig) : Entries := [("config_name", .str name), ("region", .str aws.region)]

/-! ## The routes -/

/-- What `hasattr(task.profile, config_name)` finds: the attributes of a `dict`. -/
def dictAttributes : List Str :=
  ["__class__", "__class_getitem__", "__contains__", "__delattr__", "__delitem__", "__dir__", "__doc__", "__eq__",
   "__format__", "__ge__", "__getattribute__", "__getitem__", "__getstate__", "__gt__", "__hash__", "__init__",
   "__init_subclass__", "__ior__", "__iter__", "__le__", "__len__", "__lt__", "__ne__", "__new__", "__or__",
   "__reduce__", "__reduce_ex__", "__repr__", "__reversed__", "__ror__", "__setattr__", "__setitem__", "__sizeof__",
   "__str__", "__subclasshook__", "clear", "copy", "fromkeys", "get", "items", "keys", "pop", "popitem", "setdefault",
   "update", "values"]

/-- `if not hasattr(task.profile, config_name): task.register_profile(config_name)` -/
def registerUnlessAttribute (name : Str) : Py Unit :=
  if name ∈ dictAttributes then return else TaskManager.registerProfile name

/-- The times of a record are given in seconds. -/
def taskTimeout : Nat := 600

/-- What `check_last_task` makes of a record whose task has run too long. -/
def timeOut (r : Record) (time : Nat) : Record :=
  { r with
    status := .idle, taskStartTime := none, currentTask := some none
    lastTask := { r.lastTask with status := some "Timeout", endTime := some time } }

/-- `check_last_task`, which no handler calls. A record is a `dict`, so `hasattr` finds no `task_start_time`. -/
def checkLastTask (name : Str) : Py LastTask := do
  let w ← get
  match w.profile.get? name with
  | none =>
    TaskManager.registerProfile name
    let r ← TaskManager.record name
    return r.lastTask
  | some r =>
    if "task_start_time".toList ∈ dictAttributes then
      let start ← Aws.getKey "task_start_time" r.taskStartTime
      let time ← now
      if taskTimeout < time - start then
        TaskManager.change name (timeOut · time)
        let r ← TaskManager.record name
        return r.lastTask
      else return r.lastTask
    else return r.lastTask

/-- `/change_ip`. A record is a `dict`, which has no attribute `last_task` or `current_task`. -/
def getStartProcess (req : Request) : Py (Json PyError) := checkKey req fun api aws => do
  let name := configName req
  let proxies ← proxies api aws
  let response : Entries := nameAndRegion name aws ++ proxies
  registerUnlessAttribute name
  let _ ← TaskManager.record name
  withLogin name (pure response) fun _ => do
    let status ← checkTaskStatus name
    match status with
    | .busy => return .obj (response ++ ([("status", .str "busy"), ("message", .str "Process is busy")] : Entries))
    | .idle =>
      spawn (plainArgs .changeIp name)
      return .obj (response ++ ([("status", .str "busy"), ("message", .str "Process started")] : Entries))

/-- `/reset` -/
def getReset (req : Request) : Py (Json PyError) := checkKey req fun _ aws => do
  let name := configName req
  withLogin name (pure (nameAndRegion name aws)) fun _ => do
    spawn (plainArgs .reset name)
    return message "Process started"

/-- `/change_auth` -/
def getChangeAuth (req : Request) : Py (Json PyError) := checkKey req fun _ aws => do
  let name := configName req
  withLogin name (pure (nameAndRegion name aws)) fun _ => do
    spawn { plainArgs .changeAuth name with newUser := req.newUser, newPass := req.newPass }
    return message "Process started"

/-- The entries of the answer of `/change_region`. It holds the record's own `last_task`, so it shows what became of
that. -/
def regionEntries (name oldRegion newRegion : Str) : Py Entries := do
  let r ← TaskManager.record name
  return [("config_name", .str name), ("old_region", .str oldRegion), ("new_region", .str newRegion),
    ("last_task", r.lastTask.json)]

/-- The answer of `/change_region` with a message. -/
def regionAnswer (name oldRegion newRegion text : Str) : Py (Json PyError) := do
  let response ← regionEntries name oldRegion newRegion
  return .obj (response ++ ([("message", .str text)] : Entries))

/-- `/change_region` after its key check. -/
def changeRegionTo (name newRegion : Str) (aws : AwsConfig) : Py (Json PyError) := do
  let _ ← TaskManager.record name
  withLogin name (regionEntries name aws.region newRegion) fun _ => do
    let _ ← TaskManager.record name
    if aws.region = newRegion then
      regionAnswer name aws.region newRegion "New region is the same as the old region"
    else
      let status ← checkTaskStatus name
      match status with
      | .busy => regionAnswer name aws.region newRegion "Process is busy"
      | .idle =>
        spawn { plainArgs .changeRegion name with newRegion := some newRegion }
        regionAnswer name aws.region newRegion "Process started"

/-- `/change_region` -/
def getChangeRegion (req : Request) : Py (Json PyError) :=
  match req.newRegion with
  | none => return message "New region is not provided"
  | some newRegion => checkKey req fun _ aws => changeRegionTo (configName req) newRegion aws

/-- The answer of `describe_regions`. -/
def regionsJson (regions : List (Str × Str)) : Json PyError :=
  .arr (regions.map fun (name, status) => .obj [("RegionName", .str name), ("OptInStatus", .str status)])

/-- `/get_available_region` -/
def getAvailableRegion (req : Request) : Py (Json PyError) := checkKey req fun _ aws => do
  let name := configName req
  withLogin name (pure (nameAndRegion name aws)) fun client => do
    let regions ← client.getAllRegions
    return regionsJson regions

/-- The entries of a loaded profile. -/
def awsEntries (aws : AwsConfig) : Entries :=
  [("configName", .str aws.configName), ("order", .str aws.order), ("accessKey", .str aws.accessKey),
   ("secretKey", .str aws.secretKey), ("instanceId", .str aws.instanceId), ("region", .str aws.region),
   ("apikey", .str aws.apikey), ("whitelist", .str aws.whitelist), ("user", .str aws.user), ("pass", .str aws.pass)]

/-- `response[new] = response.pop(old)` -/
def rename (response : Entries) (old new : Str) : Entries :=
  match response.get? old with
  | some v => (response.erase old).set new v
  | none => response

/-- The profile's part of the answer of `/get_config`. -/
def profileEntries (name : Str) (aws : AwsConfig) (regions : List (Str × Str)) : Entries :=
  let response := (nameAndRegion name aws).set "available_region" (regionsJson regions)
  let response := (awsEntries aws).foldl (fun d e => d.set e.1 e.2) response
  let response := ((response.erase "accessKey").erase "secretKey").erase "apikey"
  rename (rename response "configName" "config_name") "instanceId" "instanceid"

/-- The record's part of the answer of `/get_config`; `… or None` makes an empty `last_task` null. -/
def taskEntries (r : Record) : Entries :=
  [("current_task", ((r.currentTask.getD none).map fun t => Json.str (LastTask.taskTypeName t)).getD .null),
   ("last_task", if r.lastTask.entries.isEmpty then .null else r.lastTask.json),
   ("status", .str (Record.statusName r.status))]

/-- `/get_config` -/
def getConfigDetail (req : Request) : Py (Json PyError) := checkKey req fun api aws => do
  let name := configName req
  withLogin name (pure (nameAndRegion name aws)) fun client => do
    let regions ← client.getAllRegions
    let w ← get
    match w.profile.get? name with
    | none => throw (.attributeError "get")
    | some r =>
      let proxies ← proxies api aws
      return .obj (profileEntries name aws regions ++ taskEntries r ++ proxies)

/-- `/change_whitelist` -/
def changeWhitelist (req : Request) : Py (Json PyError) := checkKey req fun _ _ => do
  spawn { plainArgs .changeWhitelist (configName req) with newWhitelist := req.newWhitelist }
  return message "Process started"

/-- The seven routes with the key check. -/
inductive Endpoint
  | changeIp
  | reset
  | changeAuth
  | changeRegion
  | getAvailableRegion
  | getConfig
  | changeWhitelist
  deriving DecidableEq, Repr

/-- The handler of a route. -/
def handle : Endpoint → Request → Py (Json PyError)
  | .changeIp => getStartProcess
  | .reset => getReset
  | .changeAuth => getChangeAuth
  | .changeRegion => getChangeRegion
  | .getAvailableRegion => getAvailableRegion
  | .getConfig => getConfigDetail
  | .changeWhitelist => changeWhitelist

/-- `/get_task`, which asks for the key of `[api]`. -/
def getTask (req : Request) : Py (Json PyError) := do
  let config ← onConfig ConfigLoader.build
  let api ← Py.ofConfig (Loader.loadApiConfig config.config)
  if req.apikey ≠ some api.apikey then return invalidKey
  else
    let w ← get
    return .obj (w.profile.map fun (name, r) => (name, r.json))

end App
end Iprotate
