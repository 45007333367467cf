import Iprotate.Aws
import Iprotate.ProfileFiles
import Iprotate.Remote

/-!
# `RunTask`

The five task methods of `run.py`. Each is one `try` block: an exception becomes a result with status `failed`, and
what was done before it stays done.

A task holds up to three loaders at once: the one of `RunTask()` itself, the local one of the method, and that of the
`Aws` object. Each was read at its own time.
-/

namespace Iprotate

open Py ConfigLoader

structure RunTask where
  config : ConfigLoader

namespace RunTask

def username : Str := "ubuntu"
def basesocksPort : Nat := 50000

/-- `RunTask()` -/
def init : Py RunTask := do
  let config ← onConfig ConfigLoader.build
  return ⟨config⟩

/-- `self.key_path` -/
def keyPath (t : RunTask) : Str := t.config.apiConfig.sshKeyPath

/-- The `try` block around a task method. -/
def attempt (m : Py TaskResult) : Py TaskResult := tryCatch m fun e => return .failed (.textOf e)

/-- `{"message": text}` -/
def message (text : Str) : Json PyError := .obj [("message", .str text)]

/-- A text or `None`. -/
def optional (text : Option Str) : Json PyError := (text.map Json.str).getD .null

/-- `Aws(config_name)`, `login` and `terminate_instance`, with which two tasks begin. -/
def loginAndTerminate (configName : Str) : Py Unit := do
  let aws ← Aws.init configName
  let aws ← aws.login
  let _ ← aws.terminateInstance

/-- `Aws(config_name)`, `login`, `launch_instance` and `get_instance_address`. -/
def launch (configName : Str) : Py (Aws × Str) := do
  let aws ← Aws.init configName
  let aws ← aws.login
  let aws ← aws.launchInstance
  let awsIp ← aws.getInstanceAddress
  return (aws, awsIp)

/-- The files of the profile, the host, the service and the proxy, once the address is known. `change_ip` stops the
service before it restarts it. -/
def serve (t : RunTask) (config : ConfigLoader) (aws : Aws) (configName awsIp : Str) (stopFirst : Bool) : Py Unit := do
  let order := aws.awsConfig.order
  let config ← config.generateProfileConfig configName awsIp
  let (_, config) ← config.generatePeerConfig configName
  let host : SetupHost :=
    { host := awsIp, username, keyPath := t.keyPath,
      localPath := "/opt/cloud-iprotate/profile_config/".toList ++ profileName order configName ++ "/wg0.conf",
      remotePath := "/etc/wireguard/wg0.conf" }
  let ssh ← host.login
  host.setup ssh
  let service ← ServiceManager.init (profileName order configName)
  (if stopFirst then tryCatch service.stop fun _ => pure () else pure () : Py Unit)
  service.restartIprotateService
  let port ← int order
  let cconn := Socks5.init config.apiConfig.publicip (basesocksPort + port) (some aws.awsConfig.user)
    (some aws.awsConfig.pass)
  cconn.wait (· = awsIp) 5

/-- `change_region` from the first login on. -/
def moveRegion (t : RunTask) (config : ConfigLoader) (configName oldRegion newRegion : Str) : Py TaskResult := do
  loginAndTerminate configName
  let _ ← onConfig (t.config.changeRegion configName (some newRegion))
  let (aws, awsIp) ← launch configName
  t.serve config aws configName awsIp false
  return .success (.obj [("old_region", .str oldRegion), ("new_region", .str newRegion), ("new_ip", .str awsIp)])

/-- `change_region` -/
def changeRegion (t : RunTask) (configName : Str) (newRegion : Option Str) : Py TaskResult := attempt do
  let config ← onConfig ConfigLoader.build
  match newRegion with
  | none => return .failed (message "New region is not provided")
  | some newRegion =>
    let (aws, config) ← Py.ofConfig (config.loadAws configName)
    if aws.region = newRegion then return .failed (message "New region is the same as the old region")
    else t.moveRegion config configName aws.region newRegion

/-- `change_ip` -/
def changeIp (t : RunTask) (configName : Str) : Py TaskResult := attempt do
  let aws ← Aws.init configName
  let aws ← aws.login
  let config ← onConfig ConfigLoader.build
  let ((oldIp, awsIp), aws) ← aws.getNewIp
  t.serve config aws configName awsIp true
  return .success (.obj [("old_ip", optional oldIp), ("new_ip", .str awsIp)])

/-- `change_whitelist` -/
def changeWhitelist (configName : Str) (newWhitelist : Option Str) : Py TaskResult := attempt do
  let config ← onConfig ConfigLoader.build
  let config ← Py.ofConfig (config.setValue configName "whitelist" newWhitelist)
  onConfig (config.writeChanges configName)
  let fw ← Firewall.init configName
  fw.deleteRules
  fw.applyWhitelist
  return .success (.obj [("new_whitelist", optional newWhitelist)])

/-- What `reset` stores. -/
def resetValues : List (Str × Str) :=
  [("region", "us-east-2"), ("whitelist", ""), ("instanceid", ""), ("user", ""), ("pass", "")]

/-- `reset` -/
def reset (configName : Str) : Py TaskResult := attempt do
  loginAndTerminate configName
  let config ← onConfig ConfigLoader.build
  let config ← Py.ofConfig (config.setValues configName resetValues)
  onConfig (config.writeChanges configName)
  return .success (.str "config reset")

/-- `change_auth` -/
def changeAuth (configName : Str) (newUser newPass : Option Str) : Py TaskResult := attempt do
  let aws ← Aws.init configName
  let order := aws.awsConfig.order
  let config ← onConfig ConfigLoader.build
  let config ← Py.ofConfig (config.setValue configName "user" newUser)
  let config ← Py.ofConfig (config.setValue configName "pass" newPass)
  onConfig (config.writeChanges configName)
  let config ← config.generate3proxyConfig configName
  let config ← config.generateShadowsocksConfig configName
  let service ← ServiceManager.init (profileName order configName)
  service.stop
  let port ← int order
  let cconn := Socks5.init config.apiConfig.publicip (basesocksPort + port) newUser newPass
  service.start
  cconn.wait (· ≠ []) 5
  return .success (.obj [("new_user", optional newUser), ("new_pass", optional newPass)])

/-- `getattr(task, task_type)(**kwargs)` -/
def run (t : RunTask) (args : TaskArgs) : Py TaskResult :=
  match args.taskType with
  | .changeIp => t.changeIp args.configName
  | .changeRegion => t.changeRegion args.configName args.newRegion
  | .changeWhitelist => changeWhitelist args.configName args.newWhitelist
  | .reset => reset args.configName
  | .changeAuth => changeAuth args.configName args.newUser args.newPass

/-- A task on a new `RunTask()`, as `set_start_task` runs it. -/
def perform (args : TaskArgs) : Py TaskResult := do
  let task ← init
  task.run args

/-- A task run on its own, from the world before it to the world after it. -/
def step (w : World) (args : TaskArgs) : Option World := some (perform args w).2

end RunTask
end Iprotate
