import Iprotate.World

/-!
# The instance, the services and the proxy

The classes that talk to the instance over SSH (`SSHSetup`, `SetupHost`), to systemd (`ServiceManager`) and to the
proxy (`Socks5`). None of them touches `config.conf`, the account or the task records.
-/

namespace Iprotate

open Py

/-! ## SSH -/

structure SSHSetup where
  host : Str
  username : Str
  keyPath : Str
  /-- `get_transport() is not None` -/
  connected : Bool
  deriving DecidableEq, Repr

namespace SSHSetup

/-- `SSHSetup(host=…, username=…, key_path=…)` -/
def init (host username keyPath : Str) : SSHSetup := ⟨host, username, keyPath, false⟩

/-- The loop of `connect`; the argument is how many tries are left. -/
def tryConnect (s : SSHSetup) : Nat → Py SSHSetup
  | 0 => return s
  | tries + 1 => do
    let done ← tryCatch (do let _ ← call (.ssh s.host (.connect s.username s.keyPath)); return true) fun _ => pure false
    if done then return { s with connected := true } else s.tryConnect tries

/-- `connect` with its default of ten tries; nothing reads what it returns. -/
def connect (s : SSHSetup) : Py SSHSetup := s.tryConnect 10

/-- An operation on the transport, which is `None` before a connection. -/
def onTransport (s : SSHSetup) (op : SshOp) : Py Str :=
  if s.connected then call (.ssh s.host op) else throw (.attributeError "open_session")

/-- `exec_command(command)` and `stdout.read().decode().strip()`. -/
def exec (s : SSHSetup) (command : Str) : Py Str := do
  let output ← s.onTransport (.exec command)
  return Text.strip output

def isFileExists (s : SSHSetup) (remotePath : Str) : Py Bool := do
  let output ← s.exec ("sudo test -f " ++ remotePath ++ " && echo \"File exists\" || echo \"File does not exist\"")
  return output = "File exists".toList

def isPackageInstalled (s : SSHSetup) (packageName : Str) : Py Bool := do
  let output ← s.exec ("sudo dpkg -l | grep ".toList ++ packageName)
  return output ≠ []

/-- `install_package`; the exit status is read and nothing uses it. -/
def installPackage (s : SSHSetup) (packageName : Str) : Py Unit := do
  let installed ← s.isPackageInstalled packageName
  if installed then return
  else
    let _ ← s.exec ("sudo apt update -y && sudo apt install " ++ packageName ++ " -y")
    let _ ← s.onTransport .exitStatus

def removePackage (s : SSHSetup) (packageName : Str) : Py Unit := do
  let _ ← s.exec ("sudo apt remove " ++ packageName ++ " -y && sudo apt autoremove -y && sudo apt purge " ++
    packageName ++ " -y")
  let _ ← s.isPackageInstalled packageName

def enableService (s : SSHSetup) (serviceName : Str) : Py Unit := do
  let _ ← s.exec ("sudo systemctl enable " ++ serviceName ++ " && sudo systemctl start " ++ serviceName)

def restartService (s : SSHSetup) (serviceName : Str) : Py Unit := do
  let _ ← s.exec ("sudo systemctl restart ".toList ++ serviceName)

def allowIpv4Forwarding (s : SSHSetup) : Py Unit := do
  let _ ← s.onTransport (.exec
    "echo \"net.ipv4.ip_forward = 1\" | sudo tee /etc/sysctl.d/99-sysctl.conf && sudo sysctl -p")

def copyToHost (s : SSHSetup) (localPath remotePath : Str) : Py Unit := do
  let _ ← s.onTransport .openSftp
  let tempPath : Str := "/tmp/" ++ (localPath.splitOn '/').getLastD []
  let _ ← s.onTransport (.put localPath tempPath)
  let _ ← s.onTransport .closeSftp
  let _ ← s.exec ("sudo mv " ++ tempPath ++ " " ++ remotePath)
  let _ ← s.isFileExists remotePath

def executeScript (s : SSHSetup) (scriptPath : Str) : Py Unit := do
  let _ ← s.exec ("sudo bash ".toList ++ scriptPath)

def close (s : SSHSetup) : Py Unit := do
  let _ ← call (.ssh s.host .close)

end SSHSetup

/-! ## `SetupHost` -/

structure SetupHost where
  host : Str
  username : Str
  keyPath : Str
  localPath : Str
  remotePath : Str
  deriving DecidableEq, Repr

namespace SetupHost

def changeEthScriptPath : Str := "/opt/cloud-iprotate/change_eth.sh"

/-- `login`: goes on without a connection after ten failed tries. -/
def login (h : SetupHost) : Py SSHSetup := (SSHSetup.init h.host h.username h.keyPath).connect

/-- The package that `setup` removes. -/
def removeUpgrades (ssh : SSHSetup) : Py Unit := do
  let installed ← ssh.isPackageInstalled "unattended-upgrades"
  if installed then ssh.removePackage "unattended-upgrades" else return

/-- The package that `setup` needs. -/
def installWireguard (ssh : SSHSetup) : Py Unit := do
  let installed ← ssh.isPackageInstalled "wireguard"
  if installed then return else ssh.installPackage "wireguard"

/-- `setup`, with the connection that `login` left. -/
def setup (h : SetupHost) (ssh : SSHSetup) : Py Unit := do
  removeUpgrades ssh
  installWireguard ssh
  ssh.allowIpv4Forwarding
  ssh.copyToHost h.localPath h.remotePath
  ssh.copyToHost changeEthScriptPath "/tmp/change_eth.sh"
  ssh.executeScript "/tmp/change_eth.sh"
  ssh.enableService "wg-quick@wg0"
  ssh.restartService "wg-quick@wg0"
  ssh.close

end SetupHost

/-! ## systemd -/

structure ServiceManager where
  service : Str
  deriving DecidableEq, Repr

namespace ServiceManager

/-- `ServiceManager(service_name)` -/
def init (serviceName : Str) : Py ServiceManager := do
  let service : Str := "iprotate@" ++ serviceName
  let _ ← call (.systemd service .new)
  return ⟨service⟩

/-- `restart_iprotate_service` makes its own service object. -/
def restartIprotateService (m : ServiceManager) : Py Unit := do
  let _ ← call (.systemd m.service .new)
  let _ ← call (.systemd m.service .restart)

def stop (m : ServiceManager) : Py Unit := do
  let _ ← call (.systemd m.service .stop)

def start (m : ServiceManager) : Py Unit := do
  let _ ← call (.systemd m.service .start)

end ServiceManager

/-! ## The proxy -/

structure Socks5 where
  proxyHost : Str
  proxyPort : Int
  proxyUser : Option Str
  proxyPass : Option Str
  deriving DecidableEq, Repr

namespace Socks5

/-- `value or None` -/
def orNone (value : Option Str) : Option Str := value.filter (· ≠ [])

/-- `Socks5(proxy_host=…, …)` -/
def init (proxyHost : Str) (proxyPort : Int) (proxyUser proxyPass : Option Str) : Socks5 :=
  ⟨proxyHost, proxyPort, orNone proxyUser, orNone proxyPass⟩

/-- `get_external_ip` -/
def getExternalIp (c : Socks5) : Py Str := call (.socks c.proxyHost c.proxyPort c.proxyUser c.proxyPass)

/-- The rounds in which a task waits for its proxy: until an answer is `ready`, and no longer than `rounds`. -/
def wait (c : Socks5) (ready : Str → Bool) : Nat → Py Unit
  | 0 => return
  | rounds + 1 => do
    let done ← tryCatch (do let newip ← c.getExternalIp; return ready newip) fun _ => pure false
    if done then return else c.wait ready rounds

end Socks5
end Iprotate
