import Iprotate.Base.Json
import Iprotate.Cloud
import Iprotate.ConfigLoader

/-!
# The world of the program

Everything a request can read or change: `config.conf`, the generated files, the EC2 account, the firewall rules, the
task records and the threads that were started; and the calls to the outside, with the answers still to come.

- `call` is one call to the outside: it takes the next answer, which may be an exception, and is logged.
- A call that raises has no effect; after the last answer every call goes well.
-/

namespace Iprotate

open ConfigParser

/-- The exceptions of the program. -/
inductive PyError
  | config (e : ConfigError)
  | keyError (key : Str)
  | indexError
  | attributeError (name : Str)
  /-- `int(text)` -/
  | valueError (text : Str)
  /-- `"…" + None` -/
  | typeError
  /-- Raised by a call to the outside. -/
  | external (message : Str)
  /-- `Exception(text)` -/
  | raised (text : Str)
  /-- `Exception(f"{text}{cause}")` -/
  | wrapped (text : Str) (cause : PyError)
  deriving DecidableEq, Repr

/-- What a call to the outside answers. -/
inductive Answer
  | ok (text : Str)
  | raises (message : Str)
  deriving DecidableEq, Repr

/-- The operations of the AWS client. -/
inductive AwsOp
  | client
  | resource
  | describeRegions (names : List Str)
  | describeInstances (ids : List Str)
  | terminateInstances (id : Str)
  | createInstances (image instanceType keyName securityGroup : Str)
  | waitInstanceRunning (id : Str)
  | describeImages
  | describeKeyPairs
  | importKeyPair (keyName publicKey : Str)
  | describeSecurityGroups (groupIds : List Str)
  | createSecurityGroup (groupName : Str)
  | authorizeSecurityGroupIngress (groupId : Str)
  | describeInstanceTypes (nextToken : Option Str)
  | describeAddresses
  | disassociateAddress (associationId : Str)
  | releaseAddress (allocationId : Str)
  | allocateAddress (instanceTag : Str)
  | associateAddress (instanceId allocationId : Str)
  deriving DecidableEq, Repr

/-- What `boto3.client` is made of. -/
structure Client where
  region : Str
  accessKey : Str
  secretKey : Str
  deriving DecidableEq, Repr

/-- What is done over an SSH connection. -/
inductive SshOp
  | connect (username keyPath : Str)
  | exec (command : Str)
  | exitStatus
  | openSftp
  | put (localPath remotePath : Str)
  | closeSftp
  | close
  deriving DecidableEq, Repr

/-- What is asked of a systemd service; `new` is the construction of its object. -/
inductive ServiceOp
  | new
  | restart
  | stop
  | start
  deriving DecidableEq, Repr

/-- A call to the outside. -/
inductive Call
  | aws (client : Client) (op : AwsOp)
  | system (command : Str)
  | ufwStatus
  | ufwDelete (index : Nat)
  | makedirs (path : Str)
  | writeFile (path : Str)
  | readFile (path : Str)
  | readKey (path : Str)
  | ssh (host : Str) (op : SshOp)
  | systemd (service : Str) (op : ServiceOp)
  | socks (host : Str) (port : Int) (user pass : Option Str)
  deriving DecidableEq, Repr

/-- The five task methods. -/
inductive TaskType
  | changeIp
  | changeRegion
  | changeWhitelist
  | reset
  | changeAuth
  deriving DecidableEq, Repr

/-- What a task method returns: its `status` and its `data`. -/
inductive TaskResult
  | success (data : Json PyError)
  | failed (data : Json PyError)

/-- The keyword arguments of `set_start_task`. -/
structure TaskArgs where
  taskType : TaskType
  configName : Str
  newRegion : Option Str
  newWhitelist : Option Str
  newUser : Option Str
  newPass : Option Str
  deriving DecidableEq, Repr

inductive Status
  | idle
  | busy
  deriving DecidableEq, Repr

/-- The `last_task` of a record; a field that is not there is `none`. -/
structure LastTask where
  startTime : Option Nat
  taskType : Option TaskType
  endTime : Option Nat
  status : Option Str
  data : Option (Json PyError)

/-- An entry of `TaskManager.profile`; a field that is not there is `none`. -/
structure Record where
  configName : Str
  status : Status
  /-- The inner `none` is `None`. -/
  currentTask : Option (Option TaskType)
  taskStartTime : Option Nat
  awsCurrentRegion : Option Str
  lastTask : LastTask

/-- The RSA key of `sshKeyPath`: its public half and the MD5 digest of the DER form of that. -/
structure SshKey where
  publicKey : Str
  digest : List (Fin 256)
  deriving DecidableEq

structure World where
  /-- The text of `config.conf`. -/
  config : Str
  sshKey : SshKey
  /-- The generated files. -/
  files : Dict Str Str
  cloud : Cloud
  /-- The firewall's rules, in their order. -/
  rules : List Str
  /-- The answers of the calls to come. -/
  script : List Answer
  /-- The calls made, each with whether it raised. -/
  calls : List (Call × Bool)
  /-- `task.profile` -/
  profile : Dict Str Record
  /-- The threads started with `target=task.set_start_task`. -/
  threads : List TaskArgs
  clock : Nat

/-- A world with this configuration file and this account, in which nothing has happened yet and every call goes
well. -/
def World.start (config : Str) (cloud : Cloud) : World where
  config := config
  sshKey := ⟨[], []⟩
  files := []
  cloud := cloud
  rules := []
  script := []
  calls := []
  profile := []
  threads := []
  clock := 0

/-- A program of the repository. -/
abbrev Py (α : Type) : Type := Prog World PyError α

/-- The repository's example file, with an account that has no regions. -/
def exampleWorld : World := .start (write Loader.exampleConfig) ⟨[], 0⟩

theorem read_exampleWorld : ConfigParser.read exampleWorld.config = .ok Loader.exampleConfig :=
  ConfigLoader.read_example

/-- A file with two profiles, with the same account. -/
def pairWorld : World := { exampleWorld with config := write ConfigLoader.pairConfig }

namespace Py

variable {α β : Type}

/-- A computation on parsers. -/
def ofConfig (x : Except ConfigError α) : Py α :=
  match x with
  | .ok a => pure a
  | .error e => throw (.config e)

@[simp] theorem run_ofConfig_ok (a : α) (w : World) : ofConfig (.ok a) w = (.ok a, w) := rfl

@[simp] theorem run_ofConfig_error (e : ConfigError) (w : World) :
    (ofConfig (.error e) : Py α) w = (.error (.config e), w) := rfl

/-- A program on `config.conf`. -/
def onConfig (m : ConfigFile α) : Py α := fun w =>
  match m w.config with
  | (.ok a, text) => (.ok a, { w with config := text })
  | (.error e, text) => (.error (.config e), { w with config := text })

/-- One call to the outside. -/
def call (c : Call) : Py Str := fun w =>
  match w.script with
  | .raises message :: script => (.error (.external message), { w with script, calls := w.calls ++ [(c, true)] })
  | .ok text :: script => (.ok text, { w with script, calls := w.calls ++ [(c, false)] })
  | [] => (.ok [], { w with calls := w.calls ++ [(c, false)] })

/-- A call that raises before it reaches the outside. -/
def refuse (c : Call) (message : Str) : Py Unit := fun w =>
  (.error (.external message), { w with calls := w.calls ++ [(c, true)] })

/-- `datetime.datetime.now()`; time passes from one reading to the next. -/
def now : Py Nat := fun w => (.ok w.clock, { w with clock := w.clock + 1 })

/-- `os.makedirs(path, exist_ok=True)` -/
def makedirs (path : Str) : Py Unit := do
  let _ ← call (.makedirs path)

/-- `open(path, "w")` and a write of the whole text. -/
def writeFile (path text : Str) : Py Unit := do
  let _ ← call (.writeFile path)
  modify fun w => { w with files := w.files.set path text }

/-- `open(path, "r").read()` -/
def readFile (path : Str) : Py Str := do
  let _ ← call (.readFile path)
  let w ← get
  match w.files.get? path with
  | some text => return text
  | none => throw (.external "No such file or directory")

/-- `int(text)`, for texts of ASCII digits with an optional sign, single underscores between digits and blanks
around. -/
def int (text : Str) : Py Int :=
  let digits (s : Str) : Option Nat :=
    let groups := s.splitOn '_'
    if groups.all fun g => g ≠ [] && g.all Char.isDigit then
      some (groups.flatten.foldl (fun n c => 10 * n + (c.toNat - 48)) 0)
    else none
  let value : Option Int :=
    match Text.strip text with
    | '-' :: s => (digits s).map fun n => -(n : Int)
    | '+' :: s => (digits s).map Int.ofNat
    | s => (digits s).map Int.ofNat
  match value with
  | some n => pure n
  | none => throw (.valueError text)

/-- A construction from the example file. -/
theorem build_example {w : World} (h : w.config = write Loader.exampleConfig) :
    onConfig ConfigLoader.build w = (.ok ConfigLoader.exampleLoader, w) := by
  rw [onConfig, h, ConfigLoader.build_example.2, ← h]

end Py

/-- The text of a number. -/
def showInt (n : Int) : Str := (toString n).toList

def showNat (n : Nat) : Str := (toString n).toList

theorem showNat_injective : Function.Injective showNat := by
  intro n m h
  have hdigits : Nat.toDigits 10 n = Nat.toDigits 10 m := by
    simpa only [showNat, show ∀ k : Nat, toString k = k.repr from fun _ => rfl, Nat.toList_repr] using h
  calc n = Nat.ofDigitChars 10 (Nat.toDigits 10 n) 0 := Nat.ofDigitChars_ten_toDigits.symm
    _ = Nat.ofDigitChars 10 (Nat.toDigits 10 m) 0 := by rw [hdigits]
    _ = m := Nat.ofDigitChars_ten_toDigits

end Iprotate
