import Iprotate.Base.IpNetwork
import Iprotate.Base.Shell
import Iprotate.World

/-!
# `Firewall`

The class of `connection.py` that writes a profile's ufw application and its rules, and the ufw commands it runs.
-/

namespace Iprotate

open ConfigParser IpNetwork Py

/-- `set` for several options of a parser under construction. -/
def setOptions (p : ConfigParser) (s : Str) (items : List (Str × Str)) : Except ConfigError ConfigParser :=
  items.foldlM (fun p e => p.set s e.1 e.2) p

/-! ## ufw -/

namespace Ufw

/-- `ufw allow|reject from <x> to any app <p>` appends a rule unless it is there; the effect of any other command, or of
one in which the shell expands something, on the rules is not modelled. -/
def run (command : Str) (rules : List Str) : List Str :=
  match Shell.simple command with
  | none => rules
  | some c =>
    match c.words.mapM Shell.unquote with
    | some [ufw, verb, w₁, x, w₂, w₃, w₄, p] =>
      if ufw = "ufw".toList ∧ (verb = "allow".toList ∨ verb = "reject".toList) ∧
          [w₁, w₂, w₃, w₄] = ["from".toList, "to".toList, "any".toList, "app".toList] then
        let rule := verb ++ " from ".toList ++ x ++ " to any app ".toList ++ p
        if rule ∈ rules then rules else rules ++ [rule]
      else rules
    | _ => rules

end Ufw

/-- `os.system`; a text with a NUL in it raises `ValueError` before there is a shell. -/
def system (command : Str) : Py Unit :=
  if '\x00' ∈ command then refuse (.system command) "embedded null byte"
  else do
    let _ ← call (.system command)
    modify fun w => { w with rules := Ufw.run command w.rules }

/-- `ufw.status().get("rules")`, whose numbers begin at 1. -/
def ufwStatus : Py (List (Nat × Str)) := do
  let _ ← call .ufwStatus
  let w ← get
  return (List.range w.rules.length).map (· + 1) |>.zip w.rules

/-- `ufw.delete(index)` -/
def ufwDelete (index : Nat) : Py Unit := do
  let _ ← call (.ufwDelete index)
  modify fun w => { w with rules := w.rules.eraseIdx (index - 1) }

/-! ## The class -/

structure Firewall where
  appName : Str
  /-- `none` is the empty whitelist; otherwise the entries between the commas. -/
  whitelist : Option (List Str)
  deriving DecidableEq, Repr

namespace Firewall

def appNameOf (order : Int) : Str := "iprotate_" ++ showInt order

/-- `self.whitelist` and `self.app_name`. -/
def ofConfig (aws : AwsConfig) (order : Int) : Firewall where
  appName := appNameOf order
  whitelist := if aws.whitelist = [] then none else some (aws.whitelist.splitOn ',')

/-- The ufw application of a profile. -/
def appConfig (order : Int) : Except ConfigError ConfigParser :=
  let name := appNameOf order
  let socks5port := showInt (ConfigLoader.socks5PortBase + order)
  let httpport := showInt (ConfigLoader.httpPortBase + order)
  setOptions (ConfigParser.empty.addSection name) name
    [("title", name), ("description", "ufw application config for ".toList ++ name),
     ("ports", socks5port ++ "," ++ httpport ++ "/tcp|" ++ socks5port ++ "/udp")]

/-- `Firewall(config_name=…)` -/
def init (configName : Str) : Py Firewall := do
  let config ← onConfig ConfigLoader.build
  let _ ← Py.ofConfig (Loader.loadApiConfig config.config)
  let (aws, _) ← Py.ofConfig (config.loadAws configName)
  let order ← int aws.order
  let app ← Py.ofConfig (appConfig order)
  writeFile ("/etc/ufw/applications.d/iprotate_" ++ showInt order) (ConfigParser.write app)
  tryCatch (do
      system "ufw app list > /dev/null 2>&1"
      system "ufw app update iprotate_\x7bself.order\x7d > /dev/null 2>&1")
    fun _ => pure ()
  return .ofConfig aws order

/-- `re.search(rf" {self.app_name}$", rule)`; an application's name has no character that is special in a pattern. -/
def matchesApp (fw : Firewall) (rule : Str) : Bool := (' ' :: fw.appName).isSuffixOf rule

/-- `delete_rules` -/
def deleteRules (fw : Firewall) : Py Unit := do
  let rules ← ufwStatus
  Prog.each (fun e => if fw.matchesApp e.2 then ufwDelete e.1 else pure ()) rules.reverse

/-- The command for one entry of the whitelist. -/
def allowCommand (fw : Firewall) (ip : Str) : Str :=
  "ufw allow from " ++ ip ++ " to any app " ++ fw.appName ++ " > /dev/null 2>&1"

def rejectCommand (fw : Firewall) : Str := "ufw reject from any to any app " ++ fw.appName ++ " > /dev/null 2>&1"

def allowAllCommand (fw : Firewall) : Str := "ufw allow from any to any app " ++ fw.appName ++ " > /dev/null 2>&1"

/-- One round of the loop of `apply_whitelist`. -/
def applyEntry (fw : Firewall) (ip : Str) : Py Unit :=
  let ip := Text.strip ip
  if (ipNetwork ip).isSome then tryCatch (system (fw.allowCommand ip)) fun _ => pure () else pure ()

/-- `apply_whitelist` -/
def applyWhitelist (fw : Firewall) : Py Unit :=
  match fw.whitelist with
  | some entries => do
    Prog.each fw.applyEntry entries
    tryCatch (system fw.rejectCommand) fun _ => pure ()
  | none => tryCatch (system fw.allowAllCommand) fun _ => pure ()

end Firewall
end Iprotate
