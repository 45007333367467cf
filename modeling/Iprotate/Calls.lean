import Iprotate.Aws

/-!
# One call to EC2

What a call leaves, whether it raises (`call_cases`), what an operation that reads the client's region does then
(`query_cases`, `query_ok`), and what one that changes it does (`change_cases`, `change_ok`).
-/

namespace Iprotate

open Py Prog

/-- After one call, with the answers still to come. -/
def World.called (w : World) (c : Call) (raised : Bool) (script : List Answer) : World :=
  { w with script, calls := w.calls ++ [(c, raised)] }

section called

variable (w : World) (c : Call) (raised : Bool) (script : List Answer)

@[simp] theorem World.called_calls : (w.called c raised script).calls = w.calls ++ [(c, raised)] := rfl

@[simp] theorem World.called_cloud : (w.called c raised script).cloud = w.cloud := rfl

@[simp] theorem World.called_config : (w.called c raised script).config = w.config := rfl

end called

theorem Aws.wrapping_eq_ok {α : Type} {text : Str} {m : Py α} {w w' : World} {a : α} :
    Aws.wrapping text m w = (.ok a, w') ↔ m w = (.ok a, w') := by
  rw [Aws.wrapping, run_tryCatch]
  cases m w with
  | mk x u =>
    cases x with
    | ok a => exact Iff.rfl
    | error e => exact ⟨fun h => (by cases h), fun h => (by cases h)⟩

theorem Aws.getAttr_eq_ok {α : Type} {name : Str} {value : Option α} {w w' : World} {a : α} :
    Aws.getAttr name value w = (.ok a, w') ↔ value = some a ∧ w = w' := by
  cases value with
  | none => exact ⟨fun h => (by cases h), fun h => (by cases h.1)⟩
  | some b => exact ⟨fun h => by cases h; exact ⟨rfl, rfl⟩, fun ⟨h, h'⟩ => by cases h; cases h'; rfl⟩

theorem Py.ofConfig_eq_ok {α : Type} {x : Except ConfigError α} {w w' : World} {a : α} :
    Py.ofConfig x w = (.ok a, w') ↔ x = .ok a ∧ w = w' := by
  cases x with
  | ok b => exact ⟨fun h => by cases h; exact ⟨rfl, rfl⟩, fun ⟨h, h'⟩ => by cases h; cases h'; rfl⟩
  | error e => exact ⟨fun h => (by cases h), fun h => (by cases h.1)⟩

theorem Py.onConfig_eq_ok {α : Type} {m : ConfigFile α} {w w' : World} {a : α} :
    Py.onConfig m w = (.ok a, w') ↔ ∃ text, m w.config = (.ok a, text) ∧ w' = { w with config := text } := by
  rw [Py.onConfig]
  cases hm : m w.config with
  | mk x text =>
    cases x with
    | ok b =>
      constructor
      · intro h
        cases h
        exact ⟨text, rfl, rfl⟩
      · rintro ⟨_, h, rfl⟩
        cases h
        rfl
    | error e =>
      constructor
      · intro h
        cases h
      · rintro ⟨_, h, -⟩
        cases h

namespace Ec2

variable {client : Client} {op : AwsOp} {w w' : World} {r : Region} {f : Region → Option Region}

theorem call_cases (c : Call) (w : World) : ∃ script, (∃ text, call c w = (.ok text, w.called c false script)) ∨
    ∃ message, call c w = (.error (.external message), w.called c true script) := by
  obtain ⟨config, sshKey, files, cloud, rules, script, calls, profile, threads, clock⟩ := w
  cases script with
  | nil => exact ⟨[], .inl ⟨[], rfl⟩⟩
  | cons a script =>
    cases a with
    | ok text => exact ⟨script, .inl ⟨text, rfl⟩⟩
    | raises message => exact ⟨script, .inr ⟨message, rfl⟩⟩

theorem query_cases (op : AwsOp) (h : w.cloud.region? client.region = some r) : ∃ script,
    query client op w = (.ok r, w.called (.aws client op) false script) ∨
    ∃ message, query client op w = (.error (.external message), w.called (.aws client op) true script) := by
  obtain ⟨script, ⟨text, hc⟩ | ⟨message, hc⟩⟩ := call_cases (.aws client op) w
  · refine ⟨script, .inl ?_⟩
    rw [query, run_bind_ok hc, run_bind_ok (run_get _), World.called_cloud, h]
    rfl
  · exact ⟨script, .inr ⟨message, by rw [query, run_bind_error hc]⟩⟩

theorem query_ok (h : query client op w = (.ok r, w')) : w.cloud.region? client.region = some r ∧
    ∃ script, w' = w.called (.aws client op) false script := by
  cases hr : w.cloud.region? client.region with
  | some s =>
    obtain ⟨script, hq | ⟨message, hq⟩⟩ := query_cases op hr
    · rw [hq] at h
      cases h
      exact ⟨rfl, script, rfl⟩
    · rw [hq] at h
      cases h
  | none =>
    obtain ⟨script, ⟨text, hc⟩ | ⟨message, hc⟩⟩ := call_cases (.aws client op) w
    · rw [query, run_bind_ok hc, run_bind_ok (run_get _), World.called_cloud, hr] at h
      cases h
    · rw [query, run_bind_error hc] at h
      cases h

/-- The region afterwards. -/
def changed (w : World) (client : Client) (op : AwsOp) (script : List Answer) (r : Region) : World :=
  { w.called (.aws client op) false script with cloud := w.cloud.setRegion client.region r }

/-- An operation goes well, cannot be done in this region, or its call raises. -/
theorem change_cases (op : AwsOp) (f : Region → Option Region) (h : w.cloud.region? client.region = some r) : ∃ script,
    (∃ r', f r = some r' ∧ change client op f w = (.ok (), changed w client op script r')) ∨
    (f r = none ∧ ∃ e, change client op f w = (.error e, w.called (.aws client op) false script)) ∨
    ∃ e, change client op f w = (.error e, w.called (.aws client op) true script) := by
  obtain ⟨script, hq | ⟨message, hq⟩⟩ := query_cases op h
  · refine ⟨script, ?_⟩
    rw [change, run_bind_ok hq]
    cases hf : f r with
    | none => exact .inr (.inl ⟨rfl, _, rfl⟩)
    | some r' => exact .inl ⟨r', rfl, rfl⟩
  · exact ⟨script, .inr (.inr ⟨_, by rw [change, run_bind_error hq]⟩)⟩

theorem change_ok (h : change client op f w = (.ok (), w')) : ∃ r r' script,
    w.cloud.region? client.region = some r ∧ f r = some r' ∧ w' = changed w client op script r' := by
  cases hq : query client op w with
  | mk x w₁ =>
    cases x with
    | error e =>
      rw [change, run_bind_error hq] at h
      cases h
    | ok r =>
      obtain ⟨hr, script, rfl⟩ := query_ok hq
      rw [change, run_bind_ok hq] at h
      cases hf : f r with
      | none =>
        rw [hf] at h
        cases h
      | some r' =>
        rw [hf] at h
        cases h
        exact ⟨r, r', script, hr, hf, rfl⟩

theorem region?_changed (h : w.cloud.region? client.region = some r) (op : AwsOp) (script : List Answer) (r' : Region) :
    (changed w client op script r').cloud.region? client.region = some r' :=
  Cloud.region?_setRegion_self (Cloud.isResourceName_of_region? h) r'

end Ec2

namespace Py

variable {path text : Str} {w w' : World}

/-- What is written is in the file. -/
theorem writeFile_ok (h : writeFile path text w = (.ok (), w')) : w'.files.get? path = some text := by
  obtain ⟨_, w₁, -, h⟩ := Prog.bind_eq_ok.1 h
  cases h
  exact Dict.get?_set_self _ _ _

/-- What is read is what the file has. -/
theorem readFile_ok (h : readFile path w = (.ok text, w')) : w.files.get? path = some text := by
  obtain ⟨_, w₁, hcall, h⟩ := Prog.bind_eq_ok.1 h
  obtain ⟨script, ⟨_, hc⟩ | ⟨_, hc⟩⟩ := Ec2.call_cases (.readFile path) w
  · obtain ⟨-, rfl⟩ := Prod.mk.inj (hcall.symm.trans hc)
    have hfiles : (w.called (.readFile path) false script).files = w.files := rfl
    rw [run_bind_ok (run_get _), hfiles] at h
    cases hf : w.files.get? path with
    | none =>
      rw [hf] at h
      cases h
    | some content =>
      rw [hf] at h
      cases h
      rfl
  · cases hcall.symm.trans hc

end Py

/-! ## An example -/

def exampleClient : Client := ⟨"ap-southeast-2", "AKIAVxxxxxxxxxxxxx", "rowAiKOSdIFbQSCqMxxxxxxxxxxxxx"⟩

/-- The profile of the example file after its login, with this instance. -/
def exampleAws (instanceId : Str) : Aws where
  config := ⟨Loader.exampleConfig, ⟨"api", "3000", [], [], [], [], "1.1.1.1", "/root/.ssh/id_rsa"⟩, []⟩
  configName := "aws1"
  awsConfig := ⟨"aws1", "1", exampleClient.accessKey, exampleClient.secretKey, instanceId, exampleClient.region, "", "",
    "ilyas", "ilyas"⟩
  ec2 := some exampleClient
  resource := some exampleClient
  keyPairName := none
  securityGroup := none

/-- The example file, and an account with one region. -/
def exampleAccount (r : Region) : World := { exampleWorld with cloud := ⟨[("ap-southeast-2", r)], 100⟩ }

end Iprotate
