import Iprotate.World

/-!
# `Aws`

The class of `aws.py`: the profile as it was loaded, the clients it makes, and the calls to EC2. An operation of a
client is one call to the outside, in the client's region; a region that does not exist cannot be reached.
-/

namespace Iprotate

open Py

/-! ## Calls to EC2 -/

namespace Ec2

/-- An operation that reads the client's region. -/
def query (client : Client) (op : AwsOp) : Py Region := do
  let _ ← call (.aws client op)
  let w ← get
  match w.cloud.region? client.region with
  | some r => return r
  | none => throw (.external "Could not connect to the endpoint URL")

/-- An operation that changes the client's region, if it can be done there. -/
def change (client : Client) (op : AwsOp) (f : Region → Option Region) : Py Unit := do
  let r ← query client op
  match f r with
  | some r => modify fun w => { w with cloud := w.cloud.setRegion client.region r }
  | none => throw (.external "An error occurred when calling the operation")

/-- The number in the next name that EC2 gives. -/
def nextId : Py Nat := fun w =>
  (.ok w.cloud.nextId, { w with cloud := { w.cloud with nextId := w.cloud.nextId + 1 } })

end Ec2

theorem isResourceName_id (n : Nat) : isResourceName ("i-" ++ showNat n) = true := by
  have hdigit : ∀ c ∈ showNat n, c.isAlphanum = true := by
    intro c hc
    rw [showNat, show toString n = n.repr from rfl, Nat.toList_repr] at hc
    simp [Char.isAlphanum, Nat.isDigit_of_mem_toDigits (by omega) (by omega) hc]
  have hhead : ∀ c ∈ "i-".toList, (c.isAlphanum || c = '-') = true := by decide
  simp only [isResourceName, Bool.and_eq_true, decide_eq_true_eq, List.all_eq_true]
  refine ⟨List.append_ne_nil_of_left_ne_nil (by decide) _, fun c hc => ?_⟩
  rcases List.mem_append.1 hc with hc | hc
  · exact hhead c hc
  · simp [hdigit c hc]

/-- The id of a new instance. -/
def newInstanceId (n : Nat) : InstanceId := ⟨"i-" ++ showNat n, isResourceName_id n⟩

/-- A public address that EC2 gives. -/
def newIp (n : Nat) : Str := "ip-" ++ showNat n

/-! ## The class -/

structure Aws where
  config : ConfigLoader
  configName : Str
  awsConfig : AwsConfig
  ec2 : Option Client
  resource : Option Client
  keyPairName : Option Str
  /-- The `GroupId` of `security_group`. -/
  securityGroup : Option Str

namespace Aws

/-- `Aws(config_name)` -/
def init (configName : Str) : Py Aws := do
  let config ← onConfig ConfigLoader.build
  let (awsConfig, config) ← Py.ofConfig (config.loadAws configName)
  return { config, configName, awsConfig, ec2 := none, resource := none, keyPairName := none, securityGroup := none }

/-- The client of the loaded region and credentials. -/
def client (a : Aws) : Client := ⟨a.awsConfig.region, a.awsConfig.accessKey, a.awsConfig.secretKey⟩

/-- An attribute that some method must have set. -/
def getAttr {α : Type} (name : Str) (value : Option α) : Py α :=
  match value with
  | some a => return a
  | none => throw (.attributeError name)

/-- A key that an answer must have. -/
def getKey {α : Type} (key : Str) (value : Option α) : Py α :=
  match value with
  | some a => return a
  | none => throw (.keyError key)

/-- `raise Exception(f"{text}{e}")` for every exception of `m`. -/
def wrapping {α : Type} (text : Str) (m : Py α) : Py α := tryCatch m fun e => throw (.wrapped text e)

/-- `self.ec2 = boto3.client("ec2", …)` -/
def newClient (a : Aws) : Py Aws := do
  wrapping "Error connecting to AWS: " do
    let _ ← call (.aws a.client .client)
    return { a with ec2 := some a.client }

/-- `set_value` of the instance id and `write_changes`. -/
def storeInstanceId (a : Aws) (id : Str) : Py Aws := do
  let config ← Py.ofConfig (a.config.setValue a.configName "instanceId" (some id))
  onConfig (config.writeChanges a.configName)
  return { a with config }

/-! ### `login` and the regions -/

/-- `login` -/
def login (a : Aws) : Py Aws := do
  let a ← a.newClient
  let ec2 ← getAttr "ec2" a.ec2
  let r ← Ec2.query ec2 (.describeRegions [a.awsConfig.region])
  match r.optInStatus with
  | none => throw .indexError
  | some status =>
    if status = "not-opted-in".toList then throw (.raised "Error connecting to AWS: not-opted-in")
    else
      let _ ← call (.aws a.client .resource)
      return { a with resource := some a.client }

/-- `get_all_regions`: the name and the status of each. -/
def getAllRegions (a : Aws) : Py (List (Str × Str)) := do
  let region : Str := if a.awsConfig.region = [] then "us-east-1" else a.awsConfig.region
  let ec2 := { a.client with region }
  let _ ← call (.aws ec2 .client)
  let _ ← Ec2.query ec2 (.describeRegions [])
  let w ← get
  return w.cloud.regions.filterMap fun (name, r) => r.optInStatus.map fun status => (name, status)

/-! ### `terminate_instance` -/

/-- One round of the loop of `terminate_instance`. -/
def terminateFirst (ec2 : Client) : List Instance → Py Unit
  | [] => throw .indexError
  | i :: _ => Ec2.change ec2 (.terminateInstances i.id.text) fun r => some (r.terminate i.id.text)

/-- `terminate_instance` -/
def terminateInstance (a : Aws) : Py Aws := do
  let ec2 ← getAttr "ec2" a.ec2
  let r ← Ec2.query ec2 (.describeInstances [])
  Prog.each (terminateFirst ec2) r.reservations
  a.storeInstanceId []

/-! ### What a launch needs -/

/-- The loop over the answers of `describe_instance_types`. -/
def moreInstanceTypes (ec2 : Client) : TypePage → List TypePage → List InstanceType → Py (List InstanceType)
  | ⟨_, none⟩, _, all | ⟨_, some []⟩, _, all => return all
  | ⟨_, some token⟩, pages, all => do
    let _ ← Ec2.query ec2 (.describeInstanceTypes (some token))
    match pages with
    | [] => throw (.external "An error occurred (InvalidNextToken)")
    | page :: pages => moreInstanceTypes ec2 page pages (all ++ page.instanceTypes.getD [])

/-- `get_instance_type_free_tier().get("InstanceType")` -/
def getInstanceTypeFreeTier (a : Aws) : Py Str := do
  let ec2 ← getAttr "ec2" a.ec2
  let r ← Ec2.query ec2 (.describeInstanceTypes none)
  let all ← (match r.typePages with
    | [] => pure []
    | page :: pages => moreInstanceTypes ec2 page pages (page.instanceTypes.getD []) : Py (List InstanceType))
  match all.find? (·.defaultCores = 1) with
  | some t => return t.instanceType
  | none => throw (.attributeError "get")

/-- `create_group_iprotate` -/
def createGroupIprotate (ec2 : Client) : Py Str := do
  let n ← Ec2.nextId
  let groupId : Str := "sg-" ++ showNat n
  Ec2.change ec2 (.createSecurityGroup "iprotate") (·.createSecurityGroup groupId "iprotate")
  return groupId

/-- The loop over the groups that have the role: the last one decides. -/
def chooseGroup (ec2 : Client) : List SecurityGroup → Option Str → Py (Option Str)
  | [], chosen => return chosen
  | g :: groups, _ => do
    let groupId ← (if g.groupName = "iprotate".toList then pure g.groupId else createGroupIprotate ec2 : Py Str)
    chooseGroup ec2 groups (some groupId)

/-- Whether some permission allows all traffic. -/
def allowsAll : List IpPermission → Except PyError Bool
  | [] => .ok false
  | p :: ps =>
    if p.ipProtocol ≠ "-1".toList then allowsAll ps
    else
      match p.ipRanges with
      | [] => .error .indexError
      | range :: _ =>
        if range.cidrIp ≠ "0.0.0.0/0".toList then allowsAll ps
        else
          match range.description with
          | none => .error (.keyError "Description")
          | some description => if description = "Allow all traffic".toList then .ok true else allowsAll ps

/-- The groups that have the role. -/
def roleGroups (groups : List SecurityGroup) : List SecurityGroup :=
  groups.filter fun g => ("role".toList, "iprotate".toList) ∈ g.tags

/-- `create_security_group` -/
def createSecurityGroup (a : Aws) : Py Aws := do
  let ec2 ← getAttr "ec2" a.ec2
  let r ← Ec2.query ec2 (.describeSecurityGroups [])
  let chosen ← chooseGroup ec2 (r.securityGroups.filter fun g => ("role", "iprotate") ∈ g.tags) a.securityGroup
  let groupId ← (match chosen with
    | some groupId => pure groupId
    | none => createGroupIprotate ec2 : Py Str)
  let r ← Ec2.query ec2 (.describeSecurityGroups [groupId])
  match r.securityGroups.find? (·.groupId = groupId) with
  | none => throw .indexError
  | some g =>
    let allowed ← Prog.ofExcept (allowsAll g.ipPermissions)
    if allowed then return { a with securityGroup := some groupId }
    else
      Ec2.change ec2 (.authorizeSecurityGroupIngress groupId) (·.authorizeAll groupId)
      return { a with securityGroup := some groupId }

/-- `format_fingerprint` -/
def formatFingerprint (digest : List (Fin 256)) : Str :=
  [':'].intercalate (digest.map fun b => [Json.hexDigit (b / 16), Json.hexDigit (b % 16)])

/-- `set_keypair` -/
def setKeypair (a : Aws) : Py Aws := do
  let _ ← wrapping "Error reading keypair file: " (call (.readKey a.config.apiConfig.sshKeyPath))
  let w ← get
  let fingerprint := formatFingerprint w.sshKey.digest
  let ec2 ← getAttr "ec2" a.ec2
  let r ← Ec2.query ec2 .describeKeyPairs
  match r.keyPairs.find? (·.keyFingerprint = fingerprint) with
  | some keypair => return { a with keyPairName := some keypair.keyName }
  | none =>
    wrapping "Error importing keypair: " do
      let date ← now
      let keyName : Str := "iprotate-" ++ showNat date
      Ec2.change ec2 (.importKeyPair keyName ("ssh-rsa ".toList ++ w.sshKey.publicKey)) fun r =>
        some (r.importKeyPair keyName fingerprint)
      return { a with keyPairName := some keyName }

/-- `self.describe_images().get("Images")[0].get("ImageId")` -/
def firstImage (a : Aws) : Py (Str × Aws) := do
  let a ← a.newClient
  let ec2 ← getAttr "ec2" a.ec2
  let r ← Ec2.query ec2 .describeImages
  match r.images with
  | [] => throw .indexError
  | image :: _ => return (image, a)

/-! ### `launch_instance` -/

/-- The loop at the beginning of `launch_instance`. An instance is a `dict`, which has no attribute `Tags`, so no
running instance is taken over. -/
def lookAtFirst : List Instance → Py Unit
  | [] => throw .indexError
  | _ :: _ => return

/-- `launch_instance` until the new instance runs. -/
def createInstance (a : Aws) : Py (Str × Aws) := do
  let ec2 ← getAttr "ec2" a.ec2
  let r ← Ec2.query ec2 (.describeInstances [])
  Prog.each lookAtFirst r.reservations
  let a ← a.createSecurityGroup
  let instanceType ← a.getInstanceTypeFreeTier
  let a ← a.newClient
  let a ← a.setKeypair
  let resource ← getAttr "resource" a.resource
  let (image, a) ← a.firstImage
  let keyName ← getAttr "key_pair_name" a.keyPairName
  let n ← Ec2.nextId
  let id := newInstanceId n
  Ec2.change resource (.createInstances image instanceType keyName "iprotate") fun r =>
    some (r.launch ⟨id, .pending, [("role", "iprotate")], some (newIp n)⟩)
  let ec2 ← getAttr "ec2" a.ec2
  Ec2.change ec2 (.waitInstanceRunning id.text) fun r => some (r.start id.text)
  return (id.text, a)

/-- The rest of `launch_instance`: the id is stored, the profile is loaded again, and the id is stored once more. -/
def recordInstance (a : Aws) (id : Str) : Py Aws := do
  let a ← a.storeInstanceId id
  let (awsConfig, config) ← Py.ofConfig (a.config.loadAws a.configName)
  let a : Aws := { a with config, awsConfig := { awsConfig with instanceId := id } }
  let a ← a.storeInstanceId id
  let ec2 ← getAttr "ec2" a.ec2
  let _ ← Ec2.query ec2 (.describeInstances [id])
  return a

/-- `launch_instance` -/
def launchInstance (a : Aws) : Py Aws := do
  let (id, a) ← a.createInstance
  a.recordInstance id

/-! ### Addresses -/

/-- `get_instance_address` -/
def getInstanceAddress (a : Aws) : Py Str :=
  wrapping "Error getting instance address: " do
    let ec2 ← getAttr "ec2" a.ec2
    let r ← Ec2.query ec2 (.describeInstances [a.awsConfig.instanceId])
    match (r.reservationsOf a.awsConfig.instanceId).flatten with
    | [] => throw (.external "An error occurred (InvalidInstanceID.NotFound)")
    | i :: _ => getKey "PublicIpAddress" i.publicIpAddress

/-- One tag of an address in `disassociate_and_release_ip`. -/
def releaseTagged (ec2 : Client) (instanceId : Str) (address : Address) (tag : Str × Str) : Py Unit :=
  if tag = ("instance".toList, instanceId) then do
    tryCatch (do
        let associationId ← getKey "AssociationId" address.associationId
        let n ← Ec2.nextId
        Ec2.change ec2 (.disassociateAddress associationId) (·.disassociateAddress associationId (newIp n)))
      fun _ => pure ()
    tryCatch (do
        let allocationId ← getKey "AllocationId" address.allocationId
        Ec2.change ec2 (.releaseAddress allocationId) (·.releaseAddress allocationId))
      fun _ => pure ()
  else return

/-- `disassociate_and_release_ip` -/
def disassociateAndReleaseIp (a : Aws) : Py Unit := do
  let ec2 ← getAttr "ec2" a.ec2
  let r ← Ec2.query ec2 .describeAddresses
  Prog.each (fun address => Prog.each (releaseTagged ec2 a.awsConfig.instanceId address) (address.tags.getD []))
    r.addresses

/-- `allocate_and_associate_ip` -/
def allocateAndAssociateIp (a : Aws) : Py Unit := do
  let ec2 ← getAttr "ec2" a.ec2
  let id := a.awsConfig.instanceId
  let n ← Ec2.nextId
  let allocationId : Str := "eipalloc-" ++ showNat n
  Ec2.change ec2 (.allocateAddress id) fun r => some (r.allocateAddress allocationId (newIp n) id)
  let m ← Ec2.nextId
  Ec2.change ec2 (.associateAddress id allocationId) (·.associateAddress ("eipassoc-" ++ showNat m) id allocationId)
  a.disassociateAndReleaseIp

/-- `get_new_ip`: the old address, if there was an instance, and the new one. -/
def getNewIp (a : Aws) : Py ((Option Str × Str) × Aws) :=
  wrapping "Error getting new IP: " do
    if a.awsConfig.instanceId ≠ [] then
      let oldIp ← a.getInstanceAddress
      a.disassociateAndReleaseIp
      a.allocateAndAssociateIp
      let newIp ← a.getInstanceAddress
      return ((some oldIp, newIp), a)
    else
      let a ← a.terminateInstance
      let a ← a.launchInstance
      let newIp ← a.getInstanceAddress
      return ((none, newIp), a)

/-- The profile of the example file. -/
theorem init_example {w : World} (h : w.config = ConfigParser.write Loader.exampleConfig) : init "aws1" w =
    (.ok ⟨ConfigLoader.exampleLoader, "aws1", ConfigLoader.exampleAwsConfig, none, none, none, none⟩, w) := by
  rw [init, Prog.run_bind_ok (build_example h), ConfigLoader.loadAws_example]
  rfl

end Aws
end Iprotate
