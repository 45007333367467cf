import Iprotate.Base.Dict
import Iprotate.Base.Text

/-!
# The EC2 account

The part of an EC2 account the program asks about and changes: for each region its instances, addresses, key pairs,
security groups, free-tier instance types and images. A region or an instance is named by letters, digits and
hyphens.

- `Cloud.live r id`: instance `id` of region `r` is neither terminated nor about to be.
- Terminating an instance leaves every other instance as it is (`live_terminate_ne`), and a launch adds a live one
  (`live_launch`).
- Every other operation takes no life (`Region.Grows`), and those but for an allocation leave no new tags on addresses
  (`Region.Mild`).
- All but terminations, launches and starts leave the ids and the states of the instances as they are (`Region.Calm`).
-/

namespace Iprotate

/-- A name EC2 gives: letters, digits and hyphens. -/
def isResourceName (s : Str) : Bool := s ≠ [] && s.all fun c => c.isAlphanum || c = '-'

/-- An instance id. -/
structure InstanceId where
  text : Str
  isName : isResourceName text = true
  deriving DecidableEq

inductive InstanceState
  | pending
  | running
  | shuttingDown
  | terminated
  | stopping
  | stopped
  deriving DecidableEq, Repr

def InstanceState.live : InstanceState → Bool
  | .shuttingDown | .terminated => false
  | _ => true

structure Instance where
  id : InstanceId
  state : InstanceState
  tags : List (Str × Str)
  publicIpAddress : Option Str
  deriving DecidableEq

structure Address where
  publicIp : Str
  allocationId : Option Str
  associationId : Option Str
  /-- The instance it is associated with. -/
  associatedWith : Option Str
  tags : Option (List (Str × Str))
  deriving DecidableEq

structure KeyPair where
  keyName : Str
  keyFingerprint : Str
  deriving DecidableEq

structure IpRange where
  cidrIp : Str
  description : Option Str
  deriving DecidableEq

structure IpPermission where
  ipProtocol : Str
  ipRanges : List IpRange
  deriving DecidableEq

structure SecurityGroup where
  groupId : Str
  groupName : Str
  tags : List (Str × Str)
  ipPermissions : List IpPermission
  deriving DecidableEq

structure InstanceType where
  instanceType : Str
  defaultCores : Nat
  deriving DecidableEq

/-- One answer of `describe_instance_types`. -/
structure TypePage where
  instanceTypes : Option (List InstanceType)
  nextToken : Option Str
  deriving DecidableEq

structure Region where
  /-- `none`: `describe_regions` answers with an empty list. -/
  optInStatus : Option Str
  reservations : List (List Instance)
  addresses : List Address
  keyPairs : List KeyPair
  securityGroups : List SecurityGroup
  /-- The answers of `describe_instance_types`, each asked for with the token of the one before. -/
  typePages : List TypePage
  images : List Str
  deriving DecidableEq

structure Cloud where
  regions : Dict Str Region
  /-- The number in the next name EC2 gives. -/
  nextId : Nat
  deriving DecidableEq

namespace Cloud

/-- A region by its name. -/
def region? (c : Cloud) (name : Str) : Option Region := if isResourceName name then c.regions.get? name else none

def setRegion (c : Cloud) (name : Str) (r : Region) : Cloud := { c with regions := c.regions.set name r }

end Cloud

namespace Region

/-- A region in which nothing was made yet. -/
def empty : Region := ⟨some "opt-in-not-required", [], [], [], [], [], []⟩

def instances (r : Region) : List Instance := r.reservations.flatten

/-- `describe_instances(InstanceIds=[id])` -/
def reservationsOf (r : Region) (id : Str) : List (List Instance) :=
  (r.reservations.map fun is => is.filter fun i => i.id.text = id).filter (· ≠ [])

/-- Change the instance of an id. -/
def mapInstance (r : Region) (id : Str) (f : Instance → Instance) : Region :=
  { r with reservations := r.reservations.map fun is => is.map fun i => if i.id.text = id then f i else i }

/-- `terminate_instances(InstanceIds=[id])`; a terminated instance stays so. -/
def terminate (r : Region) (id : Str) : Region :=
  r.mapInstance id fun i => { i with state := if i.state = .terminated then .terminated else .shuttingDown }

/-- The instance is running. -/
def start (r : Region) (id : Str) : Region := r.mapInstance id fun i => { i with state := .running }

/-- `create_instances` -/
def launch (r : Region) (i : Instance) : Region := { r with reservations := r.reservations ++ [[i]] }

/-! ### Security groups and key pairs -/

/-- `create_security_group`, tagged with the role; a name is taken once. -/
def createSecurityGroup (r : Region) (groupId groupName : Str) : Option Region :=
  if r.securityGroups.any (·.groupName = groupName) then none
  else some { r with securityGroups := r.securityGroups ++ [⟨groupId, groupName, [("role", "iprotate")], []⟩] }

/-- All traffic is allowed, under whatever description. -/
def allTraffic (ps : List IpPermission) : Bool :=
  ps.any fun p => p.ipProtocol = "-1" && p.ipRanges.any (·.cidrIp = "0.0.0.0/0")

/-- A rule for all traffic. The ranges of one protocol stand in one permission, the new one at the end. -/
def addAllTraffic : List IpPermission → List IpPermission
  | [] => [⟨"-1", [⟨"0.0.0.0/0", some "Allow all traffic"⟩]⟩]
  | p :: ps =>
    if p.ipProtocol = "-1" then
      { p with ipRanges := p.ipRanges ++ [⟨"0.0.0.0/0", some "Allow all traffic"⟩] } :: ps
    else p :: addAllTraffic ps

/-- `authorize_security_group_ingress` for all traffic; a rule that is there is not added again. -/
def authorizeAll (r : Region) (groupId : Str) : Option Region :=
  if r.securityGroups.any fun g => g.groupId = groupId && allTraffic g.ipPermissions then none
  else some { r with securityGroups := r.securityGroups.map fun g =>
    if g.groupId = groupId then { g with ipPermissions := addAllTraffic g.ipPermissions } else g }

/-- `import_key_pair` -/
def importKeyPair (r : Region) (keyName fingerprint : Str) : Region :=
  { r with keyPairs := r.keyPairs ++ [⟨keyName, fingerprint⟩] }

/-! ### Addresses -/

/-- `allocate_address`, tagged with an instance. -/
def allocateAddress (r : Region) (allocationId publicIp instanceTag : Str) : Region :=
  { r with addresses := r.addresses ++ [⟨publicIp, some allocationId, none, none, some [("instance", instanceTag)]⟩] }

/-- An instance gets a public address. -/
def setPublicIp (r : Region) (id ip : Str) : Region := r.mapInstance id fun i => { i with publicIpAddress := some ip }

/-- `associate_address`: the instance and the address must be there. -/
def associateAddress (r : Region) (associationId id allocationId : Str) : Option Region :=
  match r.addresses.find? (·.allocationId = some allocationId), r.reservationsOf id with
  | none, _ | _, [] => none
  | some a, _ :: _ =>
    let r := r.setPublicIp id a.publicIp
    some { r with addresses := r.addresses.map fun b => if b.allocationId = some allocationId then
      { b with associationId := some associationId, associatedWith := some id } else b }

/-- `disassociate_address`: the instance gets another public address. -/
def disassociateAddress (r : Region) (associationId newIp : Str) : Option Region :=
  match r.addresses.find? (·.associationId = some associationId) with
  | none => none
  | some a =>
    let r := match a.associatedWith with
      | none => r
      | some id => r.setPublicIp id newIp
    some { r with addresses := r.addresses.map fun b => if b.associationId = some associationId then
      { b with associationId := none, associatedWith := none } else b }

/-- `release_address`, of an address that is not in use. -/
def releaseAddress (r : Region) (allocationId : Str) : Option Region :=
  if r.addresses.any fun a => a.allocationId = some allocationId && a.associationId = none then
    some { r with addresses := r.addresses.filter (·.allocationId ≠ some allocationId) }
  else none

/-! ### Live instances -/

/-- The region has a live instance of this id. -/
def Live (r : Region) (id : Str) : Prop := ∃ i ∈ r.instances, i.id.text = id ∧ i.state.live = true

instance (r : Region) (id : Str) : Decidable (r.Live id) := inferInstanceAs (Decidable (∃ i ∈ r.instances, _))

theorem mem_instances_mapInstance {r : Region} {id : Str} {f : Instance → Instance} {j : Instance} :
    j ∈ (r.mapInstance id f).instances ↔ ∃ i ∈ r.instances, (if i.id.text = id then f i else i) = j := by
  simp only [instances, mapInstance, List.mem_flatten, List.mem_map]
  constructor
  · rintro ⟨_, ⟨is, his, rfl⟩, hj⟩
    obtain ⟨i, hi, rfl⟩ := List.mem_map.1 hj
    exact ⟨i, ⟨is, his, hi⟩, rfl⟩
  · rintro ⟨i, ⟨is, his, hi⟩, rfl⟩
    exact ⟨_, ⟨is, his, rfl⟩, List.mem_map_of_mem hi⟩

theorem live_mapInstance_ne {r : Region} {id id' : Str} {f : Instance → Instance} (hf : ∀ i, (f i).id = i.id)
    (h : id ≠ id') : (r.mapInstance id f).Live id' ↔ r.Live id' := by
  constructor
  · rintro ⟨j, hj, hid, hlive⟩
    obtain ⟨i, hi, rfl⟩ := mem_instances_mapInstance.1 hj
    split at hid
    · rename_i he
      rw [hf] at hid
      exact absurd (he.symm.trans hid) h
    · rename_i he
      rw [if_neg he] at hlive
      exact ⟨i, hi, hid, hlive⟩
  · rintro ⟨i, hi, rfl, hlive⟩
    exact ⟨i, mem_instances_mapInstance.2 ⟨i, hi, if_neg (Ne.symm h)⟩, rfl, hlive⟩

/-- Terminating an instance leaves the others alive. -/
theorem live_terminate_ne {r : Region} {id id' : Str} (h : id ≠ id') : (r.terminate id).Live id' ↔ r.Live id' :=
  live_mapInstance_ne (fun _ => rfl) h

theorem not_live_terminate (r : Region) (id : Str) : ¬(r.terminate id).Live id := by
  rintro ⟨j, hj, hid, hlive⟩
  obtain ⟨i, hi, rfl⟩ := mem_instances_mapInstance.1 hj
  split at hlive
  · dsimp only at hlive
    split at hlive <;> cases hlive
  · rename_i he
    rw [if_neg he] at hid
    exact he hid

/-- `r'` has every live instance of `r`. -/
def Grows (r r' : Region) : Prop := ∀ id, r.Live id → r'.Live id

theorem Grows.of_reservations {r r' : Region} (h : r'.reservations = r.reservations) : r.Grows r' := by
  rintro id ⟨i, hi, hlive⟩
  exact ⟨i, by rwa [instances, h], hlive⟩

/-- Starting an instance takes no life. -/
theorem grows_start (r : Region) (id : Str) : r.Grows (r.start id) := by
  intro id' h
  by_cases he : id = id'
  · subst he
    obtain ⟨i, hi, hid, _⟩ := h
    exact ⟨{ i with state := .running }, mem_instances_mapInstance.2 ⟨i, hi, if_pos hid⟩, hid, rfl⟩
  · exact (live_mapInstance_ne (f := fun i => { i with state := .running }) (fun _ => rfl) he).2 h

/-- `r'` has the reservations of `r`, with the same ids and states. -/
def Calm (r r' : Region) : Prop :=
  ∃ f : Instance → Instance, (∀ i, (f i).id = i.id ∧ (f i).state = i.state) ∧
    r'.reservations = r.reservations.map (List.map f)

theorem Calm.of_reservations {r r' : Region} (h : r'.reservations = r.reservations) : r.Calm r' :=
  ⟨id, fun _ => ⟨rfl, rfl⟩, by rw [h, List.map_id_fun, List.map_id]⟩

theorem calm_setPublicIp {r r' : Region} {id ip : Str} (h : r'.reservations = (r.setPublicIp id ip).reservations) :
    r.Calm r' := by
  refine ⟨fun i => if i.id.text = id then { i with publicIpAddress := some ip } else i, fun i => ?_, h⟩
  dsimp only
  split <;> exact ⟨rfl, rfl⟩

theorem calm_createSecurityGroup {r r' : Region} {groupId groupName : Str}
    (h : r.createSecurityGroup groupId groupName = some r') : r.Calm r' := by
  unfold createSecurityGroup at h
  split at h
  · cases h
  · cases h
    exact .of_reservations rfl

theorem calm_authorizeAll {r r' : Region} {groupId : Str} (h : r.authorizeAll groupId = some r') : r.Calm r' := by
  unfold authorizeAll at h
  split at h
  · cases h
  · cases h
    exact .of_reservations rfl

theorem calm_associateAddress {r r' : Region} {associationId id allocationId : Str}
    (h : r.associateAddress associationId id allocationId = some r') : r.Calm r' := by
  unfold associateAddress at h
  split at h
  · cases h
  · cases h
  · cases h
    exact calm_setPublicIp rfl

theorem calm_disassociateAddress {r r' : Region} {associationId newIp : Str}
    (h : r.disassociateAddress associationId newIp = some r') : r.Calm r' := by
  unfold disassociateAddress at h
  split at h
  · cases h
  · cases h
    split
    · exact .of_reservations rfl
    · exact calm_setPublicIp rfl

theorem calm_releaseAddress {r r' : Region} {allocationId : Str} (h : r.releaseAddress allocationId = some r') :
    r.Calm r' := by
  unfold releaseAddress at h
  split at h
  · cases h
    exact .of_reservations rfl
  · cases h

/-- Instances that keep their ids and their states live on. -/
theorem Calm.grows {r r' : Region} (h : r.Calm r') : r.Grows r' := by
  obtain ⟨f, hf, hr⟩ := h
  rintro id ⟨i, hi, hid, hlive⟩
  refine ⟨f i, ?_, by rw [(hf i).1, hid], by rw [(hf i).2, hlive]⟩
  rw [instances, hr, ← List.map_flatten]
  exact List.mem_map_of_mem hi

theorem grows_authorizeAll {r r' : Region} {groupId : Str} (h : r.authorizeAll groupId = some r') : r.Grows r' :=
  (calm_authorizeAll h).grows

/-- A launched instance is live. -/
theorem live_launch (r : Region) {i : Instance} (h : i.state.live = true) : (r.launch i).Live i.id.text :=
  ⟨i, by simp [instances, launch], rfl, h⟩

theorem grows_launch (r : Region) (i : Instance) : r.Grows (r.launch i) := by
  rintro id ⟨j, hj, hid, hlive⟩
  exact ⟨j, by simp only [instances, Region.launch, List.flatten_append, List.mem_append] at hj ⊢; exact .inl hj, hid,
    hlive⟩

/-- `r'` has every live instance of `r`, and no address with other tags than one of `r` has. -/
structure Mild (r r' : Region) : Prop where
  grows : r.Grows r'
  tags : ∀ b' ∈ r'.addresses, ∃ b ∈ r.addresses, b'.tags = b.tags

theorem Mild.of_addresses {r r' : Region} (hg : r.Grows r') (h : r'.addresses = r.addresses) : r.Mild r' :=
  ⟨hg, fun b hb => ⟨b, h ▸ hb, rfl⟩⟩

/-- What is changed of the addresses is not their tags. -/
theorem Mild.of_map {r r' : Region} {f : Address → Address} (hg : r.Grows r') (h : r'.addresses = r.addresses.map f)
    (hf : ∀ b, (f b).tags = b.tags) : r.Mild r' := by
  refine ⟨hg, fun b' hb' => ?_⟩
  obtain ⟨b, hb, rfl⟩ := List.mem_map.1 (h ▸ hb')
  exact ⟨b, hb, hf b⟩

theorem mild_createSecurityGroup {r r' : Region} {groupId groupName : Str}
    (h : r.createSecurityGroup groupId groupName = some r') : r.Mild r' := by
  refine .of_addresses (calm_createSecurityGroup h).grows ?_
  unfold createSecurityGroup at h
  split at h
  · cases h
  · cases h
    rfl

theorem mild_authorizeAll {r r' : Region} {groupId : Str} (h : r.authorizeAll groupId = some r') : r.Mild r' := by
  refine .of_addresses (grows_authorizeAll h) ?_
  unfold authorizeAll at h
  split at h
  · cases h
  · cases h
    rfl

theorem mild_associateAddress {r r' : Region} {associationId id allocationId : Str}
    (h : r.associateAddress associationId id allocationId = some r') : r.Mild r' := by
  have hg := (calm_associateAddress h).grows
  unfold associateAddress at h
  split at h
  · cases h
  · cases h
  · cases h
    refine .of_map hg rfl fun b => ?_
    split <;> rfl

theorem mild_disassociateAddress {r r' : Region} {associationId newIp : Str}
    (h : r.disassociateAddress associationId newIp = some r') : r.Mild r' := by
  have hg := (calm_disassociateAddress h).grows
  unfold disassociateAddress at h
  split at h
  · cases h
  · cases h
    refine .of_map (f := fun b => if b.associationId = some associationId then
      { b with associationId := none, associatedWith := none } else b) hg ?_ fun b => ?_
    · dsimp only
      split <;> rfl
    · split <;> rfl

theorem mild_releaseAddress {r r' : Region} {allocationId : Str} (h : r.releaseAddress allocationId = some r') :
    r.Mild r' := by
  refine ⟨(calm_releaseAddress h).grows, fun b hb => ⟨b, ?_, rfl⟩⟩
  unfold releaseAddress at h
  split at h
  · cases h
    exact List.mem_of_mem_filter hb
  · cases h

theorem mild_importKeyPair (r : Region) (keyName fingerprint : Str) : r.Mild (r.importKeyPair keyName fingerprint) :=
  .of_addresses (Grows.of_reservations rfl) rfl

theorem mild_launch (r : Region) (i : Instance) : r.Mild (r.launch i) := .of_addresses (grows_launch r i) rfl

theorem mild_start (r : Region) (id : Str) : r.Mild (r.start id) := .of_addresses (grows_start r id) rfl

end Region

namespace Cloud

/-- The region of this name has a live instance of this id. -/
def Live (c : Cloud) (region id : Str) : Prop := ∃ r, c.region? region = some r ∧ r.Live id

instance (c : Cloud) (region id : Str) : Decidable (c.Live region id) :=
  decidable_of_iff ((c.region? region).any fun r => decide (r.Live id)) (by
    unfold Live
    cases c.region? region <;> simp)

theorem region?_setRegion_self {c : Cloud} {name : Str} (h : isResourceName name = true) (r : Region) :
    (c.setRegion name r).region? name = some r := by simp [region?, setRegion, h]

theorem region?_setRegion_ne {c : Cloud} {name name' : Str} (h : name ≠ name') (r : Region) :
    (c.setRegion name r).region? name' = c.region? name' := by
  simp [region?, setRegion, Dict.get?_set_ne _ h]

theorem isResourceName_of_region? {c : Cloud} {name : Str} {r : Region} (h : c.region? name = some r) :
    isResourceName name = true := by
  unfold region? at h
  split at h
  · assumption
  · cases h

/-- A region that grows takes no life. -/
theorem Live.setRegion {c : Cloud} {name region id : Str} {r r' : Region} (h : c.Live region id)
    (hr : c.region? name = some r) (hg : r.Grows r') : (c.setRegion name r').Live region id := by
  obtain ⟨s, hs, hlive⟩ := h
  by_cases hn : name = region
  · subst hn
    rw [hr] at hs
    cases hs
    exact ⟨r', region?_setRegion_self (isResourceName_of_region? hr) r', hg id hlive⟩
  · exact ⟨s, by rw [region?_setRegion_ne hn, hs], hlive⟩

end Cloud

/-! ## Names in a configuration -/

theorem mem_isResourceName {s : Str} (h : isResourceName s = true) {c : Char} (hc : c ∈ s) :
    c.isAlphanum = true ∨ c = '-' := by
  simp only [isResourceName, Bool.and_eq_true, List.all_eq_true] at h
  simpa using h.2 c hc

theorem ne_nil_of_isResourceName {s : Str} (h : isResourceName s = true) : s ≠ [] := by
  simp only [isResourceName, Bool.and_eq_true] at h
  simpa using h.1

end Iprotate
