import Iprotate.Terminations

/-!
# Launches

`launch_instance` is to take over a live instance with the role. An instance is a `dict`, which has no attribute `Tags`,
so it never does, and each call that returns has launched another instance.

- What comes before the launch changes neither `config.conf` nor the instances (`Aside`); the launch and what follows
  it add one running instance, and store its id (`launchInstance_ok`).
- So the method does what it is for exactly if there is no instance to take over, and of any number of calls each
  leaves one more live instance (`reuses_iff`).
- A live instance is not taken over (`live_not_reused`).
-/

namespace Iprotate
namespace Launches

open Py Prog Ec2 Aws ConfigParser SecurityGroups Terminations

variable {α : Type} {a b : Aws} {client : Client} {w w' : World} {r r' : Region}

/-! ## Before the launch -/

/-- The call launches an instance. -/
def creates : Call → Bool
  | .aws _ (.createInstances _ _ _ _) => true
  | _ => false

/-- Since `base` nothing was launched, and neither `config.conf` nor the instances of the region were changed. -/
structure Aside (client : Client) (base w : World) : Prop where
  config : w.config = base.config
  nextId : base.cloud.nextId ≤ w.cloud.nextId
  calls : Within (creates · = false) base.calls w
  reservations : ∃ r r', base.cloud.region? client.region = some r ∧ w.cloud.region? client.region = some r' ∧
    r'.reservations = r.reservations

variable {base : World}

theorem Aside.refl (hr : w.cloud.region? client.region = some r) : Aside client w w :=
  ⟨rfl, Nat.le_refl _, ⟨[], (List.append_nil _).symm, fun _ h => by cases h⟩, r, r, hr, hr, rfl⟩

theorem Aside.call {c : Call} (hc : creates c = false) : Keeps (Aside client base) (Py.call c) := by
  intro w hw
  have hcalls := Within.call (P := (creates · = false)) hc w hw.calls
  obtain ⟨script, ⟨text, hr⟩ | ⟨message, hr⟩⟩ := call_cases c w
  · rw [hr] at hcalls ⊢
    exact ⟨hw.config, hw.nextId, hcalls, hw.reservations⟩
  · rw [hr] at hcalls ⊢
    exact ⟨hw.config, hw.nextId, hcalls, hw.reservations⟩

theorem Aside.query {op : AwsOp} (hop : creates (.aws client op) = false) :
    Keeps (Aside client base) (Ec2.query client op) := by
  refine .bind (Aside.call hop) fun _ => .bind .get fun w => ?_
  cases w.cloud.region? client.region with
  | none => exact .throw _
  | some r => exact .pure _

/-- A change of the region that is not about its instances. -/
theorem Aside.change {op : AwsOp} (hop : creates (.aws client op) = false) {f : Region → Option Region}
    (hf : ∀ r r', f r = some r' → r'.reservations = r.reservations) :
    Keeps (Aside client base) (Ec2.change client op f) := by
  intro w hw
  obtain ⟨r, r₁, hr, hr₁, hsame⟩ := hw.reservations
  have hcalls := Within.change (P := (creates · = false)) hop f w hw.calls
  obtain ⟨script, ⟨r', hfr, hrun⟩ | ⟨-, e, hrun⟩ | ⟨e, hrun⟩⟩ := change_cases op f hr₁
  · rw [hrun] at hcalls ⊢
    exact ⟨hw.config, hw.nextId, hcalls, r, r', hr, region?_changed hr₁ _ _ _, (hf _ _ hfr).trans hsame⟩
  · rw [hrun] at hcalls ⊢
    exact ⟨hw.config, hw.nextId, hcalls, r, r₁, hr, hr₁, hsame⟩
  · rw [hrun] at hcalls ⊢
    exact ⟨hw.config, hw.nextId, hcalls, r, r₁, hr, hr₁, hsame⟩

theorem Aside.newId : Keeps (Aside client base) Ec2.nextId :=
  fun _ hw => ⟨hw.config, Nat.le_succ_of_le hw.nextId, hw.calls, hw.reservations⟩

theorem Aside.createGroupIprotate : Keeps (Aside client base) (Aws.createGroupIprotate client) := by
  refine .bind Aside.newId fun n => .bind (Aside.change rfl fun r r' hr => ?_) fun _ => .pure _
  unfold Region.createSecurityGroup at hr
  split at hr <;> cases hr
  rfl

theorem Aside.createSecurityGroup (hec2 : a.ec2 = some client) : Keeps (Aside client base) a.createSecurityGroup := by
  refine keeps_createSecurityGroup hec2 (fun ids => Aside.query rfl) Aside.createGroupIprotate fun _ =>
    Aside.change rfl fun r r' hr => ?_
  unfold Region.authorizeAll at hr
  split at hr <;> cases hr
  rfl

theorem Aside.moreInstanceTypes : ∀ (pages : List TypePage) (page : TypePage) (all : List InstanceType),
    Keeps (Aside client base) (Aws.moreInstanceTypes client page pages all)
  | _, ⟨_, none⟩, _ => by unfold Aws.moreInstanceTypes; exact .pure _
  | _, ⟨_, some []⟩, _ => by unfold Aws.moreInstanceTypes; exact .pure _
  | [], ⟨_, some (_ :: _)⟩, _ => by
    unfold Aws.moreInstanceTypes
    exact .bind (Aside.query rfl) fun _ => .throw _
  | page :: pages, ⟨_, some (_ :: _)⟩, _ => by
    unfold Aws.moreInstanceTypes
    exact .bind (Aside.query rfl) fun _ => Aside.moreInstanceTypes pages page _

theorem Aside.getInstanceTypeFreeTier (hec2 : a.ec2 = some client) :
    Keeps (Aside client base) a.getInstanceTypeFreeTier := by
  rw [Aws.getInstanceTypeFreeTier, hec2]
  show Keeps (Aside client base) (Ec2.query client _ >>= _)
  refine .bind (Aside.query rfl) fun r => .bind ?_ fun all => ?_
  · cases r.typePages with
    | nil => exact .pure _
    | cons page pages => exact Aside.moreInstanceTypes pages page _
  · cases all.find? (·.defaultCores = 1) with
    | none => exact .throw _
    | some t => exact .pure _

theorem Aside.setKeypair (hec2 : a.ec2 = some client) : Keeps (Aside client base) a.setKeypair := by
  rw [Aws.setKeypair, hec2]
  refine .bind (Frame.wrapping _ (Aside.call rfl)) fun _ => .bind .get fun w => ?_
  show Keeps (Aside client base) (Ec2.query client _ >>= _)
  refine .bind (Aside.query rfl) fun r => ?_
  cases r.keyPairs.find? (·.keyFingerprint = formatFingerprint w.sshKey.digest) with
  | some keypair => exact .pure _
  | none =>
    refine Frame.wrapping _ (.bind (fun _ hw => ⟨hw.config, hw.nextId, hw.calls, hw.reservations⟩) fun date => ?_)
    refine .bind (Aside.change rfl fun r r' hr => ?_) fun _ => .pure _
    cases hr
    rfl

/-! ## What the methods return -/

theorem createSecurityGroup_ok (h : a.createSecurityGroup w = (.ok b, w')) :
    ∃ groupId, b = { a with securityGroup := some groupId } := by
  obtain ⟨ec2, w₁, -, h⟩ := bind_eq_ok.1 h
  obtain ⟨r, w₂, -, h⟩ := bind_eq_ok.1 h
  obtain ⟨chosen, w₃, -, h⟩ := bind_eq_ok.1 h
  obtain ⟨groupId, w₄, -, h⟩ := bind_eq_ok.1 h
  obtain ⟨r', w₅, -, h⟩ := bind_eq_ok.1 h
  refine ⟨groupId, ?_⟩
  cases hf : r'.securityGroups.find? (·.groupId = groupId) with
  | none =>
    rw [hf] at h
    cases h
  | some g =>
    rw [hf] at h
    obtain ⟨allows, w₆, -, h⟩ := bind_eq_ok.1 h
    cases allows with
    | true =>
      cases h
      rfl
    | false =>
      rw [if_neg Bool.false_ne_true] at h
      obtain ⟨_, w₇, -, h⟩ := bind_eq_ok.1 h
      cases h
      rfl

theorem newClient_ok (h : a.newClient w = (.ok b, w')) :
    b = { a with ec2 := some a.client } ∧ ∃ script, w' = w.called (.aws a.client .client) false script := by
  obtain ⟨text, w₁, hc, h⟩ := bind_eq_ok.1 (wrapping_eq_ok.1 h)
  cases h
  obtain ⟨script, ⟨text', hr⟩ | ⟨message, hr⟩⟩ := call_cases (.aws a.client .client) w
  · rw [hr] at hc
    cases hc
    exact ⟨rfl, script, rfl⟩
  · rw [hr] at hc
    cases hc

theorem setKeypair_ok (h : a.setKeypair w = (.ok b, w')) : ∃ keyName, b = { a with keyPairName := some keyName } := by
  obtain ⟨_, w₁, -, h⟩ := bind_eq_ok.1 h
  obtain ⟨u, w₂, hu, h⟩ := bind_eq_ok.1 h
  obtain ⟨ec2, w₃, -, h⟩ := bind_eq_ok.1 h
  obtain ⟨r, w₄, -, h⟩ := bind_eq_ok.1 h
  cases hf : r.keyPairs.find? (·.keyFingerprint = formatFingerprint u.sshKey.digest) with
  | some keypair =>
    simp only [hf] at h
    cases h
    exact ⟨_, rfl⟩
  | none =>
    simp only [hf] at h
    obtain ⟨date, w₅, -, h⟩ := bind_eq_ok.1 (wrapping_eq_ok.1 h)
    obtain ⟨_, w₆, -, h⟩ := bind_eq_ok.1 h
    cases h
    exact ⟨_, rfl⟩

theorem firstImage_ok {x : Str × Aws} (h : a.firstImage w = (.ok x, w')) : x.2 = { a with ec2 := some a.client } := by
  obtain ⟨b, w₁, hnew, h⟩ := bind_eq_ok.1 h
  obtain ⟨rfl, -⟩ := newClient_ok hnew
  obtain ⟨ec2, w₂, -, h⟩ := bind_eq_ok.1 h
  obtain ⟨r, w₃, -, h⟩ := bind_eq_ok.1 h
  cases hi : r.images with
  | nil =>
    rw [hi] at h
    cases h
  | cons image images =>
    rw [hi] at h
    cases h
    rfl

theorem Aside.newClient (h : a.client = client) : Keeps (Aside client base) a.newClient := by
  subst h
  exact Frame.wrapping _ (.bind (Aside.call rfl) fun _ => .pure _)

theorem Aside.firstImage (h : a.client = client) : Keeps (Aside client base) a.firstImage := by
  intro w hw
  rw [Aws.firstImage, run_bind]
  have hnew := Aside.newClient h w hw
  cases hr : a.newClient w with
  | mk x w₁ =>
    rw [hr] at hnew
    cases x with
    | error e => exact hnew
    | ok b =>
      obtain ⟨rfl, -⟩ := newClient_ok hr
      subst h
      refine Keeps.bind (Aside.query rfl) (fun r => ?_) w₁ hnew
      cases r.images with
      | nil => exact .throw _
      | cons image images => exact .pure _

/-- The loop at the beginning changes nothing. -/
theorem each_lookAtFirst (reservations : List (List Instance)) (w : World) :
    (Prog.each lookAtFirst reservations w).2 = w := by
  refine Keeps.each (I := fun w' => w' = w) (fun is => ?_) reservations w rfl
  cases is with
  | nil => exact .throw _
  | cons i is => exact .pure _

/-! ## The launch -/

/-- The instance that a launch makes. -/
def newInstance (n : Nat) : Instance :=
  ⟨newInstanceId n, .pending, [("role".toList, "iprotate".toList)], some (newIp n)⟩

/-- One instance has been launched, with the number `n`, and it runs. -/
structure LaunchedOne (name : Str) (w : World) (r : Region) (w' : World) (n : Nat) : Prop where
  fresh : w.cloud.nextId ≤ n
  nextId : w'.cloud.nextId = n + 1
  once : ∃ log, w'.calls = w.calls ++ log ∧ log.countP (creates ·.1) = 1
  region : ∃ r', w'.cloud.region? name = some r' ∧
    r'.reservations = ((r.launch (newInstance n)).start (newInstanceId n).text).reservations

theorem start_reservations {r r' : Region} (h : r'.reservations = r.reservations) (id : Str) :
    (r'.start id).reservations = (r.start id).reservations := by
  unfold Region.start Region.mapInstance
  rw [h]

/-- The launch itself, from the state in which its number was taken. -/
theorem Aside.launched {u v : World} {image instanceType keyName group : Str} (haside : Aside client w u)
    (hr : w.cloud.region? client.region = some r)
    (hcreate : Ec2.change client (.createInstances image instanceType keyName group)
      (fun r => some (r.launch (newInstance u.cloud.nextId))) (Ec2.nextId u).2 = (.ok (), v))
    (hwait : Ec2.change client (.waitInstanceRunning (newInstanceId u.cloud.nextId).text)
      (fun r => some (r.start (newInstanceId u.cloud.nextId).text)) v = (.ok (), w')) :
    LaunchedOne client.region w r w' u.cloud.nextId := by
  obtain ⟨s, s', script, hs, hf, rfl⟩ := change_ok hcreate
  cases hf
  obtain ⟨t, t', script', ht, hf', rfl⟩ := change_ok hwait
  cases hf'
  rw [region?_changed hs] at ht
  cases ht
  obtain ⟨log, hcalls, hlog⟩ := haside.calls
  obtain ⟨r₀, r₁, hr₀, hr₁, hsame⟩ := haside.reservations
  obtain rfl : r = r₀ := Option.some.inj (hr.symm.trans hr₀)
  obtain rfl : r₁ = s := Option.some.inj (hr₁.symm.trans hs)
  refine ⟨haside.nextId, rfl, ?_, _, region?_changed (region?_changed hs _ _ _) _ _ _, ?_⟩
  · refine ⟨log ++ [(.aws client (.createInstances image instanceType keyName group), false),
      (.aws client (.waitInstanceRunning (newInstanceId u.cloud.nextId).text), false)], ?_, ?_⟩
    · show u.calls ++ [_] ++ [_] = _
      rw [hcalls, List.append_assoc, List.append_assoc]
      rfl
    · have hnone : log.countP (creates ·.1) = 0 := by simpa [List.countP_eq_zero] using hlog
      rw [List.countP_append, hnone]
      rfl
  · refine start_reservations ?_ _
    show r₁.reservations ++ _ = r.reservations ++ _
    rw [hsame]

theorem createInstance_ok {x : Str × Aws} (hec2 : a.ec2 = some a.client) (hres : a.resource = some a.client)
    (hr : w.cloud.region? a.client.region = some r) (h : a.createInstance w = (.ok x, w')) :
    ∃ n, x.1 = (newInstanceId n).text ∧ x.2.config = a.config ∧ x.2.configName = a.configName ∧
      x.2.ec2 = some a.client ∧ LaunchedOne a.client.region w r w' n := by
  obtain ⟨c, w₀, hc, h₁⟩ := bind_eq_ok.1 h
  obtain ⟨hsome, rfl⟩ := getAttr_eq_ok.1 hc
  obtain rfl : a.client = c := Option.some.inj (hec2.symm.trans hsome)
  obtain ⟨r₁, w₁, hq, h₂⟩ := bind_eq_ok.1 h₁
  have haside₁ : Aside a.client w w₁ := (Aside.query rfl).run hq (Aside.refl hr)
  obtain ⟨_, w₂, heach, h₃⟩ := bind_eq_ok.1 h₂
  obtain rfl : w₂ = w₁ := (congrArg Prod.snd heach).symm.trans (each_lookAtFirst _ _)
  obtain ⟨a₁, w₃, hgroup, h₄⟩ := bind_eq_ok.1 h₃
  have haside₃ : Aside a.client w w₃ := (Aside.createSecurityGroup hec2).run hgroup haside₁
  obtain ⟨groupId, rfl⟩ := createSecurityGroup_ok hgroup
  obtain ⟨instanceType, w₄, htype, h₅⟩ := bind_eq_ok.1 h₄
  have haside₄ : Aside a.client w w₄ := (Aside.getInstanceTypeFreeTier (by exact hec2)).run htype haside₃
  obtain ⟨a₂, w₅, hnew, h₆⟩ := bind_eq_ok.1 h₅
  have haside₅ : Aside a.client w w₅ := (Aside.newClient (by rfl)).run hnew haside₄
  obtain ⟨rfl, -⟩ := newClient_ok hnew
  obtain ⟨a₃, w₆, hkey, h₇⟩ := bind_eq_ok.1 h₆
  have haside₆ : Aside a.client w w₆ := (Aside.setKeypair (by rfl)).run hkey haside₅
  obtain ⟨keyName, rfl⟩ := setKeypair_ok hkey
  obtain ⟨resource, w₇, hresource, h₈⟩ := bind_eq_ok.1 h₇
  obtain ⟨hsome', rfl⟩ := getAttr_eq_ok.1 hresource
  obtain rfl : a.client = resource := Option.some.inj (hres.symm.trans hsome')
  obtain ⟨⟨image, a₄⟩, w₇, himage, h₉⟩ := bind_eq_ok.1 h₈
  have haside₇ : Aside a.client w w₇ := (Aside.firstImage (by rfl)).run himage haside₆
  obtain rfl := firstImage_ok himage
  obtain ⟨keyName', w₈, hkeyName, h₁₀⟩ := bind_eq_ok.1 h₉
  obtain ⟨-, rfl⟩ := getAttr_eq_ok.1 hkeyName
  obtain ⟨n, w₈, hn, h₁₁⟩ := bind_eq_ok.1 h₁₀
  cases hn
  obtain ⟨_, w₉, hcreate, h₁₂⟩ := bind_eq_ok.1 h₁₁
  obtain ⟨ec2, w₁₀, hclient, h₁₃⟩ := bind_eq_ok.1 h₁₂
  cases hclient
  obtain ⟨_, w₁₁, hwait, h₁₄⟩ := bind_eq_ok.1 h₁₃
  cases h₁₄
  exact ⟨_, rfl, rfl, rfl, rfl, haside₇.launched hr hcreate hwait⟩

/-- What the rest of a launch leaves: the id in the file and in the object, and one more call. -/
theorem recordInstance_ok {id : Str} (hname : Ordinary a.configName) (hid : IsInstanceId id)
    (hec2 : a.ec2 = some client) (h : a.recordInstance id w = (.ok b, w')) :
    b.awsConfig.instanceId = id ∧ HoldsId a.config.config w'.config a.configName id ∧ w'.cloud = w.cloud ∧
      w'.calls = w.calls ++ [(.aws client (.describeInstances [id]), false)] := by
  obtain ⟨a₁, w₁, hfirst, h₁⟩ := bind_eq_ok.1 h
  obtain ⟨-, ⟨config, rfl, hput⟩, text, rfl⟩ := storeInstanceId_ok hname hid hfirst
  obtain ⟨⟨aws, l⟩, w₂, hload, h₂⟩ := bind_eq_ok.1 h₁
  obtain ⟨hloaded, rfl⟩ := ofConfig_eq_ok.1 hload
  have hdefaults := (Loader.loadAwsConfig_eq_ok.1 (ConfigLoader.loadAwsConfig_of_loadAws hloaded)).1
  obtain ⟨a₂, w₃, hsecond, h₃⟩ := bind_eq_ok.1 h₂
  obtain ⟨⟨p, hp, hraw, hread⟩, ⟨config', rfl, -⟩, text', rfl⟩ := storeInstanceId_ok (by exact hname) hid hsecond
  obtain ⟨ec2, w₄, hclient, h₄⟩ := bind_eq_ok.1 h₃
  obtain ⟨hsome, rfl⟩ := getAttr_eq_ok.1 hclient
  obtain rfl : client = ec2 := Option.some.inj (hec2.symm.trans hsome)
  obtain ⟨r, w₅, hq, h₅⟩ := bind_eq_ok.1 h₄
  obtain ⟨-, script, rfl⟩ := query_ok hq
  cases h₅
  exact ⟨rfl, ⟨p, hp, hraw, fun hrereads => hread ((hput hrereads).setDefaults hname hdefaults)⟩, rfl, rfl⟩

/-- **What a launch that returns leaves.** -/
theorem launchInstance_ok (hec2 : a.ec2 = some a.client) (hres : a.resource = some a.client)
    (hname : Ordinary a.configName) (hr : w.cloud.region? a.client.region = some r)
    (h : a.launchInstance w = (.ok b, w')) : ∃ n, LaunchedOne a.client.region w r w' n ∧
      b.awsConfig.instanceId = (newInstanceId n).text ∧
      HoldsId a.config.config w'.config a.configName (newInstanceId n).text := by
  obtain ⟨⟨id, c⟩, u, hcreate, hrecord⟩ := bind_eq_ok.1 h
  obtain ⟨n, rfl, hconfig, hname', hec2', hone⟩ := createInstance_ok hec2 hres hr hcreate
  have hname'' : Ordinary c.configName := hname'.symm ▸ hname
  obtain ⟨hid, hholds, hcloud, hcalls⟩ := recordInstance_ok hname'' (.inr (newInstanceId n).isName) hec2' hrecord
  refine ⟨n, ⟨hone.fresh, by rw [hcloud]; exact hone.nextId, ?_, by rw [hcloud]; exact hone.region⟩, hid, ?_⟩
  · obtain ⟨log, hlog, hcount⟩ := hone.once
    refine ⟨log ++ [_], by rw [hcalls, hlog, List.append_assoc], ?_⟩
    rw [List.countP_append, hcount]
    rfl
  · rwa [hname', hconfig] at hholds

/-! ## Live instances -/

/-- A live instance with the role. -/
def LiveRole (i : Instance) : Bool := i.tags.contains ("role".toList, "iprotate".toList) && i.state.live

/-- The instance to take over. -/
def reusable (r : Region) : Option Instance := (r.reservations.filterMap List.head?).find? LiveRole

def liveCount (r : Region) : Nat := r.instances.countP LiveRole

/-- No instance has the id of one still to come. -/
def Fresh (r : Region) (n : Nat) : Prop := ∀ i ∈ r.instances, ∀ m, n ≤ m → i.id.text ≠ (newInstanceId m).text

/-- The new instance is started, the others stay as they are. -/
theorem instances_of_launched {n : Nat} (hfresh : Fresh r n) (h : r'.reservations =
    ((r.launch (newInstance n)).start (newInstanceId n).text).reservations) :
    r'.instances = r.instances ++ [{ newInstance n with state := .running }] := by
  have hmap : ((r.launch (newInstance n)).start (newInstanceId n).text).instances = (r.instances ++ [newInstance n]).map
      fun i => if i.id.text = (newInstanceId n).text then { i with state := .running } else i := by
    simp [Region.start, Region.mapInstance, Region.launch, Region.instances, List.map_flatten]
  have hother : ∀ i ∈ r.instances, (if i.id.text = (newInstanceId n).text then
      { i with state := InstanceState.running } else i) = i :=
    fun i hi => if_neg (hfresh i hi n (Nat.le_refl _))
  calc r'.instances = ((r.launch (newInstance n)).start (newInstanceId n).text).instances := congrArg List.flatten h
    _ = r.instances.map _ ++ [newInstance n].map _ := hmap.trans List.map_append
    _ = r.instances ++ [{ newInstance n with state := .running }] := by
      rw [List.map_congr_left hother, List.map_id']
      simp [newInstance]

theorem Fresh.launched {n k : Nat} (hfresh : Fresh r k) (hk : k ≤ n)
    (h : r'.instances = r.instances ++ [{ newInstance n with state := .running }]) : Fresh r' (n + 1) := by
  intro i hi m hm
  rw [h] at hi
  rcases List.mem_append.1 hi with hi | hi
  · exact hfresh i hi m (by omega)
  · obtain rfl := List.mem_singleton.1 hi
    intro hid
    have : n = m := showNat_injective (List.append_cancel_left hid)
    omega

theorem liveCount_launched {n : Nat} (h : r'.instances = r.instances ++ [{ newInstance n with state := .running }]) :
    liveCount r' = liveCount r + 1 := by
  rw [liveCount, h, List.countP_append]
  rfl

/-! ## The law -/

/-- The call makes a security group. -/
def createsGroup : Call → Bool
  | .aws _ (.createSecurityGroup _) => true
  | _ => false

/-- A live instance is taken over, and otherwise one is launched; its id is stored. -/
structure Reuses (a : Aws) (w : World) (r : Region) : Prop where
  taken : ∀ i, reusable r = some i → ∃ b w', a.launchInstance w = (.ok b, w') ∧ b.awsConfig.instanceId = i.id.text ∧
    HoldsId a.config.config w'.config a.configName i.id.text ∧ ∀ c ∈ newCalls w w', creates c = false ∧
      createsGroup c = false
  launched : reusable r = none → ∀ b w', a.launchInstance w = (.ok b, w') → ∃ r' i,
    w'.cloud.region? a.client.region = some r' ∧ r'.instances = r.instances ++ [i] ∧ LiveRole i = true ∧
      (newCalls w w').countP creates = 1 ∧ b.awsConfig.instanceId = i.id.text ∧
      HoldsId a.config.config w'.config a.configName i.id.text

/-- So many calls that returned, one after the other; between them nothing happens to the account. -/
inductive Successive (region : Str) : Nat → World → World → Prop
  | zero (w : World) : Successive region 0 w w
  | next {k : Nat} {w u v w' : World} {a b : Aws} (before : Successive region k w u) (account : v.cloud = u.cloud)
    (here : a.client.region = region) (ec2 : a.ec2 = some a.client) (resource : a.resource = some a.client)
    (name : Ordinary a.configName) (ok : a.launchInstance v = (.ok b, w')) : Successive region (k + 1) w w'

/-- Each of them has launched one more. -/
theorem run_successive {region : Str} {k : Nat} (h : Successive region k w w') (hr : w.cloud.region? region = some r)
    (hfresh : Fresh r w.cloud.nextId) : ∃ r', w'.cloud.region? region = some r' ∧ liveCount r' = liveCount r + k ∧
      Fresh r' w'.cloud.nextId := by
  induction h with
  | zero w => exact ⟨r, hr, rfl, hfresh⟩
  | next before account here hec2 hres hname ok ih =>
    obtain ⟨s, hs, hcount, hfresh⟩ := ih hr hfresh
    subst here
    rw [← account] at hs hfresh
    obtain ⟨n, hone, -, -⟩ := launchInstance_ok hec2 hres hname hs ok
    obtain ⟨r', hr', hres'⟩ := hone.region
    have hinstances := instances_of_launched (fun i hi m hm => hfresh i hi m (Nat.le_trans hone.fresh hm)) hres'
    refine ⟨r', hr', ?_, hone.nextId ▸ hfresh.launched hone.fresh hinstances⟩
    rw [liveCount_launched hinstances, hcount, Nat.add_assoc]

/-- **What `launch_instance` does for the account.** It takes nothing over, so it is right exactly if there is nothing
to take over; and after several calls there are several instances. -/
theorem reuses_iff (a : Aws) (w w₁ : World) (r : Region) (hec2 : a.ec2 = some a.client)
    (hres : a.resource = some a.client) (hname : Ordinary a.configName)
    (hanswer : Ec2.query a.client (.describeInstances []) w = (.ok r, w₁)) (hfresh : Fresh r w.cloud.nextId) :
    (Reuses a w r ↔ reusable r = none) ∧
      (liveCount r = 0 → ∀ k w', 0 < k → Successive a.client.region k w w' →
        ((∃ r', w'.cloud.region? a.client.region = some r' ∧ liveCount r' = 1) ↔ k = 1)) := by
  obtain ⟨hr, -⟩ := query_ok hanswer
  refine ⟨⟨fun h => ?_, fun hnone => ⟨fun i hi => ?_, fun _ b w' hrun => ?_⟩⟩, fun hzero k w' hk hcalls => ?_⟩
  · -- taking an instance over, it would not launch one
    cases hi : reusable r with
    | none => rfl
    | some i =>
      obtain ⟨b, w', hrun, -, -, hcalls⟩ := h.taken i hi
      obtain ⟨n, hone, -, -⟩ := launchInstance_ok hec2 hres hname hr hrun
      obtain ⟨log, hlog, hcount⟩ := hone.once
      rw [newCalls_eq hlog] at hcalls
      have hzero : log.countP (creates ·.1) = 0 := List.countP_eq_zero.2 fun e he => by
        simp [(hcalls e.1 (List.mem_map_of_mem he)).1]
      omega
  · rw [hnone] at hi
    cases hi
  · obtain ⟨n, hone, hid, hholds⟩ := launchInstance_ok hec2 hres hname hr hrun
    obtain ⟨log, hlog, hcount⟩ := hone.once
    obtain ⟨r', hr', hres'⟩ := hone.region
    have hinstances := instances_of_launched (fun i hi m hm => hfresh i hi m (Nat.le_trans hone.fresh hm)) hres'
    refine ⟨r', _, hr', hinstances, rfl, ?_, hid, hholds⟩
    rw [newCalls_eq hlog, List.countP_map]
    exact hcount
  · obtain ⟨s, hs, hcount, -⟩ := run_successive hcalls hr hfresh
    constructor
    · rintro ⟨r', hr', hone⟩
      obtain rfl : r' = s := Option.some.inj (hr'.symm.trans hs)
      omega
    · rintro rfl
      exact ⟨s, hs, by omega⟩

/-- A region with what a launch needs, and these reservations. -/
def launchRegion (reservations : List (List Instance)) : Region :=
  { Region.empty with
    reservations
    images := ["ami-1"]
    typePages := [⟨some [⟨"t3.micro", 1⟩], none⟩] }

/-- Somebody else's running machine, and a terminated instance of the program. -/
def noneToReuse : Region :=
  launchRegion [[⟨⟨"i-9", by decide⟩, .running, [("Name", "database")], some "3.0.0.7"⟩],
    [⟨⟨"i-6", by decide⟩, .terminated, [("role", "iprotate")], none⟩]]

theorem fresh_noneToReuse : Fresh noneToReuse 100 := by
  intro i hi m hm hid
  obtain rfl | rfl : i = _ ∨ i = _ := by simpa [Region.instances, noneToReuse, launchRegion] using hi
  · have height : "i-".toList ++ showNat 9 = "i-".toList ++ showNat m := hid
    obtain rfl := showNat_injective (List.append_cancel_left height)
    exact absurd hm (by decide)
  · have height : "i-".toList ++ showNat 6 = "i-".toList ++ showNat m := hid
    obtain rfl := showNat_injective (List.append_cancel_left height)
    exact absurd hm (by decide)

/-- The first call there. -/
theorem reuses_first : Reuses (exampleAws "") (exampleAccount noneToReuse) noneToReuse ∧
    ∃ w', Successive exampleClient.region 1 (exampleAccount noneToReuse) w' ∧
      ∃ r', w'.cloud.region? exampleClient.region = some r' ∧ liveCount r' = 1 := by
  have h := reuses_iff (exampleAws "") (exampleAccount noneToReuse) _ noneToReuse rfl rfl
    ⟨by decide, by decide⟩ rfl fresh_noneToReuse
  obtain ⟨b, w', hrun⟩ : ∃ b w', (exampleAws "").launchInstance (exampleAccount noneToReuse) = (.ok b, w') := by
    refine exists_ok ?_
    simp (disch := exact rfl) only [exampleAccount, exampleWorld, World.start, Loader.exampleConfig, toList_of_eq]
    decide +kernel
  have hcalls : Successive exampleClient.region 1 (exampleAccount noneToReuse) w' :=
    .next (.zero _) rfl rfl rfl rfl ⟨by decide, by decide⟩ hrun
  exact ⟨h.1.2 (by decide), w', hcalls, (h.2 (by decide) 1 w' Nat.one_pos hcalls).2 rfl⟩

/-- A running instance of the program. -/
def runningInstance : Instance := ⟨⟨"i-8", by decide⟩, .running, [("role", "iprotate")], some "3.0.0.8"⟩

/-- With an instance running, a second one is launched. -/
theorem live_not_reused : ¬∀ (a : Aws) (w w₁ : World) (r : Region), a.ec2 = some a.client → a.resource = some a.client →
    Ordinary a.configName → Ec2.query a.client (.describeInstances []) w = (.ok r, w₁) → Fresh r w.cloud.nextId →
    Reuses a w r := by
  intro h
  have hreuses := h (exampleAws "") (exampleAccount (launchRegion [[runningInstance]])) _
    (launchRegion [[runningInstance]]) rfl rfl ⟨by decide, by decide⟩ rfl ?_
  · obtain ⟨b, w', hrun, -, -, hcalls⟩ := hreuses.taken runningInstance (by decide)
    have hcreates : (newCalls (exampleAccount (launchRegion [[runningInstance]]))
        ((exampleAws "").launchInstance (exampleAccount (launchRegion [[runningInstance]]))).2).any creates = true := by
      simp (disch := exact rfl) only [exampleAccount, exampleWorld, World.start, Loader.exampleConfig, toList_of_eq]
      decide +kernel
    rw [hrun] at hcreates
    obtain ⟨c, hc, hcreate⟩ := List.any_eq_true.1 hcreates
    rw [(hcalls c hc).1] at hcreate
    cases hcreate
  · intro i hi m hm hid
    obtain rfl := List.mem_singleton.1 hi
    have height : "i-".toList ++ showNat 8 = "i-".toList ++ showNat m := hid
    obtain rfl := showNat_injective (List.append_cancel_left height)
    exact absurd hm (by decide)

end Launches
end Iprotate
