import Iprotate.RunTask

/-!
# What a task leaves alone

A property of the world is a quiet frame (`QuietFrame`) when calls, the generated files, the firewall's rules and
constructions of `ConfigLoader` keep it; all a task does on this host and over SSH keeps these (`QuietFrame.serve`). A
host frame (`HostFrame`) need not bear a change of every file, and what is nothing but calls needs a call frame
(`CallFrame`). Of the changes of the account

- a calm frame (`CalmFrame`) bears those that touch neither the states of instances nor the tags of addresses;
- a mild frame (`MildFrame`) bears those that take no life and add no address, so it bears a launch
  (`MildFrame.createInstance`);
- a frame (`Frame`) bears all that take no life;
- an open one (`OpenFrame`) bears terminations beside the mild ones, and all writes to `config.conf`;
- a wide one (`WideFrame`) bears everything, and every task keeps it (`WideFrame.perform`).
-/

namespace Iprotate

open Py

structure CallFrame (I : World → Prop) : Prop where
  call : ∀ c, Prog.Keeps I (Py.call c)
  refuse : ∀ w c, I w → I { w with calls := w.calls ++ [(c, true)] }

/-- `Elsewhere` are the files that the property has nothing to do with. -/
structure HostFrame (Elsewhere : Str → Prop) (I : World → Prop) : Prop extends CallFrame I where
  write : ∀ w path text, Elsewhere path → I w → I { w with files := w.files.set path text }
  rules : ∀ w rules, I w → I { w with rules }
  build : Prog.Keeps I (onConfig ConfigLoader.build)

structure QuietFrame (I : World → Prop) : Prop extends CallFrame I where
  clock : ∀ w, I w → I { w with clock := w.clock + 1 }
  files : ∀ w files, I w → I { w with files }
  rules : ∀ w rules, I w → I { w with rules }
  build : Prog.Keeps I (onConfig ConfigLoader.build)

structure CalmFrame (I : World → Prop) : Prop extends QuietFrame I where
  name : ∀ w, I w → I { w with cloud := { w.cloud with nextId := w.cloud.nextId + 1 } }
  calm : ∀ w name r r', w.cloud.region? name = some r → r.Mild r' → r.Calm r' → I w →
    I { w with cloud := w.cloud.setRegion name r' }

structure MildFrame (I : World → Prop) : Prop extends CalmFrame I where
  nextId : ∀ w n, I w → I { w with cloud := { w.cloud with nextId := n } }
  mild : ∀ w name r r', w.cloud.region? name = some r → r.Mild r' → I w →
    I { w with cloud := w.cloud.setRegion name r' }
  name := fun w hw => nextId w _ hw
  calm := fun w name r r' hr h _ hw => mild w name r r' hr h hw

structure Frame (I : World → Prop) : Prop extends MildFrame I where
  grow : ∀ w name r r', w.cloud.region? name = some r → r.Grows r' → I w →
    I { w with cloud := w.cloud.setRegion name r' }
  mild := fun w name r r' hr h hw => grow w name r r' hr h.grows hw

/-- An `Aws` object after a method that changes neither its loader nor what was loaded. -/
structure Aws.Same (a b : Aws) : Prop where
  config : b.config = a.config
  configName : b.configName = a.configName
  awsConfig : b.awsConfig = a.awsConfig
  resource : b.resource = a.resource

theorem Aws.Same.trans {a b c : Aws} (h : a.Same b) (h' : b.Same c) : a.Same c :=
  ⟨h'.config.trans h.config, h'.configName.trans h.configName, h'.awsConfig.trans h.awsConfig,
    h'.resource.trans h.resource⟩

/-- An `Aws` object after its `login`. -/
structure Aws.LoggedIn (a b : Aws) : Prop where
  config : b.config = a.config
  configName : b.configName = a.configName
  awsConfig : b.awsConfig = a.awsConfig
  ec2 : b.ec2 = some a.client
  resource : b.resource = some a.client

namespace Py

variable {α : Type}

theorem triple_onConfig {m : ConfigFile α} {P : Str → Prop} {Q : α → Str → Prop} {E : Str → Prop}
    (h : Prog.Triple P m Q fun _ => E) : Prog.Triple (fun w => P w.config) (onConfig m)
      (fun a w => Q a w.config) (fun _ w => E w.config) := by
  intro w hw
  have hm := h w.config hw
  unfold onConfig
  cases hr : m w.config with
  | mk r t =>
    rw [hr] at hm
    cases r <;> exact hm

theorem triple_ofConfig {P : World → Prop} (x : Except ConfigError α) :
    Prog.Triple P (ofConfig x) (fun a w => P w ∧ x = .ok a) (fun _ => P) := by
  cases x with
  | ok a => exact .pure fun _ hw => ⟨hw, rfl⟩
  | error e => exact .throw fun _ hw => hw

end Py

namespace Frame

variable {I J : World → Prop} {α β : Type}

open Prog

/-- A property of the text of `config.conf` that constructions keep. -/
theorem of_config {J : Str → Prop} (h : Keeps J ConfigLoader.build) : Frame fun w => J w.config where
  call c w hw := by
    unfold Py.call
    split <;> exact hw
  refuse _ _ hw := hw
  clock _ hw := hw
  files _ _ hw := hw
  rules _ _ hw := hw
  nextId _ _ hw := hw
  grow _ _ _ _ _ _ hw := hw
  build := .of_triple (triple_onConfig h.triple) (fun _ _ h => h) fun _ _ h => h

/-- A live instance. -/
theorem live (region id : Str) : Frame fun w => w.cloud.Live region id where
  call c w hw := by
    unfold Py.call
    split <;> exact hw
  refuse _ _ hw := hw
  clock _ hw := hw
  files _ _ hw := hw
  rules _ _ hw := hw
  nextId _ _ hw := hw
  grow _ _ _ _ hr hg hw := hw.setRegion hr hg
  build w hw := by
    unfold onConfig
    split <;> exact hw

/-! ## Programs that read the world at most -/

theorem ofConfig (x : Except ConfigError α) : Keeps I (Py.ofConfig x) := by
  unfold Py.ofConfig
  split
  · exact .pure _
  · exact .throw _

theorem int (text : Str) : Keeps I (Py.int text) := by
  unfold Py.int
  dsimp only
  split
  · exact .pure _
  · exact .throw _

/-- Waiting for the proxy is nothing but calls. -/
theorem keeps_wait (hcall : ∀ c, Keeps I (Py.call c)) (c : Socks5) (ready : Str → Bool) :
    ∀ rounds, Keeps I (c.wait ready rounds)
  | 0 => .pure _
  | rounds + 1 => .bind (.tryCatch (.bind (hcall _) fun _ => .pure _) fun _ => .pure _) fun _ =>
    .ite (.pure _) (keeps_wait hcall c ready rounds)

theorem getAttr (name : Str) (value : Option α) : Keeps I (Aws.getAttr name value) := by
  unfold Aws.getAttr
  split
  · exact .pure _
  · exact .throw _

theorem wrapping (text : Str) {m : Py α} (hm : Keeps I m) : Keeps I (Aws.wrapping text m) :=
  .tryCatch hm fun _ => .throw _

/-- A method of `Aws` that keeps the frame, the loader and the loaded profile. -/
def KeepsSame (I : World → Prop) (a : Aws) (m : Py Aws) : Prop :=
  Triple I m (fun b w => I w ∧ a.Same b) (fun _ => I)

theorem KeepsSame.pure {a b : Aws} (h : a.Same b) : KeepsSame I a (Pure.pure b) :=
  Triple.pure fun _ hw => ⟨hw, h⟩

theorem KeepsSame.bind {a : Aws} {m : Py α} {f : α → Py Aws} (hm : Keeps I m) (hf : ∀ x, KeepsSame I a (f x)) :
    KeepsSame I a (m >>= f) := Triple.bind hm.triple hf

theorem KeepsSame.then {a : Aws} {m : Py Aws} {f : Aws → Py Aws} (hm : KeepsSame I a m)
    (hf : ∀ b, KeepsSame I b (f b)) : KeepsSame I a (m >>= f) := by
  refine Triple.bind hm fun b => ?_
  rintro w ⟨hw, hab⟩
  exact (hf b).conseq (fun _ (h : I _) => h) (fun c w h => ⟨h.1, hab.trans h.2⟩) (fun _ _ h => h) w hw

theorem KeepsSame.wrapping {a : Aws} (text : Str) {m : Py Aws} (hm : KeepsSame I a m) :
    KeepsSame I a (Aws.wrapping text m) := Triple.tryCatch hm fun _ => .throw fun _ h => h

theorem KeepsSame.keeps {a : Aws} {m : Py Aws} (h : KeepsSame I a m) : Keeps I m :=
  .of_triple h (fun _ _ h => h.1) fun _ _ h => h

theorem lookAtFirst : ∀ is : List Instance, Keeps I (Aws.lookAtFirst is)
  | [] => .throw _
  | _ :: _ => .pure _

theorem getKey (key : Str) (value : Option α) : Keeps I (Aws.getKey key value) := by
  unfold Aws.getKey
  split
  · exact .pure _
  · exact .throw _

end Frame

namespace CallFrame

variable {I : World → Prop} {α : Type}

open Prog

/-! ## Calls -/

theorem callOnly (h : CallFrame I) (c : Call) : Keeps I (do let _ ← Py.call c : Py Unit) :=
  .bind (h.call _) fun _ => .pure _

theorem makedirs (h : CallFrame I) (path : Str) : Keeps I (Py.makedirs path) := h.callOnly _

theorem readFile (h : CallFrame I) (path : Str) : Keeps I (Py.readFile path) := by
  refine .bind (h.call _) fun _ => .bind .get fun w => ?_
  split
  · exact .pure _
  · exact .throw _

/-! ## The instance, the service and the proxy -/

theorem onTransport (h : CallFrame I) (s : SSHSetup) (op : SshOp) : Keeps I (s.onTransport op) :=
  .ite (h.call _) (.throw _)

theorem exec (h : CallFrame I) (s : SSHSetup) (command : Str) : Keeps I (s.exec command) :=
  .bind (h.onTransport _ _) fun _ => .pure _

theorem isPackageInstalled (h : CallFrame I) (s : SSHSetup) (packageName : Str) :
    Keeps I (s.isPackageInstalled packageName) :=
  .bind (h.exec _ _) fun _ => .pure _

theorem copyToHost (h : CallFrame I) (s : SSHSetup) (localPath remotePath : Str) :
    Keeps I (s.copyToHost localPath remotePath) :=
  .bind (h.onTransport _ _) fun _ => .bind (h.onTransport _ _) fun _ => .bind (h.onTransport _ _) fun _ =>
    .bind (h.exec _ _) fun _ => .bind (.bind (h.exec _ _) fun _ => .pure _) fun _ => .pure _

theorem tryConnect (h : CallFrame I) (s : SSHSetup) : ∀ tries, Keeps I (s.tryConnect tries)
  | 0 => .pure _
  | tries + 1 => .bind (.tryCatch (.bind (h.call _) fun _ => .pure _) fun _ => .pure _) fun _ =>
    .ite (.pure _) (tryConnect h s tries)

theorem removeUpgrades (h : CallFrame I) (ssh : SSHSetup) : Keeps I (SetupHost.removeUpgrades ssh) := by
  have hremove : Keeps I (ssh.removePackage "unattended-upgrades") :=
    .bind (h.exec _ _) fun _ => .bind (h.isPackageInstalled _ _) fun _ => .pure _
  exact .bind (h.isPackageInstalled _ _) fun _ => .ite hremove (.pure _)

theorem installWireguard (h : CallFrame I) (ssh : SSHSetup) : Keeps I (SetupHost.installWireguard ssh) := by
  have hinstall : Keeps I (ssh.installPackage "wireguard") :=
    .bind (h.isPackageInstalled _ _) fun _ => .ite (.pure _)
      (.bind (h.exec _ _) fun _ => .bind (h.onTransport _ _) fun _ => .pure _)
  exact .bind (h.isPackageInstalled _ _) fun _ => .ite (.pure _) hinstall

theorem allowIpv4Forwarding (h : CallFrame I) (ssh : SSHSetup) : Keeps I ssh.allowIpv4Forwarding :=
  .bind (h.onTransport _ _) fun _ => .pure _

/-- A command whose output nobody reads. -/
theorem execOnly (h : CallFrame I) (ssh : SSHSetup) (command : Str) : Keeps I (do let _ ← ssh.exec command : Py Unit) :=
  .bind (h.exec ssh command) fun _ => .pure _

theorem hostSetup (h : CallFrame I) (host : SetupHost) (ssh : SSHSetup) : Keeps I (host.setup ssh) := by
  refine .bind (h.removeUpgrades ssh) fun _ => .bind (h.installWireguard ssh) fun _ => ?_
  refine .bind (h.allowIpv4Forwarding ssh) fun _ => .bind (h.copyToHost _ _ _) fun _ =>
    .bind (h.copyToHost _ _ _) fun _ => ?_
  exact .bind (h.execOnly _ _) fun _ => .bind (h.execOnly _ _) fun _ => .bind (h.execOnly _ _) fun _ => h.callOnly _

theorem serviceInit (h : CallFrame I) (serviceName : Str) : Keeps I (ServiceManager.init serviceName) :=
  .bind (h.call _) fun _ => .pure _

theorem wait (h : CallFrame I) (c : Socks5) (ready : Str → Bool) (rounds : Nat) : Keeps I (c.wait ready rounds) :=
  Frame.keeps_wait h.call c ready rounds

/-- What `serve` does once the files are there. -/
theorem restart (h : CallFrame I) (m : ServiceManager) : Keeps I m.restartIprotateService :=
  .bind (h.call _) fun _ => h.callOnly _

/-! ## EC2 -/

theorem query (h : CallFrame I) (client : Client) (op : AwsOp) : Triple I (Ec2.query client op)
    (fun r w => I w ∧ w.cloud.region? client.region = some r) (fun _ => I) := by
  refine .bind (h.call _).triple fun _ => .bind .get fun w => ?_
  rintro w' ⟨rfl, hw⟩
  cases hr : w.cloud.region? client.region with
  | none => exact hw
  | some r => exact ⟨hw, hr⟩

theorem keepsQuery (h : CallFrame I) (client : Client) (op : AwsOp) : Keeps I (Ec2.query client op) :=
  .of_triple (h.query client op) (fun _ _ h => h.1) fun _ _ h => h

/-- An operation that changes the region in a way that the property bears. -/
theorem changeRegion (h : CallFrame I) (client : Client) (op : AwsOp) {f : Region → Option Region}
    (hf : ∀ r r', f r = some r' → ∀ w, w.cloud.region? client.region = some r → I w →
      I { w with cloud := w.cloud.setRegion client.region r' }) : Keeps I (Ec2.change client op f) := by
  refine .of_triple (Q := fun _ => I) (E := fun _ => I) (.bind (h.query client op) fun r => ?_) (fun _ _ h => h)
    fun _ _ h => h
  rintro w ⟨hw, hr⟩
  cases hfr : f r with
  | none => exact hw
  | some r' => exact hf r r' hfr w hr hw

/-! ## `Aws` -/

theorem makesClient (h : CallFrame I) (a : Aws) :
    Triple I a.newClient (fun b w => I w ∧ b = { a with ec2 := some a.client }) (fun _ => I) :=
  .tryCatch (.bind (h.call _).triple fun _ => .pure fun _ hw => ⟨hw, rfl⟩) fun _ => .throw fun _ hw => hw

theorem newClient (h : CallFrame I) (a : Aws) : Frame.KeepsSame I a a.newClient :=
  (h.makesClient a).conseq (fun _ h => h) (fun _ _ hb => ⟨hb.1, hb.2 ▸ ⟨rfl, rfl, rfl, rfl⟩⟩) fun _ _ h => h

theorem login (h : CallFrame I) (a : Aws) : Triple I a.login (fun b w => I w ∧ a.LoggedIn b) (fun _ => I) := by
  refine .bind (h.makesClient a) fun b => ?_
  rintro w ⟨hw, rfl⟩
  refine Triple.bind (Frame.getAttr _ _).triple (fun ec2 => .bind (h.keepsQuery _ _).triple fun r => ?_) w hw
  split
  · exact .throw fun _ h => h
  · split
    · exact .throw fun _ h => h
    · exact .bind (h.call _).triple fun _ => .pure fun w hw => ⟨hw, rfl, rfl, rfl, rfl, rfl⟩

theorem getAllRegions (h : CallFrame I) (a : Aws) : Keeps I a.getAllRegions :=
  .bind (h.call _) fun _ => .bind (h.keepsQuery _ _) fun _ => .bind .get fun _ => .pure _

theorem moreInstanceTypes (h : CallFrame I) (ec2 : Client) : ∀ (pages : List TypePage) (page : TypePage)
    (all : List InstanceType), Keeps I (Aws.moreInstanceTypes ec2 page pages all)
  | _, ⟨_, none⟩, _ => by unfold Aws.moreInstanceTypes; exact .pure _
  | _, ⟨_, some []⟩, _ => by unfold Aws.moreInstanceTypes; exact .pure _
  | [], ⟨_, some (_ :: _)⟩, _ => by
    unfold Aws.moreInstanceTypes
    exact .bind (h.keepsQuery _ _) fun _ => .throw _
  | page :: pages, ⟨_, some (_ :: _)⟩, _ => by
    unfold Aws.moreInstanceTypes
    exact .bind (h.keepsQuery _ _) fun _ => moreInstanceTypes h ec2 pages page _

theorem getInstanceTypeFreeTier (h : CallFrame I) (a : Aws) : Keeps I a.getInstanceTypeFreeTier := by
  refine .bind (Frame.getAttr _ _) fun ec2 => .bind (h.keepsQuery _ _) fun r => .bind ?_ fun all => ?_
  · split
    · exact .pure _
    · exact h.moreInstanceTypes _ _ _ _
  · split
    · exact .pure _
    · exact .throw _

/-- `describe_images` makes a client and no more. -/
theorem firstImage (h : CallFrame I) (a : Aws) :
    Triple I a.firstImage (fun r w => I w ∧ r.2 = { a with ec2 := some a.client }) (fun _ => I) := by
  refine .bind (h.makesClient a) fun b => ?_
  rintro w ⟨hw, rfl⟩
  refine Triple.bind (Frame.getAttr _ _).triple (fun ec2 => .bind (h.keepsQuery _ _).triple fun r => ?_) w hw
  split
  · exact .throw fun _ h => h
  · exact .pure fun _ hw => ⟨hw, rfl⟩

theorem getInstanceAddress (h : CallFrame I) (a : Aws) : Keeps I a.getInstanceAddress := by
  refine Frame.wrapping _ (.bind (Frame.getAttr _ _) fun ec2 => .bind (h.keepsQuery _ _) fun r => ?_)
  split
  · exact .throw _
  · exact Frame.getKey _ _

end CallFrame

/-! ## The host -/

/-- A path from the root, or a 3proxy file. -/
def OtherFile (path : Str) : Prop := path.head? = some '/' ∨ path.getLast? = some 'g'

namespace HostFrame

variable {E : Str → Prop} {I : World → Prop} {α : Type}

open Prog

theorem writeFile (h : HostFrame E I) {path : Str} (hpath : E path) (text : Str) : Keeps I (Py.writeFile path text) :=
  .bind (h.call _) fun _ => .modify fun w hw => h.write w path text hpath hw

/-! ### The firewall -/

theorem system (h : HostFrame E I) (command : Str) : Keeps I (Iprotate.system command) :=
  .ite (fun w hw => h.refuse w _ hw) (.bind (h.call _) fun _ => .modify fun w hw => h.rules w _ hw)

theorem firewallInit (h : HostFrame E I) (hE : ∀ path, OtherFile path → E path) (configName : Str) :
    Keeps I (Firewall.init configName) :=
  .bind h.build fun _ => .bind (Frame.ofConfig _) fun _ => .bind (Frame.ofConfig _) fun _ =>
    .bind (Frame.int _) fun _ =>
    .bind (Frame.ofConfig _) fun _ => .bind (h.writeFile (hE _ (.inl rfl)) _) fun _ =>
      .bind (.tryCatch (.bind (h.system _) fun _ => h.system _) fun _ => .pure _) fun _ => .pure _

theorem deleteRules (h : HostFrame E I) (fw : Firewall) : Keeps I fw.deleteRules := by
  refine .bind (.bind (h.call _) fun _ => .bind .get fun _ => .pure _) fun rules => .each (fun e => ?_) _
  exact .ite (.bind (h.call _) fun _ => .modify fun w hw => h.rules w _ hw) (.pure _)

theorem applyWhitelist (h : HostFrame E I) (fw : Firewall) : Keeps I fw.applyWhitelist := by
  have hcatch : ∀ command, Keeps I (tryCatch (Iprotate.system command) fun _ => pure ()) := fun command =>
    .tryCatch (h.system command) fun _ => .pure _
  unfold Firewall.applyWhitelist
  split
  · exact .bind (.each (fun ip => .ite (hcatch _) (.pure _)) _) fun _ => hcatch _
  · exact hcatch _

theorem configureFirewall (h : HostFrame E I) (hE : ∀ path, OtherFile path → E path) (configName : Str) :
    Keeps I (ConfigLoader.configureFirewall configName) :=
  .tryCatch (.bind (h.firewallInit hE _) fun fw => .bind (h.deleteRules fw) fun _ => h.applyWhitelist fw)
    fun _ => .pure _

/-! ### The files of a profile -/

theorem generatePeerConfig (h : HostFrame E I) (hE : ∀ path, OtherFile path → E path) (l : ConfigLoader)
    (configName : Str) : Keeps I (l.generatePeerConfig configName) :=
  .bind (h.configureFirewall hE _) fun _ => .bind (Frame.ofConfig _) fun _ => .bind (Frame.ofConfig _) fun _ =>
    .bind (h.makedirs _) fun _ => .bind (h.writeFile (hE _ (.inl rfl)) _) fun _ => .bind (h.readFile _) fun _ => .pure _

theorem generateShadowsocksConfig (h : HostFrame E I) (hE : ∀ path, OtherFile path → E path) (l : ConfigLoader)
    (configName : Str) : Keeps I (l.generateShadowsocksConfig configName) := by
  refine .bind (Frame.ofConfig _) fun user => .bind (Frame.ofConfig _) fun passwd => .bind (Frame.ofConfig _) fun _ =>
    .bind (Frame.int _) fun _ => ?_
  dsimp only
  split
  · exact .bind (h.writeFile (hE _ (.inl rfl)) _) fun _ => .bind (h.writeFile (hE _ (.inl rfl)) _) fun _ => .pure _
  · exact .bind (.pure _) fun _ => .bind (h.writeFile (hE _ (.inl rfl)) _) fun _ => .pure _

theorem generate3proxyConfig (h : HostFrame E I) (hE : ∀ path, OtherFile path → E path) (l : ConfigLoader)
    (configName : Str) : Keeps I (l.generate3proxyConfig configName) := by
  refine .bind (Frame.ofConfig _) fun _ => .bind (Frame.int _) fun _ => .bind (h.makedirs _) fun _ =>
    .bind (h.writeFile (hE _ (.inr ?_)) _) fun _ => .pure _
  rw [List.getLast?_append]
  rfl

end HostFrame

namespace QuietFrame

variable {I : World → Prop} {α : Type}

open Prog

theorem toHost (h : QuietFrame I) : HostFrame (fun _ => True) I where
  toCallFrame := h.toCallFrame
  write w _ _ _ hw := h.files w _ hw
  rules := h.rules
  build := h.build

theorem now (h : QuietFrame I) : Keeps I Py.now := h.clock

/-! ## The host -/

theorem writeFile (h : QuietFrame I) (path text : Str) : Keeps I (Py.writeFile path text) :=
  h.toHost.writeFile trivial text

theorem firewallInit (h : QuietFrame I) (configName : Str) : Keeps I (Firewall.init configName) :=
  h.toHost.firewallInit (fun _ _ => trivial) configName

theorem deleteRules (h : QuietFrame I) (fw : Firewall) : Keeps I fw.deleteRules := h.toHost.deleteRules fw

theorem applyWhitelist (h : QuietFrame I) (fw : Firewall) : Keeps I fw.applyWhitelist := h.toHost.applyWhitelist fw

theorem generatePeerConfig (h : QuietFrame I) (l : ConfigLoader) (configName : Str) :
    Keeps I (l.generatePeerConfig configName) := h.toHost.generatePeerConfig (fun _ _ => trivial) l configName

theorem generateShadowsocksConfig (h : QuietFrame I) (l : ConfigLoader) (configName : Str) :
    Keeps I (l.generateShadowsocksConfig configName) :=
  h.toHost.generateShadowsocksConfig (fun _ _ => trivial) l configName

theorem generate3proxyConfig (h : QuietFrame I) (l : ConfigLoader) (configName : Str) :
    Keeps I (l.generate3proxyConfig configName) := h.toHost.generate3proxyConfig (fun _ _ => trivial) l configName

theorem generateProfileConfig (h : QuietFrame I) (l : ConfigLoader) (configName newip : Str) :
    Keeps I (l.generateProfileConfig configName newip) :=
  .bind (Frame.ofConfig _) fun _ => .bind (Frame.int _) fun _ => .bind (Frame.ofConfig _) fun _ =>
    .bind (h.makedirs _) fun _ =>
    .bind (h.writeFile _ _) fun _ => .bind (h.generate3proxyConfig _ _) fun l => h.generateShadowsocksConfig l _

/-- The second half of `change_ip` and `change_region`. -/
theorem serve (h : QuietFrame I) (t : RunTask) (config : ConfigLoader) (aws : Aws) (configName awsIp : Str)
    (stopFirst : Bool) : Keeps I (t.serve config aws configName awsIp stopFirst) := by
  refine .bind (h.generateProfileConfig _ _ _) fun config => .bind (h.generatePeerConfig _ _) fun _ => ?_
  refine .bind (h.tryConnect _ _) fun ssh => .bind (h.hostSetup _ _) fun _ => .bind (h.serviceInit _) fun service => ?_
  refine .bind (.ite (.tryCatch (h.callOnly _) fun _ => .pure _) (.pure _)) fun _ => ?_
  exact .bind (h.restart service) fun _ => .bind (Frame.int _) fun _ => h.wait _ _ _

/-! ## `Aws` -/

theorem awsInit (h : QuietFrame I) (configName : Str) : Keeps I (Aws.init configName) :=
  .bind h.build fun _ => .bind (Frame.ofConfig _) fun _ => .pure _

end QuietFrame

/-! ## Changes of the account -/

/-- What `launch_instance` does once it has an image, a type and a key. -/
def Aws.startInstance (a : Aws) (resource : Client) (image instanceType keyName : Str) : Py (Str × Aws) := do
  let n ← Ec2.nextId
  Ec2.change resource (.createInstances image instanceType keyName "iprotate") fun r =>
    some (r.launch ⟨newInstanceId n, .pending, [("role", "iprotate")], some (newIp n)⟩)
  let ec2 ← Aws.getAttr "ec2" a.ec2
  Ec2.change ec2 (.waitInstanceRunning (newInstanceId n).text) fun r => some (r.start (newInstanceId n).text)
  return ((newInstanceId n).text, a)

namespace CalmFrame

variable {I : World → Prop}

open Prog

/-- An operation that touches neither the states of instances nor the tags of addresses. -/
theorem change (h : CalmFrame I) (client : Client) (op : AwsOp) {f : Region → Option Region}
    (hf : ∀ r r', f r = some r' → r.Mild r' ∧ r.Calm r') : Keeps I (Ec2.change client op f) :=
  h.changeRegion client op fun r r' hfr w hr hw => h.calm w _ r r' hr (hf r r' hfr).1 (hf r r' hfr).2 hw

theorem keepsNextId (h : CalmFrame I) : Keeps I Ec2.nextId := fun w hw => h.name w hw

theorem createGroupIprotate (h : CalmFrame I) (ec2 : Client) : Keeps I (Aws.createGroupIprotate ec2) :=
  .bind h.keepsNextId fun _ =>
    .bind (h.change _ _ fun _ _ hr => ⟨Region.mild_createSecurityGroup hr, Region.calm_createSecurityGroup hr⟩)
      fun _ => .pure _

theorem chooseGroup (h : CalmFrame I) (ec2 : Client) : ∀ (groups : List SecurityGroup) (chosen : Option Str),
    Keeps I (Aws.chooseGroup ec2 groups chosen)
  | [], _ => .pure _
  | _ :: groups, _ => .bind (.ite (.pure _) (h.createGroupIprotate ec2)) fun _ => chooseGroup h ec2 groups _

theorem createSecurityGroup (h : CalmFrame I) (a : Aws) : Frame.KeepsSame I a a.createSecurityGroup := by
  refine .bind (Frame.getAttr _ _) fun ec2 => .bind (h.keepsQuery _ _) fun r =>
    .bind (h.chooseGroup _ _ _) fun chosen => ?_
  refine .bind ?_ fun groupId => .bind (h.keepsQuery _ _) fun r => ?_
  · split
    · exact .pure _
    · exact h.createGroupIprotate ec2
  · split
    · exact Triple.throw fun _ h => h
    · refine .bind (.ofExcept _) fun allowed => ?_
      split
      · exact .pure ⟨rfl, rfl, rfl, rfl⟩
      · exact .bind (h.change _ _ fun _ _ hr => ⟨Region.mild_authorizeAll hr, Region.calm_authorizeAll hr⟩) fun _ =>
          .pure ⟨rfl, rfl, rfl, rfl⟩

theorem setKeypair (h : CalmFrame I) (a : Aws) : Frame.KeepsSame I a a.setKeypair := by
  refine .bind (Frame.wrapping _ (h.call _)) fun _ => .bind .get fun w => .bind (Frame.getAttr _ _) fun ec2 => ?_
  refine .bind (h.keepsQuery _ _) fun r => ?_
  split
  · exact .pure ⟨rfl, rfl, rfl, rfl⟩
  · refine .wrapping _ (.bind h.now fun _ => .bind (h.change _ _ fun r r' hr => ?_) fun _ => .pure ⟨rfl, rfl, rfl, rfl⟩)
    cases hr
    exact ⟨Region.mild_importKeyPair _ _ _, .of_reservations rfl⟩

theorem disassociateAndReleaseIp (h : CalmFrame I) (a : Aws) : Keeps I a.disassociateAndReleaseIp := by
  refine .bind (Frame.getAttr _ _) fun ec2 => .bind (h.keepsQuery _ _) fun r =>
    .each (fun address => .each (fun tag => ?_) _) _
  refine .ite (.bind (.tryCatch ?_ fun _ => .pure _) fun _ => .tryCatch ?_ fun _ => .pure _) (.pure _)
  · exact .bind (Frame.getKey _ _) fun _ => .bind h.keepsNextId fun _ =>
      h.change _ _ fun _ _ hr => ⟨Region.mild_disassociateAddress hr, Region.calm_disassociateAddress hr⟩
  · exact .bind (Frame.getKey _ _) fun _ => h.change _ _ fun _ _ hr =>
      ⟨Region.mild_releaseAddress hr, Region.calm_releaseAddress hr⟩

/-- An allocation adds an address, which the frame must bear. -/
theorem allocateAndAssociateIp (h : CalmFrame I) (a : Aws) (hallocate : ∀ ec2 n, a.ec2 = some ec2 →
    Keeps I (Ec2.change ec2 (.allocateAddress a.awsConfig.instanceId) fun r =>
      some (r.allocateAddress ("eipalloc-" ++ showNat n) (newIp n) a.awsConfig.instanceId))) :
    Keeps I a.allocateAndAssociateIp := by
  have hec2 : Triple I (Aws.getAttr "ec2" a.ec2) (fun ec2 w => I w ∧ a.ec2 = some ec2) fun _ => I := by
    cases a.ec2 with
    | none => exact .throw fun _ hw => hw
    | some ec2 => exact .pure fun _ hw => ⟨hw, rfl⟩
  refine .of_triple (Q := fun _ => I) (E := fun _ => I) (.bind hec2 fun ec2 => ?_) (fun _ _ hw => hw) fun _ _ hw => hw
  rintro w ⟨hw, hec2⟩
  refine Keeps.triple ?_ w hw
  exact .bind h.keepsNextId fun n => .bind (hallocate ec2 n hec2) fun _ => .bind h.keepsNextId fun _ =>
    .bind (h.change _ _ fun _ _ hr => ⟨Region.mild_associateAddress hr, Region.calm_associateAddress hr⟩) fun _ =>
      h.disassociateAndReleaseIp a

/-- `launch_instance` goes through its preparations, from which it takes no more than an image, a type and a key. -/
theorem launching (h : CalmFrame I) (a : Aws) {Q : Str × Aws → World → Prop} {E : World → Prop} (hE : ∀ w, I w → E w)
    (hstart : ∀ b resource image instanceType keyName, a.Same b → b.ec2 = some a.client → a.resource = some resource →
      Triple I (b.startInstance resource image instanceType keyName) Q (fun _ => E)) :
    Triple I a.createInstance Q (fun _ => E) := by
  have hkeeps : ∀ {α : Type} {m : Py α}, Keeps I m → Triple I m (fun _ => I) (fun _ => E) := fun hm =>
    hm.triple.conseq (fun _ h => h) (fun _ _ h => h) fun _ w h => hE w h
  have hsame : ∀ {b : Aws} {m : Py Aws}, Frame.KeepsSame I b m → Triple I m (fun c w => I w ∧ b.Same c) (fun _ => E) :=
    fun hm => Triple.conseq hm (fun _ h => h) (fun _ _ h => h) fun _ w h => hE w h
  refine .bind (hkeeps (Frame.getAttr _ _)) fun ec2 => .bind (hkeeps (h.keepsQuery _ _)) fun r => ?_
  refine .bind (hkeeps (.each Frame.lookAtFirst _)) fun _ => .bind (hsame (h.createSecurityGroup a)) fun a₁ => ?_
  rintro w ⟨hw, h₁⟩
  refine Triple.bind (hkeeps (h.getInstanceTypeFreeTier a₁))
    (fun instanceType => .bind (hsame (h.newClient a₁)) fun a₂ => ?_) w hw
  rintro w ⟨hw, h₂⟩
  refine Triple.bind (hsame (h.setKeypair a₂)) (fun a₃ => ?_) w hw
  rintro w ⟨hw, h₃⟩
  have hsame₃ := (h₁.trans h₂).trans h₃
  refine Triple.bind (m := Aws.getAttr "resource" a₃.resource) (Q := fun c w => I w ∧ a.resource = some c) ?_
    (fun c => ?_) w hw
  · rw [hsame₃.resource]
    cases a.resource with
    | none => exact .throw fun w hw => hE w hw
    | some c => exact .pure fun _ hw => ⟨hw, rfl⟩
  rintro w ⟨hw, hc⟩
  refine Triple.bind ((h.firstImage a₃).conseq (fun _ h => h) (fun _ _ h => h) fun _ w h => hE w h) (fun x => ?_) w hw
  obtain ⟨image, a₄⟩ := x
  rintro w ⟨hw, rfl : a₄ = _⟩
  have hclient : a₃.client = a.client := by rw [Aws.client, hsame₃.awsConfig, ← Aws.client]
  exact Triple.bind (hkeeps (Frame.getAttr _ _))
    (fun keyName => hstart { a₃ with ec2 := some a₃.client } c image instanceType keyName
      (hsame₃.trans ⟨rfl, rfl, rfl, rfl⟩) (congrArg some hclient) hc) w hw

end CalmFrame

namespace MildFrame

variable {I J : World → Prop}

open Prog

theorem and (h : MildFrame I) (h' : MildFrame J) : MildFrame fun w => I w ∧ J w where
  call c w hw := ⟨h.call c w hw.1, h'.call c w hw.2⟩
  refuse w c hw := ⟨h.refuse w c hw.1, h'.refuse w c hw.2⟩
  clock w hw := ⟨h.clock w hw.1, h'.clock w hw.2⟩
  files w f hw := ⟨h.files w f hw.1, h'.files w f hw.2⟩
  rules w r hw := ⟨h.rules w r hw.1, h'.rules w r hw.2⟩
  nextId w n hw := ⟨h.nextId w n hw.1, h'.nextId w n hw.2⟩
  mild w name r r' hr hm hw := ⟨h.mild w name r r' hr hm hw.1, h'.mild w name r r' hr hm hw.2⟩
  build w hw := ⟨h.build w hw.1, h'.build w hw.2⟩

/-- An operation that takes no life and adds no address. -/
theorem change (h : MildFrame I) (client : Client) (op : AwsOp) {f : Region → Option Region}
    (hf : ∀ r r', f r = some r' → r.Mild r') : Keeps I (Ec2.change client op f) :=
  h.changeRegion client op fun r r' hfr w hr hw => h.mild w _ r r' hr (hf r r' hfr) hw

/-- A launch adds a live instance, in the region of `resource`. -/
theorem createInstance (h : MildFrame I) (a : Aws) : Triple I a.createInstance
    (fun r w => I w ∧ a.Same r.2 ∧ isResourceName r.1 = true ∧
      ∀ c, a.resource = some c → w.cloud.Live c.region r.1) (fun _ => I) := by
  refine h.launching a (fun _ hw => hw) fun b c image instanceType keyName hb _ hc =>
    .bind h.keepsNextId.triple fun n => ?_
  -- from here on the new instance is there, and alive
  refine .bind (Q := fun _ w => I w ∧ w.cloud.Live c.region (newInstanceId n).text) ?_ fun _ => ?_
  · refine .bind (h.query c _) fun r => ?_
    rintro w ⟨hw, hr⟩
    refine ⟨h.mild w _ r _ hr (Region.mild_launch r _) hw, _,
      Cloud.region?_setRegion_self (Cloud.isResourceName_of_region? hr) _, ?_⟩
    exact Region.live_launch r (i := ⟨newInstanceId n, .pending, _, _⟩) rfl
  · have hlive := h.and (Frame.live c.region (newInstanceId n).text).toMildFrame
    have hstart : ∀ ec2, Keeps _ (Ec2.change ec2 (.waitInstanceRunning (newInstanceId n).text) fun r =>
        some (r.start (newInstanceId n).text)) := fun ec2 => hlive.change _ _ fun r r' hr => by
      cases hr
      exact Region.mild_start _ _
    refine Triple.conseq (.bind (Frame.getAttr _ _).triple fun ec2 => .bind (hstart ec2).triple fun _ =>
      .pure (Q := fun (r : Str × Aws) w => I w ∧ a.Same r.2 ∧ isResourceName r.1 = true ∧
        ∀ c, a.resource = some c → w.cloud.Live c.region r.1) fun w hw => ?_) (fun _ h => h) (fun _ _ h => h)
      fun _ _ h => h.1
    refine ⟨hw.1, hb, isResourceName_id n, fun c' hc' => ?_⟩
    rw [hc] at hc'
    cases hc'
    exact hw.2

end MildFrame

namespace Frame

variable {I : World → Prop}

open Prog

/-- An operation that takes no life. -/
theorem change (h : Frame I) (client : Client) (op : AwsOp) {f : Region → Option Region}
    (hf : ∀ r r', f r = some r' → r.Grows r') : Keeps I (Ec2.change client op f) :=
  h.changeRegion client op fun r r' hfr w hr hw => h.grow w _ r r' hr (hf r r' hfr) hw

theorem allocateAndAssociateIp (h : Frame I) (a : Aws) : Keeps I a.allocateAndAssociateIp := by
  refine h.toMildFrame.allocateAndAssociateIp a fun ec2 n _ => h.change _ _ fun r r' hr => ?_
  cases hr
  exact .of_reservations rfl

end Frame

/-! ## Whole tasks -/

/-- A mild frame that bears the loss of an instance as well, and has nothing to do with `config.conf`. -/
structure OpenFrame (I : World → Prop) : Prop extends MildFrame I where
  config : ∀ w text, I w → I { w with config := text }
  terminate : ∀ w name r id, w.cloud.region? name = some r → I w →
    I { w with cloud := w.cloud.setRegion name (r.terminate id) }

namespace OpenFrame

variable {I : World → Prop} {α : Type}

open Prog

theorem onConfig (h : OpenFrame I) (m : ConfigFile α) : Keeps I (Py.onConfig m) := by
  intro w hw
  unfold Py.onConfig
  split
  · exact h.config w _ hw
  · exact h.config w _ hw

theorem storeInstanceId (h : OpenFrame I) (a : Aws) (id : Str) : Keeps I (a.storeInstanceId id) :=
  .bind (Frame.ofConfig _) fun _ => .bind (h.onConfig _) fun _ => .pure _

theorem keepsLogin (h : OpenFrame I) (a : Aws) : Keeps I a.login :=
  .of_triple (h.login a) (fun _ _ hw => hw.1) fun _ _ hw => hw

theorem terminateInstance (h : OpenFrame I) (a : Aws) : Keeps I a.terminateInstance := by
  refine .bind (Frame.getAttr _ _) fun ec2 => .bind (h.keepsQuery _ _) fun r => .bind (.each (fun is => ?_) _) fun _ =>
    h.storeInstanceId a []
  cases is with
  | nil => exact .throw _
  | cons i is =>
    refine .of_triple (Q := fun _ => I) (E := fun _ => I) (.bind (h.query ec2 _) fun r => ?_) (fun _ _ h => h)
      fun _ _ h => h
    rintro w ⟨hw, hr⟩
    exact h.terminate w _ r i.id.text hr hw

theorem launchInstance (h : OpenFrame I) (a : Aws) : Keeps I a.launchInstance := by
  refine .bind (.of_triple (h.createInstance a) (fun _ _ hw => hw.1) fun _ _ hw => hw) fun r => ?_
  refine .bind (h.storeInstanceId _ _) fun b => .bind (Frame.ofConfig _) fun _ =>
    .bind (h.storeInstanceId _ _) fun c => ?_
  exact .bind (Frame.getAttr _ _) fun _ => .bind (h.keepsQuery _ _) fun _ => .pure _

theorem loginAndTerminate (h : OpenFrame I) (configName : Str) : Keeps I (RunTask.loginAndTerminate configName) :=
  .bind (h.awsInit _) fun _ => .bind (h.keepsLogin _) fun _ => .bind (h.terminateInstance _) fun _ => .pure _

theorem launch (h : OpenFrame I) (configName : Str) : Keeps I (RunTask.launch configName) :=
  .bind (h.awsInit _) fun _ => .bind (h.keepsLogin _) fun _ => .bind (h.launchInstance _) fun a =>
    .bind (h.getInstanceAddress a) fun _ => .pure _

theorem attempt {m : Py TaskResult} (hm : Keeps I m) : Keeps I (RunTask.attempt m) := .tryCatch hm fun _ => .pure _

end OpenFrame

/-- A frame that has nothing to do with `config.conf` or the account. -/
structure WideFrame (I : World → Prop) : Prop extends Frame I where
  config : ∀ w text, I w → I { w with config := text }
  cloud : ∀ w c, I w → I { w with cloud := c }

namespace WideFrame

variable {I : World → Prop} {α β : Type}

open Prog

theorem toOpenFrame (h : WideFrame I) : OpenFrame I where
  toMildFrame := h.toMildFrame
  config := h.config
  terminate w _ _ _ _ hw := h.cloud w _ hw

theorem getNewIp (h : WideFrame I) (a : Aws) : Keeps I a.getNewIp := by
  refine Frame.wrapping _ (.ite ?_ ?_)
  · exact .bind (h.getInstanceAddress a) fun _ => .bind (h.disassociateAndReleaseIp a) fun _ =>
      .bind (h.allocateAndAssociateIp a) fun _ => .bind (h.getInstanceAddress a) fun _ => .pure _
  · exact .bind (h.toOpenFrame.terminateInstance a) fun b => .bind (h.toOpenFrame.launchInstance b) fun c =>
      .bind (h.getInstanceAddress c) fun _ => .pure _

theorem run (h : WideFrame I) (t : RunTask) (args : TaskArgs) : Keeps I (t.run args) := by
  unfold RunTask.run
  split
  · refine OpenFrame.attempt (.bind (h.awsInit _) fun a => .bind (h.toOpenFrame.keepsLogin a) fun _ =>
      .bind h.build fun _ => ?_)
    exact .bind (h.getNewIp _) fun _ => .bind (h.serve _ _ _ _ _ _) fun _ => .pure _
  · refine OpenFrame.attempt (.bind h.build fun config => ?_)
    cases args.newRegion with
    | none => exact .pure _
    | some newRegion =>
      refine .bind (Frame.ofConfig _) fun _ => .ite (.pure _) (.bind (h.toOpenFrame.loginAndTerminate _) fun _ => ?_)
      exact .bind (h.toOpenFrame.onConfig _) fun _ => .bind (h.toOpenFrame.launch _) fun _ =>
        .bind (h.serve _ _ _ _ _ _) fun _ => .pure _
  · refine OpenFrame.attempt (.bind h.build fun _ => .bind (Frame.ofConfig _) fun _ =>
      .bind (h.toOpenFrame.onConfig _) fun _ => ?_)
    exact .bind (h.firewallInit _) fun fw => .bind (h.deleteRules fw) fun _ =>
      .bind (h.applyWhitelist fw) fun _ => .pure _
  · exact OpenFrame.attempt (.bind (h.toOpenFrame.loginAndTerminate _) fun _ => .bind h.build fun _ =>
      .bind (Frame.ofConfig _) fun _ =>
      .bind (h.toOpenFrame.onConfig _) fun _ => .pure _)
  · refine OpenFrame.attempt (.bind (h.awsInit _) fun _ => .bind h.build fun _ => .bind (Frame.ofConfig _) fun _ =>
      .bind (Frame.ofConfig _) fun _ => .bind (h.toOpenFrame.onConfig _) fun _ => ?_)
    refine .bind (h.generate3proxyConfig _ _) fun _ => .bind (h.generateShadowsocksConfig _ _) fun _ => ?_
    exact .bind (h.serviceInit _) fun _ => .bind (h.callOnly _) fun _ => .bind (Frame.int _) fun _ =>
      .bind (h.callOnly _) fun _ => .bind (h.wait _ _ _) fun _ => .pure _

/-- **What a task keeps.** -/
theorem perform (h : WideFrame I) (args : TaskArgs) : Keeps I (RunTask.perform args) :=
  .bind (.bind h.build fun _ => .pure _) fun t => h.run t args

end WideFrame
end Iprotate
