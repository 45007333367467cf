import Iprotate.Frame

/-!
# What tasks write to the file

Each task writes some options of its own profile (`Writes`), from a loader that it built some time before, and each
write goes through `write_changes`, which merges the section of that loader into the file.

- A property of parsers is a discipline (`Discipline`) when it bears what a construction adds, the values that are
  permitted, and a merge of two parsers that have it.
- A task all of whose writes are permitted keeps a discipline of the file, whichever call raises
  (`Discipline.perform`), and so does the loading of all profiles (`Discipline.loadAll`).
-/

namespace Iprotate

open ConfigParser Loader ConfigLoader Py Prog

/-- What an instance id is, or would be. -/
def IsInstanceId (v : Str) : Prop := v = [] ∨ isResourceName v = true

theorem clean_isInstanceId {v : Str} (h : IsInstanceId v) : '%' ∉ v ∧ '\r' ∉ v := by
  rcases h with rfl | hname
  · exact ⟨List.not_mem_nil, List.not_mem_nil⟩
  · exact ⟨fun hm => by rcases mem_isResourceName hname hm with hc | hc <;> revert hc <;> decide,
      fun hm => by rcases mem_isResourceName hname hm with hc | hc <;> revert hc <;> decide⟩

/-- Such a name is read from a file as it is. -/
theorem normValue_isResourceName {v : Str} (h : isResourceName v = true) : normValue v = v := by
  have hchar : ∀ d ∈ v, Text.isSpace d = false := by
    intro d hd
    rcases mem_isResourceName h hd with halnum | rfl
    · exact Text.not_isSpace_of_isAlphanum halnum
    · decide
  exact normValue_line (fun hn => absurd (hchar _ hn) (by decide)) (Text.strip_solid hchar)

theorem normValue_isInstanceId {v : Str} (h : IsInstanceId v) : normValue v = v := by
  rcases h with rfl | hname
  · rfl
  · exact normValue_isResourceName hname

/-- The values that a task may write, under the names of their options in the file. -/
def Writes (args : TaskArgs) (k v : Str) : Prop :=
  match args.taskType with
  | .changeIp => k = "instanceid".toList ∧ IsInstanceId v
  | .changeRegion => k = "instanceid".toList ∧ IsInstanceId v ∨ k = "region".toList ∧ args.newRegion = some v
  | .changeWhitelist => k = "whitelist".toList ∧ args.newWhitelist = some v
  | .reset => (k, v) ∈ RunTask.resetValues
  | .changeAuth => k = "user".toList ∧ args.newUser = some v ∨ k = "pass".toList ∧ args.newPass = some v

structure Discipline (names : List Str) (Permit : Str → Str → Str → Prop) (W : ConfigParser → Prop) : Prop where
  writable : ∀ p, W p → Writable p
  profiles : ∀ p, W p → profileNames p = names
  settled : Settled fun p => W p ∧ Normal p
  default : ∀ p c e, e ∈ awsDefaults → c ∈ names → p.hasOption c e.1 = false → W p → W (p.put c e.1 e.2)
  set : ∀ p c k v, c ∈ names → Permit c k v → W p → W (p.put c k v)
  merge : ∀ q p p' c, c ∈ names → W q → W p → Normal p → mergeSection q p c = .ok p' → Writable p' ∧ W p'.norm

/-- All that the task may write is permitted. -/
def Permitted (Permit : Str → Str → Str → Prop) (args : TaskArgs) : Prop :=
  ∀ k v, Writes args k v → Permit args.configName k v

namespace Discipline

variable {names : List Str} {Permit : Str → Str → Str → Prop} {W : ConfigParser → Prop} {c : Str} {l l' : ConfigLoader}

/-- The file has the property. -/
def Kept (W : ConfigParser → Prop) (w : World) : Prop := FileIs (fun p => W p ∧ Normal p) w.config

/-- An `Aws` object of the profile. -/
def Holds (W : ConfigParser → Prop) (c : Str) (a : Aws) : Prop := W a.config.config ∧ a.configName = c

theorem Holds.same {a b : Aws} (h : Holds W c a) (hs : a.Same b) : Holds W c b :=
  ⟨hs.config ▸ h.1, hs.configName.trans h.2⟩

variable (h : Discipline names Permit W) (hc : c ∈ names)

include h

theorem ordinary {p : ConfigParser} (hp : W p) (hc : c ∈ names) : Ordinary c := by
  have hm := (mem_profileNames.1 (h.profiles p hp ▸ hc)).1
  exact ⟨((h.writable p hp).names c hm).ne_nil, ((h.writable p hp).names c hm).ne_default⟩

/-! ## Loaders -/

include hc

theorem setValue {k : Str} {v : Option Str} (hl : W l.config) (hv : ∀ u, v = some u → Permit c (optionxform k) u)
    (hset : l.setValue c k v = .ok l') : W l'.config := by
  cases v with
  | none => cases hset
  | some u =>
    obtain ⟨q, hq, hret⟩ := except_bind_eq_ok.1 hset
    cases hret
    obtain ⟨-, -, rfl⟩ := (set_eq_ok (h.ordinary hl hc)).1 hq
    exact h.set _ _ _ _ hc (hv u rfl) hl

theorem setValues : ∀ (items : List (Str × Str)) {l l' : ConfigLoader}, W l.config →
    (∀ e ∈ items, Permit c (optionxform e.1) e.2) → l.setValues c items = .ok l' → W l'.config
  | [], _, _, hl, _, hset => by cases hset; exact hl
  | e :: items, l, l', hl, hitems, hset => by
    obtain ⟨l₁, hfirst, hrest⟩ := except_bind_eq_ok.1 (show (l.setValue c e.1 (some e.2) >>= _) = _ from hset)
    have hl₁ := h.setValue hc hl (fun u hu => Option.some.inj hu ▸ hitems e List.mem_cons_self) hfirst
    exact setValues items hl₁ (fun e he => hitems e (List.mem_cons_of_mem _ he)) hrest

theorem loadAws {aws : AwsConfig} (hl : W l.config) (hload : l.loadAws c = .ok (aws, l')) : W l'.config := by
  refine setDefaults_keeps (P := W) (loadAwsConfig_eq_ok.1 (loadAwsConfig_of_loadAws hload)).1 hl ?_
  intro q q' e he hopt hset hq
  obtain ⟨-, -, rfl⟩ := (set_eq_ok (h.ordinary hq hc)).1 hset
  rw [optionxform_awsDefaults e he]
  exact h.default q c e he hc hopt hq

omit hc

/-! ## Constructions and writes -/

theorem frame : Frame (Kept W) := .of_config (.of_triple (build_spec h.settled) (fun _ _ h => h.1) fun _ _ h => h)

theorem build : Triple (Kept W) (onConfig ConfigLoader.build) (fun l w => Kept W w ∧ W l.config) (fun _ => Kept W) :=
  (triple_onConfig (build_spec h.settled)).conseq (fun _ h => h) (fun _ _ h => ⟨h.1, h.2.1⟩) fun _ _ h => h

/-- The loading of all profiles, which constructs a loader and loads them once more. -/
theorem loadAll : Keeps (Kept W) (onConfig (do
    let config ← ConfigLoader.build
    let (all, _) ← loadAllAwsConfig (profileNames config.config) 1 config.config
    return all)) := by
  refine .of_triple (triple_onConfig (P := FileIs fun p => W p ∧ Normal p) (E := FileIs fun p => W p ∧ Normal p)
    (Q := fun _ t => FileIs (fun p => W p ∧ Normal p) t) (.bind (build_spec h.settled) fun l => ?_)) (fun _ _ h => h)
    fun _ _ h => h
  rintro t ⟨ht, hl⟩
  exact (Triple.bind (R := fun _ => FileIs fun p => W p ∧ Normal p)
    (loadAllAwsConfig_spec h.settled (profileNames l.config) 0 rfl hl) fun r => .pure fun _ hw => hw.1) t ht

include hc

theorem writeChanges (hl : W l.config) : Keeps (FileIs fun p => W p ∧ Normal p) (l.writeChanges c) := by
  refine .of_triple (writeChanges_spec (J := fun p => W p ∧ Normal p) fun p p' hp hm => ?_) (fun _ _ h => h)
    fun _ _ h => h
  obtain ⟨hwritable, hW⟩ := h.merge l.config p p' c hc hl hp.1 hp.2 hm
  exact ⟨hwritable, hW, hwritable.normal_norm⟩

theorem keepsWriteChanges (hl : W l.config) : Keeps (Kept W) (onConfig (l.writeChanges c)) :=
  .of_triple (triple_onConfig (h.writeChanges hc hl).triple) (fun _ _ h => h) fun _ _ h => h

theorem changeRegion {v : Option Str} (hl : W l.config) (hv : ∀ u, v = some u → Permit c "region" u) :
    Keeps (Kept W) (onConfig (l.changeRegion c v)) := by
  have hspec : Triple (FileIs fun p => W p ∧ Normal p) (l.changeRegion c v) (fun _ => FileIs fun p => W p ∧ Normal p)
      (fun _ => FileIs fun p => W p ∧ Normal p) := by
    refine .bind (Q := fun r t => FileIs (fun p => W p ∧ Normal p) t ∧ W r.2.config)
      (.ofExcept (fun r _ hr ht => ⟨ht, h.loadAws hc hl hr⟩) fun _ _ _ ht => ht) fun r => ?_
    rintro t ⟨ht, hr⟩
    refine (Triple.bind (Q := fun (l' : ConfigLoader) t => FileIs (fun p => W p ∧ Normal p) t ∧ W l'.config) (.ofExcept
      (fun l' _ hl' ht => ⟨ht, h.setValue hc hr hv hl'⟩) fun _ _ _ ht => ht) fun l' => ?_) t ht
    rintro t ⟨ht, hl'⟩
    exact ((h.writeChanges hc hl').bind fun _ => .pure l').triple t ht
  exact .of_triple (triple_onConfig hspec) (fun _ _ h => h) fun _ _ h => h

omit h hc in
/-- Go on with a value of which something is known. -/
theorem bindHolds {α β : Type} {m : Py α} {f : α → Py β} {K : α → Prop}
    (hm : Triple (Kept W) m (fun a w => Kept W w ∧ K a) (fun _ => Kept W)) (hf : ∀ a, K a → Keeps (Kept W) (f a)) :
    Keeps (Kept W) (m >>= f) := by
  refine .of_triple (Q := fun _ => Kept W) (E := fun _ => Kept W) (.bind hm fun a => ?_) (fun _ _ h => h) fun _ _ h => h
  rintro w ⟨hw, ha⟩
  exact (hf a ha).triple w hw

omit h hc in
/-- A value is set in a loader, and the rest goes on with that. -/
theorem bindOfConfig {α β : Type} {x : Except ConfigError α} {f : α → Py β} {K : α → Prop} (hx : ∀ a, x = .ok a → K a)
    (hf : ∀ a, K a → Keeps (Kept W) (f a)) : Keeps (Kept W) (Py.ofConfig x >>= f) :=
  bindHolds ((triple_ofConfig x).conseq (fun _ h => h) (fun _ _ h => ⟨h.1, hx _ h.2⟩) fun _ _ h => h) hf

/-! ## `Aws` -/

theorem awsInit : Triple (Kept W) (Aws.init c) (fun a w => Kept W w ∧ Holds W c a) (fun _ => Kept W) := by
  refine .bind h.build fun l => ?_
  rintro w ⟨hw, hl⟩
  refine (Triple.bind (triple_ofConfig (P := Kept W) (l.loadAws c)) fun r => ?_) w hw
  rintro w ⟨hw, hr⟩
  exact ⟨hw, h.loadAws hc hl hr, rfl⟩

omit hc in
theorem login {a : Aws} (ha : Holds W c a) :
    Triple (Kept W) a.login (fun b w => Kept W w ∧ Holds W c b) (fun _ => Kept W) :=
  (h.frame.login a).conseq (fun _ h => h) (fun _ _ hb => ⟨hb.1, hb.2.config ▸ ha.1, hb.2.configName.trans ha.2⟩)
    fun _ _ h => h

theorem storeInstanceId {a : Aws} (ha : Holds W c a) {id : Str} (hid : Permit c "instanceid" id) :
    Triple (Kept W) (a.storeInstanceId id) (fun b w => Kept W w ∧ Holds W c b) (fun _ => Kept W) := by
  rw [Aws.storeInstanceId, ha.2]
  refine .bind (triple_ofConfig _) fun l => ?_
  rintro w ⟨hw, hset⟩
  have hl := h.setValue hc ha.1 (fun u hu => Option.some.inj hu ▸ hid) hset
  exact (Triple.bind (h.keepsWriteChanges hc hl).triple fun _ => .pure fun w hw => ⟨hw, hl, rfl⟩) w hw

theorem terminateInstance {a : Aws} (ha : Holds W c a) (hid : Permit c "instanceid" []) :
    Triple (Kept W) a.terminateInstance (fun b w => Kept W w ∧ Holds W c b) (fun _ => Kept W) := by
  refine .bind (Frame.getAttr _ _).triple fun ec2 => .bind (h.frame.keepsQuery _ _).triple fun r =>
    .bind (Keeps.each (fun is => ?_) _).triple fun _ => h.storeInstanceId hc ha hid
  cases is with
  | nil => exact .throw _
  | cons i is =>
    refine .bind (h.frame.keepsQuery _ _) fun r => ?_
    exact .modify fun _ hw => hw

/-- The id of a new instance is permitted. -/
theorem launchInstance {a : Aws} (ha : Holds W c a) (hid : ∀ id, isResourceName id = true → Permit c "instanceid" id) :
    Keeps (Kept W) a.launchInstance := by
  refine bindHolds (K := fun r => Holds W c r.2 ∧ isResourceName r.1 = true) ?_ fun r hr => ?_
  · exact (h.frame.createInstance a).conseq (fun _ h => h) (fun r _ h => ⟨h.1, ha.same h.2.1, h.2.2.1⟩) fun _ _ h => h
  refine bindHolds (h.storeInstanceId hc hr.1 (hid _ hr.2)) fun b hb => ?_
  refine bindOfConfig (K := fun x => W x.2.config) (fun _ hx => ?_) fun x hx => ?_
  · rw [hb.2] at hx
    exact h.loadAws hc hb.1 hx
  refine bindHolds (h.storeInstanceId hc (a := { b with config := x.2, awsConfig := _ }) ⟨hx, hb.2⟩ (hid _ hr.2))
    fun d _ => ?_
  exact .bind (Frame.getAttr _ _) fun _ => .bind (h.frame.keepsQuery _ _) fun _ => .pure _

/-! ## Tasks -/

theorem loginAndTerminate (hid : Permit c "instanceid" []) : Keeps (Kept W) (RunTask.loginAndTerminate c) :=
  bindHolds (h.awsInit hc) fun _ ha => bindHolds (h.login ha) fun _ hb =>
    bindHolds (h.terminateInstance hc hb hid) fun _ _ => .pure _

theorem launch (hid : ∀ id, isResourceName id = true → Permit c "instanceid" id) : Keeps (Kept W) (RunTask.launch c) :=
  bindHolds (h.awsInit hc) fun _ ha => bindHolds (h.login ha) fun _ hb => .bind (h.launchInstance hc hb hid) fun d =>
    .bind (h.frame.getInstanceAddress d) fun _ => .pure _

theorem getNewIp {a : Aws} (ha : Holds W c a) (hid : ∀ id, IsInstanceId id → Permit c "instanceid" id) :
    Keeps (Kept W) a.getNewIp := by
  refine Frame.wrapping _ (.ite ?_ ?_)
  · exact .bind (h.frame.getInstanceAddress a) fun _ => .bind (h.frame.disassociateAndReleaseIp a) fun _ =>
      .bind (h.frame.allocateAndAssociateIp a) fun _ => .bind (h.frame.getInstanceAddress a) fun _ => .pure _
  · exact bindHolds (h.terminateInstance hc ha (hid _ (.inl rfl))) fun b hb =>
      .bind (h.launchInstance hc hb fun id h => hid id (.inr h)) fun d =>
        .bind (h.frame.getInstanceAddress d) fun _ => .pure _

omit hc

/-- **What every task keeps** that writes what is permitted. -/
theorem perform {args : TaskArgs} (hc : args.configName ∈ names) (hp : Permitted Permit args) :
    Keeps (Kept W) (RunTask.perform args) := by
  refine bindHolds (K := fun t : RunTask => W t.config.config) (.bind h.build fun l => .pure fun _ hw => hw)
    fun t ht => ?_
  unfold RunTask.run
  cases htype : args.taskType with
  | changeIp =>
    have hid : ∀ id, IsInstanceId id → Permit args.configName "instanceid" id := fun id hid =>
      hp _ _ (by rw [Writes, htype]; exact ⟨rfl, hid⟩)
    refine OpenFrame.attempt (bindHolds (h.awsInit hc) fun a ha => bindHolds (h.login ha) fun b hb => ?_)
    exact .bind h.frame.build fun _ => .bind (h.getNewIp hc hb hid) fun _ =>
      .bind (h.frame.serve _ _ _ _ _ _) fun _ => .pure _
  | changeRegion =>
    have hid : ∀ id, IsInstanceId id → Permit args.configName "instanceid" id := fun id hid =>
      hp _ _ (by rw [Writes, htype]; exact .inl ⟨rfl, hid⟩)
    have hregion : ∀ v, args.newRegion = some v → Permit args.configName "region" v := fun v hv =>
      hp _ _ (by rw [Writes, htype]; exact .inr ⟨rfl, hv⟩)
    refine OpenFrame.attempt (.bind h.frame.build fun _ => ?_)
    cases hnew : args.newRegion with
    | none => exact .pure _
    | some v =>
      refine .bind (Frame.ofConfig _) fun r =>
        .ite (.pure _) (.bind (h.loginAndTerminate hc (hid _ (.inl rfl))) fun _ => ?_)
      refine .bind (h.changeRegion hc ht fun u hu => ?_) fun _ =>
        .bind (h.launch hc fun id h => hid id (.inr h)) fun _ =>
        .bind (h.frame.serve _ _ _ _ _ _) fun _ => .pure _
      exact hregion u (hnew.trans hu)
  | changeWhitelist =>
    refine OpenFrame.attempt (bindHolds h.build fun l hl => bindOfConfig (K := fun l' => W l'.config) ?_
      fun l' hl' => ?_)
    · intro l' hset
      refine h.setValue hc hl (fun u hu => hp _ _ ?_) hset
      rw [Writes, htype]
      exact ⟨rfl, hu⟩
    · exact .bind (h.keepsWriteChanges hc hl') fun _ => .bind (h.frame.firewallInit _) fun fw =>
        .bind (h.frame.deleteRules fw) fun _ => .bind (h.frame.applyWhitelist fw) fun _ => .pure _
  | reset =>
    have hvalues : ∀ e ∈ RunTask.resetValues, optionxform e.1 = e.1 := by decide
    have hpermit : ∀ e ∈ RunTask.resetValues, Permit args.configName e.1 e.2 := fun e he =>
      hp _ _ (by rw [Writes, htype]; exact he)
    have hempty : (("instanceid".toList, []) : Str × Str) ∈ RunTask.resetValues := by decide
    refine OpenFrame.attempt (.bind (h.loginAndTerminate hc (hpermit _ hempty)) fun _ =>
      bindHolds h.build fun l hl => ?_)
    refine bindOfConfig (K := fun l' => W l'.config) (fun l' hset => ?_) fun l' hl' =>
      .bind (h.keepsWriteChanges hc hl') fun _ => .pure _
    exact h.setValues hc _ hl (fun e he => by rw [hvalues e he]; exact hpermit e he) hset
  | changeAuth =>
    refine OpenFrame.attempt (.bind (h.frame.awsInit _) fun _ => bindHolds h.build fun l hl => ?_)
    refine bindOfConfig (K := fun l' => W l'.config) (fun l' hset => ?_) fun l₁ hl₁ =>
      bindOfConfig (K := fun l' => W l'.config) (fun l' hset => ?_) fun l₂ hl₂ => ?_
    · refine h.setValue hc hl (fun u hu => hp _ _ ?_) hset
      rw [Writes, htype]
      exact .inl ⟨rfl, hu⟩
    · refine h.setValue hc hl₁ (fun u hu => hp _ _ ?_) hset
      rw [Writes, htype]
      exact .inr ⟨rfl, hu⟩
    · refine .bind (h.keepsWriteChanges hc hl₂) fun _ => .bind (h.frame.generate3proxyConfig _ _) fun _ => ?_
      refine .bind (h.frame.generateShadowsocksConfig _ _) fun _ => .bind (h.frame.serviceInit _) fun _ => ?_
      refine .bind (h.frame.callOnly _) fun _ => .bind (Frame.int _) fun _ => .bind (h.frame.callOnly _) fun _ => ?_
      exact .bind (h.frame.wait _ _ _) fun _ => .pure _

end Discipline
end Iprotate
