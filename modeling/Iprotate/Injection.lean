import Iprotate.Base.Run
import Iprotate.Frame

/-!
# One profile's tasks and the other sections

Tasks of one profile write user strings into the file all profiles share. `Held` is what the file and every loader
keep: all sections but the profile's own as they were at the start, and nothing in the profile's own section that a
reader could take for something else.

- Storing an option and copying the section into the file keep it (`Held.put`, `Held.merge`), and so do a write and a
  read (`Held.norm`).
- So after any sequence of `change_auth`, `change_whitelist` and `change_region` on the profile, with any outcome, the
  file parses and every other section is untouched, if no argument holds a carriage return (`others_untouched`).
- A whitelist with a carriage return adds a section (`carriage_return_adds_section`).
-/

namespace Iprotate
namespace Injection

open ConfigParser Loader ConfigLoader Py Prog

/-! ## The file at the start -/

/-- Every profile section carries the options that have a default, and its number as `order`. -/
structure Profiles (p₀ : ConfigParser) (A : Str) : Prop where
  profile : A ∈ profileNames p₀
  complete : ∀ s ∈ profileNames p₀, ∀ e ∈ awsDefaults, (p₀.raw s e.1).isSome = true
  numbered : ∀ i s, (profileNames p₀)[i]? = some s → p₀.raw s "order" = some (toString (i + 1)).toList

/-- The file was read. -/
structure Start (p₀ : ConfigParser) (A : Str) : Prop extends Profiles p₀ A where
  normal : Normal p₀

/-- No option whose name begins with a bracket refers to another one. -/
def BracketsPlain (p : ConfigParser) (A : Str) : Prop :=
  ∀ k v, k.head? = some '[' → p.look A k = some v → '%' ∉ v

/-- All sections but `A` are as they were. -/
structure Untouched (p₀ : ConfigParser) (A : Str) (p : ConfigParser) : Prop where
  names : p.sectionNames = p₀.sectionNames
  defaults : p.defaults = p₀.defaults
  others : ∀ s, s ≠ A → p.sections.get? s = p₀.sections.get? s

/-- What the file and the loaders keep. -/
structure Held (p₀ : ConfigParser) (A : Str) (p : ConfigParser) : Prop extends Untouched p₀ A p where
  writable : Writable p
  complete : ∀ e ∈ awsDefaults, (p.raw A e.1).isSome = true
  order : p.raw A "order" = p₀.raw A "order"
  bracket : BracketsPlain p A

variable {p₀ p p' mem : ConfigParser} {A : Str}

namespace Start

theorem ordinary (h : Start p₀ A) : Ordinary A := ordinary_of_normal h.normal (mem_profileNames.1 h.profile).1

theorem held (h : Start p₀ A) (hb : BracketsPlain p₀ A) : Held p₀ A p₀ :=
  ⟨⟨rfl, rfl, fun _ _ => rfl⟩, h.normal.writable, h.complete A h.profile, rfl, hb⟩

/-- The number of the profile is in its section, and holds no percent sign. -/
theorem order (h : Start p₀ A) : ∃ n : Nat, p₀.raw A "order" = some (toString n).toList := by
  obtain ⟨i, hi⟩ := List.getElem?_of_mem h.profile
  exact ⟨i + 1, h.numbered i A hi⟩

end Start

theorem not_percent_of_digits (n : Nat) : '%' ∉ (toString n).toList := fun h => by
  have := mem_toString h
  revert this
  decide

namespace Held

theorem mem_sectionNames (h : Held p₀ A p) (h₀ : Start p₀ A) : A ∈ p.sectionNames :=
  h.names ▸ (mem_profileNames.1 h₀.profile).1

/-- An entry that can be written may be stored, if it is not another number or a bracket with a percent sign. -/
theorem put (h : Held p₀ A p) (h₀ : Start p₀ A) {k v : Str} (he : EntryOk k v)
    (ho : k = "order".toList → p₀.raw A "order" = some v) (hb : k.head? = some '[' → '%' ∉ v) :
    Held p₀ A (p.put A k v) := by
  have hm := h.mem_sectionNames h₀
  have hraw := raw_put hm A k
  refine ⟨⟨by rw [sectionNames_put, h.names], h.defaults, fun s hs => ?_⟩, h.writable.put A he, fun e hmem => ?_, ?_,
    fun k' v' hk' hl => ?_⟩
  · rw [sections_put_ne hs.symm, h.others s hs]
  · rw [hraw]
    split
    · rfl
    · exact h.complete e hmem
  · rw [hraw]
    split
    · rename_i hk
      exact (ho hk.2).symm
    · exact h.order
  · unfold look at hl
    rw [hraw] at hl
    split at hl
    · rename_i hk
      cases hl
      exact hb (hk.2 ▸ hk')
    · exact h.bracket k' v' hk' hl

/-- Storing a user string that holds no carriage return. -/
theorem putValue (h : Held p₀ A p) (h₀ : Start p₀ A) {k v : Str} (hk : KeyOk k) (hb : k.head? ≠ some '[')
    (ho : k ≠ "order".toList) (hv : '\r' ∉ v) : Held p₀ A (p.put A k v) :=
  h.put h₀ (.of_head hk hb hv) (fun he => absurd he ho) fun he => absurd he hb

/-- What a reader finds under an option of the profile may be stored there. -/
theorem putGet (h : Held p₀ A p) (h₀ : Start p₀ A) (hmem : Held p₀ A mem) {key v : Str} (hkey : key ∈ mem.options A)
    (hget : mem.get A key = .ok v) : Held p₀ A (p.put A (optionxform key) v) := by
  have hlow := hmem.writable.optionxform_of_mem hkey
  obtain ⟨_, raw, hl, _⟩ := get_eq_ok.1 hget
  have hplain : '%' ∉ raw → v = raw := fun hp => eq_of_get_plain hl hp hget
  rw [hlow] at hl ⊢
  have hraw := hmem.writable.entryOk hl
  refine h.put h₀ ⟨hraw.key, hmem.writable.not_mem_get hget, fun t ht => ?_⟩ (fun he => ?_) fun hb => ?_
  · rw [hplain (hmem.bracket key raw (by simp [ht]) hl)]
    exact hraw.header t ht
  · obtain ⟨n, hn⟩ := h₀.order
    rw [he, look_of_raw (hmem.order.trans hn)] at hl
    cases hl
    rw [hplain (not_percent_of_digits n), hn]
  · have hp := hmem.bracket key raw hb hl
    rw [hplain hp]
    exact hp

/-- Copying the section of a loader into the file. -/
theorem merge (h : Held p₀ A p) (h₀ : Start p₀ A) (hmem : Held p₀ A mem) (hm : mergeSection mem p A = .ok p') :
    Held p₀ A p' := by
  have hbase : mergeBase p A = p := by
    rw [mergeBase, if_pos ((contains_iff h₀.ordinary p).2 (h.mem_sectionNames h₀))]
  rw [mergeSection_eq h₀.ordinary, if_pos (hmem.mem_sectionNames h₀), hbase] at hm
  exact copyOptions_keeps h₀.ordinary hm h fun q key v hkey hget hq => hq.putGet h₀ hmem hkey hget

/-- A write and a read. -/
theorem norm (h : Held p₀ A p) (h₀ : Start p₀ A) : Held p₀ A p.norm := by
  have hfixed := h₀.normal.fixed
  refine ⟨⟨by rw [sectionNames_norm, h.names], ?_, fun s hs => ?_⟩, h.writable.normal_norm.writable, fun e he => ?_, ?_,
    fun k v hk hl hp => ?_⟩
  · conv_rhs => rw [← hfixed]
    exact congrArg (Dict.mapVal normValue) h.defaults
  · conv_rhs => rw [← hfixed]
    rw [sections_norm, sections_norm, h.others s hs]
  · rw [raw_norm, Option.isSome_map]
    exact h.complete e he
  · conv_rhs => rw [← hfixed]
    rw [raw_norm, raw_norm, h.order]
  · rw [look_norm] at hl
    obtain ⟨u, hu, rfl⟩ := Option.map_eq_some_iff.1 hl
    rcases mem_normValue hp with hc | hc
    · exact absurd hc (by decide)
    · exact h.bracket k u hk hu hc

theorem profileNames (h : Held p₀ A p) : profileNames p = Loader.profileNames p₀ := by
  rw [Loader.profileNames, h.names, ← Loader.profileNames]

end Held

/-! ## Loaders -/

/-- The property of a file that was read. -/
def File (p₀ : ConfigParser) (A : Str) (p : ConfigParser) : Prop := Held p₀ A p ∧ Normal p

/-- A construction finds nothing to number and nothing to add. -/
theorem settled (h₀ : Start p₀ A) : Settled (File p₀ A) where
  normal _ h := h.2
  order p i s hi h := by
    have hraw : p.raw s "order" = some (toString (i + 1)).toList := by
      have hi' := hi
      rw [h.1.profileNames] at hi'
      rw [← h₀.numbered i s hi']
      by_cases hs : s = A
      · rw [hs, h.1.order]
      · exact raw_of_sections (h.1.others s hs) _
    rw [put_eq_self hraw]
    exact h
  default p s e he hs hopt h := by
    have hsome : (p.raw s e.1).isSome = true := by
      by_cases hsA : s = A
      · rw [hsA]
        exact h.1.complete e he
      · rw [raw_of_sections (h.1.others s hsA)]
        exact h₀.complete s (h.1.profileNames ▸ hs) e he
    obtain ⟨v, hv⟩ := Option.isSome_iff_exists.1 hsome
    have hord := ordinary_of_normal h.2 (mem_profileNames.1 hs).1
    rw [hasOption, if_neg (not_or.2 ⟨hord.1, hord.2⟩), if_pos (mem_profileNames.1 hs).1, optionxform_awsDefaults e he,
      look_of_raw hv] at hopt
    cases hopt

/-- The option names that tasks set. -/
def taskOptions : List Str := ["user", "pass", "whitelist", "region", "instanceid", "instanceId"]

theorem taskOptions_ok : ∀ k ∈ taskOptions, KeyOk (optionxform k) ∧ (optionxform k).head? ≠ some '[' ∧
    optionxform k ≠ "order".toList := by decide

variable {l l' : ConfigLoader}

theorem setValue_held (h₀ : Start p₀ A) (h : Held p₀ A l.config) {k : Str} (hk : k ∈ taskOptions) {v : Option Str}
    (hv : ∀ u, v = some u → '\r' ∉ u) (hset : l.setValue A k v = .ok l') : Held p₀ A l'.config := by
  cases v with
  | none => cases hset
  | some u =>
    obtain ⟨q, hq, hret⟩ := except_bind_eq_ok.1 hset
    cases hret
    obtain ⟨_, _, rfl⟩ := (set_eq_ok h₀.ordinary).1 hq
    obtain ⟨hkey, hb, ho⟩ := taskOptions_ok k hk
    exact h.putValue h₀ hkey hb ho (hv u rfl)

/-- A profile that carries all options is loaded without a change. -/
theorem loadAws_held (h₀ : Start p₀ A) (h : Held p₀ A l.config) {aws : AwsConfig} (hl : l.loadAws A = .ok (aws, l')) :
    Held p₀ A l'.config := by
  obtain ⟨⟨aws', q⟩, hq, hret⟩ := except_bind_eq_ok.1 hl
  cases hret
  refine setDefaults_keeps (P := Held p₀ A) (loadAwsConfig_eq_ok.1 hq).1 h ?_
  intro q q' e he _ hset hq
  obtain ⟨_, _, rfl⟩ := (set_eq_ok h₀.ordinary).1 hset
  have hok : ∀ e ∈ awsDefaults, KeyOk (optionxform e.1) ∧ (optionxform e.1).head? ≠ some '[' ∧
      optionxform e.1 ≠ "order".toList ∧ '\r' ∉ e.2 := by decide
  obtain ⟨hkey, hb, ho, hr⟩ := hok e he
  exact hq.putValue h₀ hkey hb ho hr

/-! ## Tasks -/

/-- The property of the world. -/
def Kept (p₀ : ConfigParser) (A : Str) (w : World) : Prop := FileIs (File p₀ A) w.config

theorem build_held (h₀ : Start p₀ A) : Triple (Kept p₀ A) (onConfig ConfigLoader.build)
    (fun l w => Kept p₀ A w ∧ Held p₀ A l.config) (fun _ => Kept p₀ A) :=
  (triple_onConfig (build_spec (settled h₀))).conseq (fun _ h => h) (fun _ _ h => ⟨h.1, h.2.1⟩) fun _ _ h => h

theorem frame (h₀ : Start p₀ A) : Frame (Kept p₀ A) :=
  .of_config (.of_triple (build_spec (settled h₀)) (fun _ _ h => h.1) fun _ _ h => h)

/-- `write_changes` of a loader. -/
theorem writeChanges_file (h₀ : Start p₀ A) (h : Held p₀ A l.config) :
    Keeps (FileIs (File p₀ A)) (l.writeChanges A) := by
  refine .of_triple (writeChanges_spec (J := File p₀ A) fun p p' hp hm => ?_) (fun _ _ h => h) fun _ _ h => h
  have hheld := hp.1.merge h₀ h hm
  exact ⟨hheld.writable, hheld.norm h₀, hheld.writable.normal_norm⟩

theorem keeps_writeChanges (h₀ : Start p₀ A) (h : Held p₀ A l.config) :
    Keeps (Kept p₀ A) (onConfig (l.writeChanges A)) :=
  .of_triple (triple_onConfig (writeChanges_file h₀ h).triple) (fun _ _ h => h) fun _ _ h => h

/-- An `Aws` object of the profile. -/
def AwsHeld (p₀ : ConfigParser) (A : Str) (a : Aws) : Prop := Held p₀ A a.config.config ∧ a.configName = A

theorem awsInit (h₀ : Start p₀ A) : Triple (Kept p₀ A) (Aws.init A) (fun a w => Kept p₀ A w ∧ AwsHeld p₀ A a)
    (fun _ => Kept p₀ A) := by
  refine .bind (build_held h₀) fun l => ?_
  rintro w ⟨hw, hl⟩
  refine (Triple.bind (triple_ofConfig (P := Kept p₀ A) (l.loadAws A)) fun r => ?_) w hw
  rintro w ⟨hw, hr⟩
  exact ⟨hw, loadAws_held h₀ hl hr, rfl⟩

theorem AwsHeld.same {a b : Aws} (h : AwsHeld p₀ A a) (hs : a.Same b) : AwsHeld p₀ A b :=
  ⟨hs.config ▸ h.1, hs.configName.trans h.2⟩

theorem login (h₀ : Start p₀ A) {a : Aws} (h : AwsHeld p₀ A a) :
    Triple (Kept p₀ A) a.login (fun b w => Kept p₀ A w ∧ AwsHeld p₀ A b) (fun _ => Kept p₀ A) :=
  ((frame h₀).login a).conseq (fun _ h => h)
    (fun _ _ hb => ⟨hb.1, hb.2.config ▸ h.1, hb.2.configName.trans h.2⟩) fun _ _ h => h

/-- The account does not matter. -/
theorem keeps_ec2Change (h₀ : Start p₀ A) (client : Client) (op : AwsOp) (f : Region → Option Region) :
    Keeps (Kept p₀ A) (Ec2.change client op f) := by
  refine .bind ((frame h₀).keepsQuery client op) fun r => ?_
  cases f r with
  | none => exact .throw _
  | some r' => exact .modify fun _ hw => hw

theorem storeInstanceId (h₀ : Start p₀ A) {a : Aws} (h : AwsHeld p₀ A a) {id : Str} (hid : '\r' ∉ id) :
    Triple (Kept p₀ A) (a.storeInstanceId id) (fun b w => Kept p₀ A w ∧ AwsHeld p₀ A b) (fun _ => Kept p₀ A) := by
  rw [Aws.storeInstanceId, h.2]
  refine .bind (triple_ofConfig _) fun l => ?_
  rintro w ⟨hw, hl⟩
  have hheld := setValue_held h₀ h.1 (by decide) (fun u hu => Option.some.inj hu ▸ hid) hl
  exact (Triple.bind (keeps_writeChanges h₀ hheld).triple fun _ => .pure fun w hw => ⟨hw, hheld, rfl⟩) w hw

/-- Continue with a value that has a property. -/
theorem bindHeld {α β : Type} {m : Py α} {f : α → Py β} {K : α → Prop}
    (hm : Triple (Kept p₀ A) m (fun a w => Kept p₀ A w ∧ K a) (fun _ => Kept p₀ A))
    (hf : ∀ a, K a → Keeps (Kept p₀ A) (f a)) : Keeps (Kept p₀ A) (m >>= f) := by
  refine .of_triple (Q := fun _ => Kept p₀ A) (E := fun _ => Kept p₀ A) (.bind hm fun a => ?_) (fun _ _ h => h)
    fun _ _ h => h
  rintro w ⟨hw, ha⟩
  exact (hf a ha).triple w hw

theorem terminateInstance (h₀ : Start p₀ A) {a : Aws} (h : AwsHeld p₀ A a) :
    Keeps (Kept p₀ A) a.terminateInstance := by
  refine .bind (Frame.getAttr _ _) fun ec2 => .bind ((frame h₀).keepsQuery _ _) fun r => .bind ?_ fun _ =>
    .of_triple (storeInstanceId h₀ h (by decide)) (fun _ _ h => h.1) fun _ _ h => h
  refine .each (fun is => ?_) _
  cases is with
  | nil => exact .throw _
  | cons i is => exact keeps_ec2Change h₀ _ _ _

theorem loginAndTerminate (h₀ : Start p₀ A) : Keeps (Kept p₀ A) (RunTask.loginAndTerminate A) :=
  bindHeld (awsInit h₀) fun _ ha => bindHeld (login h₀ ha) fun _ hb => .bind (terminateInstance h₀ hb) fun _ => .pure _

theorem recordInstance (h₀ : Start p₀ A) {a : Aws} (h : AwsHeld p₀ A a) {id : Str} (hid : '\r' ∉ id) :
    Keeps (Kept p₀ A) (a.recordInstance id) := by
  refine bindHeld (storeInstanceId h₀ h hid) fun b hb => ?_
  refine bindHeld (K := fun r => Held p₀ A r.2.config) ?_ fun r hr => ?_
  · rw [hb.2]
    exact (triple_ofConfig _).conseq (fun _ h => h) (fun _ _ h => ⟨h.1, loadAws_held h₀ hb.1 h.2⟩) fun _ _ h => h
  · exact bindHeld (storeInstanceId h₀ (a := { b with config := r.2, awsConfig := _ }) ⟨hr, hb.2⟩ hid) fun c _ =>
      .bind (Frame.getAttr _ _) fun _ => .bind ((frame h₀).keepsQuery _ _) fun _ => .pure _

theorem launch (h₀ : Start p₀ A) : Keeps (Kept p₀ A) (RunTask.launch A) := by
  refine bindHeld (awsInit h₀) fun a ha => bindHeld (login h₀ ha) fun b hb => .bind ?_ fun c => .bind
    ((frame h₀).getInstanceAddress c) fun _ => .pure _
  refine bindHeld (K := fun r => AwsHeld p₀ A r.2 ∧ isResourceName r.1 = true) ?_ fun r hr => ?_
  · exact ((frame h₀).createInstance b).conseq (fun _ h => h) (fun r _ h => ⟨h.1, hb.same h.2.1, h.2.2.1⟩)
      fun _ _ h => h
  · refine recordInstance h₀ hr.1 fun hm => ?_
    rcases mem_isResourceName hr.2 hm with hc | hc <;> revert hc <;> decide

/-- The loader that a task is built with. -/
theorem taskInit (h₀ : Start p₀ A) : Triple (Kept p₀ A) RunTask.init
    (fun t w => Kept p₀ A w ∧ Held p₀ A t.config.config) (fun _ => Kept p₀ A) :=
  .bind (build_held h₀) fun _ => .pure fun _ h => h

theorem changeRegion_loader (h₀ : Start p₀ A) (h : Held p₀ A l.config) {v : Str} (hv : '\r' ∉ v) :
    Keeps (Kept p₀ A) (onConfig (l.changeRegion A (some v))) := by
  have hspec : Triple (FileIs (File p₀ A)) (l.changeRegion A (some v)) (fun _ => FileIs (File p₀ A))
      (fun _ => FileIs (File p₀ A)) := by
    refine .bind (Q := fun r t => FileIs (File p₀ A) t ∧ Held p₀ A r.2.config)
      (.ofExcept (fun r _ hr ht => ⟨ht, loadAws_held h₀ h hr⟩) fun _ _ _ ht => ht) fun r => ?_
    rintro t ⟨ht, hr⟩
    refine (Triple.bind (Q := fun (l' : ConfigLoader) t => FileIs (File p₀ A) t ∧ Held p₀ A l'.config) (.ofExcept
      (fun l' _ hl' ht => ⟨ht, setValue_held h₀ hr (by decide) (fun u hu => Option.some.inj hu ▸ hv) hl'⟩)
      fun _ _ _ ht => ht) fun l' => ?_) t ht
    rintro t ⟨ht, hl'⟩
    exact ((writeChanges_file h₀ hl').bind fun _ => .pure l').triple t ht
  exact .of_triple (triple_onConfig hspec) (fun _ _ h => h) fun _ _ h => h

/-! ## The three tasks -/

theorem attempt {m : Py TaskResult} (hm : Keeps (Kept p₀ A) m) : Keeps (Kept p₀ A) (RunTask.attempt m) :=
  .tryCatch hm fun _ => .pure _

/-- `moveRegion` after the terminated instance: the region is stored, and the profile moves there. -/
theorem moveRegion (h₀ : Start p₀ A) {t : RunTask} (ht : Held p₀ A t.config.config) (config : ConfigLoader)
    (oldRegion : Str) {newRegion : Str} (hv : '\r' ∉ newRegion) :
    Keeps (Kept p₀ A) (t.moveRegion config A oldRegion newRegion) :=
  .bind (loginAndTerminate h₀) fun _ => .bind (changeRegion_loader h₀ ht hv) fun _ => .bind (launch h₀) fun _ =>
    .bind ((frame h₀).serve _ _ _ _ _ _) fun _ => .pure _

theorem changeRegion (h₀ : Start p₀ A) {t : RunTask} (ht : Held p₀ A t.config.config) {v : Option Str}
    (hv : ∀ u, v = some u → '\r' ∉ u) : Keeps (Kept p₀ A) (t.changeRegion A v) := by
  refine attempt (.bind (frame h₀).build fun config => ?_)
  cases v with
  | none => exact .pure _
  | some u => exact .bind (Frame.ofConfig _) fun _ => .ite (.pure _) (moveRegion h₀ ht _ _ (hv u rfl))

/-- Store an option of the profile and go on. -/
theorem storing (h₀ : Start p₀ A) (h : Held p₀ A l.config) {k : Str} (hk : k ∈ taskOptions) {v : Option Str}
    (hv : ∀ u, v = some u → '\r' ∉ u) {α : Type} {f : ConfigLoader → Py α}
    (hf : ∀ l', Held p₀ A l'.config → Keeps (Kept p₀ A) (f l')) :
    Keeps (Kept p₀ A) (Py.ofConfig (l.setValue A k v) >>= f) :=
  bindHeld (K := fun l' => Held p₀ A l'.config)
    ((triple_ofConfig _).conseq (fun _ h => h) (fun _ _ hl => ⟨hl.1, setValue_held h₀ h hk hv hl.2⟩) fun _ _ h => h) hf

theorem changeWhitelist (h₀ : Start p₀ A) {v : Option Str} (hv : ∀ u, v = some u → '\r' ∉ u) :
    Keeps (Kept p₀ A) (RunTask.changeWhitelist A v) := by
  refine attempt (bindHeld (build_held h₀) fun l hl => storing h₀ hl (by decide) hv fun l' hl' => ?_)
  exact .bind (keeps_writeChanges h₀ hl') fun _ => .bind ((frame h₀).firewallInit _) fun fw =>
    .bind ((frame h₀).deleteRules fw) fun _ => .bind ((frame h₀).applyWhitelist fw) fun _ => .pure _

theorem changeAuth (h₀ : Start p₀ A) {user pass : Option Str} (hu : ∀ u, user = some u → '\r' ∉ u)
    (hp : ∀ u, pass = some u → '\r' ∉ u) : Keeps (Kept p₀ A) (RunTask.changeAuth A user pass) := by
  refine attempt (.bind ((frame h₀).awsInit _) fun aws => bindHeld (build_held h₀) fun l hl => ?_)
  refine storing h₀ hl (by decide) hu fun l' hl' => storing h₀ hl' (by decide) hp fun l'' hl'' => ?_
  refine .bind (keeps_writeChanges h₀ hl'') fun _ => .bind ((frame h₀).generate3proxyConfig _ _) fun _ => ?_
  refine .bind ((frame h₀).generateShadowsocksConfig _ _) fun _ => .bind ((frame h₀).serviceInit _) fun _ => ?_
  refine .bind ((frame h₀).callOnly _) fun _ => .bind (Frame.int _) fun _ => .bind ((frame h₀).callOnly _) fun _ => ?_
  exact .bind ((frame h₀).wait _ _ _) fun _ => .pure _

/-! ## Sequences of tasks -/

/-- A task of the profile that stores its arguments, none of which holds a carriage return. -/
structure Plain (A : Str) (args : TaskArgs) : Prop where
  name : args.configName = A
  kind : args.taskType = .changeAuth ∨ args.taskType = .changeWhitelist ∨ args.taskType = .changeRegion
  region : ∀ u, args.newRegion = some u → '\r' ∉ u
  whitelist : ∀ u, args.newWhitelist = some u → '\r' ∉ u
  user : ∀ u, args.newUser = some u → '\r' ∉ u
  pass : ∀ u, args.newPass = some u → '\r' ∉ u

/-- One task. -/
theorem perform (h₀ : Start p₀ A) {args : TaskArgs} (h : Plain A args) :
    Keeps (Kept p₀ A) (RunTask.perform args) := by
  refine bindHeld (taskInit h₀) fun t ht => ?_
  unfold RunTask.run
  rw [h.name]
  rcases h.kind with hk | hk | hk <;> rw [hk]
  · exact changeAuth h₀ h.user h.pass
  · exact changeWhitelist h₀ h.whitelist
  · exact changeRegion h₀ ht h.region

/-- **Tasks of one profile leave the other sections alone.** -/
theorem others_untouched {w w' : World} {tasks : List TaskArgs} (hread : read w.config = .ok p₀)
    (hp : Profiles p₀ A) (hb : BracketsPlain p₀ A) (ht : ∀ args ∈ tasks, Plain A args)
    (he : exec RunTask.step w tasks = some w') : ∃ p, read w'.config = .ok p ∧ Untouched p₀ A p := by
  have h₀ : Start p₀ A := ⟨hp, read_normal hread⟩
  have hstep : ∀ w args w', Kept p₀ A w → Plain A args → RunTask.step w args = some w' → Kept p₀ A w' := by
    intro w args w' hw hargs hs
    cases hs
    exact perform h₀ hargs w hw
  obtain ⟨p, hp', hheld, _⟩ := exec_invariant hstep he (.of_forall ht) ⟨p₀, hread, h₀.held hb, h₀.normal⟩
  exact ⟨p, hp', hheld.toUntouched⟩

/-! ## The example file -/

theorem profiles_exampleConfig : Profiles exampleConfig "aws1" where
  profile := by decide
  complete := by decide
  numbered i s h := by
    match i, h with
    | 0, h => cases h; rfl
    | i + 1, h => cases h

/-- The same with a second profile. -/
theorem profiles_pairConfig : Profiles pairConfig "aws1" where
  profile := by decide
  complete := by decide
  numbered i s h := by
    match i, h with
    | 0, h => cases h; rfl
    | 1, h => cases h; rfl
    | i + 2, h => cases h

/-- A whitelist for the first profile. -/
def whitelistTask (text : Str) : TaskArgs := ⟨.changeWhitelist, "aws1", none, some text, none, none⟩

theorem others_untouched_example :
    ∃ p, read (RunTask.perform (whitelistTask "10.0.0.1") pairWorld).2.config = .ok p ∧
      Untouched pairConfig "aws1" p := by
  have hbrackets : BracketsPlain pairConfig "aws1" := by
    intro k v hk hl
    have hnames : ∀ k ∈ pairConfig.options "aws1", k.head? ≠ some '[' := by decide
    exact absurd hk (hnames k (mem_options_of_look hl))
  have hplain : ∀ args ∈ [whitelistTask "10.0.0.1"], Plain "aws1" args := by
    intro args hargs
    rw [List.mem_singleton.1 hargs]
    exact ⟨rfl, .inr (.inl rfl), by simp [whitelistTask], by simp [whitelistTask], by simp [whitelistTask],
      by simp [whitelistTask]⟩
  exact others_untouched (w := pairWorld) build_pair.1 profiles_pairConfig hbrackets hplain rfl

/-- A whitelist with a carriage return adds a section. -/
theorem carriage_return_adds_section : ¬∀ (p₀ : ConfigParser) (A : Str) (w w' : World) (tasks : List TaskArgs),
    read w.config = .ok p₀ → Profiles p₀ A →
    (∀ args ∈ tasks, args.configName = A ∧ (args.taskType = .changeAuth ∨ args.taskType = .changeWhitelist ∨
      args.taskType = .changeRegion)) →
    exec RunTask.step w tasks = some w' → ∃ p, read w'.config = .ok p ∧ Untouched p₀ A p := by
  intro h
  obtain ⟨p, hp, hu⟩ := h exampleConfig "aws1" exampleWorld _ [whitelistTask "\r[evil]"] read_exampleWorld
    profiles_exampleConfig (by simp [whitelistTask]) rfl
  have hnames : ((read (RunTask.perform (whitelistTask "\r[evil]") exampleWorld).2.config).toOption.map
      sectionNames) = some (["api", "aws1", "evil"] : List Str) := by
    simp (disch := exact rfl) only [exampleWorld, World.start, exampleConfig, toList_of_eq]
    decide +kernel
  rw [hp] at hnames
  have := hu.names.symm.trans (Option.some.inj hnames)
  exact absurd this (by decide)

end Injection
end Iprotate
