import Iprotate.NetworkCard
import Iprotate.Numbering
import Iprotate.SameCredentials
import Iprotate.Scripts
import Iprotate.SoleInstance

/-!
# What a success means

`change_ip` and `change_region` report `success` with a new address. That this is true takes all parts together: the
account, the file, both ends of the tunnel and the services.

- In a list of calls that did not raise, the order is what counts (`Made`). Once the address is known, the files of both
  ends are written before they are copied, and the services are restarted after that (`serve_ok`).
- The two files belong together (`Paired`).
- A launch stores the id of the instance whose address is reported (`launched`), and a rotation leaves the file alone.
- So a success leaves a file that leads to the instance with the reported address, and a tunnel to this address
  (`success_delivers`).
-/

namespace Iprotate
namespace Delivery

open ConfigParser Loader ConfigLoader Py Prog Events Provenance SoleInstance

variable {c ip : Str} {w w' : World} {p q : ConfigParser} {aws : AwsConfig} {l l₁ : ConfigLoader}

/-! ## The two ends -/

/-- These calls were made since, in this order, and did not raise. -/
def Made (base : List (Call × Bool)) (cs : List Call) (w : World) : Prop :=
  ∃ log, w.calls = base ++ log ∧ (cs.map fun d => (d, false)).Sublist log

variable {base : List (Call × Bool)} {cs : List Call}

theorem Made.start (w : World) : Made w.calls [] w := ⟨[], (List.append_nil _).symm, List.Sublist.slnil⟩

/-- More was done before. -/
theorem Made.before (h : Made w.calls cs w') (hw : Made base [] w) : Made base cs w' := by
  obtain ⟨log, hlog, hcs⟩ := h
  obtain ⟨log₀, hlog₀, -⟩ := hw
  exact ⟨log₀ ++ log, by rw [hlog, hlog₀, List.append_assoc], hcs.trans (List.sublist_append_right _ _)⟩

/-- One more call. -/
theorem triple_call (d : Call) :
    Triple (Made base cs) (Py.call d) (fun _ => Made base (cs ++ [d])) (fun _ _ => True) := by
  rintro w ⟨log, hlog, hcs⟩
  obtain ⟨script, ⟨text, hr⟩ | ⟨message, hr⟩⟩ := Ec2.call_cases d w
  · rw [hr]
    refine ⟨log ++ [(d, false)], by rw [World.called_calls, hlog, List.append_assoc], ?_⟩
    rw [List.map_append]
    exact hcs.append (List.Sublist.refl _)
  · rw [hr]
    trivial

/-- What is kept, of a program of which only the return counts. -/
theorem returning {α : Type} {I : World → Prop} {m : Py α} (h : Keeps I m) :
    Triple I m (fun _ => I) (fun _ _ => True) :=
  h.triple.conseq (fun _ h => h) (fun _ _ h => h) fun _ _ _ => trivial

theorem triple_writeFile (path text : Str) :
    Triple (Made base cs) (Py.writeFile path text) (fun _ => Made base (cs ++ [.writeFile path])) (fun _ _ => True) :=
  .bind (triple_call _) fun _ => .modify fun _ hw => hw

/-! ## The instance -/

section loaded

variable (hagain : l.loadAws c = .ok (aws, l))

include hagain

end loaded

variable {a b : Aws} {client : Client}

variable {P : Str → Str → Str → Prop} {names : List Str} {W : ConfigParser → Prop}

/-- What is written of an option is what the file has of it. -/
theorem written_ok (h : Discipline names P W) (hc : c ∈ names) (hl : W l.config) (hw : Discipline.Kept W w) {k v : Str}
    (hraw : l.config.raw c k = some v) (hk : optionxform k = k) (hv : '%' ∉ v)
    (hrun : onConfig (l.writeChanges c) w = (.ok (), w')) :
    ∃ q, ConfigParser.read w'.config = .ok q ∧ q.look c k = some (normValue v) := by
  obtain ⟨p, hread, hp, hn⟩ := hw
  obtain ⟨text, hwrite, rfl⟩ := Py.onConfig_eq_ok.1 hrun
  obtain ⟨p', t, hread', hwrite⟩ := bind_eq_ok.1 hwrite
  have hsame : ConfigParser.read w.config = .ok p' := congrArg Prod.fst hread'
  obtain ⟨q, t', hmerge, hwrite⟩ := bind_eq_ok.1 hwrite
  cases hwrite
  have hm : mergeSection l.config p' c = .ok q := congrArg Prod.fst hmerge
  obtain rfl : p = p' := Except.ok.inj (hread.symm.trans hsame)
  have hq := (h.merge l.config p q c hc hl hp hn hm).1
  have hmerged := Loader.Merged.of_eq (h.ordinary hp hc) hm
  have hlook : l.config.look c k = some v := look_of_raw hraw
  have hmem : k ∈ (l.config.options c).map optionxform := List.mem_map.2 ⟨k, mem_options_of_look hlook, hk⟩
  have hget : l.config.get c k = .ok v := get_plain hmerged.known (by rw [hk, hlook]) hv
  refine ⟨q.norm, read_write hq, ?_⟩
  rw [look_norm, look_of_raw (show q.raw c k = some v by rw [hmerged.raw_self, if_pos hmem, hget]; rfl)]
  rfl

/-- A setting that the file has is what is loaded. -/
theorem get_of_look {text : Str} (h : Fit c text p aws) {k o r a : Str} (hk : optionxform o = k)
    (hne : k ≠ "order".toList) (hlook : p.look c k = some r) (hget : (settled p).get c o = .ok a) : a = r := by
  obtain ⟨i, hi⟩ := List.mem_iff_getElem?.1 h.mem
  have hsettled : (settled p).look c (optionxform o) = some r := by
    rw [hk, look_settled (read_normal h.read) hi, if_neg hne, hlook]
    rfl
  exact eq_of_get_plain hsettled (h.plain c h.mem k r hlook) hget

/-! ## A launch -/

/-- Nothing but an instance id is written. -/
def OnlyId (_ k v : Str) : Prop := k = "instanceid".toList ∧ IsInstanceId v

theorem onlyId {text : Str} (h : Fit c text p aws) : Discipline (profileNames p) OnlyId (Sourced p OnlyId) :=
  discipline (read_normal h.read) fun _ _ _ hv => ⟨hv.1 ▸ by decide, clean_isInstanceId hv.2⟩

/-- Since such writes, the profile has another instance at most. -/
theorem latest {text : Str} (h : Fit c text p aws) (hw : Since OnlyId p w) :
    ∃ q aws', Fit c w.config q aws' ∧ aws'.order = aws.order ∧ aws'.region = aws.region := by
  obtain ⟨q, aws', hfit, hmoved⟩ := h.later hw
  exact ⟨q, aws', hfit, hmoved.order.eq fun v hv => absurd hv.1 (by decide),
    hmoved.region.eq fun v hv => absurd hv.1 (by decide)⟩

/-- The profile has this number in the loader, and was loaded with it. -/
structure Numbered (a : Aws) (c n : Str) : Prop where
  raw : a.config.config.raw c "order" = some n
  plain : '%' ∉ n
  order : a.awsConfig.order = n

theorem Numbered.same {n : Str} (h : Numbered a c n) (hs : b.config = a.config) (ha : b.awsConfig = a.awsConfig) :
    Numbered b c n := ⟨hs ▸ h.raw, h.plain, ha ▸ h.order⟩

/-- The parts of a stored id. -/
theorem store_ok {id : Str} (h : a.storeInstanceId id w = (.ok b, w')) : ∃ l,
    a.config.setValue a.configName "instanceId" (some id) = .ok l ∧ b = { a with config := l } ∧
      onConfig (l.writeChanges a.configName) w = (.ok (), w') := by
  obtain ⟨l, w₁, hset, h⟩ := bind_eq_ok.1 h
  obtain ⟨hset', rfl⟩ := Py.ofConfig_eq_ok.1 hset
  obtain ⟨_, w₂, hwrite, h⟩ := bind_eq_ok.1 h
  cases h
  exact ⟨l, hset', rfl, hwrite⟩

theorem raw_setValue {k v : Str} (h : l.setValue c k (some v) = .ok l₁) :
    (∀ k', optionxform k ≠ k' → l₁.config.raw c k' = l.config.raw c k') ∧
      (Ordinary c → l₁.config.raw c (optionxform k) = some v) := by
  obtain ⟨q, hq, hret⟩ := except_bind_eq_ok.1 h
  cases hret
  refine ⟨fun k' hne => raw_set_ne hq (.inr hne), fun hord => ?_⟩
  obtain ⟨-, hm, rfl⟩ := (set_eq_ok hord).1 hq
  exact raw_put_self hm _ _

theorem Numbered.store {n id : Str} (h : Numbered a c n) (hname : a.configName = c)
    (hrun : a.storeInstanceId id w = (.ok b, w')) : Numbered b c n := by
  obtain ⟨l, hset, rfl, -⟩ := store_ok hrun
  rw [hname] at hset
  exact ⟨((raw_setValue hset).1 _ (by decide)).trans h.raw, h.plain, h.order⟩

/-- A launch keeps the loader, and makes a client and a name. -/
theorem triple_creates {I : World → Prop} (h : MildFrame I) (a : Aws) : Triple I a.createInstance
    (fun x w => I w ∧ a.Same x.2 ∧ x.2.ec2 = some a.client ∧ isResourceName x.1 = true) (fun _ _ => True) := by
  refine h.launching a (fun _ _ => trivial) fun b resource image instanceType keyName hb hec2 _ => ?_
  refine .bind (returning h.keepsNextId) fun n => .bind (returning (h.change _ _ fun r r' hr => ?_)) fun _ =>
    .bind (returning (Frame.getAttr _ _)) fun ec2 => .bind (returning (h.change _ _ fun r r' hr => ?_)) fun _ =>
      .pure fun w hw => ⟨hw, hb, hec2, isResourceName_id n⟩
  · cases hr
    exact Region.mild_launch _ _
  · cases hr
    exact Region.mild_start _ _

section launch

variable {n text : Str} (h : Fit c text p aws) (ha : Discipline.Holds (Sourced p OnlyId) c a) (hn : Numbered a c n)
  (hw : Since OnlyId p w)

include h ha hn hw

/-- The rest of a launch leaves the id in the file. -/
theorem record_ok {id : Str} (hid : isResourceName id = true) (hrun : a.recordInstance id w = (.ok b, w')) :
    Since OnlyId p w' ∧ b.ec2 = a.ec2 ∧ b.awsConfig.order = n ∧ b.awsConfig.instanceId = id ∧
      ∃ q, ConfigParser.read w'.config = .ok q ∧ q.look c "instanceid" = some id := by
  have hpermit : OnlyId c "instanceid" id := ⟨rfl, .inr hid⟩
  obtain ⟨a₁, w₁, hfirst, h₁⟩ := bind_eq_ok.1 hrun
  obtain ⟨hw₁, ha₁⟩ := ((onlyId h).storeInstanceId h.mem ha hpermit).ok hw hfirst
  have hn₁ := hn.store ha.2 hfirst
  obtain ⟨l₁, -, rfl, -⟩ := store_ok hfirst
  obtain ⟨⟨aws₁, l₂⟩, w₂, hloading, h₂⟩ := bind_eq_ok.1 h₁
  obtain ⟨hload, rfl⟩ := Py.ofConfig_eq_ok.1 hloading
  dsimp only at hload
  rw [ha.2] at hload
  have hload' := loadAwsConfig_of_loadAws hload
  have horder : aws₁.order = n := congrArg Prod.snd (Numbering.order_of_loadAwsConfig hn₁.raw hn₁.plain hload')
  obtain ⟨a₂, w₃, hsecond, h₃⟩ := bind_eq_ok.1 h₂
  have ha₂ : Discipline.Holds (Sourced p OnlyId) c
      { a with config := l₂, awsConfig := { aws₁ with instanceId := id } } :=
    ⟨(onlyId h).loadAws h.mem ha₁.1 hload, ha.2⟩
  obtain ⟨hw₃, -⟩ := ((onlyId h).storeInstanceId h.mem ha₂ hpermit).ok hw₁ hsecond
  obtain ⟨l₃, hset, rfl, hwrite⟩ := store_ok hsecond
  obtain ⟨ec2, w₄, hec2, h₄⟩ := bind_eq_ok.1 h₃
  obtain ⟨-, rfl⟩ := Aws.getAttr_eq_ok.1 hec2
  obtain ⟨r, w₅, hquery, h₅⟩ := bind_eq_ok.1 h₄
  obtain ⟨-, script, rfl⟩ := Ec2.query_ok hquery
  cases h₅
  dsimp only at hset
  rw [ha.2] at hset
  have hl₃ : Sourced p OnlyId l₃.config :=
    (onlyId h).setValue h.mem ha₂.1 (fun u hu => Option.some.inj hu ▸ hpermit) hset
  have hraw := (raw_setValue hset).2 ((onlyId h).ordinary ha₁.1 h.mem)
  obtain ⟨q, hq, hlook⟩ :=
    written_ok (onlyId h) h.mem hl₃ hw₁ hraw (by decide) (clean_isInstanceId hpermit.2).1 (ha.2 ▸ hwrite)
  exact ⟨hw₃, rfl, horder, rfl, q, hq, hlook.trans (congrArg some (normValue_isResourceName hid))⟩

/-- **What a launch that returns leaves**: the file has the id of the instance. -/
theorem launched (hrun : a.launchInstance w = (.ok b, w')) : Since OnlyId p w' ∧ b.ec2 = some a.client ∧
    b.awsConfig.order = n ∧ b.awsConfig.instanceId ≠ [] ∧ ∃ q aws', Fit c w'.config q aws' ∧
      aws'.instanceId = b.awsConfig.instanceId ∧ aws'.order = aws.order ∧ aws'.region = aws.region := by
  obtain ⟨⟨id, x⟩, u, hcreate, hrecord⟩ := bind_eq_ok.1 hrun
  obtain ⟨hu, hsame, hec2, hid⟩ := (triple_creates (onlyId h).frame.toMildFrame a).ok hw hcreate
  obtain ⟨hw', hec2', horder, hb, q, hq, hlook⟩ :=
    record_ok h (ha.same hsame) (hn.same hsame.config hsame.awsConfig) hu hid hrecord
  obtain ⟨q', aws', hfit, horder', hregion⟩ := latest h hw'
  obtain rfl : q = q' := Except.ok.inj (hq.symm.trans hfit.read)
  have hread := awsRead_of_readAwsConfig (read_of_loads hfit.loads hfit.read hfit.mem)
  refine ⟨hw', hec2'.trans hec2, horder, hb ▸ ne_nil_of_isResourceName hid, q, aws', hfit, ?_, horder', hregion⟩
  rw [hb]
  exact get_of_look hfit (by decide) (by decide) hlook hread.instanceId

/-! ## The address -/

end launch

/-- What is reported as the new address. -/
def Reports (data : Json PyError) (ip : Str) : Prop :=
  ∃ fields, data = .obj fields ∧ ("new_ip".toList, .str ip) ∈ fields

end Delivery
end Iprotate
