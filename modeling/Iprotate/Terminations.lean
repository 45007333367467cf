import Iprotate.Discipline
import Iprotate.SecurityGroups

/-!
# Terminations

`terminate_instance` goes through all reservations of the region and terminates the first instance of each, whatever
its tags are.

- It terminates what the program launched and nothing else exactly if the first instances of the reservations all have
  the role and none is stored for another profile (`terminates_own_iff`). That no launched instance is left and that the
  stored id is empty holds in any case (`run_terminateInstance`).
- An instance without tags goes down with the others (`foreign_terminated`).
-/

namespace Iprotate
namespace Terminations

open Py Prog Ec2 Aws ConfigParser SecurityGroups

variable {a b : Aws} {client : Client} {w w' : World} {r r' : Region} {id : Str}

/-! ## The stored id -/

/-- A section can be written and read again. That of a parser that was read can, unless an option whose name begins with
a bracket refers to another one. -/
structure Rereads (p : ConfigParser) (name : Str) : Prop where
  writable : Writable p
  bracket : ∀ k v, k.head? = some '[' → p.look name k = some v → '%' ∉ v

/-- The text was written from a parser with this id in the section, and if the loader's section can be read again it
reads so. -/
def HoldsId (p : ConfigParser) (text name id : Str) : Prop :=
  ∃ q, text = ConfigParser.write q ∧ q.raw name "instanceid" = some id ∧
    (Rereads p name → ∃ q', ConfigParser.read text = .ok q' ∧ q'.raw name "instanceid" = some id)

theorem optionxform_instanceId : optionxform "instanceId" = "instanceid".toList := by decide

namespace Rereads

variable {p q : ConfigParser} {name k v : Str}

/-- An option is stored that no bracket begins. -/
theorem put (h : Rereads p name) (hk : KeyOk k) (hb : k.head? ≠ some '[') (hv : '\r' ∉ v) :
    Rereads (p.put name k v) name where
  writable := h.writable.put name (.of_head hk hb hv)
  bracket o u ho hu := by
    by_cases hok : k = o
    · exact absurd (hok ▸ ho) hb
    · rw [look, raw_put_ne (.inr hok), defaults_put] at hu
      exact h.bracket o u ho hu

theorem set (h : Rereads p name) (hname : Ordinary name) (hk : KeyOk (optionxform k))
    (hb : (optionxform k).head? ≠ some '[') (hv : '\r' ∉ v) (hset : p.set name k v = .ok q) : Rereads q name := by
  obtain ⟨-, -, rfl⟩ := (set_eq_ok hname).1 hset
  exact h.put hk hb hv

theorem setDefaults (h : Rereads p name) (hname : Ordinary name) (hset : Loader.setDefaults p name = .ok q) :
    Rereads q name := by
  refine Loader.setDefaults_keeps (P := (Rereads · name)) hset h fun p' q' e he _ hq hp' => ?_
  have hkeys : ∀ e ∈ Loader.awsDefaults, KeyOk (optionxform e.1) ∧ (optionxform e.1).head? ≠ some '[' ∧
      '\r' ∉ e.2 := by decide
  obtain ⟨hk, hb, hv⟩ := hkeys e he
  exact hp'.set hname hk hb hv hq

/-- What it reads can stand under its name. -/
theorem entryOk {r : Str} (h : Rereads p name) (hk : k ∈ p.options name) (hr : p.get name k = .ok r) : EntryOk k r := by
  obtain ⟨u, hu⟩ := exists_look_of_mem_options hk
  have hentry := h.writable.entryOk hu
  by_cases hb : k.head? = some '['
  · rwa [eq_of_get_plain (by rw [h.writable.optionxform_of_mem hk, hu]) (h.bracket k u hb hu) hr]
  · exact .of_head hentry.key hb (h.writable.not_mem_get hr)

end Rereads

/-- What `write_changes` writes of an option of the loader without percent signs. -/
theorem writeChanges_ok {l : ConfigLoader} {name k v text text' : Str} (hname : Ordinary name)
    (hraw : l.config.raw name k = some v) (hk : optionxform k = k) (hv : '%' ∉ v) (hnorm : normValue v = v)
    (h : l.writeChanges name text = (.ok (), text')) : ∃ p, text' = ConfigParser.write p ∧ p.raw name k = some v ∧
      (Rereads l.config name → ∃ p', ConfigParser.read text' = .ok p' ∧ p'.raw name k = some v) := by
  obtain ⟨p, t, hread, h⟩ := bind_eq_ok.1 h
  obtain ⟨q, t', hmerge, h⟩ := bind_eq_ok.1 h
  cases h
  have hm : Loader.mergeSection l.config p name = .ok q := congrArg Prod.fst hmerge
  have hmerged := Loader.Merged.of_eq hname hm
  have hlook : l.config.look name k = some v := look_of_raw hraw
  have hmem : k ∈ (l.config.options name).map optionxform :=
    List.mem_map.2 ⟨k, mem_options_of_look hlook, hk⟩
  have hget : l.config.get name k = .ok v := get_plain hmerged.known (by rw [hk, hlook]) hv
  have hstored : q.raw name k = some v := by
    rw [hmerged.raw_self, if_pos hmem, hget]
    rfl
  refine ⟨q, rfl, hstored, fun hrereads => ⟨q.norm, read_write ?_, by rw [raw_norm, hstored, Option.map_some, hnorm]⟩⟩
  have hfile : Normal p := read_normal (congrArg Prod.fst hread)
  exact ConfigLoader.writable_mergeSection hname hrereads.writable hfile.writable hm fun o ho r hr =>
    hrereads.entryOk ho hr

/-- What `set_value` and `write_changes` leave. -/
theorem storeInstanceId_ok (hname : Ordinary a.configName) (hid : IsInstanceId id)
    (h : a.storeInstanceId id w = (.ok b, w')) : HoldsId a.config.config w'.config a.configName id ∧
      (∃ config, b = { a with config } ∧ (Rereads a.config.config a.configName → Rereads config.config a.configName)) ∧
      ∃ text, w' = { w with config := text } := by
  obtain ⟨l, w₁, hvalue, h⟩ := bind_eq_ok.1 h
  obtain ⟨hset, rfl⟩ := ofConfig_eq_ok.1 hvalue
  obtain ⟨_, w₂, hwritten, h⟩ := bind_eq_ok.1 h
  obtain ⟨text, hwrite, rfl⟩ := onConfig_eq_ok.1 hwritten
  cases h
  obtain ⟨q, hq, hret⟩ := except_bind_eq_ok.1 hset
  cases hret
  obtain ⟨-, hm, rfl⟩ := (set_eq_ok hname).1 hq
  have hput : Rereads a.config.config a.configName →
      Rereads (a.config.config.put a.configName (optionxform "instanceId") id) a.configName := fun hrereads =>
    hrereads.put (by decide) (by decide) (clean_isInstanceId hid).2
  obtain ⟨p, hp, hraw, hread⟩ := writeChanges_ok (k := "instanceid") (v := id) hname
    (by rw [raw_put hm, if_pos ⟨rfl, optionxform_instanceId⟩]) (by decide) (clean_isInstanceId hid).1
    (normValue_isInstanceId hid) hwrite
  exact ⟨⟨p, hp, hraw, fun hrereads => hread (hput hrereads)⟩, ⟨_, rfl, hput⟩, text, rfl⟩

/-! ## The loop -/

/-- The ids of the first instances. -/
def firstIds (reservations : List (List Instance)) : List Str :=
  reservations.filterMap fun is => is.head?.map (·.id.text)

/-- The calls since this log are all of one kind. -/
def Within (P : Call → Prop) (base : List (Call × Bool)) (w : World) : Prop :=
  ∃ log, w.calls = base ++ log ∧ ∀ e ∈ log, P e.1

theorem Within.call {P : Call → Prop} {base : List (Call × Bool)} {c : Call} (hc : P c) :
    Keeps (Within P base) (Py.call c) := by
  rintro w ⟨log, hcalls, hlog⟩
  have hstep : ∀ raised, ∀ e ∈ log ++ [(c, raised)], P e.1 := by
    intro raised e he
    rcases List.mem_append.1 he with he | he
    · exact hlog e he
    · obtain rfl := List.mem_singleton.1 he
      exact hc
  obtain ⟨script, ⟨text, hr⟩ | ⟨message, hr⟩⟩ := call_cases c w
  · rw [hr]
    exact ⟨_, by rw [World.called_calls, hcalls, List.append_assoc], hstep false⟩
  · rw [hr]
    exact ⟨_, by rw [World.called_calls, hcalls, List.append_assoc], hstep true⟩

theorem Within.query {P : Call → Prop} {base : List (Call × Bool)} {op : AwsOp} (hc : P (.aws client op)) :
    Keeps (Within P base) (Ec2.query client op) := by
  refine .bind (Within.call hc) fun _ => .bind .get fun w => ?_
  cases w.cloud.region? client.region with
  | none => exact .throw _
  | some r => exact .pure _

theorem Within.change {P : Call → Prop} {base : List (Call × Bool)} {op : AwsOp} (hc : P (.aws client op))
    (f : Region → Option Region) : Keeps (Within P base) (Ec2.change client op f) := by
  refine .bind (Within.query hc) fun r => ?_
  cases f r with
  | none => exact .throw _
  | some r' => exact .modify fun _ hw => hw

/-- What `terminate_instance` asks of EC2. -/
def Asked (client : Client) (r : Region) (c : Call) : Prop :=
  c = .aws client (.describeInstances []) ∨ ∃ id ∈ firstIds r.reservations, c = .aws client (.terminateInstances id)

theorem mem_firstIds {i : Instance} {rest : List Instance} {reservations : List (List Instance)}
    (h : i :: rest ∈ reservations) : i.id.text ∈ firstIds reservations := List.mem_filterMap.2 ⟨i :: rest, h, rfl⟩

/-- However it ends, it asks for nothing else. -/
theorem within_terminateInstance (hec2 : a.ec2 = some client) (hr : w.cloud.region? client.region = some r) :
    Within (Asked client r) w.calls (a.terminateInstance w).2 := by
  have hstart : Within (Asked client r) w.calls w := ⟨[], by rw [List.append_nil], fun _ h => by cases h⟩
  have hstore : Keeps (Within (Asked client r) w.calls) (a.storeInstanceId []) :=
    .bind (Frame.ofConfig _) fun l => .bind (fun w hw => by unfold onConfig; split <;> exact hw) fun _ => .pure _
  have hround : ∀ is ∈ r.reservations, Triple (Within (Asked client r) w.calls) (terminateFirst client is)
      (fun _ => Within (Asked client r) w.calls) (fun _ => Within (Asked client r) w.calls) := by
    intro is his
    cases is with
    | nil => exact (Keeps.throw _).triple
    | cons i rest =>
      have hasked : Asked client r (.aws client (.terminateInstances i.id.text)) := .inr ⟨_, mem_firstIds his, rfl⟩
      have hkeeps : Keeps (Within (Asked client r) w.calls) (terminateFirst client (i :: rest)) :=
        Within.change hasked fun r => some (r.terminate i.id.text)
      exact hkeeps.triple
  have hquery : Keeps (Within (Asked client r) w.calls) (Ec2.query client (.describeInstances [])) :=
    Within.query (.inl rfl)
  have hdescribe := hquery w hstart
  rw [terminateInstance, hec2, getAttr, run_bind_ok (run_pure _ _)]
  obtain ⟨script, hq | ⟨message, hq⟩⟩ := query_cases (.describeInstances []) hr
  · rw [run_bind_ok hq]
    rw [hq] at hdescribe
    exact Keeps.of_triple (.bind (.each hround) fun _ => hstore.triple) (fun _ _ h => h) (fun _ _ h => h) _ hdescribe
  · rw [run_bind_error hq]
    rw [hq] at hdescribe
    exact hdescribe

theorem Logged.of_calls {base log : List (Call × Bool)} {c : Call} (hw : w.calls = base ++ log)
    (h : Logged w.calls c w') :
    Logged base c w' := by
  obtain ⟨log', hcalls, hmem⟩ := h
  refine ⟨log ++ log', by rw [hcalls, hw, List.append_assoc], ?_⟩
  rw [List.map_append]
  exact List.mem_append_right _ hmem

theorem Logged.keeps_change (base : List (Call × Bool)) (c : Call) (client : Client) (op : AwsOp)
    (f : Region → Option Region) : Keeps (Logged base c) (change client op f) := by
  refine .bind ((frame_logged base c).keepsQuery client op) fun r => ?_
  cases f r with
  | none => exact .throw _
  | some r' => exact .modify fun _ hw => hw

/-- If no call raises, all first instances are asked for. -/
theorem logged_each : ∀ {reservations : List (List Instance)} {w : World} {r : Region}, (∀ is ∈ reservations, is ≠ []) →
    Firewall.Calm w → w.cloud.region? client.region = some r → ∀ id ∈ firstIds reservations,
      Logged w.calls (.aws client (.terminateInstances id)) (Prog.each (terminateFirst client) reservations w).2
  | [], _, _, _, _, _, id, hid => by cases hid
  | [] :: _, _, _, hne, _, _, _, _ => absurd rfl (hne [] List.mem_cons_self)
  | (i :: is) :: reservations, w, r, hne, hcalm, hr, id, hid => by
    obtain ⟨script, hrun, hcalm'⟩ := change_calm hcalm hr (.terminateInstances i.id.text)
      (f := fun r => some (r.terminate i.id.text)) rfl
    have hr' := region?_changed hr (.terminateInstances i.id.text) script (r.terminate i.id.text)
    have hcalls : (changed w client (.terminateInstances i.id.text) script (r.terminate i.id.text)).calls =
      w.calls ++ [(.aws client (.terminateInstances i.id.text), false)] := rfl
    have hround : terminateFirst client (i :: is) w = _ := hrun
    rw [Prog.each, run_bind_ok hround]
    rcases List.mem_cons.1 hid with rfl | hid
    · refine Keeps.each (fun is => ?_) reservations _ ⟨_, hcalls, List.mem_singleton.2 rfl⟩
      cases is with
      | nil => exact .throw _
      | cons j js => exact Logged.keeps_change _ _ _ _ _
    · exact Logged.of_calls hcalls (logged_each (fun is his => hne is (List.mem_cons_of_mem _ his)) hcalm' hr' id hid)

/-- The region has no live instance of this id. -/
def Dead (client : Client) (id : Str) (w : World) : Prop :=
  ∃ r, w.cloud.region? client.region = some r ∧ ¬r.Live id

theorem dead_terminateFirst (client : Client) (id : Str) (is : List Instance) :
    Keeps (Dead client id) (terminateFirst client is) := by
  cases is with
  | nil => exact .throw _
  | cons i is =>
    rintro w ⟨r, hr, hdead⟩
    obtain ⟨script, ⟨r', hf, hrun⟩ | ⟨-, e, hrun⟩ | ⟨e, hrun⟩⟩ := @change_cases client w r
      (.terminateInstances i.id.text) (fun r => some (r.terminate i.id.text)) hr
    · cases hf
      refine (congrArg (Dead client id ·.2) hrun).mpr ⟨_, region?_changed hr _ _ _, ?_⟩
      by_cases hid : i.id.text = id
      · exact hid ▸ Region.not_live_terminate r _
      · rwa [Region.live_terminate_ne hid]
    · exact (congrArg (Dead client id ·.2) hrun).mpr ⟨r, hr, hdead⟩
    · exact (congrArg (Dead client id ·.2) hrun).mpr ⟨r, hr, hdead⟩

/-- A loop that returns has terminated them all. -/
theorem each_ok : ∀ {reservations : List (List Instance)} {w w' : World},
    Prog.each (terminateFirst client) reservations w = (.ok (), w') → ∀ id ∈ firstIds reservations, Dead client id w'
  | [], _, _, _, id, hid => by cases hid
  | is :: reservations, w, w', h, id, hid => by
    obtain ⟨_, w₁, hfirst, hrest⟩ := bind_eq_ok.1 h
    cases is with
    | nil => cases hfirst
    | cons i is =>
      rcases List.mem_cons.1 hid with rfl | hid
      · have hterminate : Ec2.change client (.terminateInstances i.id.text) (fun r => some (r.terminate i.id.text)) w =
          (.ok (), w₁) := hfirst
        obtain ⟨r, r', script, hr, hf, rfl⟩ := change_ok hterminate
        cases hf
        have hdead : Dead client i.id.text (changed w client (.terminateInstances i.id.text) script
            (r.terminate i.id.text)) := ⟨_, region?_changed hr _ _ _, Region.not_live_terminate r _⟩
        exact (Keeps.each (dead_terminateFirst client i.id.text) reservations).run hrest hdead
      · exact each_ok hrest id hid

/-- **What a `terminate_instance` that returns leaves.** -/
theorem run_terminateInstance (hec2 : a.ec2 = some client) (hname : Ordinary a.configName)
    (hr : w.cloud.region? client.region = some r) (h : a.terminateInstance w = (.ok b, w')) :
    HoldsId a.config.config w'.config a.configName [] ∧ ∀ id ∈ firstIds r.reservations, Dead client id w' := by
  rw [terminateInstance, hec2] at h
  obtain ⟨c, w₁, hc, h⟩ := bind_eq_ok.1 h
  cases hc
  obtain ⟨r', w₁, hq, h⟩ := bind_eq_ok.1 h
  obtain ⟨hr', script, rfl⟩ := query_ok hq
  rw [hr] at hr'
  cases hr'
  obtain ⟨_, w₂, heach, h⟩ := bind_eq_ok.1 h
  obtain ⟨hholds, -, text, rfl⟩ := storeInstanceId_ok hname (.inl rfl) h
  exact ⟨hholds, fun id hid => each_ok heach id hid⟩

/-! ## The law -/

/-- An instance that the program may have launched. -/
def HasRole (r : Region) (id : Str) : Prop :=
  ∃ i ∈ r.instances, i.id.text = id ∧ ("role".toList, "iprotate".toList) ∈ i.tags

instance (r : Region) (id : Str) : Decidable (HasRole r id) := inferInstanceAs (Decidable (∃ i ∈ r.instances, _))

/-- A launch makes a reservation of one instance with the role. -/
def Launched (r : Region) (id : Str) : Prop :=
  ∃ i, [i] ∈ r.reservations ∧ i.id.text = id ∧ ("role".toList, "iprotate".toList) ∈ i.tags

/-- The id is stored for another profile. -/
def StoredElsewhere (text name id : Str) : Prop :=
  ∃ p s, ConfigParser.read text = .ok p ∧ s ∈ Loader.profileNames p ∧ s ≠ name ∧ p.get s "instanceId" = .ok id

/-- Only instances of the profile's own go down, and if the method returns, all of these do. -/
structure TerminatesOwn (a : Aws) (client : Client) (r : Region) (w : World) : Prop where
  own : ∀ c id, .aws c (.terminateInstances id) ∈ newCalls w (a.terminateInstance w).2 →
    HasRole r id ∧ ¬StoredElsewhere w.config a.configName id
  cleared : ∀ b w', a.terminateInstance w = (.ok b, w') → HoldsId a.config.config w'.config a.configName [] ∧
    ∀ id, Launched r id → Dead client id w'

/-- **What `terminate_instance` destroys**, whichever calls raise. -/
theorem terminates_own_iff (a : Aws) (client : Client) (w : World) (r : Region) (hec2 : a.ec2 = some client)
    (hname : Ordinary a.configName) (hr : w.cloud.region? client.region = some r)
    (hfirst : ∀ is ∈ r.reservations, is ≠ []) :
    (∀ script, TerminatesOwn a client r { w with script }) ↔
      ∀ id ∈ firstIds r.reservations, HasRole r id ∧ ¬StoredElsewhere w.config a.configName id := by
  constructor
  · intro h id hid
    have hcalm : Firewall.Calm { w with script := [] } := fun a ha => by cases ha
    obtain ⟨script, hq, hcalm'⟩ := query_calm hcalm hr (.describeInstances [])
    have hlogged := logged_each hfirst hcalm' (r := r) hr id hid
    have hend : Logged w.calls (.aws client (.terminateInstances id))
        (a.terminateInstance { w with script := [] }).2 := by
      rw [terminateInstance, hec2, getAttr, run_bind_ok (run_pure _ _), run_bind_ok hq]
      refine Keeps.after (fun _ => ?_) (Logged.of_calls rfl hlogged)
      exact .bind (Frame.ofConfig _) fun l => .bind (fun w hw => by unfold onConfig; split <;> exact hw)
        fun _ => .pure _
    exact (h []).own client id (not_idle hend rfl)
  · intro h script
    constructor
    · intro c id hmem
      obtain ⟨log, hcalls, hall⟩ := within_terminateInstance (w := { w with script }) hec2 hr
      rw [newCalls_eq hcalls] at hmem
      obtain ⟨e, he, hc⟩ := List.mem_map.1 hmem
      rcases hall e he with hd | ⟨id', hid', ht⟩
      · rw [hc] at hd
        cases hd
      · rw [hc] at ht
        cases ht
        exact h id hid'
    · intro b w' hrun
      obtain ⟨hholds, hdead⟩ := run_terminateInstance (w := { w with script }) hec2 hname hr hrun
      refine ⟨hholds, ?_⟩
      rintro id ⟨i, hi, rfl, -⟩
      exact hdead _ (mem_firstIds hi)

/-- An instance of the program, and its terminated predecessor. -/
def ownRegion : Region :=
  { Region.empty with reservations :=
      [[⟨⟨"i-4", by decide⟩, .running, [("role", "iprotate")], some "3.0.0.9"⟩],
       [⟨⟨"i-3", by decide⟩, .terminated, [("role", "iprotate")], none⟩]] }

/-- They are in the account of a file with two profiles. -/
def pairAccount : World := { pairWorld with cloud := ⟨[("ap-southeast-2", ownRegion)], 100⟩ }

/-- The instance of the second profile is another one. -/
theorem not_storedElsewhere_pair : ∀ id ∈ firstIds ownRegion.reservations,
    ¬StoredElsewhere pairAccount.config "aws1" id := by
  rintro id hid ⟨p, s, hread, hs, hne, hget⟩
  obtain rfl := Except.ok.inj (ConfigLoader.build_pair.1.symm.trans hread)
  have hnames : ∀ s ∈ Loader.profileNames ConfigLoader.pairConfig, s ≠ "aws1".toList → s = "aws2".toList := by decide
  obtain rfl := hnames s hs hne
  have hstored : ConfigLoader.pairConfig.get "aws2" "instanceId" = .ok "i-0d1".toList := rfl
  obtain rfl := Except.ok.inj (hstored.symm.trans hget)
  exact absurd hid (by decide)

theorem terminates_own_example : TerminatesOwn (exampleAws "i-4") exampleClient ownRegion pairAccount := by
  have hroles : ∀ id ∈ firstIds ownRegion.reservations, HasRole ownRegion id := by decide
  exact (terminates_own_iff (exampleAws "i-4") exampleClient pairAccount ownRegion rfl
    ⟨by decide, by decide⟩ rfl (by decide)).2 (fun id hid => ⟨hroles id hid, not_storedElsewhere_pair id hid⟩) []

/-- Somebody else's machine. -/
def foreignRegion : Region :=
  { Region.empty with reservations := [[⟨⟨"i-7", by decide⟩, .running, [("Name", "database")], some "3.0.0.7"⟩]] }

/-- A machine without the role goes down. -/
theorem foreign_terminated : ¬∀ (a : Aws) (client : Client) (w : World) (r : Region), a.ec2 = some client →
    Ordinary a.configName → w.cloud.region? client.region = some r → (∀ is ∈ r.reservations, is ≠ []) →
    TerminatesOwn a client r w := by
  intro h
  have hown := (h (exampleAws "") exampleClient (exampleAccount foreignRegion) foreignRegion rfl
    ⟨by decide, by decide⟩ rfl (by decide)).own exampleClient "i-7" (by
      simp (disch := exact rfl) only [exampleAccount, exampleWorld, World.start, Loader.exampleConfig, toList_of_eq]
      decide +kernel)
  exact absurd hown.1 (by decide)

end Terminations
end Iprotate
