import Iprotate.Calls
import Iprotate.Frame
import Iprotate.Whitelist

/-!
# The security group

`create_security_group` is to find the group `iprotate` or to make it, and to open it once.

- The first loop makes a group for every group with the role that has another name, and only the first range of a
  permission is looked at. So the method does what it is for exactly if the groups with the role all have that name, if
  the name is free when there is none, and if the permission for all protocols, when there is one, begins with the rule
  (`converges_iff`).
- Another group with the role is enough for the second call to fail (`other_name_fails`).
-/

namespace Iprotate
namespace SecurityGroups

open Py Prog Ec2 Aws Firewall

/-! ## Calls that go well -/

variable {client : Client} {w w' : World} {r r' : Region}

theorem query_calm (hcalm : Calm w) (hr : w.cloud.region? client.region = some r) (op : AwsOp) : ∃ script,
    query client op w = (.ok r, w.called (.aws client op) false script) ∧
      Calm (w.called (.aws client op) false script) := by
  obtain ⟨text, script, hc, hscript⟩ := call_calm hcalm (.aws client op)
  refine ⟨script, ?_, fun a ha => hcalm a (hscript a ha)⟩
  have hcall : call (.aws client op) w = (.ok text, w.called (.aws client op) false script) := hc
  rw [query, run_bind_ok hcall, run_bind_ok (run_get _), World.called_cloud, hr]
  rfl

theorem change_calm (hcalm : Calm w) (hr : w.cloud.region? client.region = some r) (op : AwsOp)
    {f : Region → Option Region} (hf : f r = some r') : ∃ script,
    change client op f w = (.ok (), changed w client op script r') ∧ Calm (changed w client op script r') := by
  obtain ⟨script, hq, hcalm'⟩ := query_calm hcalm hr op
  exact ⟨script, by rw [change, run_bind_ok hq, hf]; rfl, hcalm'⟩

theorem change_refused (hcalm : Calm w) (hr : w.cloud.region? client.region = some r) (op : AwsOp)
    {f : Region → Option Region} (hf : f r = none) : ∃ e script,
    change client op f w = (.error e, w.called (.aws client op) false script) := by
  obtain ⟨script, hq, -⟩ := query_calm hcalm hr op
  exact ⟨_, script, by rw [change, run_bind_ok hq, hf]; rfl⟩

/-! ## Permissions -/

/-- The permission begins with the rule that the method adds. -/
def Opens (p : IpPermission) : Prop :=
  p.ipProtocol = "-1".toList ∧ p.ipRanges.head? = some ⟨"0.0.0.0/0", some "Allow all traffic"⟩

/-- The loop gets over the permission: one for all protocols has a range, and the range a description if it is asked
for. -/
def Legible (p : IpPermission) : Prop := p.ipProtocol = "-1".toList →
  ∃ range, p.ipRanges.head? = some range ∧ (range.cidrIp = "0.0.0.0/0".toList → range.description ≠ none)

theorem allowsAll_cons {p : IpPermission} {ps : List IpPermission} (hlegible : Legible p) (hopens : ¬Opens p) :
    allowsAll (p :: ps) = allowsAll ps := by
  by_cases hall : p.ipProtocol = "-1".toList
  · obtain ⟨range, hrange, hdescription⟩ := hlegible hall
    obtain ⟨ranges, hranges⟩ := List.head?_eq_some_iff.1 hrange
    by_cases hcidr : range.cidrIp = "0.0.0.0/0".toList
    · obtain ⟨description, hd⟩ := Option.ne_none_iff_exists'.1 (hdescription hcidr)
      have hne : description ≠ "Allow all traffic".toList := by
        rintro rfl
        refine hopens ⟨hall, ?_⟩
        rw [hrange, ← hcidr, ← hd]
      rw [allowsAll, if_neg (not_not.2 hall), hranges]
      simp only [ne_eq, hcidr, not_true_eq_false, if_false, hd, if_neg hne]
    · rw [allowsAll, if_neg (not_not.2 hall), hranges]
      exact if_pos hcidr
  · rw [allowsAll, if_pos hall]

theorem allowsAll_opens {p : IpPermission} (ps : List IpPermission) (h : Opens p) : allowsAll (p :: ps) = .ok true := by
  obtain ⟨hall, hhead⟩ := h
  obtain ⟨ranges, hranges⟩ := List.head?_eq_some_iff.1 hhead
  rw [allowsAll, if_neg (not_not.2 hall), hranges]
  rfl

theorem allowsAll_not_legible {p : IpPermission} (ps : List IpPermission) (h : ¬Legible p) :
    ∃ e, allowsAll (p :: ps) = .error e := by
  rw [Legible, Classical.not_imp] at h
  obtain ⟨hall, h⟩ := h
  rw [allowsAll, if_neg (not_not.2 hall)]
  cases hranges : p.ipRanges with
  | nil => exact ⟨_, rfl⟩
  | cons range ranges =>
    have hno : ¬(range.cidrIp = "0.0.0.0/0".toList → range.description ≠ none) := fun hd =>
      h ⟨range, by rw [hranges]; rfl, hd⟩
    rw [Classical.not_imp, not_not] at hno
    simp only [ne_eq, hno.1, not_true_eq_false, if_false, hno.2]
    exact ⟨_, rfl⟩

/-- The rule stands first in a permission that the loop gets to. -/
def Open (ps : List IpPermission) : Prop :=
  ∃ before p after, ps = before ++ p :: after ∧ Opens p ∧ ∀ q ∈ before, Legible q

/-- Nothing is said about all protocols. -/
def Untouched (ps : List IpPermission) : Prop := ∀ p ∈ ps, p.ipProtocol ≠ "-1".toList

theorem allowsAll_eq_true : ∀ {ps : List IpPermission}, allowsAll ps = .ok true ↔ Open ps
  | [] => ⟨fun h => (by cases h), fun ⟨before, p, after, h, _⟩ => (by cases before <;> cases h)⟩
  | p :: ps => by
    by_cases hopens : Opens p
    · exact iff_of_true (allowsAll_opens ps hopens) ⟨[], p, ps, rfl, hopens, fun _ h => by cases h⟩
    by_cases hlegible : Legible p
    · rw [allowsAll_cons hlegible hopens, allowsAll_eq_true]
      constructor
      · rintro ⟨before, q, after, rfl, hq, hbefore⟩
        exact ⟨p :: before, q, after, rfl, hq, List.forall_mem_cons.2 ⟨hlegible, hbefore⟩⟩
      · rintro ⟨before, q, after, h, hq, hbefore⟩
        cases before with
        | nil =>
          cases h
          exact absurd hq hopens
        | cons _ before =>
          cases h
          exact ⟨before, q, after, rfl, hq, fun q hq => hbefore q (List.mem_cons_of_mem _ hq)⟩
    · obtain ⟨e, he⟩ := allowsAll_not_legible ps hlegible
      refine iff_of_false (fun h => by rw [he] at h; cases h) ?_
      rintro ⟨before, q, after, h, hq, hbefore⟩
      cases before with
      | nil =>
        cases h
        exact hopens hq
      | cons _ before =>
        cases h
        exact hlegible (hbefore p List.mem_cons_self)

theorem allowsAll_untouched : ∀ {ps : List IpPermission}, Untouched ps → allowsAll ps = .ok false
  | [], _ => rfl
  | p :: ps, h => by
    rw [allowsAll, if_pos (h p List.mem_cons_self)]
    exact allowsAll_untouched fun q hq => h q (List.mem_cons_of_mem _ hq)

/-- A rule at the end of a permission is not found. -/
theorem allowsAll_add_touched : ∀ {ps : List IpPermission}, allowsAll ps = .ok false → ¬Untouched ps →
    allowsAll (Region.addAllTraffic ps) = .ok false
  | [], _, h => absurd (fun _ h => by cases h) h
  | p :: ps, h, htouched => by
    have hopens : ¬Opens p := fun hp => by
      rw [allowsAll_opens ps hp] at h
      cases h
    have hlegible : Legible p := by
      by_contra hno
      obtain ⟨e, he⟩ := allowsAll_not_legible ps hno
      rw [he] at h
      cases h
    rw [allowsAll_cons hlegible hopens] at h
    by_cases hall : p.ipProtocol = "-1".toList
    · obtain ⟨range, hrange, hdescription⟩ := hlegible hall
      have hhead : (p.ipRanges ++ [(⟨"0.0.0.0/0", some "Allow all traffic"⟩ : IpRange)]).head? = p.ipRanges.head? := by
        rw [List.head?_append, hrange]
        rfl
      rw [Region.addAllTraffic, if_pos hall, allowsAll_cons, h]
      · exact fun _ => ⟨range, hhead.trans hrange, hdescription⟩
      · exact fun hp => hopens ⟨hp.1, hhead.symm.trans hp.2⟩
    · rw [Region.addAllTraffic, if_neg hall, allowsAll_cons hlegible hopens]
      refine allowsAll_add_touched h fun hno => htouched (List.forall_mem_cons.2 ⟨hall, hno⟩)

theorem allowsAll_add_untouched : ∀ {ps : List IpPermission}, Untouched ps →
    allowsAll (Region.addAllTraffic ps) = .ok true
  | [], _ => rfl
  | p :: ps, h => by
    have hp := h p List.mem_cons_self
    rw [Region.addAllTraffic, if_neg hp, allowsAll, if_pos hp]
    exact allowsAll_add_untouched fun q hq => h q (List.mem_cons_of_mem _ hq)

theorem allTraffic_untouched {ps : List IpPermission} (h : Untouched ps) : Region.allTraffic ps = false := by
  refine List.any_eq_false.2 fun p hp => ?_
  rw [decide_eq_false (h p hp), Bool.false_and]
  exact Bool.false_ne_true

theorem allTraffic_open {ps : List IpPermission} (h : Open ps) : Region.allTraffic ps = true := by
  obtain ⟨before, p, after, rfl, ⟨hall, hhead⟩, -⟩ := h
  obtain ⟨ranges, hranges⟩ := List.head?_eq_some_iff.1 hhead
  refine List.any_eq_true.2 ⟨p, List.mem_append_right _ List.mem_cons_self, ?_⟩
  rw [decide_eq_true hall, hranges]
  rfl

/-! ## The groups of a region -/

/-- A group after an authorization for the group of this id. -/
def allowed (groupId : Str) (g : SecurityGroup) : SecurityGroup :=
  if g.groupId = groupId then { g with ipPermissions := Region.addAllTraffic g.ipPermissions } else g

variable {a : Aws} {g : SecurityGroup} {groups : List SecurityGroup} {groupId : Str}

theorem groupId_allowed (groupId : Str) (g : SecurityGroup) : (allowed groupId g).groupId = g.groupId := by
  unfold allowed
  split <;> rfl

theorem groupName_allowed (groupId : Str) (g : SecurityGroup) : (allowed groupId g).groupName = g.groupName := by
  unfold allowed
  split <;> rfl

theorem tags_allowed (groupId : Str) (g : SecurityGroup) : (allowed groupId g).tags = g.tags := by
  unfold allowed
  split <;> rfl

theorem roleGroups_allowed (groupId : Str) (groups : List SecurityGroup) :
    roleGroups (groups.map (allowed groupId)) = (roleGroups groups).map (allowed groupId) := by
  rw [roleGroups, List.filter_map, roleGroups]
  congr 1
  exact List.filter_congr fun g _ => by simp only [Function.comp, tags_allowed]

theorem map_groupId_allowed (groupId : Str) (groups : List SecurityGroup) :
    (groups.map (allowed groupId)).map (·.groupId) = groups.map (·.groupId) := by
  rw [List.map_map]
  exact List.map_congr_left fun g _ => groupId_allowed groupId g

/-- No call to come raises, and these are the groups of the client's region. -/
def In (client : Client) (groups : List SecurityGroup) (w : World) : Prop :=
  Calm w ∧ ∃ r, w.cloud.region? client.region = some r ∧ r.securityGroups = groups

/-- The groups all have the name: the last one is chosen, and nothing is done. -/
theorem chooseGroup_named : ∀ {gs : List SecurityGroup}, (∀ g ∈ gs, g.groupName = "iprotate".toList) →
    ∀ (chosen : Option Str) (w : World),
      chooseGroup client gs chosen w = (.ok ((gs.getLast?.map (·.groupId)).or chosen), w)
  | [], _, chosen, w => rfl
  | g :: gs, h, chosen, w => by
    rw [chooseGroup, if_pos (h g List.mem_cons_self), run_bind_ok (run_pure _ _),
      chooseGroup_named fun g' hg' => h g' (List.mem_cons_of_mem _ hg')]
    rw [List.getLast?_cons]
    cases gs.getLast? <;> rfl

/-- `create_security_group` from the permissions of the chosen group on. -/
def finish (a : Aws) (client : Client) (g : SecurityGroup) : Py Aws := do
  let allowed ← Prog.ofExcept (allowsAll g.ipPermissions)
  if allowed then return { a with securityGroup := some g.groupId }
  else
    Ec2.change client (.authorizeSecurityGroupIngress g.groupId) (·.authorizeAll g.groupId)
    return { a with securityGroup := some g.groupId }

theorem find?_groupId (hdistinct : (groups.map (·.groupId)).Nodup) (hg : g ∈ groups) :
    groups.find? (·.groupId = g.groupId) = some g := by
  cases hf : groups.find? (·.groupId = g.groupId) with
  | none => exact absurd (decide_eq_true rfl) (List.find?_eq_none.1 hf g hg)
  | some h =>
    have hid : h.groupId = g.groupId := by simpa using List.find?_some hf
    rw [List.inj_on_of_nodup_map hdistinct (List.mem_of_find?_eq_some hf) hg hid]

/-- The calls of a run. -/
def newCalls (w w' : World) : List Call := (w'.calls.drop w.calls.length).map Prod.fst

/-- The groups with the role all have the name, and there is one. -/
theorem run_found (hec2 : a.ec2 = some client) (hin : In client groups w)
    (hnamed : ∀ g ∈ roleGroups groups, g.groupName = "iprotate".toList)
    (hlast : (roleGroups groups).getLast? = some g) (hdistinct : (groups.map (·.groupId)).Nodup) :
    ∃ w₁, In client groups w₁ ∧ w₁.calls = w.calls ++ [(.aws client (.describeSecurityGroups []), false),
        (.aws client (.describeSecurityGroups [g.groupId]), false)] ∧
      a.createSecurityGroup w = finish a client g w₁ := by
  obtain ⟨hcalm, r, hr, rfl⟩ := hin
  obtain ⟨script, hq, hcalm₁⟩ := query_calm hcalm hr (.describeSecurityGroups [])
  obtain ⟨script', hq', hcalm₂⟩ := query_calm hcalm₁ hr (.describeSecurityGroups [g.groupId])
  have hg : g ∈ r.securityGroups := (List.mem_filter.1 (List.mem_of_getLast? hlast)).1
  refine ⟨_, ⟨hcalm₂, r, hr, rfl⟩, by rw [World.called_calls, World.called_calls, List.append_assoc]; rfl, ?_⟩
  have hchoose :
      ∀ w, chooseGroup client (roleGroups r.securityGroups) a.securityGroup w = (.ok (some g.groupId), w) := by
    intro w
    rw [chooseGroup_named hnamed, hlast]
    rfl
  rw [createSecurityGroup, hec2, getAttr, run_bind_ok (run_pure _ _), run_bind_ok hq]
  refine (run_bind_ok (hchoose _)).trans ((run_bind_ok (run_pure _ _)).trans ((run_bind_ok hq').trans ?_))
  rw [find?_groupId hdistinct hg, finish, hec2]

theorem finish_open (h : Open g.ipPermissions) (w : World) :
    finish a client g w = (.ok { a with securityGroup := some g.groupId }, w) := by
  rw [finish, allowsAll_eq_true.2 h]
  rfl

/-- The rule is added where nothing is said about all protocols. -/
theorem authorizeAll_eq (hdistinct : (r.securityGroups.map (·.groupId)).Nodup) (hg : g ∈ r.securityGroups)
    (h : Region.allTraffic g.ipPermissions = false) :
    r.authorizeAll g.groupId = some { r with securityGroups := r.securityGroups.map (allowed g.groupId) } := by
  rw [Region.authorizeAll, if_neg]
  · rfl
  · intro hany
    obtain ⟨g', hg', hboth⟩ := List.any_eq_true.1 hany
    obtain ⟨hid, hall⟩ := Bool.and_eq_true_iff.1 hboth
    rw [List.inj_on_of_nodup_map hdistinct hg' hg (of_decide_eq_true hid), h] at hall
    cases hall

theorem finish_add (hin : In client groups w) (hg : g ∈ groups) (hdistinct : (groups.map (·.groupId)).Nodup)
    (hallows : allowsAll g.ipPermissions = .ok false) (h : Region.allTraffic g.ipPermissions = false) :
    ∃ w', finish a client g w = (.ok { a with securityGroup := some g.groupId }, w') ∧
      In client (groups.map (allowed g.groupId)) w' ∧
      w'.calls = w.calls ++ [(.aws client (.authorizeSecurityGroupIngress g.groupId), false)] := by
  obtain ⟨hcalm, r, hr, rfl⟩ := hin
  obtain ⟨script, hrun, hcalm'⟩ := change_calm hcalm hr (.authorizeSecurityGroupIngress g.groupId)
    (f := (·.authorizeAll g.groupId)) (authorizeAll_eq hdistinct hg h)
  refine ⟨_, ?_, ⟨hcalm', _, region?_changed hr _ _ _, rfl⟩, rfl⟩
  rw [finish, hallows]
  exact (run_bind_ok (run_ofExcept _ _)).trans (run_bind_ok hrun)

theorem finish_refused (hin : In client groups w) (hg : g ∈ groups) (hallows : allowsAll g.ipPermissions = .ok false)
    (h : Region.allTraffic g.ipPermissions = true) : ∃ e w', finish a client g w = (.error e, w') := by
  obtain ⟨hcalm, r, hr, rfl⟩ := hin
  have hnone : r.authorizeAll g.groupId = none :=
    if_pos (List.any_eq_true.2 ⟨g, hg, Bool.and_eq_true_iff.2 ⟨decide_eq_true rfl, h⟩⟩)
  obtain ⟨e, script, hrun⟩ := change_refused hcalm hr (.authorizeSecurityGroupIngress g.groupId)
    (f := (·.authorizeAll g.groupId)) hnone
  refine ⟨e, w.called (.aws client (.authorizeSecurityGroupIngress g.groupId)) false script, ?_⟩
  rw [finish, hallows]
  exact (run_bind_ok (run_ofExcept _ _)).trans (run_bind_error hrun)

/-! ## A new group -/

/-- A group has an id of its own, also one still to be made. -/
structure Proper (groups : List SecurityGroup) (nextId : Nat) : Prop where
  distinct : (groups.map (·.groupId)).Nodup
  fresh : ∀ g ∈ groups, ∀ n, nextId ≤ n → g.groupId ≠ "sg-".toList ++ showNat n

/-- A group as `create_security_group` of EC2 makes it. -/
def newGroup (groupId : Str) : SecurityGroup := ⟨groupId, "iprotate", [("role", "iprotate")], []⟩

/-- The id of a new group is no other group's. -/
theorem Proper.distinct_append {nextId : Nat} (h : Proper groups nextId) :
    ((groups ++ [newGroup ("sg-".toList ++ showNat nextId)]).map (·.groupId)).Nodup := by
  rw [List.map_append]
  refine List.nodup_append.2 ⟨h.distinct, List.nodup_singleton _, ?_⟩
  rintro id hid id' hid' rfl
  obtain ⟨g, hg, rfl⟩ := List.mem_map.1 hid
  exact h.fresh g hg _ (Nat.le_refl _) (List.mem_singleton.1 hid')

/-- No group has the role, and none the name. -/
theorem run_created (hec2 : a.ec2 = some client) (hfirst : a.securityGroup = none) (hin : In client groups w)
    (hproper : Proper groups w.cloud.nextId) (hnone : roleGroups groups = [])
    (hfree : ∀ g ∈ groups, g.groupName ≠ "iprotate".toList) :
    ∃ groupId w', groupId = "sg-".toList ++ showNat w.cloud.nextId ∧
      a.createSecurityGroup w = (.ok { a with securityGroup := some groupId }, w') ∧
      In client ((groups ++ [newGroup groupId]).map (allowed groupId)) w' ∧
      w'.calls = w.calls ++ [(.aws client (.describeSecurityGroups []), false),
        (.aws client (.createSecurityGroup "iprotate"), false),
        (.aws client (.describeSecurityGroups [groupId]), false),
        (.aws client (.authorizeSecurityGroupIngress groupId), false)] := by
  obtain ⟨hcalm, r, hr, rfl⟩ := hin
  obtain ⟨script, hq, hcalm₁⟩ := query_calm hcalm hr (.describeSecurityGroups [])
  let groupId : Str := "sg-".toList ++ showNat w.cloud.nextId
  let w₁ := w.called (.aws client (.describeSecurityGroups [])) false script
  let w₂ : World := { w₁ with cloud := { w₁.cloud with nextId := w₁.cloud.nextId + 1 } }
  have hcreate : r.createSecurityGroup groupId "iprotate" =
      some { r with securityGroups := r.securityGroups ++ [newGroup groupId] } := by
    refine if_neg fun hany => ?_
    obtain ⟨g, hg, hname⟩ := List.any_eq_true.1 hany
    exact hfree g hg (of_decide_eq_true hname)
  obtain ⟨script', hmade, hcalm₂⟩ := change_calm (w := w₂) hcalm₁ hr (.createSecurityGroup "iprotate")
    (f := (·.createSecurityGroup groupId "iprotate")) hcreate
  have hr' := region?_changed (w := w₂) hr (.createSecurityGroup "iprotate") script'
    { r with securityGroups := r.securityGroups ++ [newGroup groupId] }
  obtain ⟨script'', hq', hcalm₃⟩ := query_calm hcalm₂ hr' (.describeSecurityGroups [groupId])
  have hdistinct : ((r.securityGroups ++ [newGroup groupId]).map (·.groupId)).Nodup := hproper.distinct_append
  have hmem : newGroup groupId ∈ r.securityGroups ++ [newGroup groupId] :=
    List.mem_append_right _ (List.mem_singleton.2 rfl)
  obtain ⟨w', hfinish, hin', hcalls⟩ := finish_add (a := a) ⟨hcalm₃, _, hr', rfl⟩ hmem hdistinct rfl rfl
  refine ⟨groupId, w', rfl, ?_, hin', ?_⟩
  · have hchoose : ∀ w, chooseGroup client (roleGroups r.securityGroups) a.securityGroup w = (.ok none, w) := by
      intro w
      rw [hnone, hfirst]
      rfl
    have hgroup : createGroupIprotate client w₁ = (.ok groupId, _) := (run_bind_ok rfl).trans (run_bind_ok hmade)
    rw [createSecurityGroup, hec2, getAttr, run_bind_ok (run_pure _ _), run_bind_ok hq]
    refine (run_bind_ok (hchoose _)).trans ((run_bind_ok hgroup).trans ((run_bind_ok hq').trans ?_))
    have hfind : (r.securityGroups ++ [newGroup groupId]).find? (·.groupId = groupId) = some (newGroup groupId) :=
      find?_groupId hdistinct hmem
    rw [hfind, ← hec2]
    exact hfinish
  · rw [hcalls]
    show w.calls ++ [_] ++ [_] ++ [_] ++ [_] = _
    simp only [List.append_assoc, List.cons_append, List.nil_append]
    rfl

/-- No group has the role, but the name is taken. -/
theorem run_taken (hec2 : a.ec2 = some client) (hfirst : a.securityGroup = none) (hin : In client groups w)
    (hnone : roleGroups groups = []) (hg : g ∈ groups) (hname : g.groupName = "iprotate".toList) :
    ∃ e w', a.createSecurityGroup w = (.error e, w') := by
  obtain ⟨hcalm, r, hr, rfl⟩ := hin
  obtain ⟨script, hq, hcalm₁⟩ := query_calm hcalm hr (.describeSecurityGroups [])
  let groupId : Str := "sg-".toList ++ showNat w.cloud.nextId
  let w₁ := w.called (.aws client (.describeSecurityGroups [])) false script
  let w₂ : World := { w₁ with cloud := { w₁.cloud with nextId := w₁.cloud.nextId + 1 } }
  have hcreate : r.createSecurityGroup groupId "iprotate" = none :=
    if_pos (List.any_eq_true.2 ⟨g, hg, decide_eq_true hname⟩)
  obtain ⟨e, script', hrefused⟩ := change_refused (w := w₂) hcalm₁ hr (.createSecurityGroup "iprotate")
    (f := (·.createSecurityGroup groupId "iprotate")) hcreate
  have hchoose : ∀ w, chooseGroup client (roleGroups r.securityGroups) a.securityGroup w = (.ok none, w) := by
    intro w
    rw [hnone, hfirst]
    rfl
  have hgroup : createGroupIprotate client w₁ =
      (.error e, w₂.called (.aws client (.createSecurityGroup "iprotate")) false script') :=
    (run_bind_ok rfl).trans (run_bind_error hrefused)
  refine ⟨e, w₂.called (.aws client (.createSecurityGroup "iprotate")) false script', ?_⟩
  rw [createSecurityGroup, hec2, getAttr, run_bind_ok (run_pure _ _), run_bind_ok hq]
  exact (run_bind_ok (hchoose _)).trans (run_bind_error hgroup)

/-! ## A group of another name -/

/-- The call was made since the log was this one. -/
def Logged (base : List (Call × Bool)) (c : Call) (w : World) : Prop :=
  ∃ log, w.calls = base ++ log ∧ c ∈ log.map Prod.fst

theorem frame_logged (base : List (Call × Bool)) (c : Call) : Frame (Logged base c) where
  call c' w hw := by
    obtain ⟨log, hcalls, hmem⟩ := hw
    obtain ⟨script, ⟨text, hc⟩ | ⟨message, hc⟩⟩ := call_cases c' w
    · rw [hc]
      exact ⟨log ++ [(c', false)], by rw [World.called_calls, hcalls, List.append_assoc],
        by rw [List.map_append]; exact List.mem_append_left _ hmem⟩
    · rw [hc]
      exact ⟨log ++ [(c', true)], by rw [World.called_calls, hcalls, List.append_assoc],
        by rw [List.map_append]; exact List.mem_append_left _ hmem⟩
  refuse w c' hw := by
    obtain ⟨log, hcalls, hmem⟩ := hw
    refine ⟨log ++ [(c', true)], ?_, by rw [List.map_append]; exact List.mem_append_left _ hmem⟩
    show w.calls ++ [(c', true)] = _
    rw [hcalls, List.append_assoc]
  clock _ hw := hw
  files _ _ hw := hw
  rules _ _ hw := hw
  nextId _ _ hw := hw
  grow _ _ _ _ _ _ hw := hw
  build w hw := by
    unfold onConfig
    split <;> exact hw

/-- The region has a group with the role and another name. -/
def Other (client : Client) (w : World) : Prop :=
  ∃ r, w.cloud.region? client.region = some r ∧ ∃ g ∈ roleGroups r.securityGroups, g.groupName ≠ "iprotate".toList

theorem query_logs (client : Client) (op : AwsOp) (w : World) :
    Logged w.calls (.aws client op) (query client op w).2 := by
  refine Keeps.after (fun _ => .bind .get fun w => ?_) ?_
  · cases w.cloud.region? client.region with
    | none => exact .throw _
    | some r => exact .pure _
  · obtain ⟨script, ⟨text, hc⟩ | ⟨message, hc⟩⟩ := call_cases (.aws client op) w
    · rw [hc]
      exact ⟨_, rfl, List.mem_cons_self⟩
    · rw [hc]
      exact ⟨_, rfl, List.mem_cons_self⟩

theorem change_logs (client : Client) (op : AwsOp) (f : Region → Option Region) (w : World) :
    Logged w.calls (.aws client op) (change client op f w).2 := by
  refine Keeps.after (fun r => ?_) (query_logs client op w)
  cases f r with
  | none => exact .throw _
  | some r' => exact .modify fun _ hw => hw

theorem createGroup_logs (client : Client) (w : World) :
    Logged w.calls (.aws client (.createSecurityGroup "iprotate")) (createGroupIprotate client w).2 := by
  rw [createGroupIprotate, run_bind_ok (show nextId w = (.ok w.cloud.nextId, _) from rfl)]
  exact Keeps.after (fun _ => .pure _) (change_logs client _ _ _)

theorem chooseGroup_logs (client : Client) : ∀ {gs : List SecurityGroup},
    (∃ g ∈ gs, g.groupName ≠ "iprotate".toList) → ∀ chosen w,
      Logged w.calls (.aws client (.createSecurityGroup "iprotate")) (chooseGroup client gs chosen w).2
  | [], h, _, _ => by
    obtain ⟨g, hg, -⟩ := h
    cases hg
  | g :: gs, h, chosen, w => by
    by_cases hname : g.groupName = "iprotate".toList
    · rw [chooseGroup, if_pos hname, run_bind_ok (run_pure _ _)]
      refine chooseGroup_logs client ?_ _ w
      obtain ⟨g', hg', hne⟩ := h
      rcases List.mem_cons.1 hg' with rfl | hg'
      · exact absurd hname hne
      · exact ⟨g', hg', hne⟩
    · rw [chooseGroup, if_neg hname]
      exact Keeps.after (fun _ => (frame_logged _ _).chooseGroup client gs _) (createGroup_logs client w)

/-- With such a group each call makes a group, or tries to. -/
theorem run_other (hec2 : a.ec2 = some client) (hcalm : Calm w) (hother : Other client w) :
    Logged w.calls (.aws client (.createSecurityGroup "iprotate")) (a.createSecurityGroup w).2 := by
  obtain ⟨r, hr, hg⟩ := hother
  obtain ⟨script, hq, -⟩ := query_calm hcalm hr (.describeSecurityGroups [])
  have hframe := frame_logged w.calls (.aws client (.createSecurityGroup "iprotate"))
  rw [createSecurityGroup, hec2, getAttr, run_bind_ok (run_pure _ _), run_bind_ok hq]
  refine Keeps.after (fun chosen => .bind ?_ fun groupId => .bind (hframe.keepsQuery _ _) fun r => ?_) ?_
  · cases chosen with
    | none => exact hframe.createGroupIprotate client
    | some groupId => exact .pure _
  · cases r.securityGroups.find? (·.groupId = groupId) with
    | none => exact .throw _
    | some g =>
      refine .bind (.ofExcept _) fun allowed =>
        .ite (.pure _) (.bind (hframe.change _ _ fun _ _ hr => ?_) fun _ => .pure _)
      exact Region.grows_authorizeAll hr
  · obtain ⟨log, hcalls, hmem⟩ := chooseGroup_logs client hg a.securityGroup
      (w.called (.aws client (.describeSecurityGroups [])) false script)
    refine ⟨(.aws client (.describeSecurityGroups []), false) :: log, ?_, List.mem_cons_of_mem _ hmem⟩
    rw [World.called_calls, List.append_assoc] at hcalls
    exact hcalls

theorem frame_calm : Frame Calm where
  call c w hw := by
    obtain ⟨text, script, hc, hscript⟩ := call_calm hw c
    rw [hc]
    exact fun a ha => hw a (hscript a ha)
  refuse _ _ hw := hw
  clock _ hw := hw
  files _ _ hw := hw
  rules _ _ hw := hw
  nextId _ _ hw := hw
  grow _ _ _ _ _ _ hw := hw
  build w hw := by
    unfold onConfig
    split <;> exact hw

theorem Other.change {op : AwsOp} {f : Region → Option Region}
    (hf : ∀ r r', f r = some r' → (∃ g ∈ roleGroups r.securityGroups, g.groupName ≠ "iprotate".toList) →
      ∃ g ∈ roleGroups r'.securityGroups, g.groupName ≠ "iprotate".toList) :
    Keeps (Other client) (Ec2.change client op f) := by
  rintro w ⟨r, hr, hg⟩
  obtain ⟨script, ⟨r', hfr, hrun⟩ | ⟨-, e, hrun⟩ | ⟨e, hrun⟩⟩ := change_cases op f hr
  · rw [hrun]
    exact ⟨r', region?_changed hr _ _ _, hf r r' hfr hg⟩
  · rw [hrun]
    exact ⟨r, hr, hg⟩
  · rw [hrun]
    exact ⟨r, hr, hg⟩

theorem Other.query (op : AwsOp) : Keeps (Other client) (Ec2.query client op) := by
  rintro w ⟨r, hr, hg⟩
  obtain ⟨script, hq | ⟨message, hq⟩⟩ := query_cases op hr
  · rw [hq]
    exact ⟨r, hr, hg⟩
  · rw [hq]
    exact ⟨r, hr, hg⟩

theorem Other.createGroupIprotate : Keeps (Other client) (Aws.createGroupIprotate client) := by
  refine .bind (fun w hw => hw) fun n => .bind (Other.change ?_) fun _ => .pure _
  rintro r r' hr ⟨g, hg, hname⟩
  unfold Region.createSecurityGroup at hr
  split at hr
  · cases hr
  · cases hr
    obtain ⟨hmem, hrole⟩ := List.mem_filter.1 hg
    exact ⟨g, List.mem_filter.2 ⟨List.mem_append_left _ hmem, hrole⟩, hname⟩

theorem keeps_chooseGroup {I : World → Prop} (hcreate : Keeps I (createGroupIprotate client)) :
    ∀ (gs : List SecurityGroup) (chosen : Option Str), Keeps I (chooseGroup client gs chosen)
  | [], _ => .pure _
  | _ :: gs, _ => .bind (.ite (.pure _) hcreate) fun _ => keeps_chooseGroup hcreate gs _

/-- What the calls of the method keep, the method keeps. -/
theorem keeps_createSecurityGroup {I : World → Prop} (hec2 : a.ec2 = some client)
    (hdescribe : ∀ ids, Keeps I (query client (.describeSecurityGroups ids)))
    (hcreate : Keeps I (createGroupIprotate client))
    (hauthorize : ∀ groupId,
      Keeps I (change client (.authorizeSecurityGroupIngress groupId) (·.authorizeAll groupId))) :
    Keeps I a.createSecurityGroup := by
  rw [createSecurityGroup, hec2]
  show Keeps I (query client _ >>= _)
  refine .bind (hdescribe _) fun r => .bind (keeps_chooseGroup hcreate _ _) fun chosen => ?_
  refine .bind ?_ fun groupId => .bind (hdescribe _) fun r => ?_
  · cases chosen with
    | none => exact hcreate
    | some groupId => exact .pure _
  · cases r.securityGroups.find? (·.groupId = groupId) with
    | none => exact .throw _
    | some g => exact .bind (.ofExcept _) fun _ => .ite (.pure _) (.bind (hauthorize groupId) fun _ => .pure _)

/-- The group of another name stays. -/
theorem Other.createSecurityGroup (hec2 : a.ec2 = some client) : Keeps (Other client) a.createSecurityGroup := by
  refine keeps_createSecurityGroup hec2 (fun _ => Other.query _) Other.createGroupIprotate fun groupId =>
    Other.change ?_
  rintro r r' hr ⟨g, hg, hname⟩
  unfold Region.authorizeAll at hr
  split at hr
  · cases hr
  · cases hr
    refine ⟨allowed groupId g, ?_, by rwa [groupName_allowed]⟩
    exact (roleGroups_allowed groupId r.securityGroups) ▸ List.mem_map_of_mem hg

/-! ## The law -/

/-- What a first call does. -/
structure Finds (client : Client) (groups : List SecurityGroup) (w : World) (b : Aws) (w' : World) : Prop where
  creates : (newCalls w w').count (.aws client (.createSecurityGroup "iprotate")) =
    if ∃ g ∈ roleGroups groups, g.groupName = "iprotate".toList then 0 else 1
  opened : ∃ r g, w'.cloud.region? client.region = some r ∧ g ∈ r.securityGroups ∧ b.securityGroup = some g.groupId ∧
    g.groupName = "iprotate".toList ∧ Region.allTraffic g.ipPermissions = true
  asked : ∀ groupId, .aws client (.authorizeSecurityGroupIngress groupId) ∈ newCalls w w' →
    ∀ g ∈ groups, g.groupId = groupId → Region.allTraffic g.ipPermissions = false

/-- Nothing is created or authorized. -/
def Idle (client : Client) (w w' : World) : Prop :=
  ∀ c ∈ newCalls w w', c ≠ .aws client (.createSecurityGroup "iprotate") ∧
    ∀ groupId, c ≠ .aws client (.authorizeSecurityGroupIngress groupId)

/-- A call finds or creates the group, and a second one, also of another object, has nothing left to do. -/
def Converges (a : Aws) (client : Client) (groups : List SecurityGroup) (w : World) : Prop :=
  ∃ b w', a.createSecurityGroup w = (.ok b, w') ∧ Finds client groups w b w' ∧
    ∀ a' : Aws, a'.ec2 = some client → ∃ b' w'', a'.createSecurityGroup w' = (.ok b', w'') ∧ Idle client w' w''

/-- The groups of a region as the method is written for. -/
structure Settled (groups : List SecurityGroup) : Prop where
  named : ∀ g ∈ roleGroups groups, g.groupName = "iprotate".toList
  free : roleGroups groups = [] → ∀ g ∈ groups, g.groupName ≠ "iprotate".toList
  permissions : ∀ g, (roleGroups groups).getLast? = some g → Open g.ipPermissions ∨ Untouched g.ipPermissions

theorem newCalls_eq {log : List (Call × Bool)} (h : w'.calls = w.calls ++ log) : newCalls w w' = log.map Prod.fst := by
  rw [newCalls, h, List.drop_left]

theorem not_idle {base : List (Call × Bool)} {c : Call} (h : Logged base c w') (hw : w.calls = base) :
    c ∈ newCalls w w' := by
  obtain ⟨log, hcalls, hmem⟩ := h
  rwa [newCalls_eq (hw ▸ hcalls)]

/-- Once the group is open, a call only looks. -/
theorem idle_of_open (hec2 : a.ec2 = some client) (hin : In client groups w)
    (hnamed : ∀ g ∈ roleGroups groups, g.groupName = "iprotate".toList)
    (hlast : (roleGroups groups).getLast? = some g) (hdistinct : (groups.map (·.groupId)).Nodup)
    (hopen : Open g.ipPermissions) :
    ∃ w', a.createSecurityGroup w = (.ok { a with securityGroup := some g.groupId }, w') ∧
      In client groups w' ∧ w'.calls = w.calls ++ [(.aws client (.describeSecurityGroups []), false),
        (.aws client (.describeSecurityGroups [g.groupId]), false)] ∧ Idle client w w' := by
  obtain ⟨w₁, hin₁, hcalls, hrun⟩ := run_found hec2 hin hnamed hlast hdistinct
  refine ⟨w₁, hrun.trans (finish_open hopen w₁), hin₁, hcalls, fun c hc => ?_⟩
  rw [newCalls_eq hcalls] at hc
  rcases List.mem_cons.1 hc with rfl | hc
  · exact ⟨fun h => (by cases h), fun _ h => (by cases h)⟩
  · obtain rfl := List.mem_singleton.1 hc
    exact ⟨fun h => (by cases h), fun _ h => (by cases h)⟩

/-- The rule was just added, where nothing was said about all protocols. -/
theorem open_allowed (h : Untouched g.ipPermissions) : Open (allowed g.groupId g).ipPermissions := by
  rw [allowed, if_pos rfl]
  exact allowsAll_eq_true.1 (allowsAll_add_untouched h)

theorem named_allowed (h : ∀ g ∈ roleGroups groups, g.groupName = "iprotate".toList) (groupId : Str) :
    ∀ g ∈ roleGroups (groups.map (allowed groupId)), g.groupName = "iprotate".toList := by
  rw [roleGroups_allowed]
  intro _ hmem
  obtain ⟨g, hg, rfl⟩ := List.mem_map.1 hmem
  rw [groupName_allowed]
  exact h g hg

theorem last_allowed (h : (roleGroups groups).getLast? = some g) (groupId : Str) :
    (roleGroups (groups.map (allowed groupId))).getLast? = some (allowed groupId g) := by
  rw [roleGroups_allowed, List.getLast?_map, h]
  rfl

theorem distinct_allowed (h : (groups.map (·.groupId)).Nodup) (groupId : Str) :
    ((groups.map (allowed groupId)).map (·.groupId)).Nodup := by rwa [map_groupId_allowed]

/-- There is no group with the role: one is made, and opened. -/
theorem converges_created (hec2 : a.ec2 = some client) (hfirst : a.securityGroup = none) (hin : In client groups w)
    (hproper : Proper groups w.cloud.nextId) (hnone : roleGroups groups = [])
    (hfree : ∀ g ∈ groups, g.groupName ≠ "iprotate".toList) : Converges a client groups w := by
  obtain ⟨groupId, w', hid, hrun, hin', hcalls⟩ := run_created hec2 hfirst hin hproper hnone hfree
  have hroles : roleGroups (groups ++ [newGroup groupId]) = [newGroup groupId] := by
    rw [roleGroups, List.filter_append, ← roleGroups, hnone]
    rfl
  have hnamed : ∀ g ∈ roleGroups (groups ++ [newGroup groupId]), g.groupName = "iprotate".toList := by
    rw [hroles]
    intro g hg
    obtain rfl := List.mem_singleton.1 hg
    rfl
  have hdistinct : ((groups ++ [newGroup groupId]).map (·.groupId)).Nodup := hid ▸ hproper.distinct_append
  have hlast : (roleGroups (groups ++ [newGroup groupId])).getLast? = some (newGroup groupId) := by rw [hroles]; rfl
  have hopen : Open (allowed groupId (newGroup groupId)).ipPermissions :=
    open_allowed (g := newGroup groupId) fun _ h => by cases h
  refine ⟨_, w', hrun, ⟨?_, ?_, ?_⟩, fun a' hec2' => ?_⟩
  · rw [if_neg, newCalls_eq hcalls]
    · simp
    · rintro ⟨g, hg, -⟩
      rw [hnone] at hg
      cases hg
  · obtain ⟨-, r, hr, hgroups⟩ := hin'
    refine ⟨r, allowed groupId (newGroup groupId), hr, ?_, ?_, ?_, allTraffic_open hopen⟩
    · rw [hgroups]
      exact List.mem_map_of_mem (List.mem_append_right _ (List.mem_singleton.2 rfl))
    · rw [groupId_allowed]
      rfl
    · rw [groupName_allowed]
      rfl
  · intro groupId' hmem g hg hgid
    rw [newCalls_eq hcalls] at hmem
    obtain rfl : groupId' = groupId := by simpa using hmem
    exact absurd (hgid.trans hid) (hproper.fresh g hg _ (Nat.le_refl _))
  · obtain ⟨w'', hrun', -, -, hidle⟩ := idle_of_open hec2' hin' (named_allowed hnamed groupId)
      (last_allowed hlast groupId) (distinct_allowed hdistinct groupId) hopen
    exact ⟨_, w'', hrun', hidle⟩

section Found

variable (hec2 : a.ec2 = some client) (hin : In client groups w)
  (hnamed : ∀ g ∈ roleGroups groups, g.groupName = "iprotate".toList) (hlast : (roleGroups groups).getLast? = some g)
  (hdistinct : (groups.map (·.groupId)).Nodup)

include hec2 hin hnamed hlast hdistinct

/-- The group is there and open. -/
theorem converges_open (hopen : Open g.ipPermissions) : Converges a client groups w := by
  have hg : g ∈ roleGroups groups := List.mem_of_getLast? hlast
  obtain ⟨w', hrun, hin', hcalls, hidle⟩ := idle_of_open hec2 hin hnamed hlast hdistinct hopen
  refine ⟨_, w', hrun, ⟨?_, ?_, ?_⟩, fun a' hec2' => ?_⟩
  · rw [if_pos ⟨g, hg, hnamed g hg⟩]
    exact List.count_eq_zero.2 fun hmem => (hidle _ hmem).1 rfl
  · obtain ⟨-, r, hr, rfl⟩ := hin'
    exact ⟨r, g, hr, (List.mem_filter.1 hg).1, rfl, hnamed g hg, allTraffic_open hopen⟩
  · exact fun groupId hmem => absurd rfl ((hidle _ hmem).2 groupId)
  · obtain ⟨w'', hrun', -, -, hidle'⟩ := idle_of_open hec2' hin' hnamed hlast hdistinct hopen
    exact ⟨_, w'', hrun', hidle'⟩

/-- The group is there and says nothing about all protocols: it is opened. -/
theorem converges_untouched (huntouched : Untouched g.ipPermissions) : Converges a client groups w := by
  have hg : g ∈ roleGroups groups := List.mem_of_getLast? hlast
  have hmem : g ∈ groups := (List.mem_filter.1 hg).1
  obtain ⟨w₁, hin₁, hcalls₁, hrun₁⟩ := run_found hec2 hin hnamed hlast hdistinct
  obtain ⟨w', hrun', hin', hcalls'⟩ := finish_add (a := a) hin₁ hmem hdistinct (allowsAll_untouched huntouched)
    (allTraffic_untouched huntouched)
  have hcalls : w'.calls = w.calls ++ [(.aws client (.describeSecurityGroups []), false),
      (.aws client (.describeSecurityGroups [g.groupId]), false),
      (.aws client (.authorizeSecurityGroupIngress g.groupId), false)] := by
    rw [hcalls', hcalls₁, List.append_assoc]
    rfl
  have hopen := open_allowed huntouched
  refine ⟨_, w', hrun₁.trans hrun', ⟨?_, ?_, ?_⟩, fun a' hec2' => ?_⟩
  · rw [if_pos ⟨g, hg, hnamed g hg⟩, newCalls_eq hcalls]
    simp
  · obtain ⟨-, r, hr, hgroups⟩ := hin'
    refine ⟨r, allowed g.groupId g, hr, ?_, ?_, ?_, allTraffic_open hopen⟩
    · rw [hgroups]
      exact List.mem_map_of_mem hmem
    · rw [groupId_allowed]
    · rw [groupName_allowed]
      exact hnamed g hg
  · intro groupId hmem' g' hg' hgid
    rw [newCalls_eq hcalls] at hmem'
    obtain rfl : groupId = g.groupId := by simpa using hmem'
    rw [List.inj_on_of_nodup_map hdistinct hg' hmem hgid]
    exact allTraffic_untouched huntouched
  · obtain ⟨w'', hrun'', -, -, hidle⟩ := idle_of_open hec2' hin' (named_allowed hnamed g.groupId)
      (last_allowed hlast g.groupId) (distinct_allowed hdistinct g.groupId) hopen
    exact ⟨_, w'', hrun'', hidle⟩

end Found

theorem converges_of_settled (hec2 : a.ec2 = some client) (hfirst : a.securityGroup = none) (hin : In client groups w)
    (hproper : Proper groups w.cloud.nextId) (h : Settled groups) : Converges a client groups w := by
  cases hlast : (roleGroups groups).getLast? with
  | none =>
    have hnone := List.getLast?_eq_none_iff.1 hlast
    exact converges_created hec2 hfirst hin hproper hnone (h.free hnone)
  | some g =>
    rcases h.permissions g hlast with hopen | huntouched
    · exact converges_open hec2 hin h.named hlast hproper.distinct hopen
    · exact converges_untouched hec2 hin h.named hlast hproper.distinct huntouched

/-- **When the method finds or creates its group.** -/
theorem converges_iff (a : Aws) (client : Client) (w : World) (r : Region) (hec2 : a.ec2 = some client)
    (hfirst : a.securityGroup = none) (hcalm : Calm w) (hr : w.cloud.region? client.region = some r)
    (hproper : Proper r.securityGroups w.cloud.nextId) :
    Converges a client r.securityGroups w ↔ Settled r.securityGroups := by
  have hin : In client r.securityGroups w := ⟨hcalm, r, hr, rfl⟩
  refine ⟨?_, converges_of_settled hec2 hfirst hin hproper⟩
  rintro ⟨b, w', hrun, hfinds, hsecond⟩
  obtain ⟨b', w'', hrun', hidle⟩ := hsecond a hec2
  have hnamed : ∀ g ∈ roleGroups r.securityGroups, g.groupName = "iprotate".toList := by
    intro g hg
    by_contra hname
    -- the second call makes a group, as the first one did
    have hother := Other.createSecurityGroup hec2 w ⟨r, hr, g, hg, hname⟩
    have hcalm' := (frame_calm.createSecurityGroup a).keeps w hcalm
    rw [hrun] at hother hcalm'
    have hlogged := run_other hec2 hcalm' hother
    rw [hrun'] at hlogged
    exact (hidle _ (not_idle hlogged rfl)).1 rfl
  refine ⟨hnamed, fun hnone g hg hname => ?_, fun g hlast => ?_⟩
  · obtain ⟨e, w₁, herror⟩ := run_taken hec2 hfirst hin hnone hg hname
    rw [hrun] at herror
    cases herror
  · have hg : g ∈ r.securityGroups := (List.mem_filter.1 (List.mem_of_getLast? hlast)).1
    obtain ⟨w₁, hin₁, hcalls₁, hrun₁⟩ := run_found hec2 hin hnamed hlast hproper.distinct
    rw [hrun] at hrun₁
    by_cases hopen : Open g.ipPermissions
    · exact .inl hopen
    right
    by_contra htouched
    cases hallows : allowsAll g.ipPermissions with
    | error e =>
      rw [finish, hallows] at hrun₁
      cases hrun₁
    | ok allows =>
      cases allows with
      | true => exact hopen (allowsAll_eq_true.1 hallows)
      | false =>
        cases hall : Region.allTraffic g.ipPermissions with
        | true =>
          obtain ⟨e, w₂, herror⟩ := finish_refused (a := a) hin₁ hg hallows hall
          rw [herror] at hrun₁
          cases hrun₁
        | false =>
          -- the rule goes to the end of a permission, where the second call does not find it
          obtain ⟨w₂, hadd, hin', -⟩ := finish_add (a := a) hin₁ hg hproper.distinct hallows hall
          rw [hadd] at hrun₁
          cases hrun₁
          obtain ⟨w₃, -, hcalls₃, hrun₃⟩ := run_found hec2 hin' (named_allowed hnamed g.groupId)
            (last_allowed hlast g.groupId) (distinct_allowed hproper.distinct g.groupId)
          have hnot : allowsAll (allowed g.groupId g).ipPermissions = .ok false := by
            rw [allowed, if_pos rfl]
            exact allowsAll_add_touched hallows htouched
          have hlogged := change_logs client (.authorizeSecurityGroupIngress (allowed g.groupId g).groupId)
            (·.authorizeAll (allowed g.groupId g).groupId) w₃
          have hend : Logged w₃.calls
              (.aws client (.authorizeSecurityGroupIngress (allowed g.groupId g).groupId)) w'' := by
            rw [show w'' = _ from congrArg Prod.snd (hrun'.symm.trans hrun₃), finish, hnot]
            exact Keeps.after (fun _ => .pure _) hlogged
          obtain ⟨log, hcalls, hmem⟩ := hend
          rw [hcalls₃, List.append_assoc] at hcalls
          have hmem' : .aws client (.authorizeSecurityGroupIngress (allowed g.groupId g).groupId) ∈
              newCalls w' w'' := by
            rw [newCalls_eq hcalls, List.map_append]
            exact List.mem_append_right _ hmem
          exact (hidle _ hmem').2 _ rfl

/-- A region with a group that the program made and opened. -/
def openedRegion : Region :=
  { Region.empty with securityGroups := [⟨"sg-a", "iprotate", [("role", "iprotate")],
      [⟨"tcp", [⟨"10.0.0.0/8", none⟩]⟩, ⟨"-1", [⟨"0.0.0.0/0", some "Allow all traffic"⟩]⟩]⟩] }

theorem settled_opened : Settled openedRegion.securityGroups := by
  have hroles : roleGroups openedRegion.securityGroups = openedRegion.securityGroups := by decide
  refine ⟨?_, fun hnone => ?_, fun g hlast => .inl ?_⟩
  · rw [hroles]
    intro g hg
    obtain rfl := List.mem_singleton.1 hg
    rfl
  · rw [hroles] at hnone
    cases hnone
  · rw [hroles] at hlast
    cases hlast
    exact allowsAll_eq_true.1 (by decide)

/-- The ids that are to come end with a digit. -/
theorem proper_single (g : SecurityGroup) (hid : g.groupId = "sg-a".toList) (n : Nat) : Proper [g] n where
  distinct := List.nodup_singleton _
  fresh g' hg' m _ h := by
    obtain rfl := List.mem_singleton.1 hg'
    rw [hid] at h
    have hsame : "sg-".toList ++ "a".toList = "sg-".toList ++ showNat m := h
    have hdigits : "a".toList = showNat m := List.append_cancel_left hsame
    have ha : 'a' ∈ showNat m := hdigits ▸ List.mem_singleton.2 rfl
    exact absurd (ConfigLoader.mem_toString ha) (by decide)

theorem converges_opened :
    Converges (exampleAws "") exampleClient openedRegion.securityGroups (exampleAccount openedRegion) :=
  (converges_iff (exampleAws "") exampleClient (exampleAccount openedRegion) openedRegion rfl rfl
    (fun a ha => by cases ha) rfl (proper_single _ rfl _)).2 settled_opened

/-- A region with a group that has the role, but not the name. -/
def otherRegion : Region := { Region.empty with securityGroups := [⟨"sg-a", "proxies", [("role", "iprotate")], []⟩] }

/-- The first call makes the group `iprotate`, and the second one tries to make it again. -/
theorem other_name_fails : ¬∀ (a : Aws) (client : Client) (w : World) (r : Region), a.ec2 = some client →
    a.securityGroup = none → Calm w → w.cloud.region? client.region = some r →
    Proper r.securityGroups w.cloud.nextId → Converges a client r.securityGroups w := by
  intro h
  obtain ⟨b, w', hrun, -, hsecond⟩ := h (exampleAws "") exampleClient (exampleAccount otherRegion) otherRegion rfl rfl
    (fun a ha => by cases ha) rfl (proper_single _ rfl _)
  obtain ⟨b', w'', hrun', -⟩ := hsecond (exampleAws "") rfl
  have hfails : ((exampleAws "").createSecurityGroup
      ((exampleAws "").createSecurityGroup (exampleAccount otherRegion)).2).1.toOption.isSome = false := by
    decide +kernel
  rw [hrun, hrun'] at hfails
  cases hfails

end SecurityGroups
end Iprotate
