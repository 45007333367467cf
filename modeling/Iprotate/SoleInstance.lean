import Iprotate.AlwaysLoads
import Iprotate.Launches

/-!
# One instance for a profile

A profile has an account of its own, in which each task may leave an instance: a launch goes wrong after the instance is
there, a termination stops halfway, or the file cannot be written. In spite of that no instance is lost.

- The account is sane (`Sane`) when every reservation is of one instance and no two instances of a region have an id in
  common. It is solo in a region (`Solo`) when besides it has one live instance at most, which is in this region.
- What a task does before it terminates all and after that keeps the region of the file; while it is changed nothing
  lives (`Dead`).
- So after any requests and tasks there is one live instance at most, and the file leads to it (`one_instance`).
-/

namespace Iprotate
namespace SoleInstance

open ConfigParser Loader ConfigLoader Py Prog Events Provenance

variable {T T' : Str → Str → Prop} {c R : Str} {cloud : Cloud} {w w' : World} {p : ConfigParser} {aws : AwsConfig}

/-! ## The account -/

/-- Every live instance is in a region, and has an id, as `T` says. -/
def OnlyLive (T : Str → Str → Prop) (cloud : Cloud) : Prop :=
  ∀ region r, cloud.region? region = some r → ∀ i ∈ r.instances, i.state.live = true → T region i.id.text

/-- Reservations are of one instance, and ids are given once; `n` is the number in the next one. -/
structure SaneRegion (n : Nat) (r : Region) : Prop where
  single : ∀ is ∈ r.reservations, is.length = 1
  nodup : (r.instances.map (·.id.text)).Nodup
  fresh : Launches.Fresh r n

def Sane (cloud : Cloud) : Prop := ∀ region r, cloud.region? region = some r → SaneRegion cloud.nextId r

/-- The account is sane, and lives as `T` says. -/
structure Lives (T : Str → Str → Prop) (cloud : Cloud) : Prop where
  sane : Sane cloud
  live : OnlyLive T cloud

/-- There is one live instance at most, in this region. -/
def Solo (R : Str) (cloud : Cloud) : Prop := ∃ id, Lives (fun region x => region = R ∧ x = id) cloud

/-- Nothing lives. -/
def Dead (cloud : Cloud) : Prop := Lives (fun _ _ => False) cloud

theorem OnlyLive.mono (h : OnlyLive T cloud) (hT : ∀ region x, T region x → T' region x) : OnlyLive T' cloud :=
  fun region r hr i hi hl => hT _ _ (h region r hr i hi hl)

theorem Lives.mono (h : Lives T cloud) (hT : ∀ region x, T region x → T' region x) : Lives T' cloud :=
  ⟨h.sane, h.live.mono hT⟩

theorem SaneRegion.mono {n m : Nat} {r : Region} (h : SaneRegion n r) (hn : n ≤ m) : SaneRegion m r :=
  ⟨h.single, h.nodup, fun i hi k hk => h.fresh i hi k (Nat.le_trans hn hk)⟩

/-- Instances are changed, but for their ids. -/
theorem SaneRegion.map {n : Nat} {r r' : Region} (h : SaneRegion n r) {f : Instance → Instance}
    (hf : ∀ i, (f i).id = i.id) (hr : r'.reservations = r.reservations.map (List.map f)) : SaneRegion n r' := by
  have hinstances : r'.instances = r.instances.map f := by
    rw [Region.instances, hr, ← List.map_flatten, ← Region.instances]
  refine ⟨fun is his => ?_, ?_, fun i hi => ?_⟩
  · obtain ⟨js, hjs, rfl⟩ := List.mem_map.1 (hr ▸ his)
    rw [List.length_map, h.single js hjs]
  · have hids : r'.instances.map (·.id.text) = r.instances.map (·.id.text) := by
      rw [hinstances, List.map_map]
      exact List.map_congr_left fun i _ => congrArg _ (hf i)
    exact hids ▸ h.nodup
  · obtain ⟨j, hj, rfl⟩ := List.mem_map.1 (hinstances ▸ hi)
    rw [hf]
    exact h.fresh j hj

/-- One region has changed. -/
theorem Sane.setRegion {name : Str} {r r' : Region} (h : Sane cloud) (hr : cloud.region? name = some r)
    (hr' : SaneRegion cloud.nextId r') : Sane (cloud.setRegion name r') := by
  intro region s hs
  by_cases hn : name = region
  · subst hn
    rw [Cloud.region?_setRegion_self (Cloud.isResourceName_of_region? hr)] at hs
    cases hs
    exact hr'
  · rw [Cloud.region?_setRegion_ne hn] at hs
    exact h region s hs

theorem OnlyLive.setRegion {name : Str} {r r' : Region} (hr : cloud.region? name = some r)
    (h : ∀ region s, region ≠ name → cloud.region? region = some s → ∀ i ∈ s.instances, i.state.live = true →
      T region i.id.text) (hr' : ∀ i ∈ r'.instances, i.state.live = true → T name i.id.text) :
    OnlyLive T (cloud.setRegion name r') := by
  intro region s hs
  by_cases hn : name = region
  · subst hn
    rw [Cloud.region?_setRegion_self (Cloud.isResourceName_of_region? hr)] at hs
    cases hs
    exact hr'
  · rw [Cloud.region?_setRegion_ne hn] at hs
    exact h region s (Ne.symm hn) hs

/-- Instances are changed in one region, but for their ids. -/
theorem OnlyLive.map {name : Str} {r r' : Region} {f : Instance → Instance} (h : OnlyLive T cloud)
    (hr : cloud.region? name = some r) (hr' : r'.reservations = r.reservations.map (List.map f))
    (hT : ∀ region x, region ≠ name → T region x → T' region x)
    (hf : ∀ i ∈ r.instances, (f i).state.live = true → (i.state.live = true → T name i.id.text) →
    T' name (f i).id.text) :
    OnlyLive T' (cloud.setRegion name r') := by
  refine .setRegion hr (fun region s hne hs i hi hl => hT _ _ hne (h region s hs i hi hl)) fun j hj hl => ?_
  have hinstances : r'.instances = r.instances.map f := by
    rw [Region.instances, hr', ← List.map_flatten, ← Region.instances]
  obtain ⟨i, hi, rfl⟩ := List.mem_map.1 (hinstances ▸ hj)
  exact hf i hi hl (h name r hr i hi)

theorem Lives.calm {name : Str} {r r' : Region} (h : Lives T cloud) (hr : cloud.region? name = some r)
    (hcalm : r.Calm r') :
    Lives T (cloud.setRegion name r') := by
  obtain ⟨f, hf, hr'⟩ := hcalm
  refine ⟨h.sane.setRegion hr ((h.sane name r hr).map (fun i => (hf i).1) hr'), ?_⟩
  refine h.live.map hr hr' (fun _ _ _ h => h) fun i _ hl hT => ?_
  rw [(hf i).1]
  exact hT ((hf i).2 ▸ hl)

/-- What is terminated does not live. -/
theorem Lives.terminate {name id : Str} {r : Region} (h : Lives T cloud) (hr : cloud.region? name = some r)
    (hT : ∀ region x, T region x → T' region x ∨ region = name ∧ x = id) :
    Lives T' (cloud.setRegion name (r.terminate id)) := by
  have hid : ∀ i : Instance, (if i.id.text = id then
      { i with state := if i.state = .terminated then .terminated else .shuttingDown } else i).id = i.id :=
    fun i => by split <;> rfl
  refine ⟨h.sane.setRegion hr ((h.sane name r hr).map hid rfl), ?_⟩
  refine h.live.map hr rfl (fun region x hne hx => (hT region x hx).resolve_right fun h => hne h.1) fun i _ hl hi => ?_
  rw [hid]
  split at hl
  · dsimp only at hl
    split at hl <;> cases hl
  · rename_i hne
    exact (hT name _ (hi hl)).resolve_right fun h => hne h.2

/-- A name was taken for an instance. -/
def Named (n : Nat) (cloud : Cloud) : Prop :=
  cloud.nextId = n + 1 ∧ (∀ region r, cloud.region? region = some r → SaneRegion n r) ∧
    OnlyLive (fun _ _ => False) cloud

theorem Dead.named (h : Dead cloud) : Named cloud.nextId { cloud with nextId := cloud.nextId + 1 } :=
  ⟨rfl, h.sane, h.live⟩

theorem Named.dead {n : Nat} (h : Named n cloud) : Dead cloud :=
  ⟨fun region r hr => h.1 ▸ (h.2.1 region r hr).mono (Nat.le_succ n), h.2.2⟩

/-- The instance of this name lives, in this region. -/
theorem Named.launch {n : Nat} {r : Region} {i : Instance} (h : Named n cloud) (hr : cloud.region? R = some r)
    (hi : i.id = newInstanceId n) :
    Lives (fun region x => region = R ∧ x = (newInstanceId n).text) (cloud.setRegion R (r.launch i)) := by
  have hinstances : (r.launch i).instances = r.instances ++ [i] := by simp [Region.instances, Region.launch]
  obtain ⟨hsingle, hnodup, hfresh⟩ := h.2.1 R r hr
  refine ⟨h.dead.sane.setRegion hr ?_, .setRegion hr (fun region s _ hs j hj hl => (h.2.2 region s hs j hj hl).elim) ?_⟩
  · rw [h.1]
    refine ⟨fun is his => ?_, ?_, fun j hj m hm => ?_⟩
    · rcases List.mem_append.1 his with his | his
      · exact hsingle is his
      · obtain rfl := List.mem_singleton.1 his
        rfl
    · rw [hinstances, List.map_append, List.map_singleton, ← List.concat_eq_append]
      refine hnodup.concat fun hm => ?_
      obtain ⟨j, hj, hid⟩ := List.mem_map.1 hm
      exact hfresh j hj n (Nat.le_refl _) (hid.trans (by rw [hi]))
    · rcases List.mem_append.1 (hinstances ▸ hj) with hj | hj
      · exact hfresh j hj m (by omega)
      · obtain rfl := List.mem_singleton.1 hj
        rw [hi]
        intro hid
        have heq : n = m := showNat_injective (List.append_cancel_left hid)
        omega
  · intro j hj hl
    rcases List.mem_append.1 (hinstances ▸ hj) with hj | hj
    · exact (h.2.2 R r hr j hj hl).elim
    · obtain rfl := List.mem_singleton.1 hj
      exact ⟨rfl, by rw [hi]⟩

/-- The one instance is started. -/
theorem Lives.start {id : Str} {r : Region} (h : Lives (fun region x => region = R ∧ x = id) cloud)
    (hr : cloud.region? R = some r) : Lives (fun region x => region = R ∧ x = id) (cloud.setRegion R (r.start id)) := by
  have hid : ∀ i : Instance, (if i.id.text = id then { i with state := InstanceState.running } else i).id = i.id :=
    fun i => by split <;> rfl
  refine ⟨h.sane.setRegion hr ((h.sane R r hr).map hid rfl), h.live.map hr rfl (fun _ _ _ h => h) fun i _ hl hi => ?_⟩
  rw [hid]
  split at hl
  · rename_i heq
    exact ⟨rfl, heq⟩
  · exact hi hl

theorem keeps_onConfig {α : Type} (K : Cloud → Prop) (m : ConfigFile α) : Keeps (fun w => K w.cloud) (onConfig m) := by
  intro w hw
  unfold onConfig
  split <;> exact hw

/-- A client and a resource for this region. -/
structure Ready (R : Str) (a : Aws) : Prop where
  ec2 : a.ec2 = some a.client
  resource : a.resource = some a.client
  region : a.client.region = R

variable {a b : Aws}

/-- In a sane region every instance is the first of its reservation. -/
theorem mem_firstIds {n : Nat} {r : Region} (h : SaneRegion n r) {i : Instance} (hi : i ∈ r.instances) :
    i.id.text ∈ Terminations.firstIds r.reservations := by
  obtain ⟨is, his, hmem⟩ := List.mem_flatten.1 hi
  obtain ⟨j, rfl⟩ := List.length_eq_one_iff.1 (h.single is his)
  obtain rfl := List.mem_singleton.1 hmem
  exact Terminations.mem_firstIds his

/-- The file is read as `p`, in which no profile has a percent sign, and the profile is loaded from it. -/
structure Fit (c text : Str) (p : ConfigParser) (aws : AwsConfig) : Prop where
  read : ConfigParser.read text = .ok p
  plain : ∀ d ∈ profileNames p, ∀ k r, p.look d k = some r → '%' ∉ r
  mem : c ∈ profileNames p
  loads : Loads c aws text

/-- All but the region is written. -/
def Still (_ k v : Str) : Prop := k ≠ "region".toList ∧ Clean k v

/-- Anything is written. -/
def Any (_ k v : Str) : Prop := Clean k v

/-- Nothing but such writes since the file was `p`. -/
def Since (P : Str → Str → Str → Prop) (p : ConfigParser) : World → Prop := Discipline.Kept (Sourced p P)

variable {P : Str → Str → Str → Prop}

theorem Since.any (h : Since Still p w) : Since Any p w := by
  obtain ⟨q, hq, hs, hn⟩ := h
  exact ⟨q, hq, hs.mono fun _ _ _ h => h.2, hn⟩

/-- Since then the file has stayed fit, and the settings have changed as they may. -/
theorem Fit.later {text : Str} (h : Fit c text p aws) (hw : Since P p w) :
    ∃ q aws', Fit c w.config q aws' ∧ Moved P c aws aws' := by
  obtain ⟨q, hq, hs, hn⟩ := hw
  obtain ⟨l, text', hbuild, -⟩ := h.loads.build
  obtain ⟨-, hloads⟩ := (hs.traced hn).loads h.read hq hbuild h.plain
  obtain ⟨aws₀, aws', hold, hnew, hmoved⟩ := hloads c h.mem
  obtain rfl := h.loads.unique hold
  have hnames : profileNames q = profileNames p := profileNames_congr hs.names
  exact ⟨q, aws', ⟨hq, hnames ▸ hs.plain, hnames ▸ h.mem, hnew⟩, hmoved⟩

/-- The profile is in its place: from the file one gets to its instance. -/
def Sole (c : Str) (w : World) : Prop := ∃ p aws, Fit c w.config p aws ∧ Solo aws.region w.cloud

theorem Fit.any {text : Str} (h : Fit c text p aws) : Discipline (profileNames p) Any (Sourced p Any) :=
  discipline (read_normal h.read) fun _ _ _ h => h

theorem attempt {m : Py TaskResult} {P : World → Prop} (hm : Triple P m (fun _ => Sole c) (fun _ => Sole c)) :
    Triple P (RunTask.attempt m) (fun _ => Sole c) (fun _ => Sole c) := .tryCatch hm fun _ => .pure fun _ hw => hw

end SoleInstance
end Iprotate
