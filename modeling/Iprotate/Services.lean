import Iprotate.ProfileFiles
import Iprotate.SecurityGroups

/-!
# Stopping all services

`ServiceManager.reset_all` goes through the units of systemd and stops the running ones of the program, whose names it
takes apart at `@` and at the full stop.

- It reads the part between the first `@` and the next `@` or full stop (`parseName_eq`).
- So it stops the running units of the program, and no other, exactly if none of their names has a further `@` or full
  stop before `.service` (`resets_all_iff`).
- The service of a profile `my.vps` goes on, and one that is not there is stopped in its place (`dotted_goes_on`).
-/

namespace Iprotate
namespace Services

open Py Prog Firewall SecurityGroups ConfigLoader

/-- A unit that `ListUnits` lists. -/
structure SystemdUnit where
  name : Str
  subState : Str
  deriving DecidableEq, Repr

/-- `service.split("@")[1].split(".")[0]` -/
def parseName (service : Str) : Option Str := (service.splitOn '@')[1]?.map fun rest => (rest.splitOn '.').headD []

/-- `service.startswith("iprotate@")` -/
def isProgramUnit (service : Str) : Bool := "iprotate@".toList.isPrefixOf service

/-- One round of the loop of `reset_all`. -/
def resetService (service : Str) : Py Unit :=
  if isProgramUnit service then
    match parseName service with
    | some serviceName => do
      let manager ← ServiceManager.init serviceName
      manager.stop
    | none => throw .indexError
  else return

/-- The units in the sub-state `running`. -/
def runningServices (units : List SystemdUnit) : List Str := (units.filter (·.subState = "running".toList)).map (·.name)

/-- `reset_all` from the answer of `ListUnits` on. -/
def resetAll (units : List SystemdUnit) : Py Unit := Prog.each resetService (runningServices units)

/-! ## What is to be stopped -/

/-- The unit of a service. -/
def unitOf (service : Str) : Str := service ++ ".service"

/-- The running units of the program. -/
def programUnits (units : List SystemdUnit) : List Str := (runningServices units).filter isProgramUnit

/-- The unit was stopped between the two states. -/
def Stopped (w w' : World) (unit : Str) : Prop :=
  ∃ service, .systemd service .stop ∈ newCalls w w' ∧ unitOf service = unit

/-- A unit whose service can be read off its name. -/
def Readable (unit : Str) : Prop := ∃ n : Str, unit = unitOf ("iprotate@" ++ n) ∧ '@' ∉ n ∧ '.' ∉ n

/-! ## The name -/

variable {w : World} {units : List SystemdUnit}

theorem isProgramUnit_iff {service : Str} : isProgramUnit service = true ↔ ∃ t, service = "iprotate@".toList ++ t := by
  rw [isProgramUnit, List.isPrefixOf_iff_prefix]
  exact ⟨fun ⟨t, h⟩ => ⟨t, h.symm⟩, fun ⟨t, h⟩ => ⟨t, h.symm⟩⟩

theorem parseName_eq (t : Str) :
    parseName ("iprotate@" ++ t) = some ((t.takeWhile (· ≠ '@')).takeWhile (· ≠ '.')) := by
  have hprefix : ("iprotate@" : Str) = "iprotate".toList ++ ['@'] := by decide
  have hplain : '@' ∉ ("iprotate" : Str) := by decide
  obtain ⟨rest, hrest⟩ := Shell.splitOn_eq_takeWhile '@' t
  obtain ⟨rest', hrest'⟩ := Shell.splitOn_eq_takeWhile '.' (t.takeWhile (· ≠ '@'))
  rw [parseName, hprefix, List.append_assoc, List.singleton_append, List.splitOn_append_cons_self_of_not_mem hplain,
    hrest]
  show some (((t.takeWhile (· ≠ '@')).splitOn '.').headD []) = _
  rw [hrest']
  rfl

/-- What is read has neither of the separators. -/
theorem readable_parseName (t : Str) :
    '@' ∉ (t.takeWhile (· ≠ '@')).takeWhile (· ≠ '.') ∧ '.' ∉ (t.takeWhile (· ≠ '@')).takeWhile (· ≠ '.') := by
  refine ⟨fun h => ?_, fun h => ?_⟩
  · simpa using List.mem_takeWhile_imp (List.takeWhile_subset _ h)
  · simpa using List.mem_takeWhile_imp h

/-- The name of a unit is read back exactly if it has neither. -/
theorem parseName_unitOf {n : Str} : parseName (unitOf ("iprotate@" ++ n)) = some n ↔ '@' ∉ n ∧ '.' ∉ n := by
  have hname : unitOf ("iprotate@".toList ++ n) = "iprotate@".toList ++ (n ++ ".service".toList) :=
    List.append_assoc _ _ _
  rw [hname, parseName_eq]
  constructor
  · intro h
    have hread := readable_parseName (n ++ ".service".toList)
    rwa [Option.some.inj h] at hread
  · rintro ⟨hat, hdot⟩
    have hservice : (".service" : Str) = '.' :: "service".toList := by decide
    have hno : ∀ x ∈ n ++ ".service".toList, decide (x ≠ '@') = true := by
      have hs : ∀ x ∈ (".service" : Str), decide (x ≠ '@') = true := by decide
      intro x hx
      exact (List.mem_append.1 hx).elim (fun hx => decide_eq_true fun he => hat (he ▸ hx)) (hs x)
    have hn : ∀ x ∈ n, decide (x ≠ '.') = true := fun x hx => decide_eq_true fun he => hdot (he ▸ hx)
    rw [List.takeWhile_eq_self_iff.2 hno, List.takeWhile_append_of_pos hn, hservice]
    simp

/-! ## The loop -/

/-- The service that is stopped for a unit. -/
def readService (unit : Str) : Str := "iprotate@" ++ (parseName unit).getD []

/-- The calls for a unit. -/
def stopCalls (unit : Str) : List (Call × Bool) :=
  [(.systemd (readService unit) .new, false), (.systemd (readService unit) .stop, false)]

/-- One round without exceptions. -/
theorem run_resetService (service : Str) (hcalm : Calm w) : ∃ w', resetService service w = (.ok (), w') ∧ Calm w' ∧
    w'.calls = w.calls ++ if isProgramUnit service then stopCalls service else [] := by
  by_cases hprogram : isProgramUnit service = true
  · obtain ⟨t, ht⟩ := isProgramUnit_iff.1 hprogram
    have hparse := ht ▸ parseName_eq t
    obtain ⟨_, script, hnew, hscript⟩ := call_calm hcalm (.systemd (readService service) .new)
    have hcalm₁ : Calm (w.called (.systemd (readService service) .new) false script) :=
      fun a ha => hcalm a (hscript a ha)
    obtain ⟨_, script', hstop, hscript'⟩ := call_calm hcalm₁ (.systemd (readService service) .stop)
    refine ⟨(w.called (.systemd (readService service) .new) false script).called (.systemd (readService service) .stop)
      false script', ?_, fun a ha => hcalm₁ a (hscript' a ha), ?_⟩
    · have hinit : ServiceManager.init ((t.takeWhile (· ≠ '@')).takeWhile (· ≠ '.')) w =
          (.ok ⟨readService service⟩, w.called (.systemd (readService service) .new) false script) := by
        have hread : readService service = "iprotate@".toList ++ (t.takeWhile (· ≠ '@')).takeWhile (· ≠ '.') := by
          unfold readService
          rw [hparse, Option.getD_some]
        rw [hread] at hnew ⊢
        exact (run_bind_ok hnew).trans (run_pure _ _)
      rw [resetService, if_pos hprogram, hparse]
      exact (run_bind_ok hinit).trans ((run_bind_ok hstop).trans (run_pure _ _))
    · rw [if_pos hprogram]
      exact List.append_assoc _ _ _
  · exact ⟨w, by rw [resetService, if_neg hprogram]; rfl, hcalm, by rw [if_neg hprogram, List.append_nil]⟩

theorem run_each :
    ∀ (services : List Str) {w : World}, Calm w → ∃ w', Prog.each resetService services w = (.ok (), w') ∧
    w'.calls = w.calls ++ (services.filter isProgramUnit).flatMap stopCalls
  | [], w, _ => ⟨w, rfl, (List.append_nil _).symm⟩
  | service :: services, w, hcalm => by
    obtain ⟨w₁, hround, hcalm₁, hcalls₁⟩ := run_resetService service hcalm
    obtain ⟨w', hrest, hcalls⟩ := run_each services hcalm₁
    refine ⟨w', (run_bind_ok hround).trans hrest, ?_⟩
    rw [hcalls, hcalls₁, List.append_assoc, List.filter_cons]
    by_cases hprogram : isProgramUnit service = true
    · rw [if_pos hprogram, if_pos hprogram, List.flatMap_cons]
    · rw [if_neg hprogram, if_neg hprogram, List.nil_append]

/-- Every unit of the program makes its service be stopped, and nothing else does. -/
theorem stopped_iff (units : List SystemdUnit) {w' : World}
    (hcalls : w'.calls = w.calls ++ (programUnits units).flatMap stopCalls) (u : Str) :
    Stopped w w' u ↔ ∃ v ∈ programUnits units, unitOf (readService v) = u := by
  rw [Stopped, newCalls_eq hcalls]
  constructor
  · rintro ⟨service, hmem, rfl⟩
    obtain ⟨e, he, hcall⟩ := List.mem_map.1 hmem
    obtain ⟨v, hv, he⟩ := List.mem_flatMap.1 he
    rcases List.mem_cons.1 he with rfl | he
    · cases hcall
    · obtain rfl := List.mem_singleton.1 he
      cases hcall
      exact ⟨v, hv, rfl⟩
  · rintro ⟨v, hv, rfl⟩
    have hstop : (Call.systemd (readService v) .stop, false) ∈ stopCalls v :=
      List.mem_cons_of_mem _ (List.mem_singleton_self _)
    exact ⟨readService v, List.mem_map.2 ⟨_, List.mem_flatMap.2 ⟨v, hv, hstop⟩, rfl⟩, rfl⟩

theorem readable_readService {u : Str} (h : u ∈ programUnits units) : Readable (unitOf (readService u)) := by
  obtain ⟨t, rfl⟩ := isProgramUnit_iff.1 (List.mem_filter.1 h).2
  unfold readService
  rw [parseName_eq, Option.getD_some]
  exact ⟨_, rfl, readable_parseName t⟩

theorem unitOf_readService {u : Str} (h : Readable u) : unitOf (readService u) = u := by
  obtain ⟨n, rfl, hn⟩ := h
  unfold readService
  rw [parseName_unitOf.2 hn, Option.getD_some]

/-! ## The law -/

/-- The unit of a profile. -/
def profileUnit (order : Nat) (c : Str) : Str := unitOf ("iprotate@" ++ profileName (showNat order) c)

theorem readable_profileUnit (order : Nat) (c : Str) : '@' ∉ profileName (showNat order) c ∧
    '.' ∉ profileName (showNat order) c ↔ '@' ∉ c ∧ '.' ∉ c := by
  have hdigit : ∀ x ∈ showNat order, x ≠ '@' ∧ x ≠ '.' := by
    intro x hx
    have hd : x.isDigit = true := mem_toString hx
    exact ⟨fun h => absurd (h ▸ hd) (by decide), fun h => absurd (h ▸ hd) (by decide)⟩
  have hhead : '@' ∉ ("iprotate_" : Str) ∧ '.' ∉ ("iprotate_" : Str) := by decide
  have hunderscore : '@' ∉ ("_" : Str) ∧ '.' ∉ ("_" : Str) := by decide
  have hmem : ∀ x, x ∈ profileName (showNat order) c ↔
      x ∈ "iprotate_".toList ∨ x ∈ showNat order ∨ x ∈ "_".toList ∨ x ∈ c := by
    intro x
    show x ∈ "iprotate_".toList ++ showNat order ++ "_".toList ++ c ↔ _
    rw [List.mem_append, List.mem_append, List.mem_append, or_assoc, or_assoc]
  rw [hmem, hmem, not_or, not_or, not_or, not_or, not_or, not_or]
  have hat : '@' ∉ showNat order := fun h => (hdigit _ h).1 rfl
  have hdot : '.' ∉ showNat order := fun h => (hdigit _ h).2 rfl
  exact ⟨fun ⟨h, h'⟩ => ⟨h.2.2.2, h'.2.2.2⟩, fun ⟨h, h'⟩ =>
    ⟨⟨hhead.1, hat, hunderscore.1, h⟩, hhead.2, hdot, hunderscore.2, h'⟩⟩

/-- **What `reset_all` stops.** It is the running units of the program exactly if all of them are readable; the unit of
a profile is so, and its name is read back, exactly if the profile's name has no `@` and no full stop. -/
theorem resets_all_iff (units : List SystemdUnit) (w : World) (hcalm : Calm w) :
    (∃ w', resetAll units w = (.ok (), w') ∧
      ((∀ u, Stopped w w' u ↔ u ∈ programUnits units) ↔ ∀ u ∈ programUnits units, Readable u)) ∧
    ∀ order c, (parseName (profileUnit order c) = some (profileName (showNat order) c) ↔ '@' ∉ c ∧ '.' ∉ c) ∧
      (Readable (profileUnit order c) ↔ '@' ∉ c ∧ '.' ∉ c) := by
  obtain ⟨w', hrun, hcalls⟩ := run_each (runningServices units) hcalm
  refine ⟨⟨w', hrun, ?_⟩, fun order c => ?_⟩
  · have hstopped := stopped_iff units hcalls
    constructor
    · intro h u hu
      obtain ⟨v, hv, rfl⟩ := (hstopped u).1 ((h u).2 hu)
      exact readable_readService hv
    · intro h u
      rw [hstopped]
      constructor
      · rintro ⟨v, hv, rfl⟩
        rwa [unitOf_readService (h v hv)]
      · exact fun hu => ⟨u, hu, unitOf_readService (h u hu)⟩
  · rw [← readable_profileUnit order c]
    refine ⟨parseName_unitOf, fun ⟨n, hn, hplain⟩ => ?_, fun h => ⟨_, rfl, h⟩⟩
    rwa [List.append_cancel_left (List.append_cancel_right hn)]

/-- Two profiles, one of which runs, and another service. -/
def threeUnits : List SystemdUnit :=
  [⟨"iprotate@iprotate_1_aws1.service", "running"⟩, ⟨"iprotate@iprotate_2_aws2.service", "failed"⟩,
    ⟨"ssh.service", "running"⟩]

theorem resets_threeUnits : ∃ w', resetAll threeUnits exampleWorld = (.ok (), w') ∧
    ∀ u, Stopped exampleWorld w' u ↔ u ∈ programUnits threeUnits := by
  obtain ⟨⟨w', hrun, hiff⟩, -⟩ := resets_all_iff threeUnits exampleWorld fun a ha => by cases ha
  refine ⟨w', hrun, hiff.2 fun u hu => ?_⟩
  have hunits : programUnits threeUnits = ["iprotate@iprotate_1_aws1.service".toList] := by decide
  rw [hunits] at hu
  obtain rfl := List.mem_singleton.1 hu
  exact ⟨"iprotate_1_aws1", by decide, by decide, by decide⟩

/-- The service of the profile `my.vps`, running. -/
def dottedUnits : List SystemdUnit := [⟨profileUnit 1 "my.vps", "running"⟩]

/-- It goes on, and `iprotate@iprotate_1_my.service` is stopped. -/
theorem dotted_goes_on : ¬∀ (units : List SystemdUnit) (w : World), Calm w → ∃ w', resetAll units w = (.ok (), w') ∧
    ∀ u, Stopped w w' u ↔ u ∈ programUnits units := by
  intro h
  obtain ⟨w', hrun, hstops⟩ := h dottedUnits exampleWorld fun a ha => by cases ha
  obtain ⟨u, hrun', hcalls⟩ := run_each (runningServices dottedUnits) (w := exampleWorld) fun a ha => by cases ha
  obtain rfl : w' = u := congrArg Prod.snd (hrun.symm.trans hrun')
  have hmem : profileUnit 1 "my.vps" ∈ programUnits dottedUnits := by decide
  obtain ⟨v, hv, hread⟩ := (stopped_iff dottedUnits hcalls _).1 ((hstops _).2 hmem)
  have hunits : programUnits dottedUnits = [profileUnit 1 "my.vps"] := by decide
  rw [hunits] at hv
  obtain rfl := List.mem_singleton.1 hv
  exact absurd hread (by decide)

end Services
end Iprotate
