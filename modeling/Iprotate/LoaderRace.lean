import Iprotate.Base.Run
import Iprotate.Construction

/-!
# Constructions against committed writes

`config.conf` as one shared cell. A construction reads it once and later overwrites it with its own parser, without
the lock; `write_changes` reads and writes under the lock. Threads are unbounded and their steps interleave freely.
The cell keeps the parser that was written, so the names and values meant are those that a write and a read leave as
they are (`read_write`).

- After a write of section `s`, its values stay until the next write of `s`, provided every construction that is
  still going to write already has them (`committed_stays`).
- Otherwise a construction that read the file before the write takes it back (`construction_reverts`).
-/

namespace Iprotate
namespace LoaderRace

open ConfigParser Loader

/-- A `write_changes` call that holds the lock and has read the file. -/
structure Saving where
  thread : Nat
  /-- The parser of the object it is called on. -/
  object : ConfigParser
  configName : Str
  temp : ConfigParser

structure State where
  cell : ConfigParser
  building : Nat → Option Construction
  saving : Option Saving

inductive Event
  /-- `ConfigLoader()`: the read. -/
  | build (thread : Nat)
  /-- A write of a construction. -/
  | rewrite (thread : Nat)
  /-- `write_changes`: take the lock and read. -/
  | lock (thread : Nat) (object : ConfigParser) (configName : Str)
  /-- `write_changes` for this section: write, or raise, and release the lock. -/
  | commit (configName : Str)

def start (file : ConfigParser) : State := ⟨file, fun _ => none, none⟩

/-- The thread is not inside a construction or a `write_changes`. -/
def State.Free (σ : State) (t : Nat) : Prop := (σ.building t).isNone ∧ ∀ w, σ.saving = some w → w.thread ≠ t

instance (σ : State) (t : Nat) : Decidable (σ.Free t) := by
  unfold State.Free
  cases σ.saving with
  | none => exact decidable_of_iff ((σ.building t).isNone) (by simp)
  | some w => exact decidable_of_iff ((σ.building t).isNone ∧ w.thread ≠ t) (by simp)

def step (σ : State) : Event → Option State
  | .build t =>
    if σ.Free t then some { σ with building := Function.update σ.building t (Construction.start σ.cell) } else none
  | .rewrite t => do
    let c ← σ.building t
    match c.next with
    | some (p, rest) => some { σ with cell := p, building := Function.update σ.building t rest }
    | none => some { σ with building := Function.update σ.building t none }
  | .lock t object configName =>
    if σ.Free t ∧ σ.saving.isNone then some { σ with saving := some ⟨t, object, configName, σ.cell⟩ } else none
  | .commit configName => do
    let w ← σ.saving
    if w.configName = configName then
      match mergeSection w.object w.temp configName with
      | .ok p => some { σ with cell := p, saving := none }
      | .error _ => some { σ with saving := none }
    else none

/-! ## What a commit leaves -/

/-- The value is in the file, in every construction that may still write, and in every read of a writer of another
section. -/
structure Holds (s k v : Str) (σ : State) : Prop where
  cell : σ.cell.raw s k = some v
  building : ∀ t c, σ.building t = some c → c.config.raw s k = some v
  saving : ∀ w, σ.saving = some w → w.configName ≠ s → w.temp.raw s k = some v

/-- Constructions number profile sections only. -/
def Profiles (σ : State) : Prop := ∀ t c, σ.building t = some c → c.Profiles

theorem update_some {building : Nat → Option Construction} {t u : Nat} {r : Option Construction} {c : Construction}
    (h : Function.update building t r u = some c) : r = some c ∨ building u = some c := by
  by_cases hu : u = t
  · subst hu
    rw [Function.update_self] at h
    exact .inl h
  · rw [Function.update_of_ne hu] at h
    exact .inr h

theorem Profiles.step {σ σ' : State} {e : Event} (hσ : Profiles σ) (h : step σ e = some σ') : Profiles σ' := by
  cases e with
  | build t =>
    simp only [LoaderRace.step] at h
    split at h
    · cases h
      intro u c hc
      exact (update_some hc).elim (fun h => (Construction.Profiles.start h).2) (hσ u c)
    · cases h
  | rewrite t =>
    obtain ⟨c, hc, h⟩ := Option.bind_eq_some_iff.1 h
    split at h
    · rename_i p rest hn
      cases h
      intro u c' hc'
      refine (update_some hc').elim (fun hr => ?_) (hσ u c')
      obtain ⟨_, _, _, _, hrest⟩ := Construction.next_cases hn
      exact fun hm => hσ t c hc ((hrest c' hr).1 _ hm)
    · cases h
      intro u c' hc'
      exact (update_some hc').elim (fun h => by cases h) (hσ u c')
  | lock t object configName =>
    simp only [LoaderRace.step] at h
    split at h
    · cases h; exact hσ
    · cases h
  | commit configName =>
    obtain ⟨w, hw, h⟩ := Option.bind_eq_some_iff.1 h
    split at h
    · split at h <;> (cases h; exact hσ)
    · cases h

/-- Any event but a commit of the section keeps the value. -/
theorem Holds.step {s k v : Str} {σ σ' : State} {e : Event} (hk : ¬(k = optionxform "order" ∧ s ≠ apiSection))
    (hprof : Profiles σ) (hσ : Holds s k v σ) (he : e ≠ .commit s) (h : step σ e = some σ') : Holds s k v σ' := by
  cases e with
  | build t =>
    simp only [LoaderRace.step] at h
    split at h
    · cases h
      refine ⟨hσ.cell, fun u c hc => ?_, hσ.saving⟩
      refine (update_some hc).elim (fun h => ?_) (hσ.building u c)
      rw [(Construction.Profiles.start h).1]
      exact hσ.cell
    · cases h
  | rewrite t =>
    obtain ⟨c, hc, h⟩ := Option.bind_eq_some_iff.1 h
    split at h
    · rename_i p rest hn
      cases h
      obtain ⟨hp, hrest⟩ := Construction.next_raw hn (hprof t c hc) hk (hσ.building t c hc)
      refine ⟨hp, fun u c' hc' => ?_, hσ.saving⟩
      exact (update_some hc').elim (fun h => (hrest c' h).1) (hσ.building u c')
    · cases h
      refine ⟨hσ.cell, fun u c' hc' => ?_, hσ.saving⟩
      exact (update_some hc').elim (fun h => by cases h) (hσ.building u c')
  | lock t object configName =>
    simp only [LoaderRace.step] at h
    split at h
    · cases h
      refine ⟨hσ.cell, hσ.building, fun w hw _ => ?_⟩
      cases hw
      exact hσ.cell
    · cases h
  | commit configName =>
    obtain ⟨w, hw, h⟩ := Option.bind_eq_some_iff.1 h
    have hne : configName ≠ s := fun hs => he (by rw [hs])
    split at h
    · rename_i hname
      split at h
      · rename_i p hp
        cases h
        refine ⟨?_, hσ.building, fun w hw => by cases hw⟩
        rw [raw_mergeSection_ne hp hne]
        exact hσ.saving w hw (by rw [hname]; exact hne)
      · cases h
        exact ⟨hσ.cell, hσ.building, fun w hw => by cases hw⟩
    · cases h

/-! ## Runs -/

/-- The writer that holds the lock is about to write `v` for option `k` of section `s`. -/
def Commits (σ : State) (s k v : Str) : Prop :=
  ∃ w p, σ.saving = some w ∧ w.configName = s ∧ w.object.get s k = .ok v ∧ mergeSection w.object w.temp s = .ok p

instance (σ : State) (s k v : Str) : Decidable (Commits σ s k v) :=
  decidable_of_iff (σ.saving.any fun w => decide (w.configName = s) && decide ((w.object.get s k).toOption = some v) &&
      (mergeSection w.object w.temp s).toOption.isSome) (by
    unfold Commits
    cases σ.saving with
    | none => simp
    | some w =>
      cases hg : w.object.get s k <;> cases hm : mergeSection w.object w.temp s <;>
        simp [hg, hm, Except.toOption])

/-- Whatever is committed for an option that constructions do not number, every construction that is still going to
write already has. -/
def Settled (σ : State) : Event → Prop
  | .commit s => ∀ k v, optionxform k = k → ¬(k = optionxform "order" ∧ s ≠ apiSection) → Commits σ s k v →
      ∀ t c, σ.building t = some c → c.config.raw s k = some v
  | _ => True

/-- The event does not write section `s` through `write_changes`. -/
def Spares (s : Str) (σ : State) (e : Event) : Prop :=
  e = .commit s → ∀ w p, σ.saving = some w → mergeSection w.object w.temp s ≠ .ok p

/-- What is read from an object is among the options a write copies. -/
theorem mem_options_of_get {p : ConfigParser} {s k v : Str} (h : p.get s k = .ok v) :
    optionxform k ∈ (p.options s).map optionxform := by
  obtain ⟨_, w, hw, _⟩ := get_eq_ok.1 h
  exact List.mem_map.2 ⟨optionxform k, mem_options_of_look hw, Text.lower_lower k⟩

/-- A settled commit leaves the value everywhere. -/
theorem Holds.commit {s k v : Str} {σ σ' : State} (hs : Ordinary s) (hlow : optionxform k = k)
    (hk : ¬(k = optionxform "order" ∧ s ≠ apiSection)) (hset : Settled σ (.commit s)) (hc : Commits σ s k v)
    (h : LoaderRace.step σ (.commit s) = some σ') : Holds s k v σ' := by
  obtain ⟨w, p, hw, hname, hv, hp⟩ := hc
  obtain ⟨w', hw', h⟩ := Option.bind_eq_some_iff.1 h
  rw [hw] at hw'
  cases hw'
  rw [if_pos hname, hp] at h
  cases h
  refine ⟨?_, fun t c hb => hset k v hlow hk ⟨w, p, hw, hname, hv, hp⟩ t c hb, fun w hw => by cases hw⟩
  have hmem := mem_options_of_get hv
  rw [hlow] at hmem
  rw [(Merged.of_eq hs hp).raw_self, if_pos hmem, hv]
  rfl

theorem Spares.step {s k v : Str} {σ σ' : State} {e : Event} (hk : ¬(k = optionxform "order" ∧ s ≠ apiSection))
    (hprof : Profiles σ) (hσ : Holds s k v σ) (he : Spares s σ e) (h : LoaderRace.step σ e = some σ') :
    Holds s k v σ' := by
  by_cases hc : e = .commit s
  · subst hc
    obtain ⟨w, hw, h⟩ := Option.bind_eq_some_iff.1 h
    split at h
    · split at h
      · rename_i p hp
        exact absurd hp (he rfl w p hw)
      · cases h
        exact ⟨hσ.cell, hσ.building, fun w hw => by cases hw⟩
    · cases h
  · exact hσ.step hk hprof hc h

/-- **Committed values stay.** In a run whose commits are all settled, the file holds every value that was committed,
for an option constructions do not number, until the section is written again. -/
theorem committed_stays {file : ConfigParser} {before after : List Event} {σ σ₁ σ₂ : State} {s k v : Str}
    (hs : Ordinary s) (hlow : optionxform k = k) (hk : ¬(k = optionxform "order" ∧ s ≠ apiSection))
    (hset : Along step Settled (start file) (before ++ .commit s :: after))
    (hbefore : exec step (start file) before = some σ) (hc : Commits σ s k v)
    (hcommit : step σ (.commit s) = some σ₁) (hspares : Along step (Spares s) σ₁ after)
    (hafter : exec step σ₁ after = some σ₂) : σ₂.cell.raw s k = some v := by
  have hprof₀ : Profiles (start file) := fun t c h => by cases h
  have hkeep : ∀ σ e σ', Profiles σ → Settled σ e → step σ e = some σ' → Profiles σ' := fun _ _ _ hp _ h => hp.step h
  have hprof : Profiles σ := exec_invariant hkeep hbefore hset.of_append.1 hprof₀
  have hsettled : Settled σ (.commit s) := (hset.of_append.2 σ hbefore).1
  have h₁ : Holds s k v σ₁ := .commit hs hlow hk hsettled hc hcommit
  have h₂ : Holds s k v σ₂ ∧ Profiles σ₂ := exec_invariant (I := fun σ => Holds s k v σ ∧ Profiles σ)
    (fun _ _ _ hi hg h => ⟨hg.step hk hi.2 hi.1 h, hi.2.step h⟩) hafter hspares ⟨h₁, hprof.step hcommit⟩
  exact h₂.1.cell

/-! ## A settled run -/

/-- The construction of this thread has what the writer of the section is about to write. -/
def State.knows (σ : State) (s : Str) (t : Nat) : Bool :=
  σ.saving.all fun w => (σ.building t).all fun c => ((w.object.options s).map optionxform).all fun k =>
    decide (k = optionxform "order" ∧ s ≠ apiSection) || decide (c.config.raw s k = (w.object.get s k).toOption)

theorem knows_of_none {σ : State} {s : Str} {t : Nat} (h : σ.building t = none) : σ.knows s t = true := by
  rw [State.knows, h]
  cases σ.saving <;> rfl

theorem settled_of_knows {σ : State} {s : Str} (h : ∀ t, σ.knows s t = true) : Settled σ (.commit s) := by
  rintro k v hlow hk ⟨w, p, hw, -, hv, -⟩ t c hc
  have hknows := h t
  rw [State.knows, hw, hc] at hknows
  have hmem := mem_options_of_get hv
  rw [hlow] at hmem
  rcases Bool.or_eq_true_iff.1 (List.all_eq_true.1 hknows k hmem) with horder | hsame
  · exact absurd (of_decide_eq_true horder) hk
  · rw [of_decide_eq_true hsame, hv]
    rfl

/-- The thread whose construction the event is a step of. -/
def Event.builder : Event → Option Nat
  | .build t | .rewrite t => some t
  | .lock .. | .commit _ => none

/-- An event changes only the construction it is a step of. -/
theorem building_step {σ σ' : State} {e : Event} {t : Nat} (h : step σ e = some σ') (ht : e.builder ≠ some t) :
    σ'.building t = σ.building t := by
  cases e with
  | build u =>
    simp only [step] at h
    split at h
    · cases h
      exact Function.update_of_ne (fun htu => ht (congrArg some htu.symm)) ..
    · cases h
  | rewrite u =>
    obtain ⟨c, -, h⟩ := Option.bind_eq_some_iff.1 h
    split at h <;> (cases h; exact Function.update_of_ne (fun htu => ht (congrArg some htu.symm)) ..)
  | lock u object configName =>
    simp only [step] at h
    split at h
    · cases h; rfl
    · cases h
  | commit configName =>
    obtain ⟨w, -, h⟩ := Option.bind_eq_some_iff.1 h
    split at h
    · split at h <;> (cases h; rfl)
    · cases h

theorem building_exec {t : Nat} : ∀ {events : List Event} {σ σ' : State}, exec step σ events = some σ' →
    (∀ e ∈ events, e.builder ≠ some t) → σ'.building t = σ.building t
  | [], _, _, h, _ => by cases h; rfl
  | e :: events, σ, σ', h, ht => by
    obtain ⟨τ, hτ, h⟩ := exec_cons_eq_some.1 h
    rw [building_exec h fun e' he' => ht e' (List.mem_cons_of_mem _ he'), building_step hτ (ht e List.mem_cons_self)]

/-- The parser of a loader of the example file after `set_value("aws1", "instanceid", "i-1")`. -/
def newInstance : ConfigParser := exampleConfig.put "aws1" "instanceid" "i-1"

/-- The instance is stored, a construction begins, and the instance is stored again. -/
def storedTwice : List Event :=
  [.lock 1 newInstance "aws1", .commit "aws1", .build 0, .rewrite 0, .lock 2 newInstance "aws1"]

/-- The construction of thread 0 ends, and another one begins. -/
def afterwards : List Event := [.rewrite 0, .build 3, .rewrite 3]

theorem settled_storedTwice : Along step Settled (start exampleConfig) storedTwice := by
  refine ⟨trivial, fun τ hτ => ⟨settled_of_knows fun t => knows_of_none ?_, fun _ _ => ?_⟩⟩
  · exact building_step hτ (by simp [Event.builder])
  · exact ⟨trivial, fun _ _ => ⟨trivial, fun _ _ => ⟨trivial, fun _ _ => trivial⟩⟩⟩

/-- The second commit meets a construction that already has the value. -/
theorem committed_stays_newInstance : ∃ σ σ₁ σ₂, exec step (start exampleConfig) storedTwice = some σ ∧
    (σ.building 0).isSome ∧ step σ (.commit "aws1") = some σ₁ ∧ exec step σ₁ afterwards = some σ₂ ∧
    σ₂.cell.raw "aws1" "instanceid" = some ("i-1" : Str) := by
  have hrun : ((exec step (start exampleConfig) storedTwice).bind fun σ => (step σ (.commit "aws1")).bind fun σ₁ =>
      (exec step σ₁ afterwards).map fun _ => (decide (Commits σ "aws1" "instanceid" "i-1"),
        (σ.building 0).isSome, σ.knows "aws1" 0)) = some (true, true, true) := by
    simp (disch := exact rfl) only [newInstance, storedTwice, exampleConfig, toList_of_eq]
    decide +kernel
  obtain ⟨σ, hσ, hrun⟩ := Option.bind_eq_some_iff.1 hrun
  obtain ⟨σ₁, h₁, hrun⟩ := Option.bind_eq_some_iff.1 hrun
  obtain ⟨σ₂, h₂, hrun⟩ := Option.map_eq_some_iff.1 hrun
  obtain ⟨hc, hrun⟩ := Prod.mk.inj hrun
  obtain ⟨hbuilding, hknows⟩ := Prod.mk.inj hrun
  have hset : Along step Settled (start exampleConfig) (storedTwice ++ .commit "aws1" :: afterwards) := by
    refine settled_storedTwice.append fun τ hτ => ?_
    obtain rfl : σ = τ := Option.some.inj (hσ.symm.trans hτ)
    refine ⟨settled_of_knows fun t => ?_, fun _ _ =>
      ⟨trivial, fun _ _ => ⟨trivial, fun _ _ => ⟨trivial, fun _ _ => trivial⟩⟩⟩⟩
    by_cases ht : t = 0
    · rw [ht]
      exact hknows
    · refine knows_of_none (building_exec hσ fun e he => ?_)
      have hbuilders : ∀ e ∈ storedTwice, e.builder = none ∨ e.builder = some 0 := by simp [storedTwice, Event.builder]
      rcases hbuilders e he with h | h <;> simp [h, Ne.symm ht]
  have hspares : Along step (Spares "aws1") σ₁ afterwards :=
    ⟨fun h => by (cases h), fun _ _ => ⟨fun h => by (cases h), fun _ _ => ⟨fun h => by (cases h), fun _ _ => trivial⟩⟩⟩
  exact ⟨σ, σ₁, σ₂, hσ, hbuilding, h₁, h₂, committed_stays (by decide) (by decide) (by decide) hset hσ
    (of_decide_eq_true hc) h₁ hspares h₂⟩

/-- Thread 1 has built its loader and written; thread 0 began a construction before that. -/
def overlapping : List Event :=
  [.build 1, .rewrite 1, .rewrite 1, .build 0, .lock 1 newInstance "aws1"]

/-- A construction that read the file before a commit writes the old values back. -/
theorem construction_reverts : ¬∀ (file : ConfigParser) (before after : List Event) (σ σ₁ σ₂ : State) (s k v : Str),
    Ordinary s → optionxform k = k → exec step (start file) before = some σ → Commits σ s k v →
    step σ (.commit s) = some σ₁ → Along step (Spares s) σ₁ after → exec step σ₁ after = some σ₂ →
    σ₂.cell.raw s k = some v := by
  intro h
  have hrun : ((exec step (start exampleConfig) overlapping).map fun σ => (decide (Commits σ "aws1" "instanceid" "i-1"),
      (step σ (.commit "aws1")).bind fun σ₁ => (step σ₁ (.rewrite 0)).map fun σ₂ => σ₂.cell.raw "aws1" "instanceid")) =
      some (true, some (some ("i-0cfxxxxxxxxxxxxx" : Str))) := by
    simp (disch := exact rfl) only [newInstance, overlapping, exampleConfig, toList_of_eq]
    decide +kernel
  obtain ⟨σ, hσ, he⟩ := Option.map_eq_some_iff.1 hrun
  obtain ⟨hc, he⟩ := Prod.mk.inj he
  obtain ⟨σ₁, h₁, he⟩ := Option.bind_eq_some_iff.1 he
  obtain ⟨σ₂, h₂, hold⟩ := Option.map_eq_some_iff.1 he
  have hnew := h exampleConfig overlapping [.rewrite 0] σ σ₁ σ₂ "aws1" "instanceid" "i-1" (by decide) (by decide) hσ
    (of_decide_eq_true hc) h₁ ⟨fun h => by (cases h), fun _ _ => trivial⟩ (by simp [exec, h₂])
  rw [hold] at hnew
  exact absurd hnew (by decide)

end LoaderRace
end Iprotate
