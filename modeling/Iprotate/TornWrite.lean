import Iprotate.Base.Run
import Iprotate.Construction

/-!
# Truncated files

`open("config.conf", "w")` empties the file before `write` fills it. A construction does this without the lock, so a
`write_changes` that holds the lock can still read the empty file, and then writes one section back as the whole
configuration. Between the writes the cell keeps the parser that was written, so the sections and options meant are
those that a write and a read leave as they are (`read_write`).

- If no `write_changes` reads while the file is empty, then whenever no thread is between its truncation and its
  write the file has every section and option it began with (`sections_stay`).
- Otherwise everything but one section is lost (`sections_lost`).
-/

namespace Iprotate
namespace TornWrite

open ConfigParser Loader

/-- What a thread is doing. -/
inductive Activity
  | idle
  /-- Inside `ConfigLoader()`, before the next truncation. -/
  | building (c : Construction)
  /-- Inside `ConfigLoader()`, between truncation and write; then it goes on as `rest`. -/
  | rebuilding (p : ConfigParser) (rest : Option Construction)
  /-- Inside `write_changes`, with what was read. -/
  | saving (object : ConfigParser) (configName : Str) (temp : ConfigParser)
  /-- Inside `write_changes`, between truncation and write. -/
  | storing (p : ConfigParser)

/-- The thread has emptied the file and not yet written it. -/
def Activity.Between : Activity → Prop
  | .rebuilding .. | .storing _ => True
  | _ => False

instance : (a : Activity) → Decidable a.Between
  | .rebuilding .. | .storing _ => isTrue trivial
  | .idle | .building _ | .saving .. => isFalse id

structure State where
  /-- `none` is the empty file. -/
  cell : Option ConfigParser
  activity : Nat → Activity
  lock : Option Nat

/-- What a read of the file gives. -/
def State.read (σ : State) : ConfigParser := σ.cell.getD ConfigParser.empty

def State.become (σ : State) (t : Nat) (a : Activity) : State :=
  { σ with activity := Function.update σ.activity t a }

inductive Event
  /-- `ConfigLoader()`: the read. -/
  | build (thread : Nat)
  /-- `write_changes`: take the lock and read. -/
  | lock (thread : Nat) (object : ConfigParser) (configName : Str)
  /-- `open("config.conf", "w")`, or the exception before it. -/
  | truncate (thread : Nat)
  /-- `write`. -/
  | store (thread : Nat)

def start (file : ConfigParser) : State := ⟨some file, fun _ => .idle, none⟩

def Activity.ofConstruction : Option Construction → Activity
  | some c => .building c
  | none => .idle

def step (σ : State) : Event → Option State
  | .build t =>
    match σ.activity t with
    | .idle => some (σ.become t (.ofConstruction (Construction.start σ.read)))
    | _ => none
  | .lock t object configName =>
    match σ.activity t, σ.lock with
    | .idle, none => some { σ.become t (.saving object configName σ.read) with lock := some t }
    | _, _ => none
  | .truncate t =>
    match σ.activity t with
    | .building c =>
      match c.next with
      | some (p, rest) => some { σ.become t (.rebuilding p rest) with cell := none }
      | none => some (σ.become t .idle)
    | .saving object configName temp =>
      match mergeSection object temp configName with
      | .ok p => some { σ.become t (.storing p) with cell := none }
      | .error _ => some { σ.become t .idle with lock := none }
    | _ => none
  | .store t =>
    match σ.activity t with
    | .rebuilding p rest => some { σ.become t (.ofConstruction rest) with cell := some p }
    | .storing p => some { σ.become t .idle with cell := some p, lock := none }
    | _ => none

/-! ## What every parser in the system keeps -/

/-- Every section and every option of `file` is there. -/
structure Keeps (file p : ConfigParser) : Prop where
  sections : ∀ s ∈ file.sectionNames, s ∈ p.sectionNames
  options : ∀ s k, (file.raw s k).isSome → (p.raw s k).isSome

theorem Keeps.refl (file : ConfigParser) : Keeps file file := ⟨fun _ h => h, fun _ _ h => h⟩

theorem Keeps.merge {file object temp p : ConfigParser} {s : Str} (h : Keeps file temp)
    (hp : mergeSection object temp s = .ok p) : Keeps file p := by
  obtain ⟨hn, hr⟩ := mergeSection_keeps hp
  exact ⟨fun s' hs' => hn s' (h.sections s' hs'), fun s' k hk => hr s' k (h.options s' k hk)⟩

theorem Keeps.next {file p : ConfigParser} {c : Construction} {rest : Option Construction} (h : Keeps file c.config)
    (hn : c.next = some (p, rest)) : Keeps file p ∧ ∀ c', rest = some c' → Keeps file c'.config := by
  obtain ⟨hs, hr, hrest⟩ := Construction.next_keeps hn
  refine ⟨⟨fun s hm => ?_, fun s k hk => hr s k (h.options s k hk)⟩, fun c' hc' => ?_⟩
  · rw [hs]; exact h.sections s hm
  · obtain ⟨hs', hr'⟩ := hrest c' hc'
    exact ⟨fun s hm => by rw [hs']; exact h.sections s hm, fun s k hk => hr' s k (h.options s k hk)⟩

/-- Every parser a thread may still write keeps the file. -/
def Activity.Keeps (file : ConfigParser) : Activity → Prop
  | .idle => True
  | .building c => TornWrite.Keeps file c.config
  | .rebuilding p rest => TornWrite.Keeps file p ∧ ∀ c, rest = some c → TornWrite.Keeps file c.config
  | .saving _ _ temp => TornWrite.Keeps file temp
  | .storing p => TornWrite.Keeps file p

structure Inv (file : ConfigParser) (σ : State) : Prop where
  cell : ∀ p, σ.cell = some p → Keeps file p
  /-- The file is empty only while some thread is about to write it. -/
  empty : σ.cell = none → ∃ t, (σ.activity t).Between
  activity : ∀ t, (σ.activity t).Keeps file

theorem Inv.start (file : ConfigParser) : Inv file (start file) :=
  ⟨fun p hp => by cases hp; exact .refl file, fun h => (by cases h), fun _ => trivial⟩

/-- A read of the empty file ends a construction; any other read gives the file. -/
theorem Inv.ofConstruction {file : ConfigParser} {σ : State} (h : Inv file σ) :
    (Activity.ofConstruction (Construction.start σ.read)).Keeps file := by
  cases hc : Construction.start σ.read with
  | none => trivial
  | some c =>
    have hconf := (Construction.Profiles.start hc).1
    cases hcell : σ.cell with
    | none =>
      have hempty : (Construction.start ConfigParser.empty).isNone = true := by decide
      have hread : σ.read = ConfigParser.empty := by rw [State.read, hcell]; rfl
      rw [hread] at hc
      rw [hc] at hempty
      cases hempty
    | some p =>
      rw [State.read, hcell] at hconf
      show Keeps file c.config
      rw [hconf]
      exact h.cell p hcell

/-- Changing what one thread does, when the file stays as it is. -/
theorem Inv.become {file : ConfigParser} {σ : State} (h : Inv file σ) {t : Nat} {a : Activity} (ha : a.Keeps file)
    (hb : ¬(σ.activity t).Between) : Inv file (σ.become t a) := by
  refine ⟨h.cell, fun he => ?_, fun u => ?_⟩
  · obtain ⟨u, hu⟩ := h.empty he
    refine ⟨u, ?_⟩
    have hne : u ≠ t := fun hut => hb (hut ▸ hu)
    simpa [State.become, Function.update_of_ne hne] using hu
  · by_cases hu : u = t
    · subst hu; simpa [State.become] using ha
    · simpa [State.become, Function.update_of_ne hu] using h.activity u

/-- A thread empties the file. -/
theorem Inv.truncate {file : ConfigParser} {σ : State} (h : Inv file σ) {t : Nat} {a : Activity} (ha : a.Keeps file)
    (hb : a.Between) : Inv file { σ.become t a with cell := none } := by
  refine ⟨fun p hp => (by cases hp), fun _ => ⟨t, by simpa [State.become] using hb⟩, fun u => ?_⟩
  by_cases hu : u = t
  · subst hu; simpa [State.become] using ha
  · simpa [State.become, Function.update_of_ne hu] using h.activity u

/-- A thread fills the file. -/
theorem Inv.store {file p : ConfigParser} {σ : State} (h : Inv file σ) {t : Nat} {a : Activity} (ha : a.Keeps file)
    (hp : Keeps file p) : Inv file { σ.become t a with cell := some p } := by
  refine ⟨fun q hq => by cases hq; exact hp, fun he => (by cases he), fun u => ?_⟩
  by_cases hu : u = t
  · subst hu; simpa [State.become] using ha
  · simpa [State.become, Function.update_of_ne hu] using h.activity u

/-- Who holds the lock does not matter to the invariant. -/
theorem Inv.lock {file : ConfigParser} {σ : State} (h : Inv file σ) (l : Option Nat) : Inv file { σ with lock := l } :=
  ⟨h.cell, h.empty, h.activity⟩

/-- No `write_changes` reads while the file is empty. -/
def ReadsWhole (σ : State) : Event → Prop
  | .lock .. => σ.cell ≠ none
  | _ => True

theorem Inv.step {file : ConfigParser} {σ σ' : State} {e : Event} (h : Inv file σ) (hg : ReadsWhole σ e)
    (hstep : step σ e = some σ') : Inv file σ' := by
  cases e with
  | build t =>
    simp only [TornWrite.step] at hstep
    split at hstep
    · rename_i ha
      cases hstep
      exact h.become h.ofConstruction (by rw [ha]; exact id)
    · cases hstep
  | lock t object configName =>
    simp only [TornWrite.step] at hstep
    split at hstep
    · rename_i ha _
      cases hstep
      obtain ⟨p, hp⟩ := Option.ne_none_iff_exists'.1 hg
      have hread : Keeps file σ.read := by
        rw [State.read, hp]
        exact h.cell p hp
      exact (h.become (a := .saving object configName σ.read) hread (by rw [ha]; exact id)).lock (some t)
    · cases hstep
  | truncate t =>
    simp only [TornWrite.step] at hstep
    have hact := h.activity t
    split at hstep
    · rename_i c ha
      rw [ha] at hact
      split at hstep
      · rename_i p rest hn
        cases hstep
        exact h.truncate (Keeps.next hact hn) trivial
      · cases hstep
        exact h.become trivial (by rw [ha]; exact id)
    · rename_i object configName temp ha
      rw [ha] at hact
      split at hstep
      · rename_i p hp
        cases hstep
        exact h.truncate (a := .storing p) (Keeps.merge hact hp) trivial
      · cases hstep
        exact (h.become (a := .idle) trivial (by rw [ha]; exact id)).lock none
    · cases hstep
  | store t =>
    simp only [TornWrite.step] at hstep
    have hact := h.activity t
    split at hstep
    · rename_i p rest ha
      rw [ha] at hact
      cases hstep
      refine h.store ?_ hact.1
      cases rest with
      | none => trivial
      | some c => exact hact.2 c rfl
    · rename_i p ha
      rw [ha] at hact
      cases hstep
      exact (h.store (a := .idle) trivial hact).lock none
    · cases hstep

/-- No thread is between its truncation and its write. -/
def Quiet (σ : State) : Prop := ∀ t, ¬(σ.activity t).Between

/-- The file has `[api]`, and every section and option it began with. -/
def Intact (file : ConfigParser) (σ : State) : Prop := ∃ p, σ.cell = some p ∧ apiSection ∈ p.sectionNames ∧ Keeps file p

/-- **No section disappears** in a run in which no `write_changes` reads an empty file. -/
theorem sections_stay {file : ConfigParser} (hapi : apiSection ∈ file.sectionNames) {events : List Event} {σ : State}
    (hread : Along step ReadsWhole (start file) events) (hrun : exec step (start file) events = some σ)
    (hquiet : Quiet σ) : Intact file σ := by
  have h : Inv file σ := exec_invariant (fun _ _ _ hi hg hs => Inv.step hi hg hs) hrun hread (.start file)
  cases hcell : σ.cell with
  | none =>
    obtain ⟨t, ht⟩ := h.empty hcell
    exact absurd ht (hquiet t)
  | some p =>
    have hp := h.cell p hcell
    exact ⟨p, hcell, hp.sections _ hapi, hp⟩

/-! ## A lost file -/

def Event.thread : Event → Nat
  | .build t | .lock t _ _ | .truncate t | .store t => t

/-- An event changes only what its own thread does. -/
theorem activity_step {σ σ' : State} {e : Event} (h : step σ e = some σ') {t : Nat} (ht : e.thread ≠ t) :
    σ'.activity t = σ.activity t := by
  have hne : t ≠ e.thread := ht.symm
  cases e <;> simp only [step] at h <;> split at h <;> try cases h
  all_goals first
    | exact Function.update_of_ne hne ..
    | (split at h <;> cases h <;> exact Function.update_of_ne hne ..)

theorem activity_exec {t : Nat} : ∀ {events : List Event} {σ σ' : State}, exec step σ events = some σ' →
    (∀ e ∈ events, e.thread ≠ t) → σ'.activity t = σ.activity t
  | [], σ, σ', h, _ => by cases h; rfl
  | e :: events, σ, σ', h, ht => by
    obtain ⟨τ, hτ, h⟩ := exec_cons_eq_some.1 h
    rw [activity_exec h fun e' he' => ht e' (List.mem_cons_of_mem _ he'), activity_step hτ (ht e List.mem_cons_self)]

/-- Every thread that took part is done with its writes. -/
theorem quiet_of_threads {file : ConfigParser} {events : List Event} {σ : State}
    (hrun : exec step (start file) events = some σ)
    (h : events.all (fun e => !decide (σ.activity e.thread).Between) = true) : Quiet σ := by
  intro t
  by_cases ht : ∃ e ∈ events, e.thread = t
  · obtain ⟨e, he, rfl⟩ := ht
    simpa using List.all_eq_true.1 h e he
  · rw [activity_exec hrun fun e he heq => ht ⟨e, he, heq⟩]
    exact id

/-- Thread 0 empties the file in its construction; thread 1 reads it for `write_changes("aws1")`; both finish. -/
def tornRun : List Event :=
  [.build 0, .truncate 0, .lock 1 exampleConfig "aws1", .store 0, .truncate 1, .store 1]

/-- A `write_changes` that reads the empty file loses every other section. -/
theorem sections_lost : ¬∀ (file : ConfigParser) (events : List Event) (σ : State), apiSection ∈ file.sectionNames →
    exec step (start file) events = some σ → Quiet σ → Intact file σ := by
  intro h
  have hrun : (exec step (start exampleConfig) tornRun).map (fun σ =>
      (tornRun.all fun e => !decide (σ.activity e.thread).Between,
        σ.cell.map fun p => decide (apiSection ∈ p.sectionNames))) = some (true, some false) := by
    simp (disch := exact rfl) only [tornRun, exampleConfig, toList_of_eq]
    decide +kernel
  obtain ⟨σ, hσ, he⟩ := Option.map_eq_some_iff.1 hrun
  obtain ⟨hdone, hcell⟩ := Prod.mk.inj he
  obtain ⟨p, hp, hapi, _⟩ := h exampleConfig tornRun σ (by decide) hσ (quiet_of_threads hσ hdone)
  rw [hp, Option.map_some, Option.some.injEq] at hcell
  exact of_decide_eq_false hcell hapi

/-- The two writes of thread 0's construction, and between them a `write_changes("aws1")` of thread 1, which empties
the file before the second of them and fills it while it is empty again. -/
def wholeRun : List Event :=
  [.build 0, .truncate 0, .store 0, .lock 1 (exampleConfig.put "aws1" "user" "bob") "aws1", .truncate 1, .truncate 0,
    .store 1, .store 0]

instance (σ : State) : (e : Event) → Decidable (ReadsWhole σ e)
  | .lock .. => decidable_of_iff (σ.cell.isSome = true) Option.isSome_iff_ne_none
  | .build _ | .truncate _ | .store _ => isTrue trivial

/-- It reads a whole file. -/
theorem sections_stay_construction : ∃ σ, exec step (start exampleConfig) wholeRun = some σ ∧
    Intact exampleConfig σ := by
  have hrun : Along step ReadsWhole (start exampleConfig) wholeRun ∧ (exec step (start exampleConfig) wholeRun).map
      (fun σ => wholeRun.all fun e => !decide (σ.activity e.thread).Between) = some true := by
    simp (disch := exact rfl) only [wholeRun, exampleConfig, toList_of_eq]
    decide +kernel
  obtain ⟨hread, hrun⟩ := hrun
  obtain ⟨σ, hσ, hdone⟩ := Option.map_eq_some_iff.1 hrun
  exact ⟨σ, hσ, sections_stay (by decide) hread hσ (quiet_of_threads hσ hdone)⟩

end TornWrite
end Iprotate
