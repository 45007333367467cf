import Iprotate.Built

/-!
# Many loaders on one section

`ConfigLoader` objects keep the parser they read, and `write_changes` copies every option of that parser's section
into the file, not only the ones that were set. Here any number of objects set options of one section and write it,
one call after the other.

- `Ledger` is the intended meaning: the file holds the newest value that was set and then written (`Law`).
- A write keeps the law if every option it copies is newer than what was written, or is what the file holds; hence the
  same for a whole history. The other way round this is so of every write whose lines are all read as options again
  (`law_step`, `current_of_law`, `law_writes_current`).
- Two objects that set different options and write leave only one of the new values (`second_write_reverts`).
-/

namespace Iprotate
namespace Snapshots

open ConfigParser Loader ConfigLoader Text

/-- A call on object `o`, for the one section. -/
inductive Call
  | setValue (o : Nat) (key value : Str)
  | writeChanges (o : Nat)

/-- The text of `config.conf` and the objects. -/
structure Store where
  file : Str
  object : Nat → ConfigLoader

/-- When each value was set: in each object's memory, and of the values that were written. -/
structure Ledger where
  clock : Nat
  memory : Nat → Str → Option (Nat × Str)
  saved : Str → Option (Nat × Str)

structure State where
  store : Store
  ledger : Ledger

/-- Every object was built from some file. -/
def Store.Built (st : Store) : Prop := ∀ o, ∃ text text', build text = (.ok (st.object o), text')

/-- The raw value that a file holds for an option; none while it cannot be read. -/
def holds (text s k : Str) : Option Str := (read text).toOption.bind (·.look s k)

theorem exists_read_of_holds {text s k v : Str} (h : holds text s k = some v) :
    ∃ p, read text = .ok p ∧ p.look s k = some v := by
  unfold holds at h
  cases hread : read text with
  | error e =>
    rw [hread] at h
    cases h
  | ok p =>
    rw [hread] at h
    exact ⟨p, rfl, h⟩

/-- `set_value`, when it succeeds. -/
def Store.setValue (st : Store) (s : Str) (o : Nat) (key value : Str) : Except ConfigError Store := do
  let l ← (st.object o).setValue s key (some value)
  return { st with object := Function.update st.object o l }

/-- `write_changes`, and the file it leaves. -/
def Store.writeChanges (st : Store) (s : Str) (o : Nat) : Except ConfigError Unit × Store :=
  let (result, file) := (st.object o).writeChanges s st.file
  (result, { st with file })

def Ledger.start : Ledger := ⟨0, fun _ _ => none, fun _ => none⟩

/-- Object `o` is given a new value for option `k`. -/
def Ledger.set (l : Ledger) (o : Nat) (k value : Str) : Ledger :=
  { l with
    clock := l.clock + 1
    memory := Function.update l.memory o (Function.update (l.memory o) k (some (l.clock, value))) }

/-- The value in object `o` was set after every value of `k` that was written. -/
def Ledger.Newer (l : Ledger) (o : Nat) (k : Str) : Prop :=
  match l.memory o k, l.saved k with
  | none, _ => False
  | some _, none => True
  | some (t, _), some (t', _) => t' < t

instance (l : Ledger) (o : Nat) (k : Str) : Decidable (l.Newer o k) := by
  unfold Ledger.Newer
  split <;> infer_instance

/-- Object `o` writes: its newer values are saved. -/
def Ledger.write (l : Ledger) (o : Nat) : Ledger :=
  { l with saved := fun k => if l.Newer o k then l.memory o k else l.saved k }

/-- The value the file is to hold for an option that began with `initial`. -/
def Ledger.expected (l : Ledger) (initial : Option Str) (k : Str) : Option Str :=
  match l.saved k with
  | some (_, v) => some v
  | none => initial

/-- One call. -/
def step (s : Str) (st : State) : Call → State
  | .setValue o key value =>
    match st.store.setValue s o key value with
    | .ok store => ⟨store, st.ledger.set o (optionxform key) value⟩
    | .error _ => st
  | .writeChanges o =>
    match st.store.writeChanges s o with
    | (.ok _, store) => ⟨store, st.ledger.write o⟩
    | (.error _, store) => { st with store }

def run (s : Str) (init : Store) (calls : List Call) : State := calls.foldl (step s) ⟨init, .start⟩

/-- A value that comes back from a write and a read as it was set, under a name that does. -/
structure Survives (k v : Str) : Prop where
  entry : EntryOk k v
  normValue : normValue v = v
  percent : '%' ∉ v

def Call.Survives : Call → Prop
  | .setValue _ key value => Snapshots.Survives (optionxform key) value
  | .writeChanges _ => True

/-- The file holds the newest value that was set and then written, and its first value for the other options. -/
def Law (s : Str) (init : Store) (st : State) : Prop :=
  ∀ k, holds st.store.file s k = st.ledger.expected (holds init.file s k) k

/-- `write_changes` of `o` would go through. -/
def Completes (s : Str) (st : State) (o : Nat) : Prop := (st.store.writeChanges s o).1 = .ok ()

/-- Every option a write by `o` would copy is newer in `o`, or reads in `o`, as a file keeps it, as what the file
holds. -/
def Current (s : Str) (st : State) (o : Nat) : Prop :=
  ∀ k ∈ (st.store.object o).config.options s, st.ledger.Newer o k ∨
    ∃ v, (st.store.object o).config.get s k = .ok v ∧ holds st.store.file s k = some (normValue v)

/-- No line that a write by `o` would copy is taken for the header of a section. -/
def Legible (s : Str) (st : State) (o : Nat) : Prop :=
  ∀ k ∈ (st.store.object o).config.options s, ∀ v, (st.store.object o).config.get s k = .ok v → EntryOk k v

/-! ## What the objects remember -/

/-- The ledger's memory is in the objects, and they can be written. -/
structure Consistent (s : Str) (st : State) : Prop where
  writable : ∀ o, Writable (st.store.object o).config
  raw : ∀ o k t v, st.ledger.memory o k = some (t, v) → (st.store.object o).config.raw s k = some v
  survives : ∀ o k t v, st.ledger.memory o k = some (t, v) → Survives k v

variable {s : Str} {init : Store} {st : State}

theorem Consistent.start (s : Str) (hb : init.Built) : Consistent s ⟨init, .start⟩ where
  writable o := by
    obtain ⟨text, text', hbuild⟩ := hb o
    obtain ⟨p, hp⟩ := built_of_build hbuild
    rw [hp.config]
    exact (normal_settle _ _ (read_normal hp.read)).writable
  raw _ _ _ _ h := by cases h
  survives _ _ _ _ h := by cases h

/-- What an object is given for one option, the ledger has; the rest of its memory stays. -/
theorem memory_set {l : Ledger} {o o' : Nat} {key k v value : Str} {t : Nat}
    (h : (l.set o key value).memory o' k = some (t, v)) : o' = o ∧ k = key ∧ v = value ∨
      ¬(o' = o ∧ k = key) ∧ l.memory o' k = some (t, v) := by
  simp only [Ledger.set, Function.update_apply] at h
  by_cases ho : o' = o
  · rw [if_pos ho, Function.update_apply] at h
    by_cases hk : k = key
    · rw [if_pos hk] at h
      cases h
      exact .inl ⟨ho, hk, rfl⟩
    · rw [if_neg hk, ← ho] at h
      exact .inr ⟨fun h => hk h.2, h⟩
  · rw [if_neg ho] at h
    exact .inr ⟨fun h => ho h.1, h⟩

theorem Consistent.step (hs : Ordinary s) (h : Consistent s st) {c : Call} (hc : c.Survives) :
    Consistent s (step s st c) := by
  cases c with
  | setValue o key value =>
    unfold Snapshots.step
    dsimp only
    split
    · rename_i store hset
      obtain ⟨l, hl, hstore⟩ := except_bind_eq_ok.1 hset
      cases hstore
      obtain ⟨p, hp, hl⟩ := except_bind_eq_ok.1 hl
      cases hl
      obtain ⟨_, hm, rfl⟩ := (set_eq_ok hs).1 hp
      refine ⟨fun o' => ?_, fun o' k t v hmem => ?_, fun o' k t v hmem => ?_⟩
      · by_cases ho : o' = o
        · subst ho
          simp only [Function.update_self]
          exact (h.writable o').put s hc.entry
        · simp only [Function.update_of_ne ho]
          exact h.writable o'
      · rcases memory_set hmem with ⟨rfl, rfl, rfl⟩ | ⟨hne, hold⟩
        · simp [raw_put_self hm]
        · by_cases ho : o' = o
          · subst ho
            simp only [Function.update_self]
            rw [raw_put_ne (.inr fun hk => hne ⟨rfl, hk.symm⟩)]
            exact h.raw o' k t v hold
          · simp only [Function.update_of_ne ho]
            exact h.raw o' k t v hold
      · rcases memory_set hmem with ⟨_, rfl, rfl⟩ | ⟨_, hold⟩
        · exact hc
        · exact h.survives o' k t v hold
    · exact h
  | writeChanges o =>
    unfold Snapshots.step
    dsimp only
    split
    · rename_i store hw
      obtain rfl : store = (st.store.writeChanges s o).2 := by rw [hw]
      exact ⟨h.writable, h.raw, h.survives⟩
    · rename_i store hw
      obtain rfl : store = (st.store.writeChanges s o).2 := by rw [hw]
      exact ⟨h.writable, h.raw, h.survives⟩

theorem run_append_singleton (s : Str) (init : Store) (calls : List Call) (c : Call) :
    run s init (calls ++ [c]) = step s (run s init calls) c := by simp [run]

theorem Consistent.run (hs : Ordinary s) (hb : init.Built) {calls : List Call} (hc : ∀ c ∈ calls, c.Survives) :
    Consistent s (run s init calls) := by
  induction calls using List.reverseRecOn with
  | nil => exact .start s hb
  | append_singleton calls c ih =>
    rw [run_append_singleton]
    exact (ih fun c' hc' => hc c' (by simp [hc'])).step hs (hc c (by simp))

/-- A value an object was given is read back from it, and is among the options a write copies. -/
theorem Consistent.get (h : Consistent s st) {o : Nat} {k : Str} {t : Nat} {v : Str}
    (hmem : st.ledger.memory o k = some (t, v)) :
    (st.store.object o).config.get s k = .ok v ∧ k ∈ (st.store.object o).config.options s := by
  have hlook := look_of_raw (h.raw o k t v hmem)
  have hv := h.survives o k t v hmem
  refine ⟨get_plain (mem_sectionNames_of_raw (h.raw o k t v hmem)) ?_ hv.percent, mem_options_of_look hlook⟩
  rw [show optionxform k = k from hv.entry.key.lower]
  exact hlook

/-- What is newer was given. -/
theorem Ledger.Newer.memory {l : Ledger} {o : Nat} {k : Str} (h : l.Newer o k) : ∃ t v, l.memory o k = some (t, v) := by
  unfold Ledger.Newer at h
  cases hmem : l.memory o k with
  | none => rw [hmem] at h; exact absurd h id
  | some e => exact ⟨e.1, e.2, rfl⟩

/-! ## What one call does to the law -/

/-- Setting a value changes no file and no saved value. -/
theorem law_set_iff {o : Nat} {key value : Str} :
    Law s init (step s st (.setValue o key value)) ↔ Law s init st := by
  unfold step
  dsimp only
  split
  · rename_i store hset
    obtain ⟨l, _, hstore⟩ := except_bind_eq_ok.1 hset
    cases hstore
    exact Iff.rfl
  · exact Iff.rfl

/-- What a write does: the file becomes a merge, or stays. -/
theorem writeChanges_cases (st : Store) (s : Str) (o : Nat) :
    (∃ e, st.writeChanges s o = (.error e, st)) ∨
      ∃ file p, read st.file = .ok file ∧ mergeSection (st.object o).config file s = .ok p ∧
        st.writeChanges s o = (.ok (), { st with file := write p }) := by
  unfold Store.writeChanges
  rw [run_writeChanges]
  cases hread : read st.file with
  | error e => exact .inl ⟨e, rfl⟩
  | ok file =>
    cases hp : mergeSection (st.object o).config file s with
    | error e => exact .inl ⟨e, by simp only [Except.bind, hp]⟩
    | ok p => exact .inr ⟨file, p, rfl, hp, by simp only [Except.bind, hp]⟩

/-- What the file holds after a write. -/
theorem holds_write (hs : Ordinary s) {mem file p : ConfigParser} {text : Str} (hmem : Writable mem)
    (hread : read text = .ok file) (hp : mergeSection mem file s = .ok p) (hw : Writable p) (k : Str) :
    holds (write p) s k =
      if k ∈ mem.options s then (mem.get s k).toOption.map normValue else holds text s k := by
  have hm := Merged.of_eq hs hp
  have hkeys : (mem.options s).map optionxform = mem.options s :=
    (List.map_congr_left fun k hk => hmem.optionxform_of_mem hk).trans (List.map_id _)
  have hfile : holds text s k = (file.look s k).map normValue := by
    rw [holds, hread, ← look_norm, (read_normal hread).fixed]
    rfl
  have hsaved : holds (write p) s k = (p.look s k).map normValue := by
    rw [holds, read_write hw, ← look_norm]
    rfl
  rw [hsaved, hfile, look, look, hm.raw_self, hm.defaults, hkeys]
  split
  · rename_i hk
    obtain ⟨v, hv, _⟩ := hm.accepts k hk
    rw [hv]
    rfl
  · rfl

theorem expected_write (h : Consistent s st) {o : Nat} {k : Str} (initial : Option Str) :
    (st.ledger.write o).expected initial k =
      if st.ledger.Newer o k then ((st.store.object o).config.get s k).toOption.map normValue
      else st.ledger.expected initial k := by
  unfold Ledger.expected Ledger.write
  by_cases hn : st.ledger.Newer o k
  · simp only [if_pos hn]
    obtain ⟨t, v, hmem⟩ := hn.memory
    rw [hmem, (h.get hmem).1]
    exact congrArg some (h.survives o k t v hmem).normValue.symm
  · simp only [if_neg hn]

/-- The lines of a current write are read as options. -/
theorem Current.legible (h : Consistent s st) {o : Nat} (hcur : Current s st o) : Legible s st o := by
  intro k hk v hv
  rcases hcur k hk with hn | ⟨v', hv', hheld⟩
  · obtain ⟨t, u, hmem⟩ := hn.memory
    obtain rfl := Except.ok.inj ((h.get hmem).1.symm.trans hv)
    exact (h.survives o k t u hmem).entry
  · rw [hv] at hv'
    cases hv'
    obtain ⟨file, hread, hlook⟩ := exists_read_of_holds hheld
    -- a bracket in the first line would be in the file too
    have hstands := (read_normal hread).writable.entryOk hlook
    refine ⟨hstands.key, (h.writable o).not_mem_get hv, fun t ht => ⟨(hstands.header t ht).1, fun hb => ?_⟩⟩
    exact (hstands.header t ht).2 (mem_firstLine_normValue (by decide) hb)

/-- **A current write keeps the law.** -/
theorem law_step (hs : Ordinary s) (h : Consistent s st) (hlaw : Law s init st) {o : Nat}
    (hcur : Completes s st o → Current s st o) : Law s init (step s st (.writeChanges o)) := by
  unfold step
  dsimp only
  rcases writeChanges_cases st.store s o with ⟨e, he⟩ | ⟨file, p, hread, hp, hrun⟩
  · rw [he]
    exact hlaw
  · rw [hrun]
    have hcur := hcur (by rw [Completes, hrun])
    have hw : Writable p :=
      writable_mergeSection hs (h.writable o) (read_normal hread).writable hp (hcur.legible h)
    intro k
    show holds (write p) s k = (st.ledger.write o).expected (holds init.file s k) k
    rw [holds_write hs (h.writable o) hread hp hw, expected_write h]
    by_cases hn : st.ledger.Newer o k
    · obtain ⟨t, v, hmem⟩ := hn.memory
      rw [if_pos (h.get hmem).2, if_pos hn]
    · rw [if_neg hn]
      split
      · rename_i hk
        obtain ⟨v, hv, hheld⟩ := (hcur k hk).resolve_left hn
        rw [hv, ← hlaw k, hheld]
        rfl
      · exact hlaw k

/-- A write that keeps the law is current, if its lines are read as options. -/
theorem current_of_law (hs : Ordinary s) (h : Consistent s st) (hlaw : Law s init st) {o : Nat}
    (hafter : Law s init (step s st (.writeChanges o))) (hdone : Completes s st o) (hleg : Legible s st o) :
    Current s st o := by
  unfold step at hafter
  dsimp only at hafter
  rcases writeChanges_cases st.store s o with ⟨e, he⟩ | ⟨file, p, hread, hp, hrun⟩
  · rw [Completes, he] at hdone
    cases hdone
  · rw [hrun] at hafter
    have hw : Writable p := writable_mergeSection hs (h.writable o) (read_normal hread).writable hp hleg
    intro k hk
    by_cases hn : st.ledger.Newer o k
    · exact .inl hn
    · right
      have hk' : holds (write p) s k = (st.ledger.write o).expected (holds init.file s k) k := hafter k
      rw [holds_write hs (h.writable o) hread hp hw, if_pos hk, expected_write h, if_neg hn, ← hlaw k] at hk'
      obtain ⟨v, hv, _⟩ := (Merged.of_eq hs hp).accepts k hk
      rw [hv] at hk'
      exact ⟨v, hv, hk'.symm⟩

/-! ## Whole histories -/

/-- **The law holds all along a history in which every write that goes through copies only what is current**, and
otherwise not, unless a copied line was taken for the header of a section. -/
theorem law_writes_current (hs : Ordinary s) (hb : init.Built) {calls : List Call}
    (hc : ∀ c ∈ calls, c.Survives) :
    ((∀ done o, done ++ [.writeChanges o] <+: calls → Completes s (run s init done) o →
        Current s (run s init done) o) →
      ∀ done, done <+: calls → Law s init (run s init done)) ∧
    ((∀ done, done <+: calls → Law s init (run s init done)) →
      ∀ done o, done ++ [.writeChanges o] <+: calls → Completes s (run s init done) o →
        Legible s (run s init done) o → Current s (run s init done) o) := by
  have hcons : ∀ done, done <+: calls → Consistent s (run s init done) := fun done hd =>
    .run hs hb fun c hm => hc c (hd.subset hm)
  constructor
  · intro h done
    induction done using List.reverseRecOn with
    | nil => exact fun _ k => rfl
    | append_singleton done c ih =>
      intro hd
      have hd' : done <+: calls := (List.prefix_append _ _).trans hd
      rw [run_append_singleton]
      cases c with
      | setValue o key value => exact law_set_iff.2 (ih hd')
      | writeChanges o => exact law_step hs (hcons done hd') (ih hd') (h done o hd)
  · intro h done o hd hdone hleg
    have hd' : done <+: calls := (List.prefix_append _ _).trans hd
    have hafter := h _ hd
    rw [run_append_singleton] at hafter
    exact current_of_law hs (hcons done hd') (h done hd') hafter hdone hleg

/-- Two objects built from the example file. -/
def twoObjects : Store := ⟨write exampleConfig, fun _ => exampleLoader⟩

theorem built_twoObjects : twoObjects.Built := fun _ => ⟨_, _, build_example.2⟩

/-- One object sets the user, the other the password, and both write. -/
def twoWriters : List Call :=
  [.setValue 0 "user" "u1", .setValue 1 "pass" "p1", .writeChanges 0, .writeChanges 1]

theorem twoWriters_survive : ∀ c ∈ twoWriters, c.Survives := by
  intro c hc
  simp only [twoWriters, List.mem_cons, List.not_mem_nil, or_false] at hc
  rcases hc with rfl | rfl | rfl | rfl
  · exact ⟨.of_head (by decide) (by decide) (by decide), by decide, by decide⟩
  · exact ⟨.of_head (by decide) (by decide) (by decide), by decide, by decide⟩
  · trivial
  · trivial

theorem law_writes_current_twoWriters :
    ((∀ done o, done ++ [.writeChanges o] <+: twoWriters → Completes "aws1" (run "aws1" twoObjects done) o →
        Current "aws1" (run "aws1" twoObjects done) o) →
      ∀ done, done <+: twoWriters → Law "aws1" twoObjects (run "aws1" twoObjects done)) ∧
    ((∀ done, done <+: twoWriters → Law "aws1" twoObjects (run "aws1" twoObjects done)) →
      ∀ done o, done ++ [.writeChanges o] <+: twoWriters → Completes "aws1" (run "aws1" twoObjects done) o →
        Legible "aws1" (run "aws1" twoObjects done) o → Current "aws1" (run "aws1" twoObjects done) o) :=
  law_writes_current (by decide) built_twoObjects twoWriters_survive

/-- The second of two objects that write takes the first one's new user back. -/
theorem second_write_reverts : ¬∀ (init : Store) (calls : List Call), init.Built → (∀ c ∈ calls, c.Survives) →
    Law "aws1" init (run "aws1" init calls) := by
  intro h
  have huser : holds (run "aws1" twoObjects twoWriters).store.file "aws1" "user" ≠
      (run "aws1" twoObjects twoWriters).ledger.expected (holds twoObjects.file "aws1" "user") "user" := by
    simp (disch := exact rfl) only [twoObjects, twoWriters, exampleLoader, exampleConfig, toList_of_eq]
    decide +kernel
  exact huser (h twoObjects twoWriters built_twoObjects twoWriters_survive "user")

end Snapshots
end Iprotate
