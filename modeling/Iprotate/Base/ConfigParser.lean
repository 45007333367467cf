import Iprotate.Base.Dict
import Iprotate.Base.Interpolation

/-!
# `configparser.ConfigParser`

The state of a parser is its default section and its other sections, each an insertion-ordered dictionary of raw
values. This file has the operations on that state, with the default interpolation: `get`, `set`, `hasOption`,
`options`, `sectionNames` and `addSection`.

- `raw p s k` is the raw value stored in section `s` itself, `look p s k` the one a reader finds, which may come
  from the default section.
- A successful `set` is `put` (`set_eq_ok`), and `put` changes one raw value (`raw_put`).
-/

namespace Iprotate

open Text Interpolation

/-- The exceptions of a parser. -/
inductive ConfigError
  | noSection (name : Str)
  | noOption (option name : Str)
  /-- `InterpolationError`: the option, its section, its raw value and what is wrong. -/
  | interpolation (option name rawval : Str) (why : Failure)
  /-- `ValueError` from `before_set`. -/
  | invalidInterpolation (value : Str)
  /-- `TypeError('option values must be strings')` -/
  | notString
  | keyError (key : Str)
  | missingSectionHeader (line : Str)
  | duplicateSection (name : Str)
  | duplicateOption (name option : Str)
  /-- `ParsingError`: some line is no option. -/
  | parsing
  deriving DecidableEq, Repr

/-- The state of a parser. -/
structure ConfigParser where
  defaults : Dict Str Str
  sections : Dict Str (Dict Str Str)
  deriving DecidableEq, Repr

namespace ConfigParser

/-- `DEFAULTSECT` -/
def defaultSection : Str := "DEFAULT"

/-- A new parser. -/
def empty : ConfigParser := ⟨[], []⟩

/-- `optionxform`, within the limit of `lower`: it moves the ASCII letters (and the Kelvin sign) of a name only. -/
def optionxform (option : Str) : Str := lower option

/-- `sections()` -/
def sectionNames (p : ConfigParser) : List Str := p.sections.keys

/-- The raw value an option has in a section itself. -/
def raw (p : ConfigParser) (s k : Str) : Option Str := (p.sections.get? s).bind (·.get? k)

/-- The raw value an option of a section reads from: the section's own, else the default one. -/
def look (p : ConfigParser) (s k : Str) : Option Str := (p.raw s k).or (p.defaults.get? k)

/-- `name in parser` -/
def contains (p : ConfigParser) (s : Str) : Bool := s = defaultSection || s ∈ p.sectionNames

/-- `has_option` -/
def hasOption (p : ConfigParser) (s option : Str) : Bool :=
  if s = [] ∨ s = defaultSection then (p.defaults.get? (optionxform option)).isSome
  else if s ∈ p.sectionNames then (p.look s (optionxform option)).isSome
  else false

/-- `options`: the section's own options, then those only the default section has. -/
def options (p : ConfigParser) (s : Str) : List Str :=
  let own := ((p.sections.get? s).getD []).keys
  own ++ p.defaults.keys.filter (· ∉ own)

/-- `get` -/
def get (p : ConfigParser) (s option : Str) : Except ConfigError Str :=
  if s ∈ p.sectionNames ∨ s = defaultSection then
    match p.look s (optionxform option) with
    | none => .error (.noOption (optionxform option) s)
    | some v =>
      match expand (p.look s) maxInterpolationDepth v with
      | .ok r => .ok r
      | .error why => .error (.interpolation (optionxform option) s v why)
  else .error (.noSection s)

/-- Store a raw value in a section that exists. -/
def put (p : ConfigParser) (s k v : Str) : ConfigParser :=
  { p with sections := p.sections.modify s (·.set k v) }

/-- `set` -/
def set (p : ConfigParser) (s option v : Str) : Except ConfigError ConfigParser :=
  if v ≠ [] ∧ beforeSet v = false then .error (.invalidInterpolation v)
  else if s = [] ∨ s = defaultSection then
    .ok { p with defaults := p.defaults.set (optionxform option) v }
  else if s ∈ p.sectionNames then .ok (p.put s (optionxform option) v)
  else .error (.noSection s)

/-- `parser[name] = {}` for a new name. -/
def addSection (p : ConfigParser) (s : Str) : ConfigParser := { p with sections := p.sections ++ [(s, [])] }

/-! ## Raw values -/

theorem mem_sectionNames_of_raw {p : ConfigParser} {s k v : Str} (h : p.raw s k = some v) : s ∈ p.sectionNames := by
  obtain ⟨d, hd, _⟩ := Option.bind_eq_some_iff.1 h
  exact Dict.mem_keys_of_get? hd

theorem look_of_raw {p : ConfigParser} {s k v : Str} (h : p.raw s k = some v) : p.look s k = some v := by
  simp [look, h]

@[simp] theorem sectionNames_put (p : ConfigParser) (s k v : Str) : (p.put s k v).sectionNames = p.sectionNames :=
  Dict.keys_modify ..

@[simp] theorem defaults_put (p : ConfigParser) (s k v : Str) : (p.put s k v).defaults = p.defaults := rfl

theorem raw_put_self {p : ConfigParser} {s : Str} (h : s ∈ p.sectionNames) (k v : Str) :
    (p.put s k v).raw s k = some v := by
  obtain ⟨d, hd⟩ := Dict.mem_keys_iff.1 h
  simp [raw, put, Dict.get?_modify_self, hd]

theorem raw_put_ne {p : ConfigParser} {s s' k k' v : Str} (h : s ≠ s' ∨ k ≠ k') :
    (p.put s k v).raw s' k' = p.raw s' k' := by
  simp only [raw, put]
  by_cases hs : s = s'
  · subst hs
    rw [Dict.get?_modify_self]
    cases hd : p.sections.get? s with
    | none => rfl
    | some d => simp [Dict.get?_set_ne d (h.resolve_left (absurd rfl))]
  · rw [Dict.get?_modify_ne _ hs]

/-- Storing a raw value changes that value only. -/
theorem raw_put {p : ConfigParser} {s : Str} (h : s ∈ p.sectionNames) (s' k k' v : Str) :
    (p.put s k v).raw s' k' = if s = s' ∧ k = k' then some v else p.raw s' k' := by
  split
  · rename_i he
    obtain ⟨rfl, rfl⟩ := he
    exact raw_put_self h k v
  · rename_i he
    exact raw_put_ne (by by_cases hs : s = s' <;> simp_all)

theorem look_put {p : ConfigParser} {s : Str} (h : s ∈ p.sectionNames) (k v s' k' : Str) :
    (p.put s k v).look s' k' = if s = s' ∧ k = k' then some v else p.look s' k' := by
  rw [look, raw_put h, defaults_put]
  split <;> rfl

/-- Storing the value an option already has changes nothing. -/
theorem put_eq_self {p : ConfigParser} {s k v : Str} (h : p.raw s k = some v) : p.put s k v = p := by
  obtain ⟨d, hd, hv⟩ := Option.bind_eq_some_iff.1 h
  have : p.sections.modify s (·.set k v) = p.sections :=
    Dict.modify_id fun d' hd' => by
      rw [hd] at hd'
      cases hd'
      exact Dict.set_get? hv
  simp [put, this]

theorem put_put (p : ConfigParser) (s k v v' : Str) : (p.put s k v).put s k v' = p.put s k v' := by
  simp only [put, Dict.modify_modify, Function.comp_def, Dict.set_set]

theorem sections_put_ne {p : ConfigParser} {s s' : Str} (h : s ≠ s') (k v : Str) :
    (p.put s k v).sections.get? s' = p.sections.get? s' := Dict.get?_modify_ne _ h _

/-! ## Setting an option -/

/-- A name that `set` looks up among the sections. -/
def Ordinary (s : Str) : Prop := s ≠ [] ∧ s ≠ defaultSection

instance (s : Str) : Decidable (Ordinary s) := inferInstanceAs (Decidable (_ ∧ _))

/-- A value `set` accepts. -/
def Accepts (v : Str) : Prop := v = [] ∨ beforeSet v = true

instance (v : Str) : Decidable (Accepts v) := inferInstanceAs (Decidable (_ ∨ _))

theorem accepts_nil : Accepts [] := .inl rfl

theorem accepts_plain {v : Str} (h : '%' ∉ v) : Accepts v := .inr (beforeSet_plain h)

/-- **What a successful `set` does.** -/
theorem set_eq_ok {p p' : ConfigParser} {s option v : Str} (hs : Ordinary s) :
    p.set s option v = .ok p' ↔ Accepts v ∧ s ∈ p.sectionNames ∧ p' = p.put s (optionxform option) v := by
  have hs' : ¬(s = [] ∨ s = defaultSection) := fun h => h.elim hs.1 hs.2
  have hv : (v ≠ [] ∧ beforeSet v = false) ↔ ¬Accepts v := by simp [Accepts]
  unfold set
  rw [if_neg hs']
  by_cases ha : Accepts v
  · rw [if_neg (fun h => hv.1 h ha)]
    by_cases hm : s ∈ p.sectionNames
    · rw [if_pos hm]
      simp [ha, hm, eq_comm]
    · rw [if_neg hm]
      simp [hm]
  · rw [if_pos (hv.2 ha)]
    simp [ha]

theorem set_ok {p : ConfigParser} {s : Str} (hs : Ordinary s) (hm : s ∈ p.sectionNames) (option : Str) {v : Str}
    (hv : Accepts v) : p.set s option v = .ok (p.put s (optionxform option) v) := (set_eq_ok hs).2 ⟨hv, hm, rfl⟩

/-- A `set` of any section touches one raw value at most. -/
theorem raw_set_ne {p p' : ConfigParser} {s option v : Str} (h : p.set s option v = .ok p') {s' k : Str}
    (hne : s ≠ s' ∨ optionxform option ≠ k) : p'.raw s' k = p.raw s' k := by
  unfold set at h
  split at h
  · cases h
  · split at h
    · cases h; rfl
    · split at h
      · cases h; exact raw_put_ne hne
      · cases h

theorem sectionNames_set {p p' : ConfigParser} {s option v : Str} (h : p.set s option v = .ok p') :
    p'.sectionNames = p.sectionNames := by
  unfold set at h
  split at h
  · cases h
  · split at h
    · cases h; rfl
    · split at h
      · cases h; exact sectionNames_put ..
      · cases h

/-- A `set` removes no option. -/
theorem raw_isSome_set {p p' : ConfigParser} {s option v : Str} (h : p.set s option v = .ok p') {s' k : Str}
    (hraw : (p.raw s' k).isSome) : (p'.raw s' k).isSome := by
  unfold set at h
  split at h
  · cases h
  · split at h
    · cases h; exact hraw
    · split at h
      · rename_i hm
        cases h
        rw [raw_put hm]
        split
        · rfl
        · exact hraw
      · cases h

/-! ## Reading an option -/

/-- **What a successful `get` reads.** -/
theorem get_eq_ok {p : ConfigParser} {s option r : Str} : p.get s option = .ok r ↔
    (s ∈ p.sectionNames ∨ s = defaultSection) ∧
      ∃ v, p.look s (optionxform option) = some v ∧ expand (p.look s) maxInterpolationDepth v = .ok r := by
  unfold get
  by_cases hs : s ∈ p.sectionNames ∨ s = defaultSection
  · rw [if_pos hs]
    simp only [hs, true_and]
    cases hl : p.look s (optionxform option) with
    | none => simp
    | some v =>
      cases he : expand (p.look s) maxInterpolationDepth v with
      | ok r' => simp [he]
      | error why => simp [he]
  · rw [if_neg hs]
    simp [hs]

/-- A value without percent signs is read as it is stored. -/
theorem get_plain {p : ConfigParser} {s option v : Str} (hs : s ∈ p.sectionNames)
    (hl : p.look s (optionxform option) = some v) (hv : '%' ∉ v) : p.get s option = .ok v :=
  get_eq_ok.2 ⟨.inl hs, v, hl, expand_plain _ _ hv⟩

theorem eq_of_get_plain {p : ConfigParser} {s option v r : Str} (hl : p.look s (optionxform option) = some v)
    (hv : '%' ∉ v) (h : p.get s option = .ok r) : r = v := by
  obtain ⟨_, v', hl', he⟩ := get_eq_ok.1 h
  rw [hl] at hl'
  cases hl'
  rw [maxInterpolationDepth, expand_plain _ _ hv] at he
  cases he
  rfl

/-- Reading depends on the section, its existence and what its options read from. -/
theorem get_congr {p q : ConfigParser} {s : Str} (hs : s ∈ p.sectionNames ↔ s ∈ q.sectionNames)
    (hl : ∀ k, p.look s k = q.look s k) (option : Str) : p.get s option = q.get s option := by
  unfold get
  rw [show p.look s = q.look s from funext hl]
  by_cases h : s ∈ q.sectionNames ∨ s = defaultSection
  · rw [if_pos h, if_pos (h.imp hs.2 id)]
  · rw [if_neg h, if_neg (fun h' => h (h'.imp hs.1 id))]

end ConfigParser
end Iprotate
