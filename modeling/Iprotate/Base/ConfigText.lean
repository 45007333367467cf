import Iprotate.Base.ConfigParser

/-!
# The text of a configuration file

`write` is `ConfigParser.write` and `read` is `ConfigParser.read` on a new parser: one pass over the lines with the
current section, the current option and its indentation (`Reading`, `readLine`).

A parser is `Writable` when its names can stand in a file and no value has a carriage return in it. Writing one and
reading it back gives `norm`: the same sections and options in the same order, each value with its lines stripped
and its comment lines gone (`read_write`).
-/

namespace Iprotate
namespace ConfigParser

open Text

/-! ## Writing -/

/-- The lines of one option: a line break inside the value is followed by a tab. -/
def optionLines (k v : Str) : List Str :=
  match v.splitOn '\n' with
  | [] => []
  | l :: ls => (k ++ ' ' :: '=' :: ' ' :: l) :: ls.map ('\t' :: ·)

/-- `_write_section` -/
def sectionLines (name : Str) (items : Dict Str Str) : List Str :=
  ('[' :: (name ++ [']'])) :: items.flatMap (fun e => optionLines e.1 e.2) ++ [[]]

def writeLines (p : ConfigParser) : List Str :=
  (if p.defaults = [] then [] else sectionLines defaultSection p.defaults) ++
    p.sections.flatMap fun e => sectionLines e.1 e.2

/-- `write` -/
def write (p : ConfigParser) : Str := unlines (writeLines p)

/-! ## Reading -/

/-- The state of `_read`; a value is the list of its lines so far. -/
structure Reading where
  defaults : Dict Str (List Str)
  sections : Dict Str (Dict Str (List Str))
  cursect : Option Str
  optname : Option Str
  indent : Nat
  /-- Some line was no option; `ParsingError` is raised at the end of the file. -/
  bad : Bool
  deriving DecidableEq, Repr

def Reading.start : Reading := ⟨[], [], none, none, 0, false⟩

def isComment (value : Str) : Bool := value.head? = some '#' || value.head? = some ';'

def isDelim (c : Char) : Bool := c = '=' || c = ':'

/-- `SECTCRE.match`: the header runs to the last closing bracket. -/
def sectionHeader : Str → Option Str
  | [] => none
  | c :: t =>
    if c = '[' then
      let header := (t.rdropWhile (· != ']')).dropLast
      if header = [] then none else some header
    else none

/-- `OPTCRE.match`: the option's name and value, split at the first delimiter. -/
def splitOption (value : Str) : Option (Str × Str) :=
  match value.dropWhile (fun c => !isDelim c) with
  | [] => none
  | _ :: after => some (rstrip (value.takeWhile (fun c => !isDelim c)), strip after)

namespace Reading

/-- The options of the current section. -/
def current (r : Reading) : Dict Str (List Str) :=
  match r.cursect with
  | none => []
  | some s => if s = defaultSection then r.defaults else (r.sections.get? s).getD []

/-- Change the current section. -/
def update (r : Reading) (f : Dict Str (List Str) → Dict Str (List Str)) : Reading :=
  match r.cursect with
  | none => r
  | some s =>
    if s = defaultSection then { r with defaults := f r.defaults }
    else { r with sections := r.sections.modify s f }

/-- `optname` is set and not empty. -/
def inOption (r : Reading) : Bool := r.cursect.isSome && r.optname.isSome && r.optname != some []

/-- `cursect[optname].append(value)` -/
def append (r : Reading) (value : Str) : Reading :=
  match r.optname with
  | none => r
  | some k => if k = [] then r else r.update (·.modify k (· ++ [value]))

/-- A section header. The parser is new, so a section that is there was added by this file. -/
def enter (r : Reading) (name : Str) : Except ConfigError Reading :=
  if name ∈ r.sections.keys then .error (.duplicateSection name)
  else if name = defaultSection then .ok { r with cursect := some name, optname := none }
  else .ok { r with sections := r.sections ++ [(name, [])], cursect := some name, optname := none }

/-- An option line of section `s`. -/
def option (r : Reading) (s value : Str) : Except ConfigError Reading :=
  match splitOption value with
  | none => .ok { r with bad := true }
  | some (name, optval) =>
    let k := optionxform name
    if k ∈ r.current.keys then .error (.duplicateOption s k)
    else .ok { r.update (·.set k [optval]) with optname := some k, bad := r.bad || name = [] }

/-- One line. -/
def readLine (r : Reading) (line : Str) : Except ConfigError Reading :=
  let value := strip line
  let curIndent := (line.takeWhile isSpace).length
  if isComment value then .ok r
  else if value = [] then .ok (r.append [])
  else if r.inOption ∧ r.indent < curIndent then .ok (r.append value)
  else
    let r := { r with indent := curIndent }
    match sectionHeader value with
    | some name => r.enter name
    | none =>
      match r.cursect with
      | none => .error (.missingSectionHeader line)
      | some s => r.option s value

def readLines : List Str → Reading → Except ConfigError Reading
  | [], r => .ok r
  | l :: ls, r =>
    match r.readLine l with
    | .ok r' => readLines ls r'
    | .error e => .error e

end Reading

/-- `_join_multiline_values` for one value. -/
def joinValue (ls : List Str) : Str := rstrip (['\n'].intercalate ls)

/-- The parser a reading ends with. -/
def Reading.result (r : Reading) : ConfigParser :=
  ⟨r.defaults.mapVal joinValue, r.sections.mapVal (·.mapVal joinValue)⟩

/-- `read` -/
def read (text : Str) : Except ConfigError ConfigParser :=
  match Reading.readLines (lines text) .start with
  | .error e => .error e
  | .ok r => if r.bad then .error .parsing else .ok r.result

/-! ## Names and values that can stand in a file -/

/-- An option name that reads back as itself. -/
structure KeyOk (k : Str) : Prop where
  ne_nil : k ≠ []
  lower : lower k = k
  strip : strip k = k
  delim : ∀ c ∈ k, isDelim c = false
  newline : '\n' ∉ k
  cr : '\r' ∉ k
  comment : isComment k = false

/-- The first line of a value. -/
def firstLine (v : Str) : Str := (v.splitOn '\n').headD []

/-- The first line of the option is not taken for a section header. -/
def Headerless (k v : Str) : Prop := ∀ t, k = '[' :: t → ']' ∉ t.drop 1 ∧ ']' ∉ firstLine v

/-- An option that is read back under its name. -/
structure EntryOk (k v : Str) : Prop where
  key : KeyOk k
  cr : '\r' ∉ v
  header : Headerless k v

structure ItemsOk (d : Dict Str Str) : Prop where
  nodup : d.keys.Nodup
  entries : ∀ e ∈ d, EntryOk e.1 e.2

/-- A section name that reads back as itself. -/
structure NameOk (name : Str) : Prop where
  ne_nil : name ≠ []
  ne_default : name ≠ defaultSection
  newline : '\n' ∉ name
  cr : '\r' ∉ name

/-- What can be written and read back. -/
structure Writable (p : ConfigParser) : Prop where
  defaults : ItemsOk p.defaults
  nodup : p.sections.keys.Nodup
  names : ∀ name ∈ p.sections.keys, NameOk name
  items : ∀ e ∈ p.sections, ItemsOk e.2

/-- The lines of a value as a reader collects them. -/
def valueLines (v : Str) : List Str :=
  match v.splitOn '\n' with
  | [] => []
  | l :: ls => strip l :: (ls.map strip).filter (!isComment ·)

/-- A value after a write and a read. -/
def normValue (v : Str) : Str := joinValue (valueLines v)

/-- A parser after a write and a read. -/
def norm (p : ConfigParser) : ConfigParser := ⟨p.defaults.mapVal normValue, p.sections.mapVal (·.mapVal normValue)⟩

/-- Empty lines at the end of a value are dropped. -/
theorem joinValue_append_nil (ls : List Str) : joinValue (ls ++ [[]]) = joinValue ls := by
  cases ls with
  | nil => rfl
  | cons l ls =>
    have h : ['\n'].intercalate (l :: ls ++ [[]]) = ['\n'].intercalate (l :: ls) ++ ['\n'] := by
      induction ls generalizing l with
      | nil => simp [List.intercalate_cons_cons]
      | cons m ls ih =>
        have := ih m
        simp only [List.cons_append] at this ⊢
        rw [List.intercalate_cons_cons, this, List.intercalate_cons_cons]
        simp
    rw [joinValue, joinValue, h, rstrip, List.rdropWhile_concat_pos _ _ _ (by decide)]
    rfl

/-! ## Changing the current section -/

namespace Reading

@[simp] theorem cursect_update (r : Reading) (f : Dict Str (List Str) → Dict Str (List Str)) :
    (r.update f).cursect = r.cursect := by
  obtain ⟨ds, ss, cur, opt, ind, bad⟩ := r
  cases cur with
  | none => rfl
  | some s => by_cases hs : s = defaultSection <;> simp [update, hs]

@[simp] theorem optname_update (r : Reading) (f : Dict Str (List Str) → Dict Str (List Str)) :
    (r.update f).optname = r.optname := by
  obtain ⟨ds, ss, cur, opt, ind, bad⟩ := r
  cases cur with
  | none => rfl
  | some s => by_cases hs : s = defaultSection <;> simp [update, hs]

@[simp] theorem indent_update (r : Reading) (f : Dict Str (List Str) → Dict Str (List Str)) :
    (r.update f).indent = r.indent := by
  obtain ⟨ds, ss, cur, opt, ind, bad⟩ := r
  cases cur with
  | none => rfl
  | some s => by_cases hs : s = defaultSection <;> simp [update, hs]

@[simp] theorem bad_update (r : Reading) (f : Dict Str (List Str) → Dict Str (List Str)) :
    (r.update f).bad = r.bad := by
  obtain ⟨ds, ss, cur, opt, ind, bad⟩ := r
  cases cur with
  | none => rfl
  | some s => by_cases hs : s = defaultSection <;> simp [update, hs]

theorem update_update (r : Reading) (f g : Dict Str (List Str) → Dict Str (List Str)) :
    (r.update f).update g = r.update (g ∘ f) := by
  obtain ⟨ds, ss, cur, opt, ind, bad⟩ := r
  cases cur with
  | none => rfl
  | some s =>
    by_cases hs : s = defaultSection
    · simp [update, hs]
    · simp [update, hs, Dict.modify_modify]

/-- Only the current section and the dictionaries matter to `update`. -/
theorem update_with (r : Reading) (f : Dict Str (List Str) → Dict Str (List Str)) (o : Option Str)
    (n : Nat) (b : Bool) :
    ({ r with optname := o, indent := n, bad := b } : Reading).update f =
      { r.update f with optname := o, indent := n, bad := b } := by
  obtain ⟨ds, ss, cur, opt, ind, bad⟩ := r
  cases cur with
  | none => rfl
  | some s => by_cases hs : s = defaultSection <;> simp [update, hs]

/-- A blank line does not change what is read. -/
theorem result_append_nil (r : Reading) : (r.append []).result = r.result := by
  obtain ⟨ds, ss, cur, opt, ind, bad⟩ := r
  cases opt with
  | none => rfl
  | some k =>
    by_cases hk : k = []
    · simp [append, hk]
    · cases cur with
      | none => simp [append, hk, update]
      | some s =>
        by_cases hs : s = defaultSection
        · simp [append, hk, update, hs, result, Dict.mapVal_modify joinValue_append_nil]
        · simp only [append, hk, if_false, update, hs, result]
          rw [Dict.mapVal_modify (fun d => Dict.mapVal_modify joinValue_append_nil d k)]

theorem readLines_append : ∀ (ls ls' : List Str) (r : Reading), readLines (ls ++ ls') r =
    match readLines ls r with
    | .ok r' => readLines ls' r'
    | .error e => .error e
  | [], _, _ => rfl
  | l :: ls, ls', r => by
    simp only [List.cons_append, readLines]
    cases r.readLine l with
    | ok r' => exact readLines_append ls ls' r'
    | error e => rfl

end Reading

/-! ## Reading a section header -/

/-- A line that begins with a bracket is a header iff another bracket closes it after the first character. -/
theorem sectionHeader_eq_none {t : Str} : sectionHeader ('[' :: t) = none ↔ ']' ∉ t.drop 1 := by
  have hdef : sectionHeader ('[' :: t) = none ↔ (t.rdropWhile (· != ']')).dropLast = [] := by
    simp only [sectionHeader, if_true]
    split <;> simp_all
  rw [hdef]
  cases t with
  | nil => simp
  | cons c t =>
    simp only [List.drop_succ_cons, List.drop_zero]
    constructor
    · intro h hm
      obtain ⟨a, b, rfl⟩ := List.append_of_mem hm
      have hr := rdropWhile_append_stop (p := (· != ']')) (x := ']') (by simp) (c :: a) b
      rw [List.cons_append] at hr
      rw [hr] at h
      have hl := congrArg List.length h
      simp at hl
    · intro h
      have hall : ∀ x ∈ t, (x != ']') = true := fun x hx => by
        have : x ≠ ']' := fun e => h (e ▸ hx)
        simpa using this
      have hr : t.rdropWhile (· != ']') = [] := List.rdropWhile_eq_nil_iff.2 hall
      by_cases hc : c = ']'
      · have := rdropWhile_append_stop (p := (· != ']')) (x := c) (by simp [hc]) [] t
        rw [List.nil_append, hr] at this
        rw [this]
        rfl
      · have : (c :: t).rdropWhile (· != ']') = [] := List.rdropWhile_eq_nil_iff.2 (by
          intro x hx
          rcases List.mem_cons.1 hx with rfl | hx
          · simpa using hc
          · exact hall x hx)
        rw [this]
        rfl

/-- The header line of a section is read as that section. -/
theorem sectionHeader_name {name : Str} (h : name ≠ []) : sectionHeader ('[' :: (name ++ [']'])) = some name := by
  have hr : (name ++ [']']).rdropWhile (· != ']') = name ++ [']'] :=
    List.rdropWhile_concat_neg _ _ _ (by simp)
  simp [sectionHeader, hr, h]

theorem strip_header (name : Str) : strip ('[' :: (name ++ [']'])) = '[' :: (name ++ [']']) := by
  have hl : lstrip ('[' :: (name ++ [']'])) = '[' :: (name ++ [']']) := lstrip_cons_solid (by decide) _
  rw [strip, hl, ← List.cons_append]
  exact rstrip_append_solid (c := ']') (by decide) ('[' :: name) []

/-! ## Reading an option -/

theorem lstrip_of_strip {k : Str} (hne : k ≠ []) (h : strip k = k) (t : Str) : lstrip (k ++ t) = k ++ t := by
  cases k with
  | nil => exact absurd rfl hne
  | cons c k => exact lstrip_cons_solid (strip_head h) _

theorem KeyOk.rstrip {k : Str} (h : KeyOk k) : Text.rstrip k = k := by
  have := rstrip_strip k
  rwa [h.strip] at this

theorem KeyOk.head {k : Str} (h : KeyOk k) : ∃ c t, k = c :: t ∧ isSpace c = false := by
  cases k with
  | nil => exact absurd rfl h.ne_nil
  | cons c t => exact ⟨c, t, rfl, strip_head h.strip⟩

/-- The stripped first line of an option. -/
theorem strip_optionLine {k : Str} (h : KeyOk k) (l : Str) :
    strip (k ++ ' ' :: '=' :: ' ' :: l) = k ++ ' ' :: '=' :: rstrip (' ' :: l) := by
  rw [strip, lstrip_of_strip h.ne_nil h.strip]
  have he : ∀ t : Str, k ++ ' ' :: '=' :: t = (k ++ [' ']) ++ '=' :: t := fun t => by simp
  rw [he, he]
  exact rstrip_append_solid (by decide) _ _

theorem splitOption_optionLine {k : Str} (h : KeyOk k) (l : Str) :
    splitOption (k ++ ' ' :: '=' :: rstrip (' ' :: l)) = some (k, strip l) := by
  have hk : ∀ c ∈ k ++ [' '], (!isDelim c) = true := by
    intro c hc
    rcases List.mem_append.1 hc with hc | hc
    · simp [h.delim c hc]
    · rw [List.mem_singleton.1 hc]; rfl
  have he : ∀ t : Str, k ++ ' ' :: '=' :: t = (k ++ [' ']) ++ '=' :: t := fun t => by simp
  have hd : isDelim '=' = true := rfl
  rw [he, splitOption, List.dropWhile_append_of_pos hk, List.takeWhile_append_of_pos hk]
  have hr : rstrip (k ++ [' ']) = k := by
    rw [rstrip, List.rdropWhile_concat_pos _ _ _ (by decide)]
    exact h.rstrip
  have hs : strip (rstrip (' ' :: l)) = strip l := by
    rw [strip_rstrip, strip_cons_space (by decide)]
  simp [hd, hr, hs]

theorem sectionHeader_optionLine {k v l : Str} {ls : List Str} (h : EntryOk k v) (hv : v.splitOn '\n' = l :: ls) :
    sectionHeader (k ++ ' ' :: '=' :: rstrip (' ' :: l)) = none := by
  have hl : firstLine v = l := by rw [firstLine, hv]; rfl
  have hbr : ']' ∉ l → ']' ∉ ' ' :: '=' :: rstrip (' ' :: l) := by
    intro hl hm
    simp only [List.mem_cons] at hm
    rcases hm with hm | hm | hm
    · exact absurd hm (by decide)
    · exact absurd hm (by decide)
    · have := mem_of_mem_rstrip hm
      simp only [List.mem_cons] at this
      exact this.elim (absurd · (by decide)) hl
  cases k with
  | nil => exact absurd rfl h.key.ne_nil
  | cons c t =>
    by_cases hc : c = '['
    · subst hc
      obtain ⟨ht, hf⟩ := h.header t rfl
      rw [hl] at hf
      rw [List.cons_append, sectionHeader_eq_none]
      intro hm
      cases t with
      | nil => exact hbr hf (List.mem_of_mem_drop hm)
      | cons d t =>
        simp only [List.cons_append, List.drop_succ_cons, List.drop_zero, List.mem_append] at hm ht
        exact hm.elim ht (hbr hf)
    · simp [sectionHeader, hc]

namespace Reading

theorem indent_optionLine {k : Str} (h : KeyOk k) (t : Str) : ((k ++ t).takeWhile isSpace).length = 0 := by
  obtain ⟨c, u, rfl, hc⟩ := h.head
  simp [hc]

theorem isComment_append {k : Str} (hne : k ≠ []) (t : Str) : isComment (k ++ t) = isComment k := by
  cases k with
  | nil => exact absurd rfl hne
  | cons c k => rfl

/-- The first line of an option opens it. -/
theorem readLine_option {r : Reading} {s k v l : Str} {ls : List Str} (h : EntryOk k v)
    (hv : v.splitOn '\n' = l :: ls) (hs : r.cursect = some s) (hk : k ∉ r.current.keys) :
    r.readLine (k ++ ' ' :: '=' :: ' ' :: l) =
      .ok { r.update (·.set k [strip l]) with optname := some k, indent := 0 } := by
  have hcomment : isComment (k ++ ' ' :: '=' :: rstrip (' ' :: l)) = false := by
    rw [isComment_append h.key.ne_nil, h.key.comment]
  have hne : ¬(k ++ ' ' :: '=' :: rstrip (' ' :: l) = []) := by simp
  have hx : optionxform k = k := h.key.lower
  obtain ⟨ds, ss, cur, opt, ind, bad⟩ := r
  cases hs
  have hcur : k ∉ (⟨ds, ss, some s, opt, 0, bad⟩ : Reading).current.keys := hk
  have hupd := update_with ⟨ds, ss, some s, opt, ind, bad⟩ (·.set k [strip l]) opt 0 bad
  simp only [readLine, strip_optionLine h.key, hcomment, hne, indent_optionLine h.key, Nat.not_lt_zero, and_false,
    if_false, Bool.false_eq_true, sectionHeader_optionLine h hv, option, splitOption_optionLine h.key, hx, hcur]
  simp only at hupd
  simp [hupd, h.key.ne_nil]

/-- A further line of a value. -/
theorem readLine_continuation {r : Reading} (ho : r.inOption = true) (hi : r.indent = 0) (l : Str) :
    r.readLine ('\t' :: l) = .ok (if isComment (strip l) then r else r.append (strip l)) := by
  have hs : strip ('\t' :: l) = strip l := strip_cons_space (by decide) l
  have hind : 0 < (('\t' :: l).takeWhile isSpace).length := by
    rw [List.takeWhile_cons_of_pos (by decide)]
    simp
  simp only [readLine, hs, ho, hi, hind, and_self, if_true]
  split
  · rfl
  · split
    · rename_i h; rw [h]
    · rfl

theorem append_eq {r : Reading} {k : Str} (ho : r.optname = some k) (hk : k ≠ []) (value : Str) :
    r.append value = r.update (·.modify k (· ++ [value])) := by simp [append, ho, hk]

/-- The further lines of a value go to the current option, its comments left out. -/
theorem readLines_continuations {s k : Str} (hk : k ≠ []) : ∀ (ls : List Str) {r : Reading}, r.cursect = some s →
    r.optname = some k → r.indent = 0 → readLines (ls.map ('\t' :: ·)) r =
      .ok (r.update (·.modify k (· ++ (ls.map strip).filter (!isComment ·))))
  | [], r, hs, _, _ => by
    have : r.update (fun d => d.modify k (fun x => x)) = r := by
      obtain ⟨ds, ss, cur, opt, ind, bad⟩ := r
      cases hs
      have hid : ∀ d : Dict Str (List Str), d.modify k (fun x => x) = d := fun d => Dict.modify_id fun _ _ => rfl
      by_cases h : s = defaultSection
      · simp [update, h, hid]
      · simp only [update, h, if_false, hid]
        rw [Dict.modify_id fun _ _ => rfl]
    simp [readLines, this]
  | l :: ls, r, hs, ho, hi => by
    have hin : r.inOption = true := by simp [inOption, hs, ho, hk]
    rw [List.map_cons, readLines, readLine_continuation hin hi]
    cases hc : isComment (strip l) with
    | true =>
      simp only [if_true]
      rw [readLines_continuations hk ls hs ho hi]
      simp [hc]
    | false =>
      simp only [Bool.false_eq_true, if_false, append_eq ho hk]
      rw [readLines_continuations hk ls (by simpa using hs) (by simpa using ho) (by simpa using hi), update_update]
      simp [Function.comp_def, Dict.modify_modify, hc]

/-- **An option that is written is read as one new entry.** -/
theorem readLines_option {r : Reading} {s k v : Str} (h : EntryOk k v) (hs : r.cursect = some s)
    (hk : k ∉ r.current.keys) : readLines (optionLines k v) r =
      .ok { r.update (·.set k (valueLines v)) with optname := some k, indent := 0 } := by
  unfold optionLines valueLines
  cases hv : v.splitOn '\n' with
  | nil => exact absurd hv (List.splitOn_ne_nil _ _)
  | cons l ls =>
    simp only [readLines, readLine_option h hv hs hk]
    rw [readLines_continuations h.key.ne_nil ls (by simpa using hs) rfl rfl]
    have hw := update_with (r.update (·.set k [strip l])) (·.modify k (· ++ (ls.map strip).filter (!isComment ·)))
      (some k) 0 r.bad
    have hset : ∀ d : Dict Str (List Str), (d.set k [strip l]).modify k (· ++ (ls.map strip).filter (!isComment ·)) =
        d.set k (strip l :: (ls.map strip).filter (!isComment ·)) := fun d => by
      rw [Dict.modify_eq_set (Dict.get?_set_self ..), Dict.set_set]
      rfl
    simp only [update_update, Function.comp_def, hset] at hw
    simpa using hw

/-- The current section is one the reading knows. -/
def Open (r : Reading) (s : Str) : Prop := r.cursect = some s ∧ (s = defaultSection ∨ s ∈ r.sections.keys)

theorem Open.current_update {r : Reading} {s : Str} (h : r.Open s)
    (f : Dict Str (List Str) → Dict Str (List Str)) : (r.update f).current = f r.current := by
  obtain ⟨ds, ss, cur, opt, ind, bad⟩ := r
  obtain ⟨rfl, h⟩ := h
  by_cases hs : s = defaultSection
  · simp [update, current, hs]
  · obtain ⟨d, hd⟩ := Dict.mem_keys_iff.1 (h.resolve_left hs)
    have hd' : ss.get? s = some d := hd
    simp [update, current, hs, Dict.get?_modify_self, hd']

theorem Open.update {r : Reading} {s : Str} (h : r.Open s) (f : Dict Str (List Str) → Dict Str (List Str))
    (o : Option Str) (n : Nat) : ({ r.update f with optname := o, indent := n } : Reading).Open s := by
  obtain ⟨ds, ss, cur, opt, ind, bad⟩ := r
  obtain ⟨rfl, h⟩ := h
  refine ⟨by simp, h.imp id fun hm => ?_⟩
  by_cases hs : s = defaultSection <;> simpa [Reading.update, hs] using hm

/-- The options of a section are read in order, after those that are there. -/
theorem readLines_items {s : Str} : ∀ (items : Dict Str Str) {r : Reading}, r.Open s →
    (r.current.keys ++ items.keys).Nodup → (∀ e ∈ items, EntryOk e.1 e.2) →
    ∃ o n, readLines (items.flatMap fun e => optionLines e.1 e.2) r =
      .ok { r.update (· ++ items.mapVal valueLines) with optname := o, indent := n }
  | [], r, _, _, _ => by
    refine ⟨r.optname, r.indent, ?_⟩
    have : r.update (fun d => d) = r := by
      obtain ⟨ds, ss, cur, opt, ind, bad⟩ := r
      cases cur with
      | none => rfl
      | some s => by_cases hs : s = defaultSection <;> simp [update, hs, Dict.modify_id]
    simp [Dict.mapVal, this, readLines]
  | (k, v) :: items, r, h, hn, hok => by
    have hk : k ∉ r.current.keys := fun hk =>
      (List.nodup_append.1 hn).2.2 k hk k (by simp) rfl
    have hopt := readLines_option (hok (k, v) List.mem_cons_self) h.1 hk
    have hcur : ({ r.update (·.set k (valueLines v)) with optname := some k, indent := 0 } : Reading).current =
        r.current ++ [(k, valueLines v)] := by
      have := h.current_update (·.set k (valueLines v))
      rw [Dict.set_of_not_mem hk] at this
      exact this
    obtain ⟨o, n, ih⟩ := readLines_items items (h.update (·.set k (valueLines v)) (some k) 0)
      (by rw [hcur]; simpa using hn) (fun e he => hok e (List.mem_cons_of_mem _ he))
    refine ⟨o, n, ?_⟩
    rw [List.flatMap_cons, readLines_append, hopt]
    dsimp only
    rw [ih]
    have hw := update_with (r.update (·.set k (valueLines v))) (· ++ Dict.mapVal valueLines items) (some k) 0 r.bad
    have hset : (r.update (·.set k (valueLines v))).update (· ++ Dict.mapVal valueLines items) =
        r.update (· ++ Dict.mapVal valueLines ((k, v) :: items)) := by
      rw [update_update]
      obtain ⟨ds, ss, cur, opt, ind, bad⟩ := r
      obtain ⟨rfl, hs⟩ := h
      by_cases hd : s = defaultSection
      · have hk' : k ∉ ds.keys := by simpa [current, hd] using hk
        simp [update, hd, Dict.set_of_not_mem hk', Dict.mapVal]
      · have hm : ∀ d, ss.get? s = some d → k ∉ d.keys := by
          intro d hd'
          simpa [current, hd, hd'] using hk
        simp only [update, hd, if_false]
        congr 1
        exact Dict.modify_congr fun d hd' => by simp [Dict.set_of_not_mem (hm d hd'), Dict.mapVal]
    rw [hset] at hw
    simp only [bad_update] at hw ⊢
    rw [hw]

theorem readLine_blank (r : Reading) : r.readLine [] = .ok (r.append []) := by simp [readLine, isComment]

theorem bad_append (r : Reading) (value : Str) : (r.append value).bad = r.bad := by
  unfold append
  split
  · rfl
  · split <;> simp

/-- A header line enters its section. -/
theorem readLine_header {r : Reading} {name : Str} (h : name ≠ []) :
    ∃ r' : Reading, r'.defaults = r.defaults ∧ r'.sections = r.sections ∧ r'.bad = r.bad ∧
      r.readLine ('[' :: (name ++ [']'])) = r'.enter name := by
  refine ⟨{ r with indent := 0 }, rfl, rfl, rfl, ?_⟩
  have hind : (('[' :: (name ++ [']'])).takeWhile isSpace).length = 0 := by
    rw [List.takeWhile_cons_of_neg (by decide)]
    rfl
  simp [readLine, strip_header, isComment, hind, sectionHeader_name h]

/-- What a whole section adds to the reading, given what entering it did. -/
theorem readLines_section {r r' : Reading} {name : Str} {items : Dict Str Str} (hne : name ≠ [])
    (henter : ∀ r₁ : Reading, r₁.defaults = r.defaults → r₁.sections = r.sections → r₁.bad = r.bad →
      ∃ r₂, r₁.enter name = .ok r₂ ∧ r₂.Open name ∧ r₂.current = [] ∧ r₂.bad = r.bad ∧
        (r₂.update (· ++ items.mapVal valueLines)).result = r'.result)
    (hi : ItemsOk items) : ∃ r₃, readLines (sectionLines name items) r = .ok r₃ ∧ r₃.bad = r.bad ∧
      r₃.result = r'.result := by
  obtain ⟨r₁, hd, hs, hb, hhead⟩ := readLine_header (r := r) hne
  obtain ⟨r₂, he, hopen, hcur, hbad, hres⟩ := henter r₁ hd hs hb
  obtain ⟨o, n, hitems⟩ := readLines_items items hopen (by rw [hcur]; simpa using hi.nodup) hi.entries
  refine ⟨({ r₂.update (· ++ items.mapVal valueLines) with optname := o, indent := n } : Reading).append [], ?_, ?_, ?_⟩
  · rw [sectionLines, List.cons_append, readLines, hhead, he]
    dsimp only
    rw [readLines_append, hitems]
    simp [readLines, readLine_blank]
  · rw [bad_append]
    simpa using hbad
  · rw [result_append_nil]
    exact hres

theorem readLines_defaults {r : Reading} {items : Dict Str Str} (hd : r.defaults = [])
    (hs : defaultSection ∉ r.sections.keys) (hi : ItemsOk items) :
    ∃ r', readLines (sectionLines defaultSection items) r = .ok r' ∧ r'.bad = r.bad ∧
      r'.result = ⟨items.mapVal normValue, r.result.sections⟩ := by
  have henter : ∀ r₁ : Reading, r₁.defaults = r.defaults → r₁.sections = r.sections → r₁.bad = r.bad →
      ∃ r₂, r₁.enter defaultSection = .ok r₂ ∧ r₂.Open defaultSection ∧ r₂.current = [] ∧ r₂.bad = r.bad ∧
        (r₂.update (· ++ items.mapVal valueLines)).result =
          ({ r with defaults := items.mapVal valueLines } : Reading).result := by
    intro r₁ hd₁ hs₁ hb₁
    refine ⟨{ r₁ with cursect := some defaultSection, optname := none }, ?_, ⟨rfl, .inl rfl⟩, ?_, hb₁, ?_⟩
    · simp [enter, hs₁, hs]
    · simp [current, hd₁, hd]
    · simp [update, hd₁, hd, hs₁, result]
  obtain ⟨r', hr, hb, hres⟩ := readLines_section (by decide) henter hi
  exact ⟨r', hr, hb, by rw [hres]; simp [result, Dict.mapVal, normValue]⟩

theorem readLines_newSection {r : Reading} {name : Str} {items : Dict Str Str} (hname : NameOk name)
    (hs : name ∉ r.sections.keys) (hi : ItemsOk items) :
    ∃ r', readLines (sectionLines name items) r = .ok r' ∧ r'.bad = r.bad ∧
      r'.result = ⟨r.result.defaults, r.result.sections ++ [(name, items.mapVal normValue)]⟩ := by
  have henter : ∀ r₁ : Reading, r₁.defaults = r.defaults → r₁.sections = r.sections → r₁.bad = r.bad →
      ∃ r₂, r₁.enter name = .ok r₂ ∧ r₂.Open name ∧ r₂.current = [] ∧ r₂.bad = r.bad ∧
        (r₂.update (· ++ items.mapVal valueLines)).result =
          ({ r with sections := r.sections ++ [(name, items.mapVal valueLines)] } : Reading).result := by
    intro r₁ hd₁ hs₁ hb₁
    have hget : Dict.get? (r₁.sections ++ [(name, ([] : Dict Str (List Str)))]) name = some [] := by
      rw [Dict.get?_append, hs₁, Dict.get?_eq_none_iff.2 hs]
      simp
    refine ⟨{ r₁ with sections := r₁.sections ++ [(name, [])], cursect := some name, optname := none }, ?_,
      ⟨rfl, .inr (Dict.mem_keys_of_get? hget)⟩, ?_, hb₁, ?_⟩
    · simp [enter, hs₁, hs, hname.ne_default]
    · simp [current, hname.ne_default, hget]
    · simp [update, hname.ne_default, hd₁, hs₁, result, Dict.modify_append_of_not_mem hs, Dict.modify]
  obtain ⟨r', hr, hb, hres⟩ := readLines_section hname.ne_nil henter hi
  exact ⟨r', hr, hb, by rw [hres]; simp [result, Dict.mapVal, normValue]⟩

theorem readLines_sections : ∀ (ss : Dict Str (Dict Str Str)) {r : Reading}, (r.sections.keys ++ ss.keys).Nodup →
    (∀ name ∈ ss.keys, NameOk name) → (∀ e ∈ ss, ItemsOk e.2) →
    ∃ r', readLines (ss.flatMap fun e => sectionLines e.1 e.2) r = .ok r' ∧ r'.bad = r.bad ∧
      r'.result = ⟨r.result.defaults, r.result.sections ++ ss.mapVal (·.mapVal normValue)⟩
  | [], r, _, _, _ => ⟨r, rfl, rfl, by simp [Dict.mapVal]⟩
  | (name, items) :: ss, r, hn, hname, hok => by
    have hs : name ∉ r.sections.keys := fun hk => (List.nodup_append.1 hn).2.2 name hk name (by simp) rfl
    obtain ⟨r₁, h₁, hb₁, hr₁⟩ := readLines_newSection (hname name (by simp)) hs (hok _ List.mem_cons_self)
    have hkeys : r₁.sections.keys = r.sections.keys ++ [name] := by
      have := congrArg (fun p => p.sections.keys) hr₁
      simpa [result] using this
    obtain ⟨r₂, h₂, hb₂, hr₂⟩ := readLines_sections ss (r := r₁) (by rw [hkeys]; simpa using hn)
      (fun n hn => hname n (by simp [hn])) (fun e he => hok e (List.mem_cons_of_mem _ he))
    refine ⟨r₂, ?_, hb₂.trans hb₁, ?_⟩
    · rw [List.flatMap_cons, readLines_append, h₁]
      exact h₂
    · rw [hr₂, hr₁]
      simp [Dict.mapVal]

end Reading

/-! ## Writing and reading back -/

theorem not_mem_optionLines {k v : Str} (h : EntryOk k v) {l : Str} (hl : l ∈ optionLines k v) :
    '\n' ∉ l ∧ '\r' ∉ l := by
  have hv : ∀ m ∈ v.splitOn '\n', '\n' ∉ m ∧ '\r' ∉ m := fun m hm =>
    ⟨not_mem_of_mem_splitOn hm, fun hr => h.cr (mem_of_mem_splitOn hm hr)⟩
  unfold optionLines at hl
  cases hs : v.splitOn '\n' with
  | nil => rw [hs] at hl; cases hl
  | cons m ms =>
    rw [hs] at hl hv
    rcases List.mem_cons.1 hl with rfl | hl
    · have := hv m List.mem_cons_self
      simp [h.key.newline, h.key.cr, this.1, this.2]
    · obtain ⟨m', hm', rfl⟩ := List.mem_map.1 hl
      have := hv m' (List.mem_cons_of_mem _ hm')
      simp [this.1, this.2]

theorem not_mem_sectionLines {name : Str} {items : Dict Str Str} (hn : '\n' ∉ name ∧ '\r' ∉ name)
    (hi : ItemsOk items) {l : Str} (hl : l ∈ sectionLines name items) : '\n' ∉ l ∧ '\r' ∉ l := by
  simp only [sectionLines, List.cons_append, List.mem_cons, List.mem_append, List.mem_flatMap,
    List.not_mem_nil, or_false] at hl
  rcases hl with rfl | ⟨e, he, hl⟩ | rfl
  · simp [hn.1, hn.2]
  · exact not_mem_optionLines (hi.entries e he) hl
  · simp

theorem not_mem_writeLines {p : ConfigParser} (h : Writable p) {l : Str} (hl : l ∈ writeLines p) :
    '\n' ∉ l ∧ '\r' ∉ l := by
  rcases List.mem_append.1 hl with hl | hl
  · split at hl
    · cases hl
    · exact not_mem_sectionLines (by decide) h.defaults hl
  · obtain ⟨e, he, hl⟩ := List.mem_flatMap.1 hl
    have hn := h.names e.1 (List.mem_map_of_mem he)
    exact not_mem_sectionLines ⟨hn.newline, hn.cr⟩ (h.items e he) hl

/-- **What is written is read back**, up to blanks and comments inside values. -/
theorem read_write {p : ConfigParser} (h : Writable p) : read (write p) = .ok p.norm := by
  have hlines : lines (write p) = writeLines p := lines_unlines fun l hl => not_mem_writeLines h hl
  obtain ⟨r₁, h₁, hb₁, hr₁⟩ : ∃ r, Reading.readLines
      (if p.defaults = [] then [] else sectionLines defaultSection p.defaults) .start = .ok r ∧ r.bad = false ∧
      r.result = ⟨p.defaults.mapVal normValue, []⟩ := by
    split
    · rename_i hd
      exact ⟨.start, rfl, rfl, by simp [hd, Reading.start, Reading.result, Dict.mapVal]⟩
    · exact Reading.readLines_defaults (r := .start) rfl (by simp [Reading.start]) h.defaults
  have hkeys : r₁.sections.keys = [] := by
    have := congrArg (fun p => p.sections.keys) hr₁
    simpa [Reading.result] using this
  obtain ⟨r₂, h₂, hb₂, hr₂⟩ := Reading.readLines_sections p.sections (r := r₁) (by rw [hkeys]; simpa using h.nodup)
    h.names h.items
  have hall : Reading.readLines (writeLines p) .start = .ok r₂ := by
    rw [writeLines, Reading.readLines_append, h₁]
    exact h₂
  simp only [read, hlines, hall, hb₂.trans hb₁, Bool.false_eq_true, if_false, hr₂, hr₁, norm]
  rfl

end ConfigParser
end Iprotate
