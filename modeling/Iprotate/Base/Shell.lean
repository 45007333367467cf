import Iprotate.Base.Text

/-!
# Commands of the POSIX shell

How `sh -c` cuts a text into tokens (blanks, operators, quotes, comments) and when the tokens are one simple command
with its redirections. Expansions and patterns are marked in the words where they occur and not carried out, so a
command whose words are all literal runs with exactly these words.

- A text without special characters between blanks is one literal word (`read_plain`).
-/

namespace Iprotate
namespace Shell

open Text

/-- What a word is made of. -/
inductive Part
  | lit (c : Char)
  | quoted (c : Char)
  /-- A character that begins an expansion or makes the word a pattern. -/
  | expansion (c : Char)
  deriving DecidableEq, Repr

inductive Token
  | word (parts : List Part)
  /-- Digits directly before `<` or `>`. -/
  | ioNumber (digits : Str)
  | op (text : Str)
  deriving DecidableEq, Repr

def isBlank (c : Char) : Bool := c = ' ' || c = '\t'

def isOperatorChar (c : Char) : Bool := ['|', '&', ';', '<', '>', '(', ')'].contains c

/-- The operators of more than one character. -/
def longOperators : List Str := ["&&", "||", ";;", "<<", ">>", "<&", ">&", "<>", "<<-", ">|"]

def isExpansionChar (c : Char) : Bool := ['$', Char.ofNat 96, '*', '?', '['].contains c

/-- A character that does not stand for itself everywhere in an unquoted word. -/
def isMeta (c : Char) : Bool :=
  isBlank c || c = '\n' || isOperatorChar c || isExpansionChar c || c = '\\' || c = '"' || c = '\'' || c = '#'

/-- The characters that do not. -/
def metaChars : List Char :=
  [' ', '\t', '\n', '|', '&', ';', '<', '>', '(', ')', '$', Char.ofNat 96, '*', '?', '[', '\\', '"', '\'', '#']

theorem mem_metaChars {c : Char} (h : isMeta c = true) : c ∈ metaChars := by
  simp only [isMeta, isBlank, isOperatorChar, isExpansionChar, Bool.or_eq_true, decide_eq_true_eq,
    List.contains_iff_mem, List.mem_cons, List.not_mem_nil, or_false] at h
  simp only [metaChars, List.mem_cons, List.not_mem_nil, or_false]
  grind

/-- Where the reader stands. -/
inductive Mode
  | blank
  | word (parts : List Part)
  | op (text : Str)
  | escape (parts : List Part)
  | single (parts : List Part)
  | double (parts : List Part)
  | doubleEscape (parts : List Part)
  | comment
  deriving DecidableEq, Repr

/-- The tokens read so far and where the reader stands. -/
structure Reader where
  tokens : List Token
  mode : Mode
  deriving DecidableEq, Repr

def Reader.start : Reader := ⟨[], .blank⟩

/-- A character inside a word. -/
def Reader.inWord (r : Reader) (parts : List Part) (c : Char) : Reader :=
  if isBlank c then ⟨r.tokens ++ [.word parts], .blank⟩
  else if c = '\n' then ⟨r.tokens ++ [.word parts, .op ['\n']], .blank⟩
  else if isOperatorChar c then
    let digits := parts.filterMap fun | .lit d => if d.isDigit then some d else none | _ => none
    if (c = '<' || c = '>') && digits.length = parts.length then ⟨r.tokens ++ [.ioNumber digits], .op [c]⟩
    else ⟨r.tokens ++ [.word parts], .op [c]⟩
  else if c = '\\' then ⟨r.tokens, .escape parts⟩
  else if c = '\'' then ⟨r.tokens, .single parts⟩
  else if c = '"' then ⟨r.tokens, .double parts⟩
  else if isExpansionChar c then ⟨r.tokens, .word (parts ++ [.expansion c])⟩
  else ⟨r.tokens, .word (parts ++ [.lit c])⟩

/-- A character between tokens. -/
def Reader.between (r : Reader) (c : Char) : Reader :=
  if isBlank c then ⟨r.tokens, .blank⟩
  else if c = '\n' then ⟨r.tokens ++ [.op ['\n']], .blank⟩
  else if c = '#' then ⟨r.tokens, .comment⟩
  else if isOperatorChar c then ⟨r.tokens, .op [c]⟩
  else r.inWord [] c

/-- One character. -/
def Reader.step (r : Reader) (c : Char) : Reader :=
  match r.mode with
  | .blank => r.between c
  | .word parts => r.inWord parts c
  | .op text =>
    if longOperators.contains (text ++ [c]) then ⟨r.tokens, .op (text ++ [c])⟩
    else Reader.between ⟨r.tokens ++ [.op text], .blank⟩ c
  | .escape parts => if c = '\n' then ⟨r.tokens, .word parts⟩ else ⟨r.tokens, .word (parts ++ [.quoted c])⟩
  | .single parts => if c = '\'' then ⟨r.tokens, .word parts⟩ else ⟨r.tokens, .single (parts ++ [.quoted c])⟩
  | .double parts =>
    if c = '"' then ⟨r.tokens, .word parts⟩
    else if c = '\\' then ⟨r.tokens, .doubleEscape parts⟩
    else if c = '$' || c = Char.ofNat 96 then ⟨r.tokens, .double (parts ++ [.expansion c])⟩
    else ⟨r.tokens, .double (parts ++ [.quoted c])⟩
  | .doubleEscape parts =>
    if c = '\n' then ⟨r.tokens, .double parts⟩
    else if ['$', Char.ofNat 96, '"', '\\'].contains c then ⟨r.tokens, .double (parts ++ [.quoted c])⟩
    else ⟨r.tokens, .double (parts ++ [.quoted '\\', .quoted c])⟩
  | .comment => if c = '\n' then ⟨r.tokens ++ [.op ['\n']], .blank⟩ else r

/-- The end of the text; `none` when a quote is left open. -/
def Reader.finish (r : Reader) : Option (List Token) :=
  match r.mode with
  | .blank | .comment => some r.tokens
  | .word parts => some (r.tokens ++ [.word parts])
  | .op text => some (r.tokens ++ [.op text])
  | .escape parts => some (r.tokens ++ [.word (parts ++ [.lit '\\'])])
  | .single _ | .double _ | .doubleEscape _ => none

def Reader.read (r : Reader) (s : Str) : Reader := s.foldl Reader.step r

/-- The tokens of a command text. -/
def tokens (s : Str) : Option (List Token) := (Reader.start.read s).finish

/-! ## Simple commands -/

structure Redirection where
  number : Option Str
  op : Str
  target : List Part
  deriving DecidableEq, Repr

structure Simple where
  words : List (List Part)
  redirections : List Redirection
  deriving DecidableEq, Repr

def isRedirection (op : Str) : Bool := [("<" : Str), ">", "<<", ">>", "<&", ">&", "<>", "<<-", ">|"].contains op

/-- Tokens that are words and redirections only; `none` when there is an operator that ends or joins commands. -/
def parseSimple : List Token → Option Simple
  | [] => some ⟨[], []⟩
  | .word parts :: rest => (parseSimple rest).map fun c => { c with words := parts :: c.words }
  | .ioNumber digits :: .op text :: .word target :: rest =>
    if isRedirection text then
      (parseSimple rest).map fun c => { c with redirections := ⟨some digits, text, target⟩ :: c.redirections }
    else none
  | .op text :: .word target :: rest =>
    if isRedirection text then
      (parseSimple rest).map fun c => { c with redirections := ⟨none, text, target⟩ :: c.redirections }
    else none
  | _ => none

/-- The simple command a text is, if it is one. -/
def simple (s : Str) : Option Simple := (tokens s).bind parseSimple

/-- A word that stands for itself. -/
def literal (s : Str) : List Part := s.map .lit

/-- The text of a word after quote removal; `none` when something in it is expanded. -/
def unquote (word : List Part) : Option Str :=
  word.mapM fun
    | .lit c | .quoted c => some c
    | .expansion _ => none

theorem unquote_literal (s : Str) : unquote (literal s) = some s := by
  induction s with
  | nil => rfl
  | cons c s ih =>
    unfold unquote literal at ih ⊢
    rw [List.map_cons, List.mapM_cons, ih]
    rfl

example : simple "ufw reload > /dev/null 2>&1".toList = some ⟨[literal "ufw", literal "reload"],
    [⟨none, ">", literal "/dev/null"⟩, ⟨some "2", ">&", literal "1"⟩]⟩ := by decide +kernel

/-! ## Texts without special characters -/

theorem Reader.read_append (r : Reader) (s t : Str) : r.read (s ++ t) = (r.read s).read t := List.foldl_append

theorem inWord_plain (r : Reader) (parts : List Part) {c : Char} (h : isMeta c = false) :
    r.inWord parts c = ⟨r.tokens, .word (parts ++ [.lit c])⟩ := by
  simp only [isMeta, Bool.or_eq_false_iff, decide_eq_false_iff_not] at h
  obtain ⟨⟨⟨⟨⟨⟨⟨hb, hn⟩, ho⟩, he⟩, hbs⟩, hdq⟩, hsq⟩, _⟩ := h
  simp [Reader.inWord, hb, hn, ho, he, hbs, hdq, hsq]

/-- Inside a word, characters that are not special are added to it. -/
theorem read_word_plain {s : Str} : ∀ {tokens : List Token} {parts : List Part}, (∀ c ∈ s, isMeta c = false) →
    Reader.read ⟨tokens, .word parts⟩ s = ⟨tokens, .word (parts ++ literal s)⟩ := by
  induction s with
  | nil => intro tokens parts _; simp [Reader.read, literal]
  | cons c s ih =>
    intro tokens parts h
    have hc : Reader.step ⟨tokens, .word parts⟩ c = ⟨tokens, .word (parts ++ [.lit c])⟩ :=
      inWord_plain ⟨tokens, .word parts⟩ parts (h c List.mem_cons_self)
    show Reader.read (Reader.step ⟨tokens, .word parts⟩ c) s = _
    rw [hc, ih fun d hd => h d (List.mem_cons_of_mem _ hd)]
    simp [literal]

/-- After a blank, a text without special characters begins a literal word. -/
theorem read_plain {s : Str} {tokens : List Token} (hne : s ≠ []) (h : ∀ c ∈ s, isMeta c = false) :
    Reader.read ⟨tokens, .blank⟩ s = ⟨tokens, .word (literal s)⟩ := by
  cases s with
  | nil => exact absurd rfl hne
  | cons c s =>
    have hm := h c List.mem_cons_self
    have hc : Reader.step ⟨tokens, .blank⟩ c = ⟨tokens, .word [.lit c]⟩ := by
      have hw := inWord_plain ⟨tokens, .blank⟩ [] hm
      simp only [isMeta, Bool.or_eq_false_iff, decide_eq_false_iff_not] at hm
      obtain ⟨⟨⟨⟨⟨⟨⟨hb, hn⟩, ho⟩, _⟩, _⟩, _⟩, _⟩, hh⟩ := hm
      simpa [Reader.step, Reader.between, hb, hn, ho, hh] using hw
    show Reader.read (Reader.step ⟨tokens, .blank⟩ c) s = _
    rw [hc, read_word_plain fun d hd => h d (List.mem_cons_of_mem _ hd)]
    simp [literal]

/-! ## Fields and `cut` -/

/-- The white space of `IFS`. -/
def isIfs (c : Char) : Bool := c = ' ' || c = '\t' || c = '\n'

/-- The fields of a text, of which the first begins with the characters read so far. -/
def fieldsAfter : Str → Str → List Str
  | field, [] => if field = [] then [] else [field]
  | field, c :: s =>
    if isIfs c then if field = [] then fieldsAfter [] s else field :: fieldsAfter [] s
    else fieldsAfter (field ++ [c]) s

/-- The words that an unquoted expansion with this value becomes, if no file name matches them. -/
def fields (s : Str) : List Str := fieldsAfter [] s

/-- What `$(echo words)` is. -/
def echo (words : List Str) : Str := [' '].intercalate words

/-- `cut -d d -f list` of one line; the list is in ascending order. -/
def cut (d : Char) (list : List Nat) (line : Str) : Str :=
  if d ∈ line then
    let parts := line.splitOn d
    [d].intercalate (list.filterMap fun i => parts[i - 1]?)
  else line

theorem fieldsAfter_plain : ∀ {field s : Str}, (∀ c ∈ s, isIfs c = false) → field ++ s ≠ [] →
    fieldsAfter field s = [field ++ s]
  | field, [], _, hne => by
    rw [List.append_nil] at hne ⊢
    rw [fieldsAfter, if_neg hne]
  | field, c :: s, h, _ => by
    rw [fieldsAfter, h c List.mem_cons_self, if_neg Bool.false_ne_true,
      fieldsAfter_plain (fun d hd => h d (List.mem_cons_of_mem _ hd)) (by simp)]
    simp

/-- A text without white space is one word. -/
theorem fields_plain {s : Str} (h : ∀ c ∈ s, isIfs c = false) (hne : s ≠ []) : fields s = [s] :=
  fieldsAfter_plain h hne

theorem not_isIfs_of_mem_fieldsAfter : ∀ {field s w : Str}, (∀ c ∈ field, isIfs c = false) →
    w ∈ fieldsAfter field s → ∀ c ∈ w, isIfs c = false
  | field, [], w, hf, hw => by
    unfold fieldsAfter at hw
    split at hw
    · cases hw
    · rw [List.mem_singleton.1 hw]
      exact hf
  | field, d :: s, w, hf, hw => by
    have hnil : ∀ c ∈ ([] : Str), isIfs c = false := fun _ h => by cases h
    unfold fieldsAfter at hw
    split at hw
    · split at hw
      · exact not_isIfs_of_mem_fieldsAfter hnil hw
      · rcases List.mem_cons.1 hw with rfl | hw
        · exact hf
        · exact not_isIfs_of_mem_fieldsAfter hnil hw
    · rename_i hd
      refine not_isIfs_of_mem_fieldsAfter (fun c hc => ?_) hw
      rcases List.mem_append.1 hc with hc | hc
      · exact hf c hc
      · rw [List.mem_singleton.1 hc]
        simpa using hd

/-- No word has white space. -/
theorem not_isIfs_of_mem_fields {s w : Str} (h : w ∈ fields s) {c : Char} (hc : c ∈ w) : isIfs c = false :=
  not_isIfs_of_mem_fieldsAfter (fun _ h => by cases h) h c hc

/-- The text before the first delimiter is the first field. -/
theorem splitOn_eq_takeWhile (d : Char) (s : Str) : ∃ rest, s.splitOn d = s.takeWhile (· ≠ d) :: rest := by
  have hnot : d ∉ s.takeWhile (· ≠ d) := fun h => by simpa using List.mem_takeWhile_imp h
  have hs := List.takeWhile_append_dropWhile (p := (· ≠ d)) (l := s)
  cases hd : s.dropWhile (· ≠ d) with
  | nil =>
    rw [hd, List.append_nil] at hs
    refine ⟨[], ?_⟩
    rw [hs] at hnot
    rw [List.splitOn_eq_singleton hnot, hs]
  | cons e t =>
    have he : e = d := by
      have := List.head?_dropWhile_not (· ≠ d) s
      rw [hd] at this
      simpa using this
    rw [hd, he] at hs
    refine ⟨t.splitOn d, ?_⟩
    conv_lhs => rw [← hs]
    exact List.splitOn_append_cons_self_of_not_mem hnot t

end Shell
end Iprotate
