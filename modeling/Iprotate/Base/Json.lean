import Iprotate.Base.Text

/-!
# JSON values

`Json ε` is a JSON value as a program builds it. The text of an exception, which a handler may put into an answer, is
kept as the exception (`Json.textOf`): what it says is a function of it. `dumps` is `json.dumps` with its default
separators.
-/

namespace Iprotate

/-- A JSON value; `ε` is the type of the exceptions whose text may occur in it. -/
inductive Json (ε : Type)
  | null
  | bool (b : Bool)
  | num (n : Int)
  | str (s : Str)
  /-- `str(e)` -/
  | textOf (e : ε)
  | arr (items : List (Json ε))
  | obj (entries : List (Str × Json ε))

namespace Json

variable {ε : Type}

/-- One hexadecimal digit. -/
def hexDigit (n : Nat) : Char := if n < 10 then Char.ofNat (48 + n) else Char.ofNat (87 + n)

/-- `\uXXXX` -/
def escapeUnit (n : Nat) : Str :=
  ['\\', 'u', hexDigit (n / 4096 % 16), hexDigit (n / 256 % 16), hexDigit (n / 16 % 16), hexDigit (n % 16)]

/-- One character of a string, with `ensure_ascii`. -/
def escapeChar (c : Char) : Str :=
  if c = '"' then ['\\', '"']
  else if c = '\\' then ['\\', '\\']
  else if c = '\n' then ['\\', 'n']
  else if c = '\r' then ['\\', 'r']
  else if c = '\t' then ['\\', 't']
  else if c.toNat = 8 then ['\\', 'b']
  else if c.toNat = 12 then ['\\', 'f']
  else if 32 ≤ c.toNat ∧ c.toNat < 127 then [c]
  else if c.toNat < 0x10000 then escapeUnit c.toNat
  else escapeUnit (0xD800 + (c.toNat - 0x10000) / 0x400) ++ escapeUnit (0xDC00 + (c.toNat - 0x10000) % 0x400)

/-- A string in quotes. -/
def quote (s : Str) : Str := '"' :: (s.flatMap escapeChar ++ ['"'])

mutual
/-- `json.dumps`; `text` is `str` of an exception. -/
def dumps (text : ε → Str) : Json ε → Str
  | null => "null"
  | bool b => if b then "true" else "false"
  | num n => (toString n).toList
  | str s => quote s
  | textOf e => quote (text e)
  | arr items => '[' :: (dumpsItems text items ++ [']'])
  | obj entries => '{' :: (dumpsEntries text entries ++ ['}'])

def dumpsItems (text : ε → Str) : List (Json ε) → Str
  | [] => []
  | [v] => dumps text v
  | v :: vs => dumps text v ++ ',' :: ' ' :: dumpsItems text vs

def dumpsEntries (text : ε → Str) : List (Str × Json ε) → Str
  | [] => []
  | [(k, v)] => quote k ++ ':' :: ' ' :: dumps text v
  | (k, v) :: es => quote k ++ ':' :: ' ' :: (dumps text v ++ ',' :: ' ' :: dumpsEntries text es)
end

example : dumps (fun s : Str => s) (.obj [("a", .arr [.num 1, .str "é\""]), ("b", .bool true)]) =
    "\x7b\"a\": [1, \"\\u00e9\\\"\"], \"b\": true\x7d".toList := by decide

end Json
end Iprotate
