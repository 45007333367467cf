import Iprotate.Base.Text
import Mathlib.Algebra.Group.Nat.Defs

/-!
# `ipaddress.ip_network`

`ipNetwork s` is `ipaddress.ip_network(s, strict=False)`: the network a text stands for, if any. Both versions read
an address, and after a slash a prefix length (or, for IPv4, a netmask or hostmask); an IPv6 address may end in a
percent sign and a scope id, which is any text without a percent sign.

- `Covers s a` says that the address lies in the network of the text.
- Outside the scope id an accepted text has only hexadecimal digits, dots, colons, a slash and a percent sign
  (`mem_of_ipNetwork`).
-/

namespace Iprotate
namespace IpNetwork

open Text

/-- A network: the version, the first address and the prefix length. -/
structure Network where
  version : Nat
  address : Nat
  prefixlen : Nat
  deriving DecidableEq, Repr

/-! ## Numbers -/

def isHexDigit (c : Char) : Bool := c.isDigit || ('a' ≤ c && c ≤ 'f') || ('A' ≤ c && c ≤ 'F')

def hexValue (c : Char) : Nat :=
  if c.isDigit then c.toNat - 48 else if 'a' ≤ c then c.toNat - 87 else c.toNat - 55

/-- The value of ASCII digits; `none` for anything else. -/
def decimal (s : Str) : Option Nat :=
  if s ≠ [] ∧ s.all Char.isDigit then some (s.foldl (fun n c => 10 * n + (c.toNat - 48)) 0) else none

/-- `_parse_octet` -/
def parseOctet (s : Str) : Option Nat :=
  match decimal s with
  | none => none
  | some n => if s.length ≤ 3 ∧ (s = ['0'] ∨ s.head? ≠ some '0') ∧ n ≤ 255 then some n else none

/-- `_parse_hextet` -/
def parseHextet (s : Str) : Option Nat :=
  if s ≠ [] ∧ s.all isHexDigit ∧ s.length ≤ 4 then some (s.foldl (fun n c => 16 * n + hexValue c) 0) else none

/-- The number with these digits in the given base, most significant first. -/
def ofDigits (base : Nat) (digits : List Nat) : Nat := digits.foldl (fun n d => base * n + d) 0

/-! ## Addresses -/

/-- `IPv4Address` -/
def parseIPv4 (s : Str) : Option Nat :=
  let octets := s.splitOn '.'
  if octets.length = 4 then (octets.mapM parseOctet).map (ofDigits 256) else none

/-- The hextets of an IPv6 address, a trailing IPv4 address counted as two numbers. -/
inductive Hextet
  | text (s : Str)
  | value (n : Nat)

def Hextet.isEmpty : Hextet → Bool
  | .text s => s.isEmpty
  | .value _ => false

def Hextet.parse : Hextet → Option Nat
  | .text s => parseHextet s
  | .value n => some n

/-- `ip_str.split(':')` with the IPv4 suffix converted. -/
def hextets (s : Str) : Option (List Hextet) :=
  let parts := s.splitOn ':'
  let last := parts.getLastD []
  if parts.length < 3 then none
  else if '.' ∈ last then
    (parseIPv4 last).map fun n => parts.dropLast.map .text ++ [.value (n / 65536 % 65536), .value (n % 65536)]
  else some (parts.map .text)

/-- The places, not at the ends, of an empty hextet. -/
def skips (parts : List Hextet) : List Nat :=
  (List.range parts.length).filter fun i => 0 < i && i + 1 < parts.length && (parts[i]?.any Hextet.isEmpty)

/-- The hextets before the run of zeroes, without an empty first one. -/
def dropEmptyHead (hi : List Hextet) : List Hextet := if hi.head?.any Hextet.isEmpty then hi.drop 1 else hi

/-- The hextets after the run of zeroes, without an empty last one. -/
def dropEmptyLast (lo : List Hextet) : List Hextet := if lo.getLast?.any Hextet.isEmpty then lo.dropLast else lo

/-- The address with a run of zeroes between two lists of hextets; an empty end is only right next to the run. -/
def joinHextets (hi lo : List Hextet) : Option Nat :=
  let hi' := dropEmptyHead hi
  let lo' := dropEmptyLast lo
  if hi'.length < hi.length ∧ hi' ≠ [] ∨ lo'.length < lo.length ∧ lo' ≠ [] ∨ 8 ≤ hi'.length + lo'.length then none
  else
    match hi'.mapM Hextet.parse, lo'.mapM Hextet.parse with
    | some h, some l => some (ofDigits 65536 (h ++ List.replicate (8 - (h.length + l.length)) 0 ++ l))
    | _, _ => none

/-- `IPv6Address._ip_int_from_string` -/
def parseIPv6Int (s : Str) : Option Nat :=
  match hextets s with
  | none => none
  | some parts =>
    if 9 < parts.length then none
    else
      match skips parts with
      | [] => if parts.length = 8 then (parts.mapM Hextet.parse).map (ofDigits 65536) else none
      | [i] => joinHextets (parts.take i) (parts.drop (i + 1))
      | _ => none

/-- `_split_scope_id`: the text before the first percent sign and, if there is one, the scope id. -/
def splitScopeId (s : Str) : Option (Str × Option Str) :=
  match s.dropWhile (· != '%') with
  | [] => some (s, none)
  | _ :: scopeId =>
    if scopeId = [] ∨ '%' ∈ scopeId then none else some (s.takeWhile (· != '%'), some scopeId)

/-- `IPv6Address`, without the scope id, which a network does not keep. -/
def parseIPv6 (s : Str) : Option Nat := (splitScopeId s).bind fun e => parseIPv6Int e.1

/-! ## Masks -/

/-- `_prefix_from_prefix_string` -/
def prefixFromString (max : Nat) (s : Str) : Option Nat := (decimal s).filter (· ≤ max)

/-- `_prefix_from_ip_int`: the prefix length of a 32-bit mask of ones and then zeroes. -/
def prefixFromInt (n : Nat) : Option Nat := (List.range 33).find? fun len => n = 2 ^ 32 - 2 ^ (32 - len)

/-- `IPv4Network._make_netmask` -/
def prefixIPv4 (mask : Str) : Option Nat :=
  (prefixFromString 32 mask).or ((parseIPv4 mask).bind fun n =>
    (prefixFromInt n).or (prefixFromInt (2 ^ 32 - 1 - n)))

/-- The network of an address with the host bits cleared. -/
def network (version bits address prefixlen : Nat) : Network :=
  ⟨version, address / 2 ^ (bits - prefixlen) * 2 ^ (bits - prefixlen), prefixlen⟩

/-- `_split_optional_netmask`, then the address and the mask. -/
def parseNetwork (version bits : Nat) (address mask : Str → Option Nat) (s : Str) : Option Network :=
  match s.splitOn '/' with
  | [a] => (address a).map fun n => network version bits n bits
  | [a, m] =>
    match address a, mask m with
    | some n, some len => some (network version bits n len)
    | _, _ => none
  | _ => none

/-- `ipaddress.ip_network(s, strict=False)` -/
def ipNetwork (s : Str) : Option Network :=
  (parseNetwork 4 32 parseIPv4 prefixIPv4 s).or (parseNetwork 6 128 parseIPv6 (prefixFromString 128) s)

/-! ## Addresses in networks -/

/-- The number of bits of an address. -/
def bitsOf (version : Nat) : Nat := if version = 4 then 32 else 128

/-- An address of one of the two versions. -/
structure Address where
  version : Nat
  value : Nat
  valid : (version = 4 ∨ version = 6) ∧ value < 2 ^ bitsOf version

/-- `address in network`: the same version, and the network's address when the host bits are cleared. -/
def Network.Contains (n : Network) (a : Address) : Prop :=
  a.version = n.version ∧ (network a.version (bitsOf a.version) a.value n.prefixlen).address = n.address

instance (n : Network) (a : Address) : Decidable (n.Contains a) := inferInstanceAs (Decidable (_ ∧ _))

/-- The text is that of a network with the address. -/
def Covers (s : Str) (a : Address) : Prop := ∃ n ∈ ipNetwork s, n.Contains a

instance (s : Str) (a : Address) : Decidable (Covers s a) :=
  decidable_of_iff ((ipNetwork s).any fun n => n.Contains a) (by
    cases h : ipNetwork s with
    | none => simp [Covers, h]
    | some n => simp [Covers, h])

example : Covers "10.0.0.7/8" ⟨4, 10 * 2 ^ 24 + 5, by decide⟩ := by decide +kernel

/-! ## The characters of an accepted text -/

/-- A character that may stand outside the scope id. -/
def isAddressChar (c : Char) : Bool := isHexDigit c || c = '.' || c = ':' || c = '/' || c = '%'

/-- The scope id of a text, empty when there is none. -/
def scopeOf (s : Str) : Str := ((s.dropWhile (· != '%')).drop 1).takeWhile (· != '/')

theorem isAddressChar_of_hex {c : Char} (h : isHexDigit c = true) : isAddressChar c = true := by
  simp [isAddressChar, h]

theorem isAddressChar_of_digit {c : Char} (h : c.isDigit = true) : isAddressChar c = true :=
  isAddressChar_of_hex (by simp [isHexDigit, h])

theorem isSome_of_mapM {α β : Type} {f : α → Option β} : ∀ {xs : List α} {ys : List β}, xs.mapM f = some ys →
    ∀ x ∈ xs, (f x).isSome
  | [], _, _, x, hx => by cases hx
  | a :: xs, ys, h, x, hx => by
    rw [List.mapM_cons] at h
    obtain ⟨b, hb, h⟩ := Option.bind_eq_some_iff.1 h
    obtain ⟨bs, hbs, _⟩ := Option.bind_eq_some_iff.1 h
    rcases List.mem_cons.1 hx with rfl | hx
    · rw [hb]; rfl
    · exact isSome_of_mapM hbs x hx

theorem intercalate_splitOn (c : Char) (s : Str) : [c].intercalate (s.splitOn c) = s := List.intercalate_splitOn c

/-- A character of a text is the separator or in one of the pieces. -/
theorem mem_splitOn {c d : Char} {s : Str} (h : d ∈ s) : d = c ∨ ∃ p ∈ s.splitOn c, d ∈ p := by
  rw [← intercalate_splitOn c s] at h
  exact mem_intercalate h

theorem isDigit_of_decimal {s : Str} {n : Nat} (h : decimal s = some n) {c : Char} (hc : c ∈ s) :
    c.isDigit = true := by
  unfold decimal at h
  split at h
  · rename_i hs
    exact List.all_eq_true.1 hs.2 c hc
  · cases h

theorem mem_parseIPv4 {s : Str} (h : (parseIPv4 s).isSome) {c : Char} (hc : c ∈ s) : isAddressChar c = true := by
  unfold parseIPv4 at h
  dsimp only at h
  split at h
  · rw [Option.isSome_map] at h
    obtain ⟨ys, hys⟩ := Option.isSome_iff_exists.1 h
    rcases mem_splitOn (c := '.') hc with rfl | ⟨p, hp, hc⟩
    · decide
    · have hoct := isSome_of_mapM hys p hp
      unfold parseOctet at hoct
      split at hoct
      · cases hoct
      · rename_i n hn
        exact isAddressChar_of_digit (isDigit_of_decimal hn hc)
  · cases h

theorem mem_prefixFromString {max : Nat} {s : Str} (h : (prefixFromString max s).isSome) {c : Char} (hc : c ∈ s) :
    isAddressChar c = true := by
  unfold prefixFromString at h
  cases hd : decimal s with
  | none => rw [hd] at h; cases h
  | some n => exact isAddressChar_of_digit (isDigit_of_decimal hd hc)

theorem mem_prefixIPv4 {s : Str} (h : (prefixIPv4 s).isSome) {c : Char} (hc : c ∈ s) : isAddressChar c = true := by
  unfold prefixIPv4 at h
  cases hp : prefixFromString 32 s with
  | some n => exact mem_prefixFromString (by rw [hp]; rfl) hc
  | none =>
    rw [hp, Option.none_or] at h
    cases hi : parseIPv4 s with
    | none => rw [hi] at h; cases h
    | some n => exact mem_parseIPv4 (by rw [hi]; rfl) hc

theorem mem_dropEmptyHead {hi : List Hextet} {p : Hextet} (hp : p ∈ hi) :
    p.isEmpty = true ∨ p ∈ dropEmptyHead hi := by
  unfold dropEmptyHead
  split
  · rename_i hhead
    cases hi with
    | nil => cases hp
    | cons q qs =>
      rcases List.mem_cons.1 hp with rfl | hp
      · exact .inl (by simpa using hhead)
      · exact .inr (by simpa using hp)
  · exact .inr hp

theorem mem_dropEmptyLast {lo : List Hextet} {p : Hextet} (hp : p ∈ lo) :
    p.isEmpty = true ∨ p ∈ dropEmptyLast lo := by
  unfold dropEmptyLast
  split
  · rename_i hlast
    rcases List.eq_nil_or_concat lo with hnil | ⟨qs, q, hq⟩
    · rw [hnil] at hp; cases hp
    · rw [List.concat_eq_append] at hq
      rw [hq] at hlast hp ⊢
      rcases List.mem_append.1 hp with hp | hp
      · exact .inr (by simpa using hp)
      · rw [List.mem_singleton.1 hp]
        exact .inl (by simpa using hlast)
  · exact .inr hp

theorem hextet_of_joinHextets {hi lo : List Hextet} (h : (joinHextets hi lo).isSome) {p : Hextet}
    (hp : p ∈ hi ∨ p ∈ lo) : p.isEmpty = true ∨ p.parse.isSome := by
  unfold joinHextets at h
  dsimp only at h
  split at h
  · cases h
  · split at h
    · rename_i hs ls hhs hls
      rcases hp with hp | hp
      · exact (mem_dropEmptyHead hp).imp id (isSome_of_mapM hhs p)
      · exact (mem_dropEmptyLast hp).imp id (isSome_of_mapM hls p)
    · cases h

/-- In an accepted IPv6 address every hextet is empty or can be read. -/
theorem hextet_of_parseIPv6Int {s : Str} {parts : List Hextet} (h : (parseIPv6Int s).isSome)
    (hp : hextets s = some parts) : ∀ p ∈ parts, p.isEmpty = true ∨ p.parse.isSome := by
  intro p hmem
  unfold parseIPv6Int at h
  simp only [hp] at h
  split at h
  · cases h
  · split at h
    · split at h
      · rw [Option.isSome_map] at h
        obtain ⟨ys, hys⟩ := Option.isSome_iff_exists.1 h
        exact .inr (isSome_of_mapM hys p hmem)
      · cases h
    · rename_i i hi
      have hskip := List.mem_filter.1 (show i ∈ skips parts by rw [hi]; simp)
      have hlt : i < parts.length := by simpa using hskip.1
      have hempty : (parts[i]).isEmpty = true := by
        have := hskip.2
        simp only [Bool.and_eq_true, List.getElem?_eq_getElem hlt, Option.any_some] at this
        exact this.2
      have hsplit : parts = parts.take i ++ parts[i] :: parts.drop (i + 1) := by simp
      rw [hsplit, List.mem_append, List.mem_cons] at hmem
      rcases hmem with hmem | rfl | hmem
      · exact hextet_of_joinHextets h (.inl hmem)
      · exact .inl hempty
      · exact hextet_of_joinHextets h (.inr hmem)
    · cases h

theorem mem_parseHextet {s : Str} (h : (parseHextet s).isSome) {c : Char} (hc : c ∈ s) : isAddressChar c = true := by
  unfold parseHextet at h
  split at h
  · rename_i hs
    exact isAddressChar_of_hex (List.all_eq_true.1 hs.2.1 c hc)
  · cases h

theorem mem_parseIPv6Int {s : Str} (h : (parseIPv6Int s).isSome) {c : Char} (hc : c ∈ s) :
    isAddressChar c = true := by
  have htext : ∀ p : Str, (Hextet.text p).isEmpty = true ∨ (Hextet.text p).parse.isSome → c ∈ p →
      isAddressChar c = true := by
    intro p hp hcp
    rcases hp with hp | hp
    · rw [List.isEmpty_iff.1 hp] at hcp; cases hcp
    · exact mem_parseHextet hp hcp
  cases hparts : hextets s with
  | none => rw [parseIPv6Int, hparts] at h; cases h
  | some parts =>
    have hall := hextet_of_parseIPv6Int h hparts
    rcases mem_splitOn (c := ':') hc with rfl | ⟨p, hp, hcp⟩
    · decide
    · unfold hextets at hparts
      dsimp only at hparts
      split at hparts
      · cases hparts
      · split at hparts
        · -- an IPv4 suffix
          obtain ⟨n, hn, rfl⟩ := Option.map_eq_some_iff.1 hparts
          have hne : s.splitOn ':' ≠ [] := List.splitOn_ne_nil _ _
          rw [← List.dropLast_append_getLast hne, List.mem_append, List.mem_singleton] at hp
          rcases hp with hp | rfl
          · exact htext p (hall _ (List.mem_append_left _ (List.mem_map_of_mem hp))) hcp
          · rw [List.getLastD_eq_getLast?, List.getLast?_eq_some_getLast hne] at hn
            exact mem_parseIPv4 (by rw [Option.getD_some] at hn; rw [hn]; rfl) hcp
        · cases hparts
          exact htext p (hall _ (List.mem_map_of_mem hp)) hcp

/-- **Outside its scope id an accepted text has address characters only.** -/
theorem mem_of_ipNetwork {s : Str} (h : (ipNetwork s).isSome) {c : Char} (hc : c ∈ s) :
    isAddressChar c = true ∨ c ∈ scopeOf s := by
  have hmask : ∀ {version bits : Nat} {address mask : Str → Option Nat},
      (parseNetwork version bits address mask s).isSome →
      ∃ a, (address a).isSome ∧ (s = a ∨ ∃ m, (mask m).isSome ∧ s = a ++ '/' :: m) ∧ '/' ∉ a := by
    intro version bits address mask hn
    unfold parseNetwork at hn
    split at hn
    · rename_i a ha
      have hs : s = a := by rw [← intercalate_splitOn '/' s, ha]; simp
      exact ⟨a, by simpa using hn, .inl hs, not_mem_of_mem_splitOn (s := s) (by simp [ha])⟩
    · rename_i a m ha
      have hs : s = a ++ '/' :: m := by
        rw [← intercalate_splitOn '/' s, ha]
        simp [List.intercalate_cons_cons]
      split at hn
      · rename_i n len hna hlen
        exact ⟨a, by rw [hna]; rfl, .inr ⟨m, by rw [hlen]; rfl, hs⟩, not_mem_of_mem_splitOn (s := s) (by simp [ha])⟩
      · cases hn
    · cases hn
  unfold ipNetwork at h
  cases h4 : parseNetwork 4 32 parseIPv4 prefixIPv4 s with
  | some n =>
    obtain ⟨a, ha, hs, _⟩ := hmask (by rw [h4]; rfl)
    rcases hs with rfl | ⟨m, hm, rfl⟩
    · exact .inl (mem_parseIPv4 ha hc)
    · rcases List.mem_append.1 hc with hc | hc
      · exact .inl (mem_parseIPv4 ha hc)
      · rcases List.mem_cons.1 hc with rfl | hc
        · exact .inl (by decide)
        · exact .inl (mem_prefixIPv4 hm hc)
  | none =>
    rw [h4, Option.none_or] at h
    obtain ⟨a, ha, hs, hslash⟩ := hmask h
    have hmem : ∀ d ∈ a, isAddressChar d = true ∨ d ∈ scopeOf s := by
      intro d hd
      obtain ⟨e, he⟩ := Option.isSome_iff_exists.1 ha
      obtain ⟨⟨b, scope⟩, hb, hint⟩ := Option.bind_eq_some_iff.1 he
      have hbchars : ∀ x ∈ b, isAddressChar x = true := fun x hx =>
        mem_parseIPv6Int (by dsimp only at hint; rw [hint]; rfl) hx
      unfold splitScopeId at hb
      split at hb
      · cases hb; exact .inl (hbchars d hd)
      · rename_i q scopeId hdrop
        split at hb
        · cases hb
        · cases hb
          have hq : q = '%' := by
            have := List.head?_dropWhile_not (p := (· != '%')) a
            rw [hdrop] at this
            simpa using this
          subst hq
          have hsplit : a = a.takeWhile (· != '%') ++ '%' :: scopeId := by
            rw [← hdrop, List.takeWhile_append_dropWhile]
          rw [hsplit, List.mem_append, List.mem_cons] at hd
          rcases hd with hd | rfl | hd
          · exact .inl (hbchars d hd)
          · exact .inl (by decide)
          · have hscope : scopeOf s = scopeId := by
              have hfree : ∀ x ∈ scopeId, (x != '/') = true := fun x hx => by
                have : x ≠ '/' := fun hxe => hslash (by rw [hsplit, ← hxe]; simp [hx])
                simpa using this
              have hlen : a.dropWhile (· != '%') = '%' :: scopeId := hdrop
              unfold scopeOf
              rcases hs with rfl | ⟨m, _, rfl⟩
              · rw [hlen]
                simpa using List.takeWhile_eq_self_iff.2 hfree
              · rw [List.dropWhile_append, hlen]
                simp only [List.isEmpty_cons, Bool.false_eq_true, if_false, List.cons_append, List.drop_succ_cons,
                  List.drop_zero]
                rw [List.takeWhile_append_of_pos hfree, List.takeWhile_cons_of_neg (by simp), List.append_nil]
            exact .inr (by rw [hscope]; exact hd)
    rcases hs with rfl | ⟨m, hm, rfl⟩
    · exact hmem c hc
    · rcases List.mem_append.1 hc with hc | hc
      · exact hmem c hc
      · rcases List.mem_cons.1 hc with rfl | hc
        · exact .inl (by decide)
        · exact .inl (mem_prefixFromString hm hc)

theorem ipNetwork_nil : ipNetwork [] = none := by decide

end IpNetwork
end Iprotate
