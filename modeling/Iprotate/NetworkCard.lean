import Iprotate.Base.Pattern
import Iprotate.Base.Replace
import Iprotate.Calls
import Iprotate.ProfileFiles

/-!
# The network card of the instance

`generate_peer_config` writes the WireGuard file of the instance for the card `eth0`, and `change_eth.sh` puts the
instance's own card in its place, by a substitution on the whole file.

- The script reads the card's name off the answer of `ip route get` (`device_line`, `nic_of_reports`).
- The substitution works on the value of each option by itself (`read_changeEth`).
- So it changes the card in the commands and nothing else exactly if the name has no `&` and no backslash and does not
  end with `dev`, and is `eth0` itself or no key has `eth0` in it (`changes_card_iff`).
- A key with `eth0` in it is another key afterwards (`key_broken`).
-/

namespace Iprotate
namespace NetworkCard

open Text ConfigParser ConfigLoader Replace

/-! ## The script -/

/-- `[^\ ]+` -/
def word (s : Str) : Str := s.takeWhile fun c => c ≠ ' ' && c ≠ '\\'

/-- The device named at the beginning of a text, behind `dev`. -/
def deviceHere (s : Str) : Option Str :=
  if "dev ".toList.isPrefixOf s && word (s.drop 4) ≠ [] then some (word (s.drop 4)) else none

/-- What `sed -nr 's/.*dev ([^\ ]+).*/\1/p'` makes of a line: the last place that matches counts. -/
def device : Str → Option Str
  | [] => none
  | c :: s => (device s).or (deviceHere (c :: s))

/-- The variable `nic`, by the answer of `ip route get 8.8.8.8`. -/
def nic (answer : Str) : Str := ['\n'].intercalate ((answer.splitOn '\n').filterMap device)

/-- The replacement of an `s` command, of a text without backslashes: `&` is what was matched. -/
def replacement (matched text : Str) : Str := text.flatMap fun c => if c = '&' then matched else [c]

/-- `sed`: a command on each line. -/
def sed (f : Str → Str) (text : Str) : Str := ['\n'].intercalate ((text.splitOn '\n').map f)

/-- The card that the generated file has. -/
def eth0 : Str := "eth0"

/-- `change_eth.sh` on the file, with this answer of `ip route get`. -/
def changeEth (answer text : Str) : Str := sed (replaceAll eth0 (replacement eth0 (nic answer))) text

example : changeEth "8.8.8.8 via 10.0.0.1 dev ens5 src 10.0.0.9 uid 0 \n    cache \n".toList
    "-o eth0 -j X\neth0\n".toList = "-o ens5 -j X\nens5\n".toList := by
  simp (disch := exact rfl) only [toList_of_eq]
  decide +kernel

/-! ## The name of the card -/

/-- A name that a network card can have. -/
structure CardName (name : Str) : Prop where
  ne_nil : name ≠ []
  solid : ∀ c ∈ name, isSpace c = false
  slash : '/' ∉ name

/-- The answer reports the card: its first line has the name between `dev` and `src`, and what follows names no other
device. -/
def Reports (answer name : Str) : Prop :=
  ∃ before after rest : Str, answer = before ++ " dev ".toList ++ name ++ " src ".toList ++ after ++ '\n' :: rest ∧
    (∀ c ∈ before ++ after, isSpace c = true → c = ' ') ∧ ¬"dev ".toList <:+: "src ".toList ++ after ∧
    ∀ line ∈ rest.splitOn '\n', ¬"dev ".toList <:+: line

variable {name answer s t : Str}

theorem mem_word {c : Char} (h : c ∈ word s) : c ∈ s ∧ c ≠ ' ' ∧ c ≠ '\\' := by
  have hclass := List.mem_takeWhile_imp h
  exact ⟨List.takeWhile_subset _ h, by simpa using hclass⟩

theorem deviceHere_some {d : Str} (h : deviceHere s = some d) : "dev ".toList <+: s ∧ d = word (s.drop 4) ∧ d ≠ [] := by
  unfold deviceHere at h
  split at h
  · rename_i hc
    rw [Bool.and_eq_true] at hc
    cases h
    exact ⟨List.isPrefixOf_iff_prefix.1 hc.1, rfl, by simpa using hc.2⟩
  · cases h

theorem device_none : ∀ {s : Str}, ¬"dev ".toList <:+: s → device s = none
  | [], _ => rfl
  | c :: s, h => by
    have hrest : device s = none := device_none fun hi => h (hi.trans (List.suffix_cons c s).isInfix)
    have hhere : deviceHere (c :: s) = none := by
      by_contra hne
      obtain ⟨d, hd⟩ := Option.ne_none_iff_exists'.1 hne
      exact h (deviceHere_some hd).1.isInfix
    rw [device, hrest, hhere]
    rfl

theorem device_append {d : Str} (h : device s = some d) : ∀ a : Str, device (a ++ s) = some d
  | [] => h
  | c :: a => by
    show (device (a ++ s)).or _ = _
    rw [device_append h a]
    rfl

/-- A device is made of characters of the line, and has neither of the two that end it. -/
theorem mem_device {c : Char} : ∀ {s d : Str}, device s = some d → c ∈ d → c ∈ s ∧ c ≠ ' ' ∧ c ≠ '\\'
  | [], _, h, _ => by cases h
  | x :: s, d, h, hc => by
    rcases Option.or_eq_some_iff.1 h with h | ⟨-, h⟩
    · exact (mem_device h hc).imp_left (List.mem_cons_of_mem _)
    · obtain ⟨-, rfl, -⟩ := deviceHere_some h
      exact (mem_word hc).imp_left fun h => List.mem_of_mem_drop h

theorem dev_eq : ("dev " : Str) = ['d', 'e', 'v', ' '] := by decide

/-- The device behind the last `dev`. -/
theorem device_last (hno : ¬"dev ".toList <:+: s) (hword : word s ≠ []) :
    device ("dev ".toList ++ s) = some (word s) := by
  have hhere : deviceHere ("dev ".toList ++ s) = some (word s) := by
    rw [deviceHere, List.isPrefixOf_iff_prefix.2 (List.prefix_append _ _), List.drop_left' (by decide)]
    simp [hword]
  have hrest : device ('e' :: 'v' :: ' ' :: s) = none := by
    rw [device, device, device, device_none hno]
    simp [deviceHere, dev_eq]
  rw [dev_eq] at hhere ⊢
  show (device ('e' :: 'v' :: ' ' :: s)).or (deviceHere _) = _
  rw [hrest]
  exact hhere

/-- A text with one blank at its end, found around another blank. -/
theorem infix_cases {x : Char} {p a b : Str} (hp : x ∉ p) (ha : x ∉ a) (h : p ++ [x] <:+: a ++ x :: b) :
    p <:+ a ∨ p ++ [x] <:+: b := by
  obtain ⟨u, v, huv⟩ := h
  have hsplit : (u ++ p) ++ x :: v = a ++ x :: b := by simpa using huv
  rcases List.append_eq_append_iff.1 hsplit with ⟨m, rfl, hm⟩ | ⟨m, hm, hm'⟩
  · cases m with
    | nil => exact .inl (by simp)
    | cons y m =>
      obtain rfl := (List.cons.inj hm).1
      exact absurd (List.mem_append_right _ List.mem_cons_self) ha
  · cases m with
    | nil =>
      rw [List.append_nil] at hm
      exact .inl ⟨u, hm⟩
    | cons y m =>
      obtain ⟨rfl, rfl⟩ := List.cons.inj hm'
      right
      -- `p` has no blank, so it lies behind the first one
      obtain ⟨w, rfl⟩ : ∃ w, m = w ++ p := by
        rcases List.append_eq_append_iff.1 hm with ⟨k, -, rfl⟩ | ⟨k, -, hk⟩
        · exact absurd (List.mem_append_right _ List.mem_cons_self) hp
        · cases k with
          | nil =>
            rw [List.nil_append] at hk
            exact absurd (hk ▸ List.mem_cons_self) hp
          | cons z w => exact ⟨w, (List.cons.inj hk).2⟩
      exact ⟨w, v, by simp⟩

/-- The first line of the answer, up to the name. -/
theorem device_line (before : Str) {after : Str} (hname : CardName name)
    (hno : ¬"dev ".toList <:+: "src ".toList ++ after) :
    ('\\' ∉ name ∧ ¬"dev".toList <:+ name →
      device (before ++ " dev ".toList ++ name ++ " src ".toList ++ after) = some name) ∧
    ("dev".toList <:+ name →
      device (before ++ " dev ".toList ++ name ++ " src ".toList ++ after) = some "src".toList) := by
  have hblank : ' ' ∉ name := fun h => by
    have := hname.solid _ h
    exact absurd this (by decide)
  have hsrc : (" src " : Str) = ' ' :: "src ".toList := by decide
  have hdev : (" dev " : Str) = ' ' :: "dev ".toList := by decide
  refine ⟨fun ⟨hslash, hends⟩ => ?_, fun hends => ?_⟩
  · have hline : before ++ " dev ".toList ++ name ++ " src ".toList ++ after =
        (before ++ [' ']) ++ ("dev ".toList ++ (name ++ ' ' :: ("src ".toList ++ after))) := by
      rw [hsrc, hdev]
      simp only [List.append_assoc, List.cons_append, List.nil_append]
    have hword : word (name ++ ' ' :: ("src ".toList ++ after)) = name := by
      have hall : ∀ c ∈ name, (c ≠ ' ' && c ≠ '\\') = true := fun c hc => by
        simp only [Bool.and_eq_true, decide_eq_true_eq]
        exact ⟨fun h => hblank (h ▸ hc), fun h => hslash (h ▸ hc)⟩
      rw [word, List.takeWhile_append_of_pos hall]
      simp
    have hlast : ¬"dev ".toList <:+: name ++ ' ' :: ("src ".toList ++ after) := by
      rw [show ("dev " : Str) = "dev".toList ++ [' '] by decide] at hno ⊢
      exact fun h => (infix_cases (by decide) hblank h).elim hends hno
    have hfound := device_last hlast (by rw [hword]; exact hname.ne_nil)
    rw [hword] at hfound
    rw [hline]
    exact device_append hfound _
  · obtain ⟨n, rfl⟩ := hends
    have hline : before ++ " dev ".toList ++ (n ++ "dev".toList) ++ " src ".toList ++ after =
        (before ++ " dev ".toList ++ n) ++ ("dev ".toList ++ ("src ".toList ++ after)) := by
      rw [hsrc, show ("dev " : Str) = "dev".toList ++ [' '] by decide]
      simp only [List.append_assoc, List.cons_append, List.nil_append]
    have hword : word ("src ".toList ++ after) = "src".toList := by
      rw [word, show ("src " : Str) = ['s', 'r', 'c', ' '] by decide, show ("src" : Str) = ['s', 'r', 'c'] by decide]
      simp
    have hfound := device_last hno (by rw [hword]; decide)
    rw [hword] at hfound
    rw [hline]
    exact device_append hfound _

/-- What the script reads off the answer. -/
theorem nic_of_reports (hname : CardName name) (h : Reports answer name) :
    ('\\' ∉ name ∧ ¬"dev".toList <:+ name → nic answer = name) ∧ ("dev".toList <:+ name → nic answer = "src".toList) ∧
      ∀ c ∈ nic answer, isSpace c = false ∧ c ≠ '\\' := by
  obtain ⟨before, after, rest, rfl, hblanks, hno, hrest⟩ := h
  have hline := device_line before hname hno
  have hspaces : ∀ c ∈ before ++ " dev ".toList ++ name ++ " src ".toList ++ after, isSpace c = true → c = ' ' := by
    have hdev : ∀ c ∈ (" dev " : Str), isSpace c = true → c = ' ' := by decide
    have hsrc : ∀ c ∈ (" src " : Str), isSpace c = true → c = ' ' := by decide
    intro c hc hspace
    simp only [List.mem_append] at hc hblanks
    rcases hc with (((hc | hc) | hc) | hc) | hc
    · exact hblanks c (.inl hc) hspace
    · exact hdev c hc hspace
    · rw [hname.solid c hc] at hspace
      cases hspace
    · exact hsrc c hc hspace
    · exact hblanks c (.inr hc) hspace
  generalize before ++ " dev ".toList ++ name ++ " src ".toList ++ after = line at hline hspaces ⊢
  have hnewline : '\n' ∉ line := fun h => absurd (hspaces _ h (by decide)) (by decide)
  have hnone : (rest.splitOn '\n').filterMap device = [] :=
    List.filterMap_eq_nil_iff.2 fun l hl => device_none (hrest l hl)
  have hnic : nic (line ++ '\n' :: rest) = (device line).getD [] := by
    rw [nic, List.splitOn_append_cons_self_of_not_mem hnewline, List.filterMap_cons, hnone]
    cases device line with
    | none => rfl
    | some d => exact List.intercalate_singleton
  rw [hnic]
  refine ⟨fun h => by rw [hline.1 h]; rfl, fun h => by rw [hline.2 h]; rfl, fun c hc => ?_⟩
  cases hd : device line with
  | none =>
    rw [hd] at hc
    cases hc
  | some d =>
    rw [hd] at hc
    obtain ⟨hmem, hne, hslash⟩ := mem_device hd hc
    exact ⟨by_contra fun hspace => hne (hspaces c hmem (by simpa using hspace)), hslash⟩

/-! ## The replacement -/

theorem replacement_plain {matched : Str} : ∀ {text : Str}, '&' ∉ text → replacement matched text = text
  | [], _ => rfl
  | c :: text, h => by
    have hc : c ≠ '&' := fun hc => h (hc ▸ List.mem_cons_self)
    have ih : replacement matched text = text := replacement_plain fun ht => h (List.mem_cons_of_mem _ ht)
    rw [replacement, List.flatMap_cons, if_neg hc]
    exact congrArg (List.cons c) ih

theorem mem_replacement {matched text : Str} {c : Char} (h : c ∈ replacement matched text) :
    c ∈ matched ∨ c ∈ text ∧ c ≠ '&' := by
  obtain ⟨d, hd, hc⟩ := List.mem_flatMap.1 h
  split at hc
  · exact .inl hc
  · rename_i hne
    obtain rfl := List.mem_singleton.1 hc
    exact .inr ⟨hd, hne⟩

/-- **When the replacement is the reported name.** -/
theorem replacement_nic_iff (hname : CardName name) (h : Reports answer name) :
    replacement eth0 (nic answer) = name ↔ '&' ∉ name ∧ '\\' ∉ name ∧ ¬"dev".toList <:+ name := by
  obtain ⟨hplain, hdev, hsolid⟩ := nic_of_reports hname h
  constructor
  · intro heq
    have hand : '&' ∉ name := fun hmem => by
      rcases mem_replacement (heq.symm ▸ hmem) with hm | ⟨-, hm⟩
      · revert hm
        decide
      · exact hm rfl
    have hslash : '\\' ∉ name := fun hmem => by
      rcases mem_replacement (heq.symm ▸ hmem) with hm | ⟨hm, -⟩
      · revert hm
        decide
      · exact (hsolid _ hm).2 rfl
    refine ⟨hand, hslash, fun hends => ?_⟩
    rw [hdev hends] at heq
    rw [← heq] at hends
    revert hends
    decide
  · rintro ⟨hand, hslash, hends⟩
    rw [hplain ⟨hslash, hends⟩, replacement_plain hand]

/-! ## The substitution on a file -/

section Substitution

variable {new : Str}

theorem eth0_ne_nil : eth0 ≠ [] := by decide

/-- `sed` works on the lines, and a card's name has no line break. -/
theorem sed_replaceAll (text : Str) : sed (replaceAll eth0 new) text = replaceAll eth0 new text := by
  rw [sed, ← replaceAll_lines eth0_ne_nil (by decide), List.intercalate_splitOn]

theorem replaceAll_unlines : ∀ ls : List Str, replaceAll eth0 new (unlines ls) = unlines (ls.map (replaceAll eth0 new))
  | [] => rfl
  | l :: ls => by
    show replaceAll eth0 new (l ++ ['\n'] ++ unlines ls) = replaceAll eth0 new l ++ ['\n'] ++ unlines _
    rw [List.append_assoc, List.singleton_append, replaceAll_separated eth0_ne_nil (by decide), replaceAll_unlines ls,
      List.append_assoc]
    rfl

/-- In the line of an option only the value is substituted. -/
theorem replaceAll_optionLines {k v : Str} (hk : ¬eth0 <:+: k) (hv : '\n' ∉ v) (hv' : '\n' ∉ replaceAll eth0 new v) :
    (optionLines k v).map (replaceAll eth0 new) = optionLines k (replaceAll eth0 new v) := by
  rw [optionLines, optionLines, List.splitOn_eq_singleton hv, List.splitOn_eq_singleton hv']
  have hequals : replaceAll eth0 new ['='] = ['='] := replaceAll_of_not_infix (by decide)
  have hline : replaceAll eth0 new (k ++ ' ' :: (['='] ++ ' ' :: v)) =
      k ++ ' ' :: (['='] ++ ' ' :: replaceAll eth0 new v) := by
    rw [replaceAll_separated eth0_ne_nil (by decide), replaceAll_separated eth0_ne_nil (by decide),
      replaceAll_of_not_infix hk, hequals]
  exact congrArg (fun l => [l]) hline

/-- What the substitution asks of an option: the name of the card is not in the option's name, and no line break is in
the value, before and after. -/
def Plain (new : Str) (e : Str × Str) : Prop := ¬eth0 <:+: e.1 ∧ '\n' ∉ e.2 ∧ '\n' ∉ replaceAll eth0 new e.2

theorem replaceAll_sectionLines {name : Str} {items : Dict Str Str} (hname : ¬eth0 <:+: '[' :: (name ++ [']']))
    (hitems : ∀ e ∈ items, Plain new e) :
    (sectionLines name items).map (replaceAll eth0 new) = sectionLines name (items.mapVal (replaceAll eth0 new)) := by
  have hlines : ∀ items : Dict Str Str, (∀ e ∈ items, Plain new e) →
      (items.flatMap fun e => optionLines e.1 e.2).map (replaceAll eth0 new) =
        (items.mapVal (replaceAll eth0 new)).flatMap fun e => optionLines e.1 e.2 := by
    intro items
    induction items with
    | nil => exact fun _ => rfl
    | cons e items ih =>
      intro h
      obtain ⟨hk, hv, hv'⟩ := h e List.mem_cons_self
      rw [List.flatMap_cons, List.map_append, replaceAll_optionLines hk hv hv', ih fun e he =>
        h e (List.mem_cons_of_mem _ he)]
      rfl
  rw [sectionLines, sectionLines, List.map_append, List.map_cons, hlines items hitems, replaceAll_of_not_infix hname]
  rfl

/-- **The substitution works on each value by itself.** -/
theorem replaceAll_write {sections : Dict Str (Dict Str Str)}
    (h : ∀ e ∈ sections, ¬eth0 <:+: '[' :: (e.1 ++ [']']) ∧ ∀ i ∈ e.2, Plain new i) :
    replaceAll eth0 new (write ⟨[], sections⟩) = write ⟨[], sections.mapVal (·.mapVal (replaceAll eth0 new))⟩ := by
  have hlines : (writeLines ⟨[], sections⟩).map (replaceAll eth0 new) =
      writeLines ⟨[], sections.mapVal (·.mapVal (replaceAll eth0 new))⟩ := by
    show (sections.flatMap fun e => sectionLines e.1 e.2).map (replaceAll eth0 new) = _
    induction sections with
    | nil => rfl
    | cons e sections ih =>
      obtain ⟨hname, hitems⟩ := h e List.mem_cons_self
      rw [List.flatMap_cons, List.map_append, replaceAll_sectionLines hname hitems,
        ih fun e he => h e (List.mem_cons_of_mem _ he)]
      rfl
  rw [write, write, replaceAll_unlines, hlines]

end Substitution

/-! ## Files of single lines -/

/-- A value of one line without blanks around it. -/
structure Line (v : Str) : Prop where
  newline : '\n' ∉ v
  cr : '\r' ∉ v
  strip : strip v = v

instance (v : Str) : Decidable (Line v) :=
  decidable_of_iff ('\n' ∉ v ∧ '\r' ∉ v ∧ Text.strip v = v) ⟨fun ⟨a, b, c⟩ => ⟨a, b, c⟩, fun ⟨a, b, c⟩ => ⟨a, b, c⟩⟩

theorem Line.of_solid {v : Str} (h : ∀ c ∈ v, isSpace c = false) : Line v where
  newline hm := absurd (h _ hm) (by decide)
  cr hm := absurd (h _ hm) (by decide)
  strip := strip_solid h

/-- An option whose name can stand in a file, with a value of one line. -/
structure LineEntry (e : Str × Str) : Prop where
  key : KeyOk e.1
  head : e.1.head? ≠ some '['
  value : Line e.2

theorem LineEntry.of_key {k v : Str}
    (hk : KeyOk k ∧ k.head? ≠ some '[') (hv : Line v) : LineEntry (k, v) := ⟨hk.1, hk.2, hv⟩

/-- A file of such options comes back as it is. -/
theorem read_write_lines {sections : Dict Str (Dict Str Str)} (hnodup : sections.keys.Nodup)
    (hnames : ∀ name ∈ sections.keys, NameOk name)
    (hitems : ∀ e ∈ sections, e.2.keys.Nodup ∧ ∀ i ∈ e.2, LineEntry i) :
    ConfigParser.read (write ⟨[], sections⟩) = .ok ⟨[], sections⟩ := by
  have hwritable : Writable ⟨[], sections⟩ := by
    refine ⟨⟨List.nodup_nil, fun _ h => by cases h⟩, hnodup, hnames, fun e he => ⟨(hitems e he).1, fun i hi => ?_⟩⟩
    have hline := (hitems e he).2 i hi
    exact .of_head hline.key hline.head hline.value.cr
  have hfixed : ∀ e ∈ sections, (e.1, e.2.mapVal normValue) = e := by
    intro e he
    have hvalues : ∀ i ∈ e.2, (i.1, normValue i.2) = i := fun i hi => by
      have hline := ((hitems e he).2 i hi).value
      rw [normValue_line hline.newline hline.strip]
    rw [Dict.mapVal, List.map_congr_left hvalues, List.map_id']
  have hnorm : ConfigParser.norm ⟨[], sections⟩ = ⟨[], sections⟩ := by
    show ConfigParser.mk [] (sections.map fun e => (e.1, e.2.mapVal normValue)) = _
    rw [List.map_congr_left hfixed, List.map_id']
  rw [read_write hwritable, hnorm]

/-! ## The generated file -/

/-- The command that is run when the interface comes up, with this card. -/
def postUp (card : Str) : Str :=
  "ufw route allow in on wg0 out on " ++ card ++ ("; ufw default allow incoming; sysctl -w net.ipv4.ip_forward=1; " ++
    "iptables -t nat -I POSTROUTING -o ") ++ card ++ " -j MASQUERADE"

/-- The command that is run before it goes down. -/
def preDown (card : Str) : Str :=
  "ufw route delete allow in on wg0 out on " ++ card ++ "; iptables -t nat -D POSTROUTING -o " ++ card ++
    " -j MASQUERADE"

/-- The file with these keys and this card. -/
def peerFile (privateKey publicKey : Str) (order : Nat) (card : Str) : ConfigParser where
  defaults := []
  sections := [
    ("Interface", [("privatekey", privateKey), ("listenport", peerWgPort), ("address", peerIp (showNat order)),
      ("postup", postUp card), ("predown", preDown card), ("mtu", "1500")]),
    ("Peer", [("publickey", publicKey), ("allowedips", interfaceIp (showNat order))])]

/-- The text of a key: base64. -/
def IsKey (key : Str) : Prop := ∀ c ∈ key, c.isAlphanum = true ∨ c ∈ ['+', '/', '=']

instance (key : Str) : Decidable (IsKey key) := inferInstanceAs (Decidable (∀ c ∈ key, _))

theorem setOptions_ok {sect : Str} (hs : Ordinary sect) : ∀ (items : List (Str × Str)) (p : ConfigParser),
    sect ∈ p.sectionNames → (∀ e ∈ items, Accepts e.2) →
    setOptions p sect items = .ok (items.foldl (fun p e => p.put sect (optionxform e.1) e.2) p)
  | [], _, _, _ => rfl
  | e :: items, p, hm, h => by
    have hset := set_ok hs hm e.1 (h e List.mem_cons_self)
    show (p.set sect e.1 e.2 >>= fun p => setOptions p sect items) = _
    rw [hset]
    exact setOptions_ok hs items _ (by rwa [sectionNames_put]) fun e he => h e (List.mem_cons_of_mem _ he)

theorem plain_of_isKey {key : Str} (h : IsKey key) : ∀ c ∈ key, isSpace c = false ∧ c ≠ '%' := by
  intro c hc
  rcases h c hc with hc | hc
  · refine ⟨not_isSpace_of_isAlphanum hc, ?_⟩
    rintro rfl
    revert hc
    decide
  · have hother : ∀ c ∈ ['+', '/', '='], isSpace c = false ∧ c ≠ '%' := by decide
    exact hother c hc

/-- The characters of an address. -/
theorem mem_address {c : Char} {order : Nat} {before after : Str} (hbefore : ∀ c ∈ before, c.isDigit = true ∨ c = '.')
    (hafter : ∀ c ∈ after, c.isDigit = true ∨ c ∈ ['.', '/']) (h : c ∈ before ++ showNat order ++ after) :
    isSpace c = false ∧ c ≠ '%' ∧ c ≠ 'e' := by
  have hclass : c.isDigit = true ∨ c ∈ ['.', '/'] := by
    rcases List.mem_append.1 h with h | h
    · rcases List.mem_append.1 h with h | h
      · exact (hbefore c h).imp_right fun h => by simp [h]
      · exact .inl (mem_toString h)
    · exact hafter c h
  rcases hclass with hd | hd
  · exact ⟨not_isSpace_of_isDigit hd, fun h => absurd (h ▸ hd) (by decide), fun h => absurd (h ▸ hd) (by decide)⟩
  · have hother : ∀ c ∈ ['.', '/'], isSpace c = false ∧ c ≠ '%' ∧ c ≠ 'e' := by decide
    exact hother c hd

theorem mem_peerIp {c : Char} {order : Nat} (h : c ∈ peerIp (showNat order)) :
    isSpace c = false ∧ c ≠ '%' ∧ c ≠ 'e' := by
  have hbefore : ∀ c ∈ ("10.0." : Str), c.isDigit = true ∨ c = '.' := by decide
  have hafter : ∀ c ∈ (".1/32" : Str), c.isDigit = true ∨ c ∈ ['.', '/'] := by decide
  exact mem_address hbefore hafter h

theorem mem_interfaceIp {c : Char} {order : Nat} (h : c ∈ interfaceIp (showNat order)) :
    isSpace c = false ∧ c ≠ '%' ∧ c ≠ 'e' := by
  have hbefore : ∀ c ∈ ("10.0." : Str), c.isDigit = true ∨ c = '.' := by decide
  have hafter : ∀ c ∈ (".2/32" : Str), c.isDigit = true ∨ c ∈ ['.', '/'] := by decide
  exact mem_address hbefore hafter h

theorem peerConfig_eq (api : ApiConfig) (hprivate : IsKey api.peerWgPrivateKey)
    (hpublic : IsKey api.interfaceWgPublicKey) (order : Nat) : peerConfig api (showNat order) =
      .ok (peerFile api.peerWgPrivateKey api.interfaceWgPublicKey order eth0) := by
  have hkey : ∀ {key : Str}, IsKey key → Accepts key := fun h =>
    accepts_plain fun hm => (plain_of_isKey h _ hm).2 rfl
  have hnames : Ordinary "Interface" ∧ Ordinary "Peer" := by decide
  have hinterface := setOptions_ok hnames.1
    [("PrivateKey".toList, api.peerWgPrivateKey), ("ListenPort".toList, peerWgPort),
      ("Address".toList, peerIp (showNat order)), ("PostUp".toList, peerPostUp), ("PreDown".toList, peerPreDown),
      ("MTU".toList, "1500".toList)] wgSections (by decide) ?_
  · have hpeer := setOptions_ok hnames.2
      [("PublicKey".toList, api.interfaceWgPublicKey), ("AllowedIPs".toList, interfaceIp (showNat order))]
      ⟨[], [("Interface", [("privatekey", api.peerWgPrivateKey), ("listenport", peerWgPort),
          ("address", peerIp (showNat order)), ("postup", peerPostUp), ("predown", peerPreDown), ("mtu", "1500")]),
        ("Peer", [])]⟩ (List.mem_cons_of_mem _ List.mem_cons_self) ?_
    · have hup : peerPostUp = postUp eth0 := by
        unfold peerPostUp postUp eth0
        simp (disch := exact rfl) only [toList_of_eq]
        decide +kernel
      have hdown : peerPreDown = preDown eth0 := by
        unfold peerPreDown preDown eth0
        simp (disch := exact rfl) only [toList_of_eq]
        decide +kernel
      rw [peerConfig, hinterface]
      refine hpeer.trans ?_
      rw [hup, hdown]
      rfl
    · simp only [List.forall_mem_cons]
      exact ⟨hkey hpublic, accepts_plain fun hm => (mem_interfaceIp hm).2.1 rfl, fun _ h => by cases h⟩
  · simp only [List.forall_mem_cons]
    have hup : Accepts peerPostUp := by
      unfold peerPostUp
      simp (disch := exact rfl) only [toList_of_eq]
      decide +kernel
    have hdown : Accepts peerPreDown := by
      unfold peerPreDown
      simp (disch := exact rfl) only [toList_of_eq]
      decide +kernel
    exact ⟨hkey hprivate, by decide, accepts_plain fun hm => (mem_peerIp hm).2.1 rfl, hup, hdown, by decide,
      fun _ h => by cases h⟩

/-! ### The commands -/

variable {card new : Str}

/-- A text between two characters that are not white space. -/
theorem strip_between {c d : Char} (hc : isSpace c = false) (hd : isSpace d = false) (m : Str) :
    strip (c :: (m ++ [d])) = c :: (m ++ [d]) := by
  rw [strip, lstrip_cons_solid hc, rstrip_cons_solid hc, rstrip_append_solid hd]
  rfl

/-- A command with the card at two places is one line. -/
theorem line_command {c d : Char} {first middle last a e : Str} (hfirst : first = c :: a) (hlast : last = e ++ [d])
    (hc : isSpace c = false) (hd : isSpace d = false) (hplain : ∀ x ∈ first ++ middle ++ last, x ≠ '\n' ∧ x ≠ '\r')
    (hcard : ∀ x ∈ card, isSpace x = false) : Line (first ++ card ++ middle ++ card ++ last) := by
  have hall : ∀ x ∈ first ++ card ++ middle ++ card ++ last, x ≠ '\n' ∧ x ≠ '\r' := by
    have hsolid : ∀ x ∈ card, x ≠ '\n' ∧ x ≠ '\r' := fun x hx => by
      constructor <;> rintro rfl <;> exact absurd (hcard _ hx) (by decide)
    intro x hx
    simp only [List.mem_append] at hx hplain
    grind
  refine ⟨fun h => (hall _ h).1 rfl, fun h => (hall _ h).2 rfl, ?_⟩
  have hends := strip_between hc hd (a ++ card ++ middle ++ card ++ e)
  rw [hfirst, hlast]
  simpa only [List.cons_append, List.append_assoc] using hends

theorem line_postUp (hcard : ∀ x ∈ card, isSpace x = false) : Line (postUp card) := by
  refine line_command (c := 'u') (d := 'E') (a := "fw route allow in on wg0 out on ".toList)
    (e := " -j MASQUERAD".toList) (by decide) (by decide) (by decide) (by decide) ?_ hcard
  simp (disch := exact rfl) only [toList_of_eq]
  decide +kernel

theorem line_preDown (hcard : ∀ x ∈ card, isSpace x = false) : Line (preDown card) := by
  refine line_command (c := 'u') (d := 'E') (a := "fw route delete allow in on wg0 out on ".toList)
    (e := " -j MASQUERAD".toList) (by decide) (by decide) (by decide) (by decide) ?_ hcard
  simp (disch := exact rfl) only [toList_of_eq]
  decide +kernel

/-- The substitution in a command: the card stands behind a blank. -/
theorem replaceAll_command {first middle last a b : Str} (hfirst : first = a ++ [' ']) (hmiddle : middle = b ++ [' '])
    (ha : ¬eth0 <:+: a) (hb : ¬eth0 <:+: b) (hlast : ¬eth0 <:+: last) :
    replaceAll eth0 new (first ++ eth0 ++ middle ++ eth0 ++ last) = first ++ new ++ middle ++ new ++ last := by
  have hsplit : ∀ card, first ++ card ++ middle ++ card ++ last =
      a ++ ' ' :: (card ++ (b ++ ' ' :: (card ++ last))) := by
    intro card
    rw [hfirst, hmiddle]
    simp only [List.append_assoc, List.cons_append, List.nil_append]
  rw [hsplit, hsplit, replaceAll_separated eth0_ne_nil (by decide), replaceAll_append eth0_ne_nil,
    replaceAll_separated eth0_ne_nil (by decide), replaceAll_append eth0_ne_nil, replaceAll_of_not_infix ha,
    replaceAll_of_not_infix hb, replaceAll_of_not_infix hlast]

theorem replaceAll_postUp : replaceAll eth0 new (postUp eth0) = postUp new := by
  refine replaceAll_command (a := "ufw route allow in on wg0 out on".toList)
    (b := "; ufw default allow incoming; sysctl -w net.ipv4.ip_forward=1; iptables -t nat -I POSTROUTING -o".toList)
    (by decide) ?_ (by decide) ?_ (by decide)
  · simp (disch := exact rfl) only [toList_of_eq]
    decide +kernel
  · simp (disch := exact rfl) only [toList_of_eq, eth0]
    decide +kernel

theorem replaceAll_preDown : replaceAll eth0 new (preDown eth0) = preDown new :=
  replaceAll_command (a := "ufw route delete allow in on wg0 out on".toList)
    (b := "; iptables -t nat -D POSTROUTING -o".toList)
    (by decide) (by decide) (by decide) (by decide) (by decide)

/-- The card can be read off a command. -/
theorem command_injective {card' first middle last : Str}
    (h : first ++ card ++ middle ++ card ++ last = first ++ card' ++ middle ++ card' ++ last) : card = card' := by
  have hlen := congrArg List.length h
  simp only [List.length_append] at hlen
  simp only [List.append_assoc] at h
  exact (List.append_inj (List.append_cancel_left h) (by omega)).1

theorem postUp_injective {card' : Str} (h : postUp card = postUp card') : card = card' := command_injective h

/-! ### The file -/

theorem plain_of_newline {k v : Str} (hk : ¬eth0 <:+: k) (hv : '\n' ∉ v) (hnew : ∀ c ∈ new, isSpace c = false) :
    Plain new (k, v) := by
  refine ⟨hk, hv, fun h => ?_⟩
  rcases mem_replaceAll eth0_ne_nil v h with h | h
  · exact absurd (hnew _ h) (by decide)
  · exact hv h

theorem not_infix_of_not_mem {v : Str} (h : 'e' ∉ v) : ¬eth0 <:+: v := fun hi => by
  have he : 'e' ∈ eth0 := by decide
  exact h (hi.subset he)

theorem replaceAll_peerFile {privateKey publicKey : Str} {order : Nat} (hprivate : IsKey privateKey)
    (hpublic : IsKey publicKey) (hnew : ∀ c ∈ new, isSpace c = false) :
    replaceAll eth0 new (write (peerFile privateKey publicKey order eth0)) =
      write (peerFile (replaceAll eth0 new privateKey) (replaceAll eth0 new publicKey) order new) := by
  have hsolid : ∀ {v : Str}, (∀ c ∈ v, isSpace c = false) → '\n' ∉ v := fun h hm => absurd (h _ hm) (by decide)
  have heth0 : ∀ c ∈ eth0, isSpace c = false := by decide
  have hport : replaceAll eth0 new peerWgPort = peerWgPort := replaceAll_of_not_infix (by decide)
  have haddress : replaceAll eth0 new (peerIp (showNat order)) = peerIp (showNat order) :=
    replaceAll_of_not_infix (not_infix_of_not_mem fun h => (mem_peerIp h).2.2 rfl)
  have hmtu : replaceAll eth0 new "1500".toList = "1500".toList := replaceAll_of_not_infix (by decide)
  have hallowed : replaceAll eth0 new (interfaceIp (showNat order)) = interfaceIp (showNat order) :=
    replaceAll_of_not_infix (not_infix_of_not_mem fun h => (mem_interfaceIp h).2.2 rfl)
  refine (replaceAll_write ?_).trans ?_
  · simp only [List.forall_mem_cons]
    refine ⟨⟨by decide, plain_of_newline (by decide) (hsolid fun c hc => (plain_of_isKey hprivate c hc).1) hnew,
      plain_of_newline (by decide) (by decide) hnew,
      plain_of_newline (by decide) (hsolid fun c hc => (mem_peerIp hc).1) hnew,
      plain_of_newline (by decide) (line_postUp heth0).newline hnew,
      plain_of_newline (by decide) (line_preDown heth0).newline hnew,
      plain_of_newline (by decide) (by decide) hnew, fun _ h => by cases h⟩,
      ⟨by decide, plain_of_newline (by decide) (hsolid fun c hc => (plain_of_isKey hpublic c hc).1) hnew,
      plain_of_newline (by decide) (hsolid fun c hc => (mem_interfaceIp hc).1) hnew, fun _ h => by cases h⟩,
      fun _ h => by cases h⟩
  · show write ⟨[], [("Interface", [("privatekey", _), ("listenport", replaceAll eth0 new peerWgPort),
        ("address", replaceAll eth0 new (peerIp (showNat order))), ("postup", replaceAll eth0 new (postUp eth0)),
        ("predown", replaceAll eth0 new (preDown eth0)), ("mtu", replaceAll eth0 new "1500".toList)]),
      ("Peer", [("publickey", _), ("allowedips", replaceAll eth0 new (interfaceIp (showNat order)))])]⟩ = _
    rw [hport, haddress, replaceAll_postUp, replaceAll_preDown, hmtu, hallowed]
    rfl

/-- The text that `generate_peer_config` returns is that of the file. -/
theorem generatePeerConfig_ok {l l' : ConfigLoader} {configName text : Str} {w w' : World}
    (h : l.generatePeerConfig configName w = (.ok (text, l'), w')) :
    ∃ (aws : AwsConfig) (p : ConfigParser), peerConfig l'.apiConfig aws.order = .ok p ∧ text = write p := by
  obtain ⟨_, w₁, -, h⟩ := Prog.bind_eq_ok.1 h
  obtain ⟨⟨aws, l₁⟩, w₂, -, h⟩ := Prog.bind_eq_ok.1 h
  obtain ⟨p, w₃, hp, h⟩ := Prog.bind_eq_ok.1 h
  obtain ⟨_, w₄, -, h⟩ := Prog.bind_eq_ok.1 h
  obtain ⟨_, w₅, hwrite, h⟩ := Prog.bind_eq_ok.1 h
  obtain ⟨read, w₆, hread, h⟩ := Prog.bind_eq_ok.1 h
  cases h
  refine ⟨aws, p, (Py.ofConfig_eq_ok.1 hp).1, ?_⟩
  have hfile := (Py.writeFile_ok hwrite).symm.trans (Py.readFile_ok hread)
  exact (Option.some.inj hfile).symm

theorem read_peerFile {privateKey publicKey : Str} {order : Nat} (hprivate : ∀ c ∈ privateKey, isSpace c = false)
    (hpublic : ∀ c ∈ publicKey, isSpace c = false) (hcard : ∀ c ∈ card, isSpace c = false) :
    ConfigParser.read (write (peerFile privateKey publicKey order card)) =
      .ok (peerFile privateKey publicKey order card) := by
  refine read_write_lines (by decide : ["Interface".toList, "Peer".toList].Nodup) ?_ ?_
  · show ∀ name ∈ ["Interface".toList, "Peer".toList], NameOk name
    simp only [List.forall_mem_cons]
    exact ⟨⟨by decide, by decide, by decide, by decide⟩, ⟨by decide, by decide, by decide, by decide⟩,
      fun _ h => by cases h⟩
  · simp only [List.forall_mem_cons]
    refine ⟨⟨(by decide : ["privatekey".toList, "listenport".toList, "address".toList, "postup".toList,
        "predown".toList, "mtu".toList].Nodup), ?_⟩,
      ⟨(by decide : ["publickey".toList, "allowedips".toList].Nodup), ?_⟩, fun _ h => by cases h⟩
    · exact ⟨.of_key (by decide) (.of_solid hprivate), .of_key (by decide) (by decide),
        .of_key (by decide) (.of_solid fun c hc => (mem_peerIp hc).1), .of_key (by decide) (line_postUp hcard),
        .of_key (by decide) (line_preDown hcard), .of_key (by decide) (by decide), fun _ h => by cases h⟩
    · exact ⟨.of_key (by decide) (.of_solid hpublic), .of_key (by decide)
        (.of_solid fun c hc => (mem_interfaceIp hc).1), fun _ h => by cases h⟩

/-! ## The law -/

/-- Of what was generated, only the card was changed. -/
structure OnlyCard (api : ApiConfig) (order : Nat) (name : Str) (q : ConfigParser) : Prop where
  privateKey : q.raw "Interface" "privatekey" = some api.peerWgPrivateKey
  listenPort : q.raw "Interface" "listenport" = some peerWgPort
  address : q.raw "Interface" "address" = some (peerIp (showNat order))
  postUp : q.raw "Interface" "postup" = some (postUp name)
  preDown : q.raw "Interface" "predown" = some (preDown name)
  mtu : q.raw "Interface" "mtu" = some "1500"
  publicKey : q.raw "Peer" "publickey" = some api.interfaceWgPublicKey
  allowedIps : q.raw "Peer" "allowedips" = some (interfaceIp (showNat order))

theorem onlyCard_peerFile {api : ApiConfig} {order : Nat} {privateKey publicKey : Str} :
    OnlyCard api order name (peerFile privateKey publicKey order card) ↔
      privateKey = api.peerWgPrivateKey ∧ publicKey = api.interfaceWgPublicKey ∧ card = name := by
  constructor
  · intro h
    exact ⟨Option.some.inj h.privateKey, Option.some.inj h.publicKey, postUp_injective (Option.some.inj h.postUp)⟩
  · rintro ⟨rfl, rfl, rfl⟩
    exact ⟨rfl, rfl, rfl, rfl, rfl, rfl, rfl, rfl⟩

/-- **What the script leaves of the file.** -/
theorem read_changeEth (api : ApiConfig) (order : Nat) (hprivate : IsKey api.peerWgPrivateKey)
    (hpublic : IsKey api.interfaceWgPublicKey) (hname : CardName name) (hanswer : Reports answer name) :
    ConfigParser.read (changeEth answer (write (peerFile api.peerWgPrivateKey api.interfaceWgPublicKey order eth0))) =
      .ok (peerFile (replaceAll eth0 (replacement eth0 (nic answer)) api.peerWgPrivateKey)
        (replaceAll eth0 (replacement eth0 (nic answer)) api.interfaceWgPublicKey) order
        (replacement eth0 (nic answer))) := by
  have hnew : ∀ c ∈ replacement eth0 (nic answer), isSpace c = false := by
    have heth0 : ∀ c ∈ eth0, isSpace c = false := by decide
    intro c hc
    rcases mem_replacement hc with hc | ⟨hc, -⟩
    · exact heth0 c hc
    · exact ((nic_of_reports hname hanswer).2.2 c hc).1
  have hsolid : ∀ {key : Str}, IsKey key → ∀ c ∈ replaceAll eth0 (replacement eth0 (nic answer)) key,
      isSpace c = false :=
    fun hkey c hc => (mem_replaceAll eth0_ne_nil _ hc).elim (hnew c) fun hc => (plain_of_isKey hkey c hc).1
  rw [changeEth, sed_replaceAll, replaceAll_peerFile hprivate hpublic hnew]
  exact read_peerFile (hsolid hprivate) (hsolid hpublic) hnew

/-- **When only the card is changed.** -/
theorem changes_card_iff (api : ApiConfig) (order : Nat) (name answer : Str) (hprivate : IsKey api.peerWgPrivateKey)
    (hpublic : IsKey api.interfaceWgPublicKey) (hname : CardName name) (hanswer : Reports answer name) :
    ∃ p q, peerConfig api (showNat order) = .ok p ∧ ConfigParser.read (changeEth answer (write p)) = .ok q ∧
      (OnlyCard api order name q ↔ ('&' ∉ name ∧ '\\' ∉ name ∧ ¬"dev".toList <:+ name) ∧
        (name = eth0 ∨ ¬eth0 <:+: api.peerWgPrivateKey ∧ ¬eth0 <:+: api.interfaceWgPublicKey)) := by
  refine ⟨_, _, peerConfig_eq api hprivate hpublic order, read_changeEth api order hprivate hpublic hname hanswer, ?_⟩
  rw [onlyCard_peerFile, ← replacement_nic_iff hname hanswer, replaceAll_eq_self_iff eth0_ne_nil,
    replaceAll_eq_self_iff eth0_ne_nil]
  constructor
  · rintro ⟨hprivate, hpublic, hcard⟩
    rw [hcard] at hprivate hpublic
    refine ⟨hcard, ?_⟩
    by_cases heth0 : name = eth0
    · exact .inl heth0
    · exact .inr ⟨hprivate.resolve_left heth0, hpublic.resolve_left heth0⟩
  · rintro ⟨hcard, rfl | ⟨hprivate, hpublic⟩⟩
    · exact ⟨.inl hcard, .inl hcard, hcard⟩
    · exact ⟨.inr hprivate, .inr hpublic, hcard⟩

def firstKey : Str := "2hNmXjK0bU3sVtQ9wCzLr5yPdGfA7oEiB1TnRkZxMW8="

def secondKey : Str := "uJ7cRq4YvT1nGxE6kSbMz0pHdWfL9aOi3ZtVyB5QrXw="

/-- A key with the name of the card in it. -/
def eth0Key : Str := "Xeth0mXjK0bU3sVtQ9wCzLr5yPdGfA7oEiB1TnRkZxM="

/-- A configuration with these keys for the instance. -/
def peerApi (peerWgPrivateKey interfaceWgPublicKey : Str) : ApiConfig where
  apikey := "api"
  port := "3000"
  interfaceWgPrivateKey := ""
  interfaceWgPublicKey
  peerWgPublicKey := ""
  peerWgPrivateKey
  publicip := "1.1.1.1"
  sshKeyPath := "/root/.ssh/id_rsa"

/-- An answer that reports `ens5`. -/
def ens5Answer : Str := "8.8.8.8 via 172.31.32.1 dev ens5 src 172.31.40.2 uid 0 \n    cache \n"

theorem reports_ens5 : CardName "ens5" ∧ Reports ens5Answer "ens5" :=
  ⟨⟨by decide, by decide, by decide⟩, "8.8.8.8 via 172.31.32.1", "172.31.40.2 uid 0 ", "    cache \n",
    by decide +kernel, by decide, by decide, by decide⟩

/-- Two keys without the name of the card. -/
theorem changes_ens5 : ∃ p q, peerConfig (peerApi firstKey secondKey) (showNat 1) = .ok p ∧
    ConfigParser.read (changeEth ens5Answer (write p)) = .ok q ∧ OnlyCard (peerApi firstKey secondKey) 1 "ens5" q := by
  obtain ⟨p, q, hp, hq, hiff⟩ :=
    changes_card_iff (peerApi firstKey secondKey) 1 "ens5" ens5Answer (by decide) (by decide)
    reports_ens5.1 reports_ens5.2
  exact ⟨p, q, hp, hq, hiff.2 ⟨⟨by decide, by decide, by decide⟩, .inr ⟨by decide, by decide⟩⟩⟩

/-- A private key with the name of the card in it does not stay as it is. -/
theorem key_broken : ¬∀ (api : ApiConfig) (order : Nat) (name answer : Str), IsKey api.peerWgPrivateKey →
    IsKey api.interfaceWgPublicKey → CardName name → Reports answer name →
    ∃ p q, peerConfig api (showNat order) = .ok p ∧
      ConfigParser.read (changeEth answer (write p)) = .ok q ∧ OnlyCard api order name q := by
  intro h
  have hprivate : IsKey eth0Key := by decide
  have hpublic : IsKey secondKey := by decide
  obtain ⟨p, q, hp, hq, hcard⟩ := h (peerApi eth0Key secondKey) 1 "ens5" ens5Answer hprivate hpublic reports_ens5.1
    reports_ens5.2
  have hfile := peerConfig_eq (peerApi eth0Key secondKey) hprivate hpublic 1
  obtain rfl := Except.ok.inj (hp.symm.trans hfile)
  have hread := read_changeEth (peerApi eth0Key secondKey) 1 hprivate hpublic reports_ens5.1 reports_ens5.2
  obtain rfl := Except.ok.inj (hq.symm.trans hread)
  exact absurd (onlyCard_peerFile.1 hcard).1 (by decide +kernel)

end NetworkCard
end Iprotate
