import Iprotate.Firewall

/-!
# What a whitelist entry can make the shell do

`apply_whitelist` puts each entry that `ip_network` accepts into a command text for `os.system`.

- The commands of a whole `apply_whitelist` are those of the accepted entries, in order, and one fixed command
  (`commands_applyWhitelist`).
- They all run `ufw` with the entry as one word iff no accepted entry has white space or a special character of the
  shell in its IPv6 scope id (`entries_are_words_iff`).
- `ip_network` accepts a scope id with a semicolon, and then the shell runs a second command
  (`scope_id_runs_command`).
-/

namespace Iprotate
namespace Firewall

open IpNetwork Shell Text Py

/-! ## The commands that are run -/

/-- The commands given to `os.system`. -/
def commands (calls : List (Call × Bool)) : List Str :=
  calls.filterMap fun e => match e.1 with
    | .system command => some command
    | _ => none

/-- The commands that `m`, started in `w`, gives to `os.system`. -/
def newCommands (m : Py Unit) (w : World) : List Str := commands ((m w).2.calls.drop w.calls.length)

/-- `m` ends normally and logs calls, after those before, with these commands. -/
def Runs (m : Py Unit) (cs : List Str) : Prop :=
  ∀ w, (m w).1 = .ok () ∧ ∃ new, (m w).2.calls = w.calls ++ new ∧ commands new = cs

theorem Runs.newCommands {m : Py Unit} {cs : List Str} (h : Runs m cs) (w : World) : newCommands m w = cs := by
  obtain ⟨_, new, hcalls, hcs⟩ := h w
  rw [Firewall.newCommands, hcalls, List.drop_left, hcs]

theorem Runs.nil : Runs (pure ()) [] := fun w => ⟨rfl, [], by simp, rfl⟩

theorem Runs.bind {m m' : Py Unit} {cs cs' : List Str} (h : Runs m cs) (h' : Runs m' cs') :
    Runs (do m; m') (cs ++ cs') := by
  intro w
  obtain ⟨hok, new, hcalls, hcs⟩ := h w
  obtain ⟨hok', new', hcalls', hcs'⟩ := h' (m w).2
  have hrun : (do m; m' : Py Unit) w = m' (m w).2 := Prog.run_bind_ok (a := ()) (by rw [← hok])
  rw [hrun]
  refine ⟨hok', new ++ new', by rw [hcalls', hcalls, List.append_assoc], ?_⟩
  rw [commands, List.filterMap_append, ← commands, ← commands, hcs, hcs']

/-- A command whose exception is caught, if it raises. -/
theorem Runs.system (command : Str) : Runs (tryCatch (Iprotate.system command) fun _ => pure ()) [command] := by
  intro w
  rw [Prog.run_tryCatch]
  by_cases hnul : '\x00' ∈ command
  · rw [Iprotate.system, if_pos hnul]
    exact ⟨rfl, [(.system command, true)], rfl, rfl⟩
  rw [Iprotate.system, if_neg hnul]
  cases hs : w.script with
  | nil =>
    have hcall : call (.system command) w = (.ok [], { w with calls := w.calls ++ [(.system command, false)] }) := by
      simp [call, hs]
    rw [Prog.run_bind_ok hcall]
    exact ⟨rfl, [(.system command, false)], rfl, rfl⟩
  | cons a script =>
    cases a with
    | ok text =>
      have hcall : call (.system command) w =
          (.ok text, { w with script, calls := w.calls ++ [(.system command, false)] }) := by simp [call, hs]
      rw [Prog.run_bind_ok hcall]
      exact ⟨rfl, [(.system command, false)], rfl, rfl⟩
    | raises message =>
      have hcall : call (.system command) w =
          (.error (.external message), { w with script, calls := w.calls ++ [(.system command, true)] }) := by
        simp [call, hs]
      rw [Prog.run_bind_error hcall]
      exact ⟨rfl, [(.system command, true)], rfl, rfl⟩

/-- The entries of a whitelist that `ip_network` accepts, stripped. -/
def acceptedEntries (whitelist : Str) : List Str :=
  ((whitelist.splitOn ',').map strip).filter fun ip => (ipNetwork ip).isSome

/-- The last command of `apply_whitelist`. -/
def lastCommand (fw : Firewall) : Str := if fw.whitelist.isSome then fw.rejectCommand else fw.allowAllCommand

variable {fw : Firewall}

theorem runs_applyEntry (fw : Firewall) (ip : Str) :
    Runs (fw.applyEntry ip) (([strip ip].filter fun ip => (ipNetwork ip).isSome).map fw.allowCommand) := by
  unfold applyEntry
  dsimp only
  split
  · rename_i h
    have hf : ([strip ip].filter fun ip => (ipNetwork ip).isSome) = [strip ip] := by simp [h]
    rw [hf]
    exact .system _
  · rename_i h
    have hf : ([strip ip].filter fun ip => (ipNetwork ip).isSome) = [] := by simp [h]
    rw [hf]
    exact .nil

theorem runs_each (fw : Firewall) : ∀ entries : List Str, Runs (Prog.each fw.applyEntry entries)
    (((entries.map strip).filter fun ip => (ipNetwork ip).isSome).map fw.allowCommand)
  | [] => .nil
  | ip :: entries => by
    have h := (runs_applyEntry fw ip).bind (runs_each fw entries)
    rw [← List.map_append, ← List.filter_append] at h
    exact h

/-- **The commands of a whole `apply_whitelist`**, whatever raises. -/
theorem commands_applyWhitelist (aws : AwsConfig) (order : Int) (w : World) :
    newCommands (ofConfig aws order).applyWhitelist w =
      (acceptedEntries aws.whitelist).map (ofConfig aws order).allowCommand ++ [(ofConfig aws order).lastCommand] := by
  apply Runs.newCommands
  by_cases hv : aws.whitelist = []
  · have hw : (ofConfig aws order).whitelist = none := by simp [ofConfig, hv]
    have hnone : acceptedEntries aws.whitelist = [] := by rw [hv]; decide
    rw [hnone]
    simp only [applyWhitelist, lastCommand, hw]
    exact .system _
  · have hw : (ofConfig aws order).whitelist = some (aws.whitelist.splitOn ',') := by simp [ofConfig, hv]
    simp only [applyWhitelist, lastCommand, hw]
    exact (runs_each _ _).bind (.system _)

/-! ## How the shell reads a command -/

/-- No white space and no special character of the shell. -/
def Clean (s : Str) : Prop := ∀ c ∈ s, isSpace c = false ∧ isMeta c = false

instance (s : Str) : Decidable (Clean s) := inferInstanceAs (Decidable (∀ c ∈ s, _))

/-- The command is one `ufw allow from <ip> to any app <app>` with its output redirected, the entry one word of it. -/
def Invocation (fw : Firewall) (ip command : Str) : Prop :=
  Shell.simple command = some
    ⟨[literal "ufw", literal "allow", literal "from", literal ip, literal "to", literal "any", literal "app",
        literal fw.appName],
      [⟨none, ">", literal "/dev/null"⟩, ⟨some "2", ">&", literal "1"⟩]⟩ ∧ Clean ip

instance (fw : Firewall) (ip command : Str) : Decidable (fw.Invocation ip command) :=
  inferInstanceAs (Decidable (_ ∧ _))

theorem clean_of_isAddressChar {c : Char} (h : isAddressChar c = true) : isSpace c = false ∧ isMeta c = false := by
  constructor
  · have hrange : 37 ≤ c.toNat ∧ c.toNat ≤ 102 := by
      simp only [isAddressChar, isHexDigit, Char.isDigit, Bool.or_eq_true, Bool.and_eq_true, decide_eq_true_eq,
        ge_iff_le, UInt32.le_iff_toNat_le, Char.le_def] at h
      have hn : c.val.toNat = c.toNat := rfl
      have h0 : '0'.val.toNat = 48 ∧ '9'.val.toNat = 57 ∧ 'a'.val.toNat = 97 ∧ 'f'.val.toNat = 102 ∧
        'A'.val.toNat = 65 ∧ 'F'.val.toNat = 70 := by decide
      have h1 : '.'.toNat = 46 ∧ ':'.toNat = 58 ∧ '/'.toNat = 47 ∧ '%'.toNat = 37 := by decide
      rw [hn] at h
      rcases h with (((((h | h) | h) | rfl) | rfl) | rfl) | rfl <;> omega
    simp [isSpace]
    omega
  · have hall : ∀ m ∈ metaChars, isAddressChar m = false := by decide
    by_contra hm
    rw [hall c (mem_metaChars (by simpa using hm))] at h
    cases h

theorem mem_showInt {n : Int} {c : Char} (hc : c ∈ showInt n) : c.isDigit = true ∨ c = '-' := by
  rw [showInt, Int.toString_eq_repr] at hc
  cases n with
  | ofNat m =>
    rw [Int.repr, Nat.toList_repr] at hc
    exact .inl (Nat.isDigit_of_mem_toDigits (by omega) (by omega) hc)
  | negSucc m =>
    rw [Int.repr, String.toList_append, Nat.toList_repr] at hc
    rcases List.mem_append.1 hc with hc | hc
    · exact .inr (by simpa using hc)
    · exact .inl (Nat.isDigit_of_mem_toDigits (by omega) (by omega) hc)

theorem isMeta_showInt (n : Int) : ∀ c ∈ showInt n, isMeta c = false := by
  have hall : ∀ m ∈ metaChars, m.isDigit = false ∧ m ≠ '-' := by decide
  intro c hc
  by_contra hm
  obtain ⟨hd, hminus⟩ := hall c (mem_metaChars (by simpa using hm))
  rcases mem_showInt hc with h | h
  · rw [hd] at h; cases h
  · exact hminus h

theorem isMeta_appNameOf (order : Int) : ∀ c ∈ appNameOf order, isMeta c = false := by
  intro c hc
  rcases List.mem_append.1 hc with hc | hc
  · have hall : ∀ d ∈ "iprotate_".toList, isMeta d = false := by decide
    exact hall c hc
  · exact isMeta_showInt order c hc

/-- A word that stands for itself wherever it is put. -/
def Plain (s : Str) : Prop := s ≠ [] ∧ ∀ c ∈ s, isMeta c = false

/-- A command of `apply_whitelist` on a source. -/
def ufwCommand (verb ip app : Str) : Str :=
  "ufw ".toList ++ verb ++ " from ".toList ++ ip ++ " to any app ".toList ++ app ++ " > /dev/null 2>&1".toList

/-- How the shell reads a command of plain words. -/
theorem simple_ufwCommand {verb ip app : Str} (hverb : Plain verb) (hip : Plain ip) (happ : Plain app) :
    Shell.simple (ufwCommand verb ip app) = some
      ⟨[literal "ufw", literal verb, literal "from", literal ip, literal "to", literal "any",
      literal "app", literal app], [⟨none, ">", literal "/dev/null"⟩, ⟨some "2", ">&", literal "1"⟩]⟩ := by
  have htokens : tokens (ufwCommand verb ip app) = some ([literal "ufw", literal verb, literal "from", literal ip,
      literal "to", literal "any", literal "app", literal app].map .word ++
      [.op ">", .word (literal "/dev/null"), .ioNumber "2", .op ">&", .word (literal "1")]) := by
    have hcmd : ufwCommand verb ip app = "ufw ".toList ++ (verb ++ (" from ".toList ++ (ip ++
        (" to any app ".toList ++ (app ++ " > /dev/null 2>&1".toList))))) := by
      unfold ufwCommand
      simp only [List.append_assoc]
    have h₁ : Reader.start.read "ufw ".toList = ⟨[.word (literal "ufw")], .blank⟩ := by decide +kernel
    have h₂ : ∀ ts w, Reader.read ⟨ts, .word w⟩ " from ".toList =
        ⟨ts ++ [.word w] ++ [.word (literal "from")], .blank⟩ := fun _ _ => rfl
    have h₃ : ∀ ts w, Reader.read ⟨ts, .word w⟩ " to any app ".toList =
        ⟨ts ++ [.word w] ++ [.word (literal "to")] ++ [.word (literal "any")] ++ [.word (literal "app")], .blank⟩ :=
      fun _ _ => rfl
    have h₄ : ∀ ts w, Reader.read ⟨ts, .word w⟩ " > /dev/null 2>&1".toList =
        ⟨ts ++ [.word w] ++ [.op ">"] ++ [.word (literal "/dev/null")] ++ [.ioNumber "2"] ++ [.op ">&"],
          .word (literal "1")⟩ := fun _ _ => rfl
    rw [tokens, hcmd, Reader.read_append, h₁, Reader.read_append, read_plain hverb.1 hverb.2, Reader.read_append, h₂,
      Reader.read_append, read_plain hip.1 hip.2, Reader.read_append, h₃, Reader.read_append,
      read_plain happ.1 happ.2, h₄]
    simp [Reader.finish]
  rw [Shell.simple, htokens]
  rfl

theorem allowCommand_eq (fw : Firewall) (ip : Str) : fw.allowCommand ip = ufwCommand "allow" ip fw.appName := by
  have hufw : ("ufw allow from " : Str) = "ufw ".toList ++ "allow".toList ++ " from ".toList := by decide +kernel
  show "ufw allow from ".toList ++ ip ++ " to any app ".toList ++ fw.appName ++ " > /dev/null 2>&1".toList =
    "ufw ".toList ++ "allow".toList ++ " from ".toList ++ ip ++ " to any app ".toList ++ fw.appName ++
      " > /dev/null 2>&1".toList
  rw [hufw]

theorem plain_allow : Plain "allow" := ⟨by decide, by decide⟩

/-- **A clean entry is one word of one command.** -/
theorem invocation_of_clean {ip : Str} (hne : ip ≠ []) (hip : Clean ip) (happ : Plain fw.appName) :
    fw.Invocation ip (fw.allowCommand ip) := by
  refine ⟨?_, hip⟩
  rw [allowCommand_eq]
  exact simple_ufwCommand plain_allow ⟨hne, fun c hc => (hip c hc).2⟩ happ

theorem plain_appNameOf (order : Int) : Plain (appNameOf order) := by
  have hne : ("iprotate_" : Str) ≠ [] := by decide
  exact ⟨List.append_ne_nil_of_left_ne_nil hne _, isMeta_appNameOf order⟩

/-- An accepted entry with a clean scope id is clean as a whole. -/
theorem clean_of_accepted {ip : Str} (haccepted : (ipNetwork ip).isSome = true) (hscope : Clean (scopeOf ip)) :
    ip ≠ [] ∧ Clean ip := by
  constructor
  · rintro rfl
    rw [ipNetwork_nil] at haccepted
    cases haccepted
  · intro c hc
    rcases mem_of_ipNetwork haccepted hc with h | h
    · exact clean_of_isAddressChar h
    · exact hscope c h

/-- Every command that `apply_whitelist` runs for an accepted entry is one invocation of ufw, the entry one word. -/
def EntriesAreWords (aws : AwsConfig) (order : Int) (w : World) : Prop :=
  ∃ passed, newCommands (ofConfig aws order).applyWhitelist w = passed ++ [(ofConfig aws order).lastCommand] ∧
    List.Forall₂ (ofConfig aws order).Invocation (acceptedEntries aws.whitelist) passed

/-- **Entries are words iff their scope ids are clean.** -/
theorem entries_are_words_iff (aws : AwsConfig) (order : Int) (w : World) :
    EntriesAreWords aws order w ↔ ∀ ip ∈ acceptedEntries aws.whitelist, Clean (scopeOf ip) := by
  have hcmds := commands_applyWhitelist aws order w
  have hscope : ∀ ip : Str, ∀ c ∈ scopeOf ip, c ∈ ip := fun ip c hc =>
    (List.dropWhile_suffix _).subset (List.mem_of_mem_drop ((List.takeWhile_prefix _).subset hc))
  constructor
  · rintro ⟨passed, hpassed, hall⟩ ip hip
    have hmem := List.Forall₂.imp (fun _ _ h => And.right h) hall
    obtain ⟨i, hi, rfl⟩ := List.getElem_of_mem hip
    have hclean := hmem.get hi (by rw [← hmem.length_eq]; exact hi)
    exact fun c hc => hclean c (hscope _ c hc)
  · intro hclean
    refine ⟨_, hcmds, ?_⟩
    rw [List.forall₂_map_right_iff, List.forall₂_same]
    intro ip hip
    have haccepted : (ipNetwork ip).isSome = true := (List.mem_filter.1 hip).2
    obtain ⟨hne, hip⟩ := clean_of_accepted haccepted (hclean ip hip)
    exact invocation_of_clean hne hip (plain_appNameOf order)

/-- A profile whose whitelist is stored as given. -/
def exampleAws (whitelist : Str) : AwsConfig :=
  { configName := "aws1", order := "1", accessKey := "AKIA", secretKey := "s", instanceId := "", region := "us-east-1",
    apikey := "", whitelist, user := "", pass := "" }

/-- An accepted entry can end the ufw command and begin another one. -/
theorem scope_id_runs_command : ¬∀ (aws : AwsConfig) (order : Int) (w : World), EntriesAreWords aws order w := by
  intro h
  obtain ⟨passed, _, hall⟩ := h (exampleAws "::1%;reboot") 1 (.start [] ⟨[], 0⟩)
  have haccepted : acceptedEntries (exampleAws "::1%;reboot").whitelist = ["::1%;reboot".toList] := by decide +kernel
  rw [haccepted] at hall
  cases hall with
  | cons hentry _ => exact absurd hentry.2 (by decide +kernel)

end Firewall
end Iprotate
