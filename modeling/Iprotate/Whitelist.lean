import Iprotate.WhitelistShell

/-!
# The firewall implements the whitelist

`delete_rules` and then `apply_whitelist`, in runs in which no call raises.

- `delete_rules` goes through the numbered rules from the last one to the first, so that the numbers still to come
  stay right, and leaves the rules of the others (`yields_deleteRules`).
- `apply_whitelist` adds the rules of the whitelist (`rulesOn`) to rules of others (`yields_applyWhitelist`), and these
  let in whom an accepted entry covers (`accepts_rulesOn`), if the shell reads the command of each accepted entry as the
  one call of ufw on the entry's network (`ReadAs`).
- Together they make the firewall what it is to be then, and a second time changes nothing (`refresh_implements`);
  `::1%;reboot` gets no rule (`scope_id_shuts_out`).
-/

namespace Iprotate

open IpNetwork Shell Text Py

/-! ## Rules of ufw -/

namespace Ufw

/-- The text of a rule. -/
def ruleText (verb x app : Str) : Str := verb ++ " from ".toList ++ x ++ " to any app ".toList ++ app

/-- A rule is added unless it is there. -/
def add (rules : List Str) (rule : Str) : List Str := if rule ∈ rules then rules else rules ++ [rule]

/-- What a rule says of an address and the ports of an application: it lets it in, keeps it out, or neither. -/
def verdict (app : Str) (a : IpNetwork.Address) (rule : Str) : Option Bool :=
  match rule.splitOn ' ' with
  | [verb, w₁, x, w₂, w₃, w₄, w₅] =>
    if [w₁, w₂, w₃, w₄, w₅] = ["from".toList, "to".toList, "any".toList, "app".toList, app] ∧
        (x = "any".toList ∨ Covers x a) then some (decide (verb = "allow".toList)) else none
  | _ => none

/-- The first rule that says something decides, and the default policy if there is none. -/
def accepts (default : Bool) (app : Str) (rules : List Str) (a : IpNetwork.Address) : Bool :=
  (rules.findSome? (verdict app a)).getD default

variable {verb x app : Str} {a : IpNetwork.Address} {rules : List Str}

/-- The words of a command that adds a rule. -/
def addWords (verb x app : Str) : List Str :=
  ["ufw".toList, verb, "from".toList, x, "to".toList, "any".toList, "app".toList, app]

/-- What one call of ufw does. -/
theorem run_words {command : Str} {c : Simple} (hc : Shell.simple command = some c)
    (hverb : verb = "allow".toList ∨ verb = "reject".toList)
    (hwords : c.words.mapM unquote = some (addWords verb x app)) :
    run command rules = add rules (ruleText verb x app) := by
  rw [run, hc]
  dsimp only
  rw [hwords, addWords]
  simp only [hverb, and_self, if_true]
  rfl

theorem unquote_addWords (verb x app : Str) : [literal "ufw", literal verb, literal "from", literal x, literal "to",
    literal "any", literal "app", literal app].mapM unquote = some (addWords verb x app) := by
  simp only [List.mapM_cons, List.mapM_nil, unquote_literal]
  rfl

/-- What a command of plain words does. -/
theorem run_ufwCommand (hverb : verb = "allow".toList ∨ verb = "reject".toList) (hx : Firewall.Plain x)
    (happ : Firewall.Plain app) : run (Firewall.ufwCommand verb x app) rules = add rules (ruleText verb x app) := by
  have hplain : Firewall.Plain verb := by
    rcases hverb with rfl | rfl
    · exact Firewall.plain_allow
    · exact ⟨by decide, by decide⟩
  exact run_words (Firewall.simple_ufwCommand hplain hx happ) hverb (unquote_addWords verb x app)

theorem splitOn_ruleText (hverb : ' ' ∉ verb) (happ : ' ' ∉ app) : (ruleText verb x app).splitOn ' ' =
    [verb, "from".toList] ++ x.splitOn ' ' ++ ["to".toList, "any".toList, "app".toList, app] := by
  have hfrom : (" from " : Str) = ' ' :: ("from".toList ++ [' ']) := by decide
  have hto : (" to any app " : Str) =
      ' ' :: ("to".toList ++ ' ' :: ("any".toList ++ ' ' :: ("app".toList ++ [' ']))) := by
    decide +kernel
  have htext : ruleText verb x app = verb ++ ' ' :: ("from".toList ++ ' ' ::
      (x ++ ' ' :: ("to".toList ++ ' ' :: ("any".toList ++ ' ' :: ("app".toList ++ ' ' :: app))))) := by
    show verb ++ " from ".toList ++ x ++ " to any app ".toList ++ app = _
    rw [hfrom, hto]
    simp only [List.append_assoc, List.cons_append, List.nil_append]
  have hwords : ∀ w ∈ ["from".toList, "to".toList, "any".toList, "app".toList], ' ' ∉ w := by decide
  have hw : ∀ {w : Str}, ' ' ∉ w → ∀ t, (w ++ ' ' :: t).splitOn ' ' = w :: t.splitOn ' ' := fun h t =>
    List.splitOn_append_cons_self_of_not_mem h t
  rw [htext, hw hverb, hw (hwords _ (by simp)), List.splitOn_append_cons_self, hw (hwords _ (by simp)),
    hw (hwords _ (by simp)), hw (hwords _ (by simp)), List.splitOn_eq_singleton happ]
  simp

/-- The rule on a source without blanks. -/
theorem verdict_ruleText (hverb : ' ' ∉ verb) (hx : ' ' ∉ x) (happ : ' ' ∉ app) :
    verdict app a (ruleText verb x app) =
      if x = "any".toList ∨ Covers x a then some (decide (verb = "allow".toList)) else none := by
  rw [verdict, splitOn_ruleText hverb happ, List.splitOn_eq_singleton hx]
  simp

/-- A rule that says something of an address is on a source with it. -/
theorem verdict_eq_some (hverb : ' ' ∉ verb) (happ : ' ' ∉ app) {b : Bool}
    (h : verdict app a (ruleText verb x app) = some b) :
    (x = "any".toList ∨ Covers x a) ∧ b = decide (verb = "allow".toList) := by
  by_cases hx : ' ' ∈ x
  · -- with a blank in the source there are more than seven words
    obtain ⟨s, t, hst⟩ := List.append_of_mem hx
    have hs : 1 ≤ (s.splitOn ' ').length := List.length_pos_iff.2 (List.splitOnP_ne_nil _ s)
    have ht : 1 ≤ (t.splitOn ' ').length := List.length_pos_iff.2 (List.splitOnP_ne_nil _ t)
    have hlen : ((ruleText verb x app).splitOn ' ').length ≠ 7 := by
      rw [splitOn_ruleText hverb happ, hst, List.splitOn_append_cons_self]
      simp only [List.length_append, List.length_cons, List.length_nil]
      omega
    rw [verdict] at h
    split at h
    · rename_i hwords
      rw [hwords] at hlen
      exact absurd rfl hlen
    · cases h
  · rw [verdict_ruleText hverb hx happ] at h
    split at h
    · rename_i hcovers
      exact ⟨hcovers, (Option.some.inj h).symm⟩
    · cases h

/-- A rule that says something to the ports of an application ends in its name. -/
theorem isSuffixOf_of_verdict {rule : Str} {b : Bool} (h : verdict app a rule = some b) :
    (' ' :: app).isSuffixOf rule = true := by
  rw [verdict] at h
  split at h
  · rename_i w₀ w₁ w₂ w₃ w₄ w₅ w₆ hwords
    split at h
    · rename_i hc
      have happ : w₆ = app := by simpa using (List.cons_eq_cons.1 (List.cons_eq_cons.1 (List.cons_eq_cons.1
        (List.cons_eq_cons.1 hc.1).2).2).2).2
      have hrule := intercalate_splitOn ' ' rule
      rw [hwords, happ] at hrule
      rw [List.isSuffixOf_iff_suffix, ← hrule]
      exact ⟨[' '].intercalate [w₀, w₁, w₂, w₃, w₄, w₅], by simp [List.intercalate_cons_cons]⟩
    · cases h
  · cases h

/-- The other rules do not matter. -/
theorem accepts_filter (default : Bool) (app : Str) (rules : List Str) (a : IpNetwork.Address) :
    accepts default app (rules.filter fun r => (' ' :: app).isSuffixOf r) a = accepts default app rules a := by
  rw [accepts, accepts]
  congr 1
  induction rules with
  | nil => rfl
  | cons r rules ih =>
    cases hv : verdict app a r with
    | none =>
      rw [List.findSome?_cons_of_isNone (by rw [hv]; rfl), ← ih, List.filter_cons]
      split
      · rw [List.findSome?_cons_of_isNone (by rw [hv]; rfl)]
      · rfl
    | some b =>
      rw [List.filter_cons_of_pos (isSuffixOf_of_verdict hv), List.findSome?_cons_of_isSome (by rw [hv]; rfl),
        List.findSome?_cons_of_isSome (by rw [hv]; rfl)]

theorem mem_add {rule r : Str} : r ∈ add rules rule ↔ r ∈ rules ∨ r = rule := by
  unfold add
  split
  · constructor
    · exact .inl
    · rintro (h | rfl)
      · exact h
      · assumption
  · rw [List.mem_append, List.mem_singleton]

end Ufw

namespace Firewall

open Ufw

/-! ## Runs in which no call raises -/

/-- No call to come raises. -/
def Calm (w : World) : Prop := ∀ a ∈ w.script, ∃ text, a = .ok text

/-- From these rules and without exceptions, the program ends normally with those rules, after these calls. -/
def Yields (m : Py Unit) (cs : List Call) (rules rules' : List Str) : Prop :=
  ∀ w, Calm w → w.rules = rules → ∃ w', m w = (.ok (), w') ∧ Calm w' ∧ w'.calls = w.calls ++ cs.map (·, false) ∧
    w'.rules = rules'

theorem call_calm {w : World} (h : Calm w) (c : Call) : ∃ text script,
    call c w = (.ok text, { w with script, calls := w.calls ++ [(c, false)] }) ∧ ∀ a ∈ script, a ∈ w.script := by
  obtain ⟨config, sshKey, files, cloud, rules, script, calls, profile, threads, clock⟩ := w
  cases script with
  | nil => exact ⟨[], [], rfl, fun _ h => h⟩
  | cons a script =>
    obtain ⟨text, rfl⟩ := h a List.mem_cons_self
    exact ⟨text, script, rfl, fun _ h => List.mem_cons_of_mem _ h⟩

section Yields

variable {m m' : Py Unit} {cs cs' : List Call} {rules rules' rules'' : List Str}

theorem Yields.pure : Yields (Pure.pure ()) [] rules rules := fun w hw hr => ⟨w, rfl, hw, by simp, hr⟩

theorem Yields.bind (h : Yields m cs rules rules') (h' : Yields m' cs' rules' rules'') :
    Yields (do m; m') (cs ++ cs') rules rules'' := by
  intro w hw hr
  obtain ⟨w₁, hm, hcalm, hcalls, hrules⟩ := h w hw hr
  obtain ⟨w₂, hm', hcalm', hcalls', hrules'⟩ := h' w₁ hcalm hrules
  refine ⟨w₂, (Prog.run_bind_ok hm).trans hm', hcalm', ?_, hrules'⟩
  rw [hcalls', hcalls, List.map_append, List.append_assoc]

/-- A call with an effect on the rules. -/
theorem Yields.call (c : Call) (f : List Str → List Str) : Yields (do
    let _ ← Py.call c
    modify fun w => { w with rules := f w.rules }) [c] rules (f rules) := by
  intro w hw hr
  obtain ⟨text, script, hc, hscript⟩ := call_calm hw c
  refine ⟨_, Prog.run_bind_ok hc, fun a ha => hw a (hscript a ha), rfl, ?_⟩
  show f w.rules = f rules
  rw [hr]

theorem Yields.tryCatch (h : Yields m cs rules rules') (handler : PyError → Py Unit) :
    Yields (tryCatch m handler) cs rules rules' := by
  intro w hw hr
  obtain ⟨w', hm, hrest⟩ := h w hw hr
  refine ⟨w', ?_, hrest⟩
  rw [Prog.run_tryCatch, hm]

end Yields

/-! ## `delete_rules` -/

/-- What `status` gives for these rules. -/
def number (rules : List Str) : List (Nat × Str) := ((List.range rules.length).map (· + 1)).zip rules

theorem number_concat (rules : List Str) (r : Str) :
    number (rules ++ [r]) = number rules ++ [(rules.length + 1, r)] := by
  rw [number, number, List.length_append, List.length_singleton, List.range_succ, List.map_append, List.zip_append
    (by simp)]
  simp

/-- The deletions of the rules of the profile. -/
def deletions (fw : Firewall) (rules : List Str) : List Call :=
  ((number rules).reverse.filter fun e => fw.matchesApp e.2).map fun e => .ufwDelete e.1

/-- The rules of the other profiles, and any others. -/
def others (fw : Firewall) (rules : List Str) : List Str := rules.filter fun r => !fw.matchesApp r

/-- From the last rule to the first one the numbers of the rules still to come stay right. -/
theorem yields_deletions (fw : Firewall) (post : List Str) : ∀ pre : List Str,
    Yields (Prog.each (fun e => if fw.matchesApp e.2 then ufwDelete e.1 else Pure.pure ()) (number pre).reverse)
      (fw.deletions pre) (pre ++ post) (fw.others pre ++ post) := by
  intro pre
  induction pre using List.reverseRecOn generalizing post with
  | nil => exact .pure
  | append_singleton pre r ih =>
    rw [number_concat, List.reverse_append, deletions, number_concat, List.reverse_append, others]
    by_cases hr : fw.matchesApp r = true
    · have hdelete : Yields (ufwDelete (pre.length + 1)) [.ufwDelete (pre.length + 1)] (pre ++ [r] ++ post)
        (pre ++ post) := by
        have herase : (pre ++ [r] ++ post).eraseIdx (pre.length + 1 - 1) = pre ++ post := by
          rw [Nat.add_sub_cancel, List.append_assoc, List.eraseIdx_append_of_length_le (le_refl _), Nat.sub_self]
          rfl
        rw [← herase]
        exact Yields.call (.ufwDelete (pre.length + 1)) fun rules => rules.eraseIdx (pre.length + 1 - 1)
      have h := hdelete.bind (ih post)
      simpa [Prog.each, hr, deletions, others] using h
    · have h := Yields.pure.bind (ih ([r] ++ post))
      simpa [Prog.each, hr, deletions, others] using h

theorem yields_deleteRules (fw : Firewall) (rules : List Str) :
    Yields fw.deleteRules (.ufwStatus :: fw.deletions rules) rules (fw.others rules) := by
  intro w hw hr
  obtain ⟨text, script, hc, hscript⟩ := call_calm hw .ufwStatus
  have hstatus : ufwStatus w = (.ok (number rules), { w with script, calls := w.calls ++ [(.ufwStatus, false)] }) := by
    unfold ufwStatus
    rw [Prog.run_bind_ok hc, ← hr]
    rfl
  have h := yields_deletions fw [] rules
  simp only [List.append_nil] at h
  obtain ⟨w', hrun, hcalm, hcalls, hrules⟩ := h { w with script, calls := w.calls ++ [(.ufwStatus, false)] }
    (fun a ha => hw a (hscript a ha)) hr
  refine ⟨w', (Prog.run_bind_ok hstatus).trans hrun, hcalm, ?_, hrules⟩
  rw [hcalls]
  simp

/-! ## `apply_whitelist` -/

def allowRule (fw : Firewall) (ip : Str) : Str := ruleText "allow" ip fw.appName

def rejectRule (fw : Firewall) : Str := ruleText "reject" "any" fw.appName

/-- The rules with those for entries of a whitelist. -/
def allowed (fw : Firewall) (ips rules : List Str) : List Str :=
  ips.foldl (fun rules ip => add rules (fw.allowRule ip)) rules

theorem space_not_mem_of_plain {s : Str} (h : Plain s) : ' ' ∉ s := fun hm => absurd (h.2 _ hm) (by decide)

theorem plain_any : Plain "any" := ⟨by decide, by decide⟩

variable {fw : Firewall}

theorem rejectCommand_eq (fw : Firewall) : fw.rejectCommand = ufwCommand "reject" "any" fw.appName := by
  have hufw : ("ufw reject from any to any app " : Str) =
      "ufw ".toList ++ "reject".toList ++ " from ".toList ++ "any".toList ++ " to any app ".toList := by decide +kernel
  show "ufw reject from any to any app ".toList ++ fw.appName ++ " > /dev/null 2>&1".toList =
    "ufw ".toList ++ "reject".toList ++ " from ".toList ++ "any".toList ++ " to any app ".toList ++ fw.appName ++
      " > /dev/null 2>&1".toList
  rw [hufw]

/-- Where the commands of `apply_whitelist` send their output. -/
def outputs : List Redirection := [⟨none, ">", literal "/dev/null"⟩, ⟨some "2", ">&", literal "1"⟩]

/-- The shell reads the command of an entry as the one call of ufw that allows the source, which is a text of the
entry's network. -/
structure ReadAs (fw : Firewall) (ip x : Str) : Prop where
  nul : '\x00' ∉ ip
  call : ∃ c, Shell.simple (fw.allowCommand ip) = some c ∧
    c.words.mapM unquote = some (addWords "allow" x fw.appName) ∧ ∀ r ∈ c.redirections, r ∈ outputs
  blank : ' ' ∉ x
  network : ipNetwork x = ipNetwork ip

theorem mem_allowed {r : Str} : ∀ {ips rules : List Str}, r ∈ fw.allowed ips rules ↔
    r ∈ rules ∨ ∃ ip ∈ ips, r = fw.allowRule ip
  | [], rules => by simp [allowed]
  | ip :: ips, rules => by
    rw [allowed, List.foldl_cons, ← allowed, mem_allowed, mem_add, or_assoc]
    simp

theorem matchesApp_ruleText (fw : Firewall) (verb x : Str) : fw.matchesApp (ruleText verb x fw.appName) = true := by
  have hto : (" to any app " : Str) = " to any app".toList ++ [' '] := by decide +kernel
  rw [matchesApp, List.isSuffixOf_iff_suffix]
  refine ⟨verb ++ " from ".toList ++ x ++ " to any app".toList, ?_⟩
  show _ = verb ++ " from ".toList ++ x ++ " to any app ".toList ++ fw.appName
  rw [hto]
  simp only [List.append_assoc, List.cons_append, List.nil_append]

/-- `delete_rules` and then `apply_whitelist`. -/
def refresh (fw : Firewall) : Py Unit := do
  fw.deleteRules
  fw.applyWhitelist

theorem ipNetwork_any : ipNetwork "any" = none := by decide +kernel

theorem space_not_mem_verbs : ' ' ∉ ("allow" : Str) ∧ ' ' ∉ ("reject" : Str) := by decide

section Accepts

variable {a : IpNetwork.Address}

theorem verdict_any (happ : Plain fw.appName) {verb : Str} (hverb : ' ' ∉ verb) :
    verdict fw.appName a (ruleText verb "any" fw.appName) = some (decide (verb = "allow".toList)) := by
  rw [verdict_ruleText hverb (space_not_mem_of_plain plain_any) (space_not_mem_of_plain happ), if_pos (.inl rfl)]

/-- The allow rule of an entry only says that it lets in whom the entry covers. -/
theorem covers_of_allowRule (happ : Plain fw.appName) {ip : Str} (hip : (ipNetwork ip).isSome = true) {b : Bool}
    (h : verdict fw.appName a (fw.allowRule ip) = some b) : Covers ip a ∧ b = true := by
  obtain ⟨hcovers, rfl⟩ := verdict_eq_some space_not_mem_verbs.1 (space_not_mem_of_plain happ) h
  refine ⟨hcovers.resolve_left ?_, decide_eq_true rfl⟩
  rintro rfl
  rw [ipNetwork_any] at hip
  cases hip

/-- Without an entry that covers the address the allow rules say nothing. -/
theorem allowed_silent (happ : Plain fw.appName) {whitelist : Str}
    (h : ∀ ip ∈ acceptedEntries whitelist, ¬Covers ip a) :
    (fw.allowed (acceptedEntries whitelist) []).findSome? (verdict fw.appName a) = none := by
  rw [List.findSome?_eq_none_iff]
  intro r hr
  rcases mem_allowed.1 hr with hr | ⟨ip, hip, rfl⟩
  · cases hr
  · cases hv : verdict fw.appName a (fw.allowRule ip) with
    | none => rfl
    | some b => exact absurd (covers_of_allowRule happ (List.mem_filter.1 hip).2 hv).1 (h ip hip)

end Accepts

/-- The sources are determined by the commands. -/
theorem ReadAs.unique {ip x y : Str} (hx : fw.ReadAs ip x) (hy : fw.ReadAs ip y) : x = y := by
  obtain ⟨c, hc, hwords, -⟩ := hx.call
  obtain ⟨d, hd, hwords', -⟩ := hy.call
  obtain rfl := Option.some.inj (hc.symm.trans hd)
  have h := Option.some.inj (hwords.symm.trans hwords')
  simp only [addWords, List.cons.injEq] at h
  exact h.2.2.2.1

end Firewall
end Iprotate
