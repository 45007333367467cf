import Iprotate.Whitelist

/-!
# What the firewall lets through while a whitelist is changed

The states of the firewall in a run of `delete_rules` and `apply_whitelist`, one for each number of calls made so far.

- The log of a run accounts for the rules it leaves (`logs_refresh`), so that a prefix of the log gives the rules at
  that moment (`rulesAfter`).
- At every moment of every run, whatever raises, an address that neither whitelist lists gets through exactly if the
  reject rule is not there (`outsider_accepted_iff`).
- The first deletion takes the reject rule, the last one of the profile's; an address that neither whitelist lists is
  then let in by the default policy. So the firewall never opens only if the two whitelists list all addresses
  (`never_opens_iff`).
-/

namespace Iprotate
namespace Firewall

open IpNetwork Ufw Text Py

/-! ## The states of a run -/

/-- What a call that goes well does to the rules. -/
def effect : Call → List Str → List Str
  | .system command, rules => Ufw.run command rules
  | .ufwDelete index, rules => rules.eraseIdx (index - 1)
  | _, rules => rules

/-- The rules after the calls of a log. -/
def replay (log : List (Call × Bool)) (rules : List Str) : List Str :=
  log.foldl (fun rules e => if e.2 then rules else effect e.1 rules) rules

/-- The rules when `m`, started in `w`, has made `n` calls. -/
def rulesAfter (m : Py Unit) (w : World) (n : Nat) : List Str :=
  replay (((m w).2.calls.drop w.calls.length).take n) w.rules

theorem replay_append (log log' : List (Call × Bool)) (rules : List Str) :
    replay (log ++ log') rules = replay log' (replay log rules) := List.foldl_append

/-- Every run logs calls with `P`, which account for the rules it leaves. -/
def Logs {α : Type} (P : Call → Prop) (m : Py α) : Prop :=
  ∀ w, ∃ log, (m w).2.calls = w.calls ++ log ∧ (∀ e ∈ log, P e.1) ∧ (m w).2.rules = replay log w.rules

section Logs

variable {α β : Type} {P : Call → Prop}

theorem Logs.pure (a : α) : Logs P (Pure.pure a) := fun w => ⟨[], by simp, by simp, rfl⟩

theorem Logs.bind {m : Py α} {f : α → Py β} (h : Logs P m) (h' : ∀ a, Logs P (f a)) : Logs P (m >>= f) := by
  intro w
  obtain ⟨log, hcalls, hall, hrules⟩ := h w
  rw [Prog.run_bind]
  cases hm : m w with
  | mk r w₁ =>
    rw [hm] at hcalls hrules
    cases r with
    | error e => exact ⟨log, hcalls, hall, hrules⟩
    | ok a =>
      obtain ⟨log', hcalls', hall', hrules'⟩ := h' a w₁
      refine ⟨log ++ log', ?_, fun e he => (List.mem_append.1 he).elim (hall e) (hall' e), ?_⟩
      · rw [hcalls', hcalls, List.append_assoc]
      · rw [hrules', hrules, replay_append]

theorem Logs.tryCatch {m : Py α} {handler : PyError → Py α} (h : Logs P m) (h' : ∀ e, Logs P (handler e)) :
    Logs P (tryCatch m handler) := by
  intro w
  obtain ⟨log, hcalls, hall, hrules⟩ := h w
  rw [Prog.run_tryCatch]
  cases hm : m w with
  | mk r w₁ =>
    rw [hm] at hcalls hrules
    cases r with
    | ok a => exact ⟨log, hcalls, hall, hrules⟩
    | error e =>
      obtain ⟨log', hcalls', hall', hrules'⟩ := h' e w₁
      refine ⟨log ++ log', ?_, fun e he => (List.mem_append.1 he).elim (hall e) (hall' e), ?_⟩
      · rw [hcalls', hcalls, List.append_assoc]
      · rw [hrules', hrules, replay_append]

/-- A call together with what it does to the rules. -/
theorem Logs.call {c : Call} (hc : P c) : Logs P (do
    let _ ← Py.call c
    modify fun w => { w with rules := effect c w.rules }) := by
  rintro ⟨config, sshKey, files, cloud, rules, script, calls, profile, threads, clock⟩
  have hall : ∀ b : Bool, ∀ e ∈ [(c, b)], P e.1 := fun b e he => by rwa [List.mem_singleton.1 he]
  cases script with
  | nil => exact ⟨[(c, false)], rfl, hall false, rfl⟩
  | cons a script =>
    cases a with
    | ok text => exact ⟨[(c, false)], rfl, hall false, rfl⟩
    | raises message => exact ⟨[(c, true)], rfl, hall true, rfl⟩

theorem Logs.each {f : α → Py Unit} : ∀ {as : List α}, (∀ a ∈ as, Logs P (f a)) → Logs P (Prog.each f as)
  | [], _ => .pure ()
  | a :: _, h => (h a List.mem_cons_self).bind fun _ => Logs.each fun b hb => h b (List.mem_cons_of_mem _ hb)

end Logs

/-- The calls of `delete_rules` and `apply_whitelist`. -/
def Relevant (aws : AwsConfig) (order : Int) (c : Call) : Prop :=
  c = .ufwStatus ∨ (∃ i, c = .ufwDelete i) ∨
    (∃ ip ∈ acceptedEntries aws.whitelist, c = .system ((ofConfig aws order).allowCommand ip)) ∨
    c = .system (ofConfig aws order).lastCommand

variable {aws : AwsConfig} {order : Int}

theorem logs_ufwStatus : Logs (Relevant aws order) ufwStatus := by
  rintro ⟨config, sshKey, files, cloud, rules, script, calls, profile, threads, clock⟩
  have hall : ∀ b : Bool, ∀ e ∈ [(Call.ufwStatus, b)], Relevant aws order e.1 := fun b e he => by
    rw [List.mem_singleton.1 he]
    exact .inl rfl
  cases script with
  | nil => exact ⟨[(.ufwStatus, false)], rfl, hall false, rfl⟩
  | cons a script =>
    cases a with
    | ok text => exact ⟨[(.ufwStatus, false)], rfl, hall false, rfl⟩
    | raises message => exact ⟨[(.ufwStatus, true)], rfl, hall true, rfl⟩

theorem Logs.refuse {P : Call → Prop} {c : Call} (hc : P c) (message : Str) : Logs P (Py.refuse c message) := fun _ =>
  ⟨[(c, true)], rfl, fun e he => by rwa [List.mem_singleton.1 he], rfl⟩

theorem logs_command {command : Str} (h : Relevant aws order (.system command)) :
    Logs (Relevant aws order) (tryCatch (system command) fun _ => pure ()) := by
  refine Logs.tryCatch ?_ fun _ => .pure ()
  unfold system
  split
  · exact .refuse h _
  · exact .call h

theorem logs_applyWhitelist (aws : AwsConfig) (order : Int) :
    Logs (Relevant aws order) (ofConfig aws order).applyWhitelist := by
  by_cases hv : aws.whitelist = []
  · have hw : (ofConfig aws order).whitelist = none := by simp [ofConfig, hv]
    have hlast : (ofConfig aws order).lastCommand = (ofConfig aws order).allowAllCommand := by simp [lastCommand, hw]
    simp only [applyWhitelist, hw]
    exact logs_command (.inr (.inr (.inr (by rw [hlast]))))
  · have hw : (ofConfig aws order).whitelist = some (aws.whitelist.splitOn ',') := by simp [ofConfig, hv]
    have hlast : (ofConfig aws order).lastCommand = (ofConfig aws order).rejectCommand := by simp [lastCommand, hw]
    simp only [applyWhitelist, hw]
    refine (Logs.each fun ip hip => ?_).bind fun _ => logs_command (.inr (.inr (.inr (by rw [hlast]))))
    unfold applyEntry
    dsimp only
    split
    · rename_i haccepted
      refine logs_command (.inr (.inr (.inl ⟨strip ip, ?_, rfl⟩)))
      exact List.mem_filter.2 ⟨List.mem_map_of_mem hip, haccepted⟩
    · exact .pure ()

/-- **The log of a run accounts for the rules it leaves.** -/
theorem logs_refresh (aws : AwsConfig) (order : Int) : Logs (Relevant aws order) (ofConfig aws order).refresh := by
  have hdelete : Logs (Relevant aws order) (ofConfig aws order).deleteRules := by
    refine logs_ufwStatus.bind fun rules => .each fun e _ => ?_
    split
    · exact .call (.inr (.inl ⟨_, rfl⟩))
    · exact .pure ()
  exact hdelete.bind fun _ => logs_applyWhitelist aws order

theorem rulesAfter_all (aws : AwsConfig) (order : Int) (w : World) : ∃ n,
    rulesAfter (ofConfig aws order).refresh w n = ((ofConfig aws order).refresh w).2.rules := by
  obtain ⟨log, hcalls, -, hrules⟩ := logs_refresh aws order w
  refine ⟨log.length, ?_⟩
  rw [rulesAfter, hcalls, List.drop_left, List.take_length, hrules]

/-! ## Outsiders -/

/-- The rules of a whitelist. -/
def rulesOf (fw : Firewall) (whitelist : Str) : List Str :=
  if whitelist = [] then [fw.allowRule "any"] else fw.allowed (acceptedEntries whitelist) [] ++ [fw.rejectRule]

/-- An accepted entry of the whitelist covers the address. -/
def Listed (whitelist : Str) (a : IpNetwork.Address) : Prop := ∃ ip ∈ acceptedEntries whitelist, Covers ip a

/-- The profile's own rules are allow rules for entries of the two whitelists, and the reject rule. -/
def OwnOf (fw : Firewall) (whitelist whitelist' : Str) (rules : List Str) : Prop :=
  ∀ r ∈ rules, fw.matchesApp r = true →
    r = fw.rejectRule ∨ ∃ ip, (ip ∈ acceptedEntries whitelist ∨ ip ∈ acceptedEntries whitelist') ∧ r = fw.allowRule ip

variable {fw : Firewall} {whitelist whitelist' : Str} {rules : List Str}

theorem OwnOf.add (h : OwnOf fw whitelist whitelist' rules) {rule : Str}
    (hrule : rule = fw.rejectRule ∨
      ∃ ip, (ip ∈ acceptedEntries whitelist ∨ ip ∈ acceptedEntries whitelist') ∧ rule = fw.allowRule ip) :
    OwnOf fw whitelist whitelist' (add rules rule) := by
  intro r hr happ
  rcases mem_add.1 hr with hr | rfl
  · exact h r hr happ
  · exact hrule

/-- What one call does to them. -/
theorem OwnOf.effect {c : Call} (h : OwnOf (ofConfig aws order) whitelist aws.whitelist rules)
    (hne : aws.whitelist ≠ []) (hclean : ∀ ip ∈ acceptedEntries aws.whitelist, Clean (scopeOf ip))
    (hc : Relevant aws order c) : OwnOf (ofConfig aws order) whitelist aws.whitelist (effect c rules) := by
  have happ : Plain (ofConfig aws order).appName := plain_appNameOf order
  rcases hc with rfl | ⟨i, rfl⟩ | ⟨ip, hip, rfl⟩ | rfl
  · exact h
  · exact fun r hr => h r ((List.eraseIdx_sublist ..).subset hr)
  · obtain ⟨hipne, hipclean⟩ := clean_of_accepted (List.mem_filter.1 hip).2 (hclean ip hip)
    have hrun : Ufw.run ((ofConfig aws order).allowCommand ip) rules =
        Ufw.add rules ((ofConfig aws order).allowRule ip) := by
      rw [allowCommand_eq]
      exact run_ufwCommand (.inl rfl) ⟨hipne, fun c hc => (hipclean c hc).2⟩ happ
    show OwnOf _ _ _ (Ufw.run _ rules)
    rw [hrun]
    exact h.add (.inr ⟨ip, .inr hip, rfl⟩)
  · have hw : (ofConfig aws order).whitelist = some (aws.whitelist.splitOn ',') := by simp [ofConfig, hne]
    have hlast : (ofConfig aws order).lastCommand = (ofConfig aws order).rejectCommand := by simp [lastCommand, hw]
    have hrun : Ufw.run (ofConfig aws order).rejectCommand rules = Ufw.add rules (ofConfig aws order).rejectRule := by
      rw [rejectCommand_eq]
      exact run_ufwCommand (.inr rfl) plain_any happ
    show OwnOf _ _ _ (Ufw.run (ofConfig aws order).lastCommand rules)
    rw [hlast, hrun]
    exact h.add (.inl rfl)

theorem OwnOf.replay (hne : aws.whitelist ≠ []) (hclean : ∀ ip ∈ acceptedEntries aws.whitelist, Clean (scopeOf ip)) :
    ∀ {log : List (Call × Bool)} {rules : List Str}, (∀ e ∈ log, Relevant aws order e.1) →
      OwnOf (ofConfig aws order) whitelist aws.whitelist rules →
      OwnOf (ofConfig aws order) whitelist aws.whitelist (replay log rules)
  | [], _, _, h => h
  | (c, raised) :: log, rules, hlog, h => by
    show OwnOf _ _ _ (Firewall.replay log (if raised then rules else Firewall.effect c rules))
    refine OwnOf.replay hne hclean (fun e he => hlog e (List.mem_cons_of_mem _ he)) ?_
    cases raised with
    | true => exact h
    | false => exact h.effect hne hclean (hlog _ List.mem_cons_self)

theorem ownOf_rulesOf (hne : whitelist ≠ []) (h : rules.filter fw.matchesApp = fw.rulesOf whitelist) :
    OwnOf fw whitelist whitelist' rules := by
  intro r hr happ
  have hmem : r ∈ fw.rulesOf whitelist := h ▸ List.mem_filter.2 ⟨hr, happ⟩
  rw [rulesOf, if_neg hne, List.mem_append, List.mem_singleton] at hmem
  rcases hmem with hmem | rfl
  · rcases mem_allowed.1 hmem with hmem | ⟨ip, hip, rfl⟩
    · cases hmem
    · exact .inr ⟨ip, .inl hip, rfl⟩
  · exact .inl rfl

/-- With the default policy that the program sets, only the reject rule keeps out an address that is not listed. -/
theorem accepts_outsider {a : IpNetwork.Address} (happ : Plain fw.appName) (h : OwnOf fw whitelist whitelist' rules)
    (hout : ¬Listed whitelist a ∧ ¬Listed whitelist' a) :
    accepts true fw.appName rules a = true ↔ fw.rejectRule ∉ rules := by
  have hreject : verdict fw.appName a fw.rejectRule = some false := verdict_any happ space_not_mem_verbs.2
  -- no allow rule says anything of the address
  have hverdict : ∀ r ∈ rules, ∀ b, verdict fw.appName a r = some b → r = fw.rejectRule := by
    intro r hr b hb
    rcases h r hr (isSuffixOf_of_verdict hb) with hr | ⟨ip, hip, rfl⟩
    · exact hr
    · rcases hip with hip | hip
      · exact absurd ⟨ip, hip, (covers_of_allowRule happ (List.mem_filter.1 hip).2 hb).1⟩ hout.1
      · exact absurd ⟨ip, hip, (covers_of_allowRule happ (List.mem_filter.1 hip).2 hb).1⟩ hout.2
  unfold accepts
  cases hf : rules.findSome? (verdict fw.appName a) with
  | none =>
    refine iff_of_true rfl fun hmem => ?_
    have hnone := List.findSome?_eq_none_iff.1 hf _ hmem
    rw [hreject] at hnone
    cases hnone
  | some b =>
    obtain ⟨r, hr, hrb⟩ := List.exists_of_findSome?_eq_some hf
    have heq := hverdict r hr b hrb
    rw [heq] at hr hrb
    rw [hreject] at hrb
    cases hrb
    exact iff_of_false (by simp) fun h => h hr

/-- **When an outsider gets through**: at every moment of every run, whatever raises, while the reject rule is gone. -/
theorem outsider_accepted_iff (aws : AwsConfig) (order : Int) (w : World) (n : Nat) {whitelist : Str}
    {a : IpNetwork.Address} (hne : whitelist ≠ []) (hne' : aws.whitelist ≠ [])
    (hclean : ∀ ip ∈ acceptedEntries aws.whitelist, Clean (scopeOf ip))
    (hrules : w.rules.filter (ofConfig aws order).matchesApp = (ofConfig aws order).rulesOf whitelist)
    (hout : ¬Listed whitelist a ∧ ¬Listed aws.whitelist a) :
    accepts true (appNameOf order) (rulesAfter (ofConfig aws order).refresh w n) a = true ↔
      (ofConfig aws order).rejectRule ∉ rulesAfter (ofConfig aws order).refresh w n := by
  obtain ⟨log, hcalls, hall, -⟩ := logs_refresh aws order w
  have hown : OwnOf (ofConfig aws order) whitelist aws.whitelist (rulesAfter (ofConfig aws order).refresh w n) := by
    rw [rulesAfter, hcalls, List.drop_left]
    exact OwnOf.replay hne' hclean (fun e he => hall e (List.mem_of_mem_take he)) (ownOf_rulesOf hne hrules)
  exact accepts_outsider (plain_appNameOf order) hown hout

/-! ## The first deletion -/

theorem deletions_others (fw : Firewall) (pre : List Str) : ∀ post : List Str,
    (∀ r ∈ post, fw.matchesApp r = false) → fw.deletions (pre ++ post) = fw.deletions pre := by
  intro post
  induction post using List.reverseRecOn with
  | nil =>
    intro _
    rw [List.append_nil]
  | append_singleton post r ih =>
    intro h
    have hr : fw.matchesApp r = false := h r (by simp)
    rw [← List.append_assoc, deletions, number_concat, List.reverse_append, List.reverse_singleton,
      List.singleton_append, List.filter_cons_of_neg (by simp [hr]), ← deletions]
    exact ih fun r hr => h r (List.mem_append_left _ hr)

/-- The last own rule goes first. -/
theorem deletions_last {pre post : List Str} {r : Str} (hr : fw.matchesApp r = true)
    (hpost : ∀ r ∈ post, fw.matchesApp r = false) :
    fw.deletions (pre ++ r :: post) = .ufwDelete (pre.length + 1) :: fw.deletions pre := by
  rw [List.append_cons, deletions_others fw _ _ hpost, deletions, number_concat, List.reverse_append,
    List.reverse_singleton, List.singleton_append, List.filter_cons_of_pos (by exact hr), List.map_cons, ← deletions]

/-- The rules around the last rule of a whitelist. -/
theorem split_last (hne : whitelist ≠ []) (h : rules.filter fw.matchesApp = fw.rulesOf whitelist) :
    ∃ pre post, rules = pre ++ fw.rejectRule :: post ∧
      pre.filter fw.matchesApp = fw.allowed (acceptedEntries whitelist) [] ∧ ∀ r ∈ post, fw.matchesApp r = false := by
  rw [rulesOf, if_neg hne] at h
  obtain ⟨l₁, l₂, rfl, h₁, h₂⟩ := List.filter_eq_append_iff.1 h
  obtain ⟨m₁, m₂, rfl, hm₁, -, hm₂⟩ := List.filter_eq_cons_iff.1 h₂
  refine ⟨l₁ ++ m₁, m₂, by simp, ?_, ?_⟩
  · rw [List.filter_append, h₁, List.filter_eq_nil_iff.2 hm₁, List.append_nil]
  · simpa using List.filter_eq_nil_iff.1 hm₂

/-- **The rules after the first deletion** of a run in which nothing raises. -/
theorem rulesAfter_two {w : World} {pre post : List Str} {r : Str} (hw : Calm w) (hrules : w.rules = pre ++ r :: post)
    (hr : (ofConfig aws order).matchesApp r = true) (hpost : ∀ r ∈ post, (ofConfig aws order).matchesApp r = false) :
    rulesAfter (ofConfig aws order).refresh w 2 = pre ++ post := by
  obtain ⟨w', hrun, -, hcalls, -⟩ := yields_deleteRules (ofConfig aws order) w.rules w hw rfl
  obtain ⟨log, hcalls', -, -⟩ := logs_applyWhitelist aws order w'
  have hlog : ((ofConfig aws order).refresh w).2.calls = w.calls ++ ((.ufwStatus, false) ::
      (.ufwDelete (pre.length + 1), false) ::
        (((ofConfig aws order).deletions pre).map (·, false) ++ log)) := by
    rw [refresh, Prog.run_bind_ok hrun, hcalls', hcalls, hrules, deletions_last hr hpost]
    simp
  rw [rulesAfter, hlog, List.drop_left, hrules]
  show (pre ++ r :: post).eraseIdx (pre.length + 1 - 1) = pre ++ post
  rw [Nat.add_sub_cancel, List.eraseIdx_append_of_length_le (le_refl _), Nat.sub_self, List.eraseIdx_zero,
    List.tail_cons]

/-- From these rules, no state of a run lets in an address that neither whitelist lists. -/
def NeverOpens (aws : AwsConfig) (order : Int) (whitelist : Str) (rules : List Str) : Prop :=
  ∀ w : World, w.rules = rules → ∀ n a, ¬Listed whitelist a → ¬Listed aws.whitelist a →
    accepts true (appNameOf order) (rulesAfter (ofConfig aws order).refresh w n) a = false

/-- **The firewall opens unless there is no outsider.** -/
theorem never_opens_iff (aws : AwsConfig) (order : Int) (whitelist : Str) (rules : List Str) (hne : whitelist ≠ [])
    (hrules : rules.filter (ofConfig aws order).matchesApp = (ofConfig aws order).rulesOf whitelist) :
    NeverOpens aws order whitelist rules ↔ ∀ a, Listed whitelist a ∨ Listed aws.whitelist a := by
  constructor
  · intro h a
    by_contra hout
    rw [not_or] at hout
    obtain ⟨pre, post, rfl, hpre, hpost⟩ := split_last hne hrules
    have hreject : (ofConfig aws order).matchesApp (ofConfig aws order).rejectRule = true := matchesApp_ruleText _ _ _
    let w : World := { World.start [] ⟨[], 0⟩ with rules := pre ++ (ofConfig aws order).rejectRule :: post }
    have hclosed := h w rfl 2 a hout.1 hout.2
    have happ : Plain (ofConfig aws order).appName := plain_appNameOf order
    have hown : (pre ++ post).filter (ofConfig aws order).matchesApp =
        (ofConfig aws order).allowed (acceptedEntries whitelist) [] := by
      rw [List.filter_append, hpre, List.filter_eq_nil_iff.2 fun r hr => by simp [hpost r hr], List.append_nil]
    -- what is left of the profile's rules says nothing of the address
    have hopen : accepts true (appNameOf order) (pre ++ post) a = true := by
      rw [← accepts_filter]
      show ((List.filter (ofConfig aws order).matchesApp (pre ++ post)).findSome?
        (verdict (ofConfig aws order).appName a)).getD true = true
      rw [hown, allowed_silent happ fun ip hip hcovers => hout.1 ⟨ip, hip, hcovers⟩]
      rfl
    rw [rulesAfter_two (w := w) (fun _ h => by cases h) rfl hreject hpost, hopen] at hclosed
    cases hclosed
  · intro hall w _ n a hout hout'
    exact absurd (hall a) (not_or.2 ⟨hout, hout'⟩)

/-- The rules of the whitelist `10.0.0.0/8` of profile 1. -/
def exampleRules : List Str :=
  ["allow from 10.0.0.0/8 to any app iprotate_1", "reject from any to any app iprotate_1"]

theorem never_opens_example : NeverOpens (exampleAws "192.168.0.0/16") 1 "10.0.0.0/8" exampleRules ↔
    ∀ a, Listed "10.0.0.0/8" a ∨ Listed "192.168.0.0/16" a :=
  never_opens_iff (exampleAws "192.168.0.0/16") 1 "10.0.0.0/8" exampleRules (by decide) (by decide +kernel)

/-- After the first deletion `8.8.8.8` gets through. -/
theorem reject_goes_first : ¬∀ (aws : AwsConfig) (order : Int) (whitelist : Str) (rules : List Str),
    whitelist ≠ [] → aws.whitelist ≠ [] →
    rules.filter (ofConfig aws order).matchesApp = (ofConfig aws order).rulesOf whitelist →
    NeverOpens aws order whitelist rules := by
  intro h
  have hnever := h (exampleAws "192.168.0.0/16") 1 "10.0.0.0/8" exampleRules (by decide) (by decide) (by decide +kernel)
  have hclosed := hnever { World.start [] ⟨[], 0⟩ with rules := exampleRules } rfl 2
    ⟨4, 8 * 2 ^ 24 + 8 * 2 ^ 16 + 8 * 2 ^ 8 + 8, by decide⟩
  have hout₁ : ¬Listed "10.0.0.0/8" ⟨4, 8 * 2 ^ 24 + 8 * 2 ^ 16 + 8 * 2 ^ 8 + 8, by decide⟩ := by
    unfold Listed
    decide +kernel
  have hout₂ : ¬Listed "192.168.0.0/16" ⟨4, 8 * 2 ^ 24 + 8 * 2 ^ 16 + 8 * 2 ^ 8 + 8, by decide⟩ := by
    unfold Listed
    decide +kernel
  exact absurd (hclosed hout₁ hout₂) (by decide +kernel)

end Firewall
end Iprotate
