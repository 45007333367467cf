import Iprotate.Built
import Iprotate.KeyCheck

/-!
# Names without a profile

The seven handlers load the profile once only to see that it is there, and answer `Config not found` when
`load_aws_config` returns `None`.

- It never does: the method ends with a `dict`, so the test changes nothing (`checkKey_eq`) and no handler ever gives
  that answer (`handle_ne_notFound`).
- The names that are answered as they should are the ones for which the answer is not called for, the profiles
  (`answered_iff`).
- For a name that is neither a section nor `DEFAULT` every handler raises (`unknown_raises`); so does `/get_config` for
  `nobody` (`nobody_not_answered`).
-/

namespace Iprotate
namespace UnknownName

open App Py Prog ConfigParser Loader ConfigLoader

/-! ## The test of the handlers -/

def notFound : Json PyError := message "Config not found"

/-- `load_aws_config`, with the value that the handlers compare with `None`. -/
def loadTested (l : ConfigLoader) (name : Str) : Except ConfigError (Option AwsConfig × ConfigLoader) := do
  let (aws, l) ← l.loadAws name
  return (some aws, l)

/-- The beginning of the seven handlers with that test. -/
def checkKeyTested (req : Request) (rest : ApiConfig → AwsConfig → Py (Json PyError)) : Py (Json PyError) := do
  let config ← onConfig ConfigLoader.build
  let (found, config) ← Py.ofConfig (loadTested config (configName req))
  match found with
  | none => return notFound
  | some _ =>
    let api ← Py.ofConfig (loadApiConfig config.config)
    let (aws, _) ← Py.ofConfig (config.loadAws (configName req))
    if validKey req api aws then rest api aws else return invalidKey

/-- The test finds nothing. -/
theorem loadTested_ne_none {l l' : ConfigLoader} {name : Str} : loadTested l name ≠ .ok (none, l') := by
  intro h
  obtain ⟨_, _, h⟩ := except_bind_eq_ok.1 h
  cases h

/-- The handlers do the same with the test as without it. -/
theorem checkKey_eq (req : Request) (rest : ApiConfig → AwsConfig → Py (Json PyError)) :
    checkKey req rest = checkKeyTested req rest := by
  funext w
  unfold checkKey checkKeyTested loadProfile
  cases hb : onConfig ConfigLoader.build w with
  | mk x w₁ =>
    cases x with
    | error e => simp only [run_bind, hb]
    | ok config =>
      cases hr : config.loadAws (configName req) with
      | error e =>
        have hno : loadTested config (configName req) = .error e := by rw [loadTested, hr]; rfl
        simp only [run_bind, hb, hr, hno, run_ofConfig_error]
      | ok r =>
        have hsome : loadTested config (configName req) = .ok (some r.1, r.2) := by rw [loadTested, hr]; rfl
        simp only [run_bind, hb, hr, hsome, run_ofConfig_ok]
        cases loadApiConfig r.2.config with
        | error e => rfl
        | ok api =>
          cases r.2.loadAws (configName req) with
          | error e => rfl
          | ok r' => rfl

/-! ## What the handlers answer -/

/-- The program never returns that answer. -/
def Never (m : Py (Json PyError)) : Prop := ∀ w, (m w).1 ≠ .ok notFound

theorem never_pure {j : Json PyError} (h : j ≠ notFound) : Never (pure j) := fun _ hj => h (Except.ok.inj hj)

theorem never_throw (e : PyError) : Never (throw e) := fun _ h => by cases h

theorem never_bind {α : Type} {m : Py α} {f : α → Py (Json PyError)} (h : ∀ a, Never (f a)) : Never (m >>= f) := by
  intro w hw
  rw [run_bind] at hw
  split at hw
  · exact h _ _ hw
  · cases hw

theorem message_ne (text : Str) (h : text ≠ "Config not found".toList) : message text ≠ notFound := by
  intro he
  simp only [message, notFound, RunTask.message, Json.obj.injEq, List.cons.injEq, Prod.mk.injEq, Json.str.injEq,
    true_and, and_true] at he
  exact h he

/-- An answer of more than one entry. -/
theorem obj_ne {entries : Entries} (h : 1 < entries.length) : (.obj entries : Json PyError) ≠ notFound := by
  intro he
  rw [Json.obj.inj he] at h
  exact absurd h (Nat.lt_irrefl 1)

/-- An answer with a status. -/
theorem status_ne {entries : Entries} (h : entries.get? "status" ≠ none) :
    (.obj entries : Json PyError) ≠ notFound := by
  intro he
  rw [Json.obj.inj he] at h
  exact h (Dict.get?_cons_ne (by decide) _ _)

theorem never_withLogin {name : Str} {response : Py Entries} {rest : Aws → Py (Json PyError)}
    (h : ∀ a, Never (rest a)) :
    Never (withLogin name response rest) := by
  refine never_bind fun a => never_bind fun login => ?_
  cases login with
  | ok a => exact h a
  | error e =>
    refine never_bind fun _ => never_bind fun response => never_pure (status_ne ?_)
    rw [Dict.get?_set_ne _ (by decide), Dict.get?_set_self]
    exact Option.some_ne_none _

theorem never_checkKey {req : Request} {rest : ApiConfig → AwsConfig → Py (Json PyError)}
    (h : ∀ api aws, Never (rest api aws)) : Never (checkKey req rest) := by
  refine never_bind fun r => ?_
  dsimp only
  split
  · exact h _ _
  · exact never_pure (message_ne "Invalid API key" (by decide))

/-- An answer with another message at its end. -/
theorem append_ne {entries : Entries} {text : Str} (h : text ≠ "Config not found".toList) :
    (.obj (entries ++ ([("message", .str text)] : Entries)) : Json PyError) ≠ notFound := by
  intro he
  have hlast := congrArg List.getLast? (Json.obj.inj he)
  rw [List.getLast?_concat] at hlast
  exact h (Json.str.inj (congrArg Prod.snd (Option.some.inj hlast)))

theorem never_regionAnswer (name oldRegion newRegion text : Str) (h : text ≠ "Config not found".toList) :
    Never (regionAnswer name oldRegion newRegion text) := never_bind fun _ => never_pure (append_ne h)

/-- **No handler answers `Config not found`.** -/
theorem handle_ne_notFound (e : Endpoint) (req : Request) : Never (handle e req) := by
  have hstarted : Never (return message "Process started") := never_pure (message_ne "Process started" (by decide))
  cases e with
  | reset => exact never_checkKey fun _ _ => never_withLogin fun _ => never_bind fun _ => hstarted
  | changeAuth => exact never_checkKey fun _ _ => never_withLogin fun _ => never_bind fun _ => hstarted
  | changeWhitelist => exact never_checkKey fun _ _ => never_bind fun _ => hstarted
  | getAvailableRegion =>
    refine never_checkKey fun _ _ => never_withLogin fun _ => never_bind fun _ => never_pure fun h => ?_
    cases h
  | getConfig =>
    refine never_checkKey fun api aws => never_withLogin fun _ => never_bind fun _ => never_bind fun w => ?_
    cases w.profile.get? (configName req) with
    | none => exact never_throw _
    | some r =>
      refine never_bind fun proxies => never_pure (obj_ne ?_)
      simp only [List.length_append, taskEntries, List.length_cons]
      omega
  | changeIp =>
    refine never_checkKey fun api aws => never_bind fun proxies => never_bind fun _ => never_bind fun _ => ?_
    refine never_withLogin fun _ => never_bind fun status => ?_
    cases status with
    | busy => exact never_pure (obj_ne (by simp [nameAndRegion]))
    | idle => exact never_bind fun _ => never_pure (obj_ne (by simp [nameAndRegion]))
  | changeRegion =>
    show Never (getChangeRegion req)
    unfold getChangeRegion
    cases req.newRegion with
    | none => exact never_pure (message_ne "New region is not provided" (by decide))
    | some newRegion =>
      refine never_checkKey fun _ aws => never_bind fun _ => never_withLogin fun _ => never_bind fun _ => ?_
      split
      · exact never_regionAnswer _ _ _ "New region is the same as the old region" (by decide)
      · refine never_bind fun status => ?_
        cases status with
        | busy => exact never_regionAnswer _ _ _ "Process is busy" (by decide)
        | idle => exact never_bind fun _ => never_regionAnswer _ _ _ "Process started" (by decide)

/-! ## Names -/

/-- `config.conf` has a section for a profile of this name; `None` is the name of none. -/
def IsProfile (w : World) (name : Option Str) : Prop :=
  ∃ p s, ConfigParser.read w.config = .ok p ∧ name = some s ∧ s ∈ profileNames p

/-- `ConfigLoader()` can be built. -/
def Loads (w : World) : Prop := ∃ l text, ConfigLoader.build w.config = (.ok l, text)

/-- What `load_aws_config` is to return in a loader that was just built, and what is to be answered then. -/
structure Answered (w : World) (name : Option Str) : Prop where
  result : (∃ l text l', ConfigLoader.build w.config = (.ok l, text) ∧ loadTested l (name.getD []) = .ok (none, l')) ↔
    ¬IsProfile w name
  answer : ¬IsProfile w name → ∀ e req, req.configName = name →
    (handle e req w).1 = .ok notFound ∧ (handle e req w).2.profile = w.profile
  memory : ¬IsProfile w name → ∀ l text r l', ConfigLoader.build w.config = (.ok l, text) →
    loadTested l (name.getD []) = .ok (r, l') → l'.config = l.config

/-- **The names that are answered as they should are the profiles.** -/
theorem answered_iff (w : World) (name : Option Str) : Answered w name ↔ IsProfile w name := by
  constructor
  · intro h
    by_contra hno
    exact handle_ne_notFound .getConfig ⟨none, name, none, none, none, none⟩ w (h.answer hno _ _ rfl).1
  · intro hp
    refine ⟨?_, fun hno => absurd hp hno, fun hno => absurd hp hno⟩
    refine iff_of_false ?_ fun hno => hno hp
    rintro ⟨l, _, l', -, hnone⟩
    exact loadTested_ne_none hnone

/-- For the empty name the defaults go to `[DEFAULT]`. -/
theorem exists_setDefaults_nil (p : ConfigParser) : ∃ q, setDefaults p [] = .ok q := by
  have hfold : ∀ (es : List (Str × Str)) (p : ConfigParser), (∀ e ∈ es, Accepts e.2) →
      ∃ q, es.foldlM (fun p e => setDefault p [] e.1 e.2) p = .ok q := by
    intro es
    induction es with
    | nil => exact fun p _ => ⟨p, rfl⟩
    | cons e es ih =>
      intro p hes
      obtain ⟨q, hq⟩ : ∃ q, setDefault p [] e.1 e.2 = .ok q := by
        unfold setDefault
        split
        · exact ⟨p, rfl⟩
        · have haccepts : ¬(e.2 ≠ [] ∧ Interpolation.beforeSet e.2 = false) := by
            rintro ⟨hne, hno⟩
            rcases hes e List.mem_cons_self with h | h
            · exact hne h
            · rw [hno] at h
              cases h
          exact ⟨_, by rw [ConfigParser.set, if_neg haccepts, if_pos (.inl rfl)]⟩
      obtain ⟨q', hq'⟩ := ih q fun e he => hes e (List.mem_cons_of_mem _ he)
      exact ⟨q', by rw [List.foldlM_cons, hq]; exact hq'⟩
  exact hfold awsDefaults p accepts_awsDefaults

/-- A name that no section has is not found by the first `set` or `get` that needs it. -/
theorem loadAwsConfig_unknown {p : ConfigParser} {s : Str} (hs : s ∉ p.sectionNames) (hdefault : s ≠ defaultSection) :
    loadAwsConfig p s = .error (.noSection s) := by
  by_cases hnil : s = []
  · subst hnil
    obtain ⟨q, hq⟩ := exists_setDefaults_nil p
    have hn : ¬([] ∈ q.sectionNames ∨ ([] : Str) = defaultSection) := by
      rw [sectionNames_setDefaults hq]
      exact not_or.2 ⟨hs, hdefault⟩
    have hget : q.get [] "order" = .error (.noSection []) := by rw [ConfigParser.get, if_neg hn]
    have hread : readAwsConfig q [] = .error (.noSection []) := by rw [readAwsConfig, hget]; rfl
    rw [loadAwsConfig, hq]
    show (readAwsConfig q [] >>= _) = _
    rw [hread]
    rfl
  · have hname : ¬(s = [] ∨ s = defaultSection) := not_or.2 ⟨hnil, hdefault⟩
    have hset : setDefault p s "user" [] = .error (.noSection s) := by
      have hno : ¬p.hasOption s "user" = true := by
        rw [hasOption, if_neg hname, if_neg hs]
        exact Bool.false_ne_true
      rw [setDefault, if_neg hno, ConfigParser.set, if_neg (fun h => h.1 rfl), if_neg hname, if_neg hs]
    have hfirst : setDefaults p s = .error (.noSection s) := by
      show (setDefault p s "user" [] >>= _) = _
      rw [hset]
      rfl
    rw [loadAwsConfig, hfirst]
    rfl

/-- What an unknown name gets. -/
theorem unknown_raises {w : World} (hload : Loads w) {e : Endpoint} {req : Request}
    (hregion : e = .changeRegion → req.newRegion ≠ none)
    (hname : ∀ p, ConfigParser.read w.config = .ok p → configName req ∉ p.sectionNames)
    (hdefault : configName req ≠ defaultSection) :
    (handle e req w).1 = .error (.config (.noSection (configName req))) := by
  obtain ⟨l, text, hb⟩ := hload
  obtain ⟨p, hbuilt⟩ := built_of_build hb
  have hno : configName req ∉ l.config.sectionNames := by
    rw [hbuilt.config, settled, sectionNames_settle]
    exact hname p hbuilt.read
  have hl : (loadProfile (configName req) w).1 = .error (.config (.noSection (configName req))) := by
    have hrun : onConfig ConfigLoader.build w = (.ok l, { w with config := text }) := by rw [onConfig, hb]
    rw [loadProfile, run_bind_ok hrun, ConfigLoader.loadAws, loadAwsConfig_unknown hno hdefault]
    rfl
  obtain ⟨rest, hrest⟩ := KeyCheck.handle_eq_checkKey hregion
  rw [hrest, KeyCheck.checkKey_of_error hl]

/-- A request for a profile that is not there. -/
def nobodyRequest : Request := ⟨some "api", some "nobody", none, none, none, none⟩

/-- `/get_config` for a name that the example file does not have is an internal error. -/
theorem nobody_not_answered : ¬∀ (w : World) (name : Option Str), Loads w → Answered w name := by
  intro h
  have hloads : (ConfigLoader.build exampleWorld.config).1.toOption.isSome = true := by
    rw [exampleWorld, World.start, ConfigLoader.build_example.2]
    rfl
  have hraises : (handle .getConfig nobodyRequest exampleWorld).1.toOption.isSome = false := by
    simp (disch := exact rfl) only [nobodyRequest, exampleWorld, World.start, Loader.exampleConfig, toList_of_eq]
    decide +kernel
  have hprofile : ¬IsProfile exampleWorld (some "nobody") := by
    rintro ⟨p, s, hread, hname, hs⟩
    cases hname
    have hno : ((ConfigParser.read exampleWorld.config).toOption.map
        fun p => decide ("nobody".toList ∈ profileNames p)) = some false := by
      rw [read_exampleWorld]
      decide
    rw [hread] at hno
    exact absurd hs (of_decide_eq_false (Option.some.inj hno))
  have hload : Loads exampleWorld := Prog.exists_ok hloads
  obtain ⟨hanswer, -⟩ := (h exampleWorld (some "nobody") hload).answer hprofile .getConfig nobodyRequest rfl
  rw [hanswer] at hraises
  cases hraises

end UnknownName
end Iprotate
