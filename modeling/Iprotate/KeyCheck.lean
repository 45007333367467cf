import Iprotate.App

/-!
# The key check

What the key check of the seven handlers lets through. A key is good when it is present, not empty, and equals the key
of `[api]` or the key that the profile's own section stores.

- Every handler is the key check and a rest (`handle_eq_checkKey`); what it loads before changes nothing but the text
  of `config.conf` (`loadProfile_frame`).
- A handler lets only good keys through and refuses all others, iff the profile loads and the request is none of
  three: an empty key where a key is empty, a key that only `[DEFAULT]` supplies, a `/change_region` without a region
  (`guarded_iff`).
- An empty key opens the profile of the repository's example file (`empty_key_opens`).
-/

namespace Iprotate
namespace KeyCheck

open App Py

/-- The handler gets past its key check. -/
def Passes (e : Endpoint) (req : Request) (w : World) : Prop :=
  (e = .changeRegion → req.newRegion ≠ none) ∧
    ∃ api aws, (loadProfile (configName req) w).1 = .ok (api, aws) ∧ validKey req api aws = true

/-- The profile's own section stores an `apikey`. -/
def OwnKey (name : Str) (w : World) : Prop :=
  ∃ p, ConfigParser.read w.config = .ok p ∧ (p.raw name "apikey").isSome = true

/-- The key is present, not empty, and that of `[api]` or of the profile's own section. -/
def GoodKey (req : Request) (w : World) : Prop :=
  ∃ key api aws, req.apikey = some key ∧ key ≠ [] ∧ (loadProfile (configName req) w).1 = .ok (api, aws) ∧
    (key = api.apikey ∨ OwnKey (configName req) w ∧ key = aws.apikey)

/-- The request is answered `Invalid API key`, starts no thread and makes no call. -/
def Refused (e : Endpoint) (req : Request) (w : World) : Prop :=
  (handle e req w).1 = .ok invalidKey ∧ (handle e req w).2.threads = w.threads ∧ (handle e req w).2.calls = w.calls

/-- Good keys only get through, and all other requests are refused. -/
def Guarded (e : Endpoint) (req : Request) (w : World) : Prop :=
  (Passes e req w → GoodKey req w) ∧ (¬GoodKey req w → Refused e req w)

/-! ## What happens before the check -/

/-- `w'` differs from `w` in the text of `config.conf` at most. -/
def SameBut (w w' : World) : Prop := ∃ text, w' = { w with config := text }

theorem keeps_onConfig {α : Type} (w : World) (m : ConfigFile α) : Prog.Keeps (SameBut w) (onConfig m) := by
  rintro _ ⟨text, rfl⟩
  unfold onConfig
  split <;> exact ⟨_, rfl⟩

theorem keeps_ofConfig {α : Type} (w : World) (x : Except ConfigError α) : Prog.Keeps (SameBut w) (Py.ofConfig x) := by
  unfold Py.ofConfig
  split
  · exact .pure _
  · exact .throw _

/-- What the handlers load first changes nothing but `config.conf`. -/
theorem loadProfile_frame (name : Str) (w : World) : SameBut w (loadProfile name w).2 := by
  have h : Prog.Keeps (SameBut w) (loadProfile name) :=
    .bind (keeps_onConfig w _) fun _ => .bind (keeps_ofConfig w _) fun _ => .bind (keeps_ofConfig w _) fun _ =>
      .bind (keeps_ofConfig w _) fun _ => .pure _
  exact h w ⟨w.config, rfl⟩

/-- Every handler is the key check and a rest, but for a `/change_region` without a region. -/
theorem handle_eq_checkKey {e : Endpoint} {req : Request} (h : e = .changeRegion → req.newRegion ≠ none) :
    ∃ rest, handle e req = checkKey req rest := by
  cases e with
  | changeIp => unfold handle getStartProcess; exact ⟨_, rfl⟩
  | reset => unfold handle getReset; exact ⟨_, rfl⟩
  | changeAuth => unfold handle getChangeAuth; exact ⟨_, rfl⟩
  | changeRegion =>
    obtain ⟨region, hregion⟩ := Option.ne_none_iff_exists'.1 (h rfl)
    exact ⟨fun _ aws => changeRegionTo (configName req) region aws, by simp only [handle, getChangeRegion, hregion]⟩
  | getAvailableRegion => unfold handle getAvailableRegion; exact ⟨_, rfl⟩
  | getConfig => unfold handle getConfigDetail; exact ⟨_, rfl⟩
  | changeWhitelist => unfold handle App.changeWhitelist; exact ⟨_, rfl⟩

theorem checkKey_of_valid {req : Request} {rest : ApiConfig → AwsConfig → Py (Json PyError)} {w : World}
    {api : ApiConfig} {aws : AwsConfig} (h : (loadProfile (configName req) w).1 = .ok (api, aws))
    (hv : validKey req api aws = true) : checkKey req rest w = rest api aws (loadProfile (configName req) w).2 := by
  rw [checkKey, Prog.run_bind_ok (a := (api, aws)) (by rw [← h])]
  simp [hv]

/-- A key that is not valid is refused before anything is done. -/
theorem checkKey_of_invalid {req : Request} {rest : ApiConfig → AwsConfig → Py (Json PyError)} {w : World}
    {api : ApiConfig} {aws : AwsConfig} (h : (loadProfile (configName req) w).1 = .ok (api, aws))
    (hv : validKey req api aws = false) :
    checkKey req rest w = (.ok invalidKey, (loadProfile (configName req) w).2) := by
  rw [checkKey, Prog.run_bind_ok (a := (api, aws)) (by rw [← h])]
  simp [hv]

theorem checkKey_of_error {req : Request} {rest : ApiConfig → AwsConfig → Py (Json PyError)} {w : World} {err : PyError}
    (h : (loadProfile (configName req) w).1 = .error err) : (checkKey req rest w).1 = .error err := by
  rw [checkKey, Prog.run_bind_error (t := (loadProfile (configName req) w).2) (by rw [← h])]

theorem refused_of_invalid {e : Endpoint} {req : Request} {w : World} {api : ApiConfig} {aws : AwsConfig}
    (hregion : e = .changeRegion → req.newRegion ≠ none) (h : (loadProfile (configName req) w).1 = .ok (api, aws))
    (hv : validKey req api aws = false) : Refused e req w := by
  obtain ⟨rest, hrest⟩ := handle_eq_checkKey hregion
  obtain ⟨text, htext⟩ := loadProfile_frame (configName req) w
  rw [Refused, hrest, checkKey_of_invalid h hv, htext]
  exact ⟨rfl, rfl, rfl⟩

/-- The two error messages are different answers. -/
theorem message_ne_invalidKey : message "New region is not provided" ≠ invalidKey := by
  simp only [message, invalidKey, RunTask.message, ne_eq, Json.obj.injEq, List.cons.injEq, Prod.mk.injEq,
    Json.str.injEq, true_and, and_true]
  decide

/-! ## When the handlers are guarded -/

/-- A key is empty and the request's is, too. -/
def EmptyKey (req : Request) (api : ApiConfig) (aws : AwsConfig) : Prop :=
  req.apikey = some [] ∧ (api.apikey = [] ∨ aws.apikey = [])

/-- The key is the profile's, but comes from `[DEFAULT]`. -/
def DefaultKey (req : Request) (w : World) (api : ApiConfig) (aws : AwsConfig) : Prop :=
  req.apikey = some aws.apikey ∧ aws.apikey ≠ [] ∧ aws.apikey ≠ api.apikey ∧ ¬OwnKey (configName req) w

/-- The profile loads, and the request is none of the three that go wrong. -/
def Condition (e : Endpoint) (req : Request) (w : World) : Prop :=
  ∃ api aws, (loadProfile (configName req) w).1 = .ok (api, aws) ∧
    ((e = .changeRegion → req.newRegion ≠ none) ∨ GoodKey req w) ∧ ¬EmptyKey req api aws ∧ ¬DefaultKey req w api aws

/-- A good key is valid, and valid keys are good but for two kinds. -/
theorem goodKey_iff {req : Request} {w : World} {api : ApiConfig} {aws : AwsConfig}
    (h : (loadProfile (configName req) w).1 = .ok (api, aws)) : GoodKey req w ↔
      validKey req api aws = true ∧ ¬EmptyKey req api aws ∧ ¬DefaultKey req w api aws := by
  have hvalid : validKey req api aws = true ↔ req.apikey = some api.apikey ∨ req.apikey = some aws.apikey := by
    simp [validKey]
  rw [hvalid]
  constructor
  · rintro ⟨key, api', aws', hkey, hne, hload, hown⟩
    rw [h] at hload
    cases hload
    refine ⟨?_, fun he => hne ?_, ?_⟩
    · rcases hown with hown | ⟨_, hown⟩
      · exact .inl (by rw [hkey, hown])
      · exact .inr (by rw [hkey, hown])
    · have := he.1
      rw [hkey] at this
      exact Option.some.inj this
    · rintro ⟨hdef, _, hapi, hnot⟩
      rw [hkey] at hdef
      rcases hown with hown | ⟨how, _⟩
      · exact hapi ((Option.some.inj hdef).symm.trans hown)
      · exact hnot how
  · rintro ⟨hv, hempty, hdef⟩
    rcases hv with hv | hv
    · refine ⟨api.apikey, api, aws, hv, fun hnil => hempty ⟨by rw [hv, hnil], .inl hnil⟩, h, .inl rfl⟩
    · have hne : aws.apikey ≠ [] := fun hnil => hempty ⟨by rw [hv, hnil], .inr hnil⟩
      by_cases hapi : aws.apikey = api.apikey
      · exact ⟨aws.apikey, api, aws, hv, hne, h, .inl hapi⟩
      · by_cases hown : OwnKey (configName req) w
        · exact ⟨aws.apikey, api, aws, hv, hne, h, .inr ⟨hown, rfl⟩⟩
        · exact absurd ⟨hv, hne, hapi, hown⟩ hdef

/-- **When a handler lets good keys through and no others.** -/
theorem guarded_iff (e : Endpoint) (req : Request) (w : World) : Guarded e req w ↔ Condition e req w := by
  constructor
  · rintro ⟨hpass, hrefuse⟩
    cases hload : (loadProfile (configName req) w).1 with
    | error err =>
      -- no key is good for a profile that cannot be loaded, so the request was to be refused
      have hbad : ¬GoodKey req w := by
        rintro ⟨_, _, _, _, _, hl, _⟩
        rw [hload] at hl
        cases hl
      have hans := (hrefuse hbad).1
      exfalso
      by_cases hregion : e = .changeRegion → req.newRegion ≠ none
      · obtain ⟨rest, hrest⟩ := handle_eq_checkKey hregion
        rw [hrest, checkKey_of_error hload] at hans
        cases hans
      · push Not at hregion
        obtain ⟨rfl, hnone⟩ := hregion
        simp only [handle, getChangeRegion, hnone, Prog.run_pure, Except.ok.injEq] at hans
        exact message_ne_invalidKey hans
    | ok loaded =>
      obtain ⟨api, aws⟩ := loaded
      have hgood := goodKey_iff hload
      refine ⟨api, aws, hload, ?_, ?_⟩
      · by_contra hc
        push Not at hc
        obtain ⟨⟨rfl, hnone⟩, hbad⟩ := hc
        have hans := (hrefuse hbad).1
        simp only [handle, getChangeRegion, hnone, Prog.run_pure, Except.ok.injEq] at hans
        exact message_ne_invalidKey hans
      · by_cases hv : validKey req api aws = true
        · by_cases hregion : e = .changeRegion → req.newRegion ≠ none
          · exact (hgood.1 (hpass ⟨hregion, api, aws, hload, hv⟩)).2
          · by_cases hg : GoodKey req w
            · exact (hgood.1 hg).2
            · push Not at hregion
              obtain ⟨rfl, hnone⟩ := hregion
              have hans := (hrefuse hg).1
              simp only [handle, getChangeRegion, hnone, Prog.run_pure, Except.ok.injEq] at hans
              exact absurd hans message_ne_invalidKey
        · have hv' : req.apikey ≠ some api.apikey ∧ req.apikey ≠ some aws.apikey := by simpa [validKey] using hv
          refine ⟨?_, fun h => hv'.2 h.1⟩
          rintro ⟨hnil, h | h⟩
          · exact hv'.1 (by rw [hnil, h])
          · exact hv'.2 (by rw [hnil, h])
  · rintro ⟨api, aws, hload, hregion, hempty, hdef⟩
    have hgood := goodKey_iff hload
    constructor
    · rintro ⟨_, api', aws', hload', hv⟩
      rw [hload] at hload'
      cases hload'
      exact hgood.2 ⟨hv, hempty, hdef⟩
    · intro hbad
      apply refused_of_invalid (hregion.resolve_right hbad) hload
      by_contra hv
      exact hbad (hgood.2 ⟨by simpa using hv, hempty, hdef⟩)

/-- What a handler loads of the example file. -/
theorem loadProfile_example {w : World} (h : w.config = ConfigParser.write Loader.exampleConfig) :
    loadProfile "aws1" w = (.ok (ConfigLoader.exampleApiConfig, ConfigLoader.exampleAwsConfig), w) := by
  have hprofile : ofConfig (ConfigLoader.exampleLoader.loadAws "aws1") w =
      (.ok (ConfigLoader.exampleAwsConfig, ConfigLoader.exampleLoader), w) := by
    rw [ConfigLoader.loadAws_example]
    rfl
  have hapi : ofConfig (Loader.loadApiConfig ConfigLoader.exampleLoader.config) w =
      (.ok ConfigLoader.exampleApiConfig, w) := by
    show ofConfig (Loader.loadApiConfig Loader.exampleConfig) w = _
    rw [ConfigLoader.loadApi_example]
    rfl
  exact (Prog.run_bind_ok (build_example h)).trans <| (Prog.run_bind_ok hprofile).trans <|
    (Prog.run_bind_ok hapi).trans <| (Prog.run_bind_ok hprofile).trans rfl

/-- A handler that is asked for its profile with the key of `[api]`. -/
theorem checkKey_example {req : Request} {w : World} (h : w.config = ConfigParser.write Loader.exampleConfig)
    (hname : req.configName = some "aws1".toList) (hkey : req.apikey = some "api".toList)
    (rest : ApiConfig → AwsConfig → Py (Json PyError)) : checkKey req rest w =
      rest ConfigLoader.exampleApiConfig ConfigLoader.exampleAwsConfig w := by
  have hconfig : configName req = "aws1".toList := by
    rw [configName, hname]
    rfl
  have hvalid : validKey req ConfigLoader.exampleApiConfig ConfigLoader.exampleAwsConfig = true := by
    rw [validKey, hkey]
    rfl
  rw [checkKey, hconfig]
  exact (Prog.run_bind_ok (loadProfile_example h)).trans (congrFun (if_pos hvalid) w)

/-- Its login. -/
theorem withLogin_example {w : World} (h : w.config = ConfigParser.write Loader.exampleConfig) (response : Py Entries)
    (rest : Aws → Py (Json PyError)) : withLogin "aws1" response rest w = (do
      let login ← tryCatch (do
        let aws ← Aws.login
          ⟨ConfigLoader.exampleLoader, "aws1", ConfigLoader.exampleAwsConfig, none, none, none, none⟩
        return Except.ok aws) fun e => return Except.error e
      match login with
      | .ok aws => rest aws
      | .error e =>
        TaskManager.setStopTask "aws1" "failed" (.textOf e)
        let response ← response
        return .obj ((response.set "status" (.str "failed")).set "message" (.textOf e)) : Py (Json PyError)) w :=
  Prog.run_bind_ok (Aws.init_example h)

/-- A `/get_config` with an empty key for the profile of the example file, whose own key is empty. -/
def emptyKeyRequest : Request := ⟨some [], some "aws1", none, none, none, none⟩

/-- The empty key opens the profile of the example file. -/
theorem empty_key_opens : ¬∀ (e : Endpoint) (req : Request) (w : World), Guarded e req w := by
  intro h
  have hload : (loadProfile (configName emptyKeyRequest) exampleWorld).1 = .ok _ :=
    congrArg Prod.fst (loadProfile_example rfl)
  have hgood := (h .getConfig emptyKeyRequest exampleWorld).1 ⟨fun hc => (by cases hc), _, _, hload, by decide⟩
  exact ((goodKey_iff hload).1 hgood).2.1 ⟨rfl, .inr rfl⟩

end KeyCheck
end Iprotate
