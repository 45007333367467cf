import Iprotate.Frame
import Iprotate.KeyCheck

/-!
# What a request does to the task records

The routes of `app.py` against the table of records. A handler itself (the thread it may start apart) writes to the
table at one place only, the `set_stop_task` after a failed login.

- All that a handler does before and after its login leaves the table alone (`frame`).
- Status, current task and last task of every profile are as before, exactly if no login fails behind the key check, or
  the record already says what is written then (`sameRecords_iff`).
- A `/get_config` whose login fails ends the task of a busy record (`failed_login_writes`).
-/

namespace Iprotate
namespace RecordFrame

open App Py Prog

/-- Every route. -/
inductive Route
  | keyed (e : Endpoint)
  | getTask
  deriving DecidableEq, Repr

/-- The handler of a route. -/
def answer : Route → Request → Py (Json PyError)
  | .keyed e => handle e
  | .getTask => App.getTask

/-- What a record says about its tasks: `status`, `current_task` and the fields of `last_task`. -/
def view (r : Record) : Status × Option (Option TaskType) × LastTask := (r.status, r.currentTask, r.lastTask)

/-- For every profile these are the same. -/
def SameRecords (d d' : Dict Str Record) : Prop := ∀ name, (d'.get? name).map view = (d.get? name).map view

/-- `Aws(config_name)` goes well and `login` raises; then it is this time. -/
def Refused (name : Str) (w : World) (err : PyError) (time : Nat) : Prop :=
  ∃ a w₁ w₂, Aws.init name w = (.ok a, w₁) ∧ a.login w₁ = (.error err, w₂) ∧ w₂.clock = time

/-- The request gets to its login and that fails. A `/change_ip` reads the number of the profile before, a
`/change_region` looks for its region. -/
def LoginFails : Route → Request → World → PyError → Nat → Prop
  | .getTask, _, _, _, _ | .keyed .changeWhitelist, _, _, _, _ => False
  | .keyed e, req, w, err, time =>
    ∃ api aws, (loadProfile (configName req) w).1 = .ok (api, aws) ∧ validKey req api aws = true ∧
      (e = .changeRegion → req.newRegion ≠ none) ∧ (e = .changeIp → ∃ ps, (proxies api aws w).1 = .ok ps) ∧
      Refused (configName req) (loadProfile (configName req) w).2 err time

/-! ## What leaves the table alone -/

variable {P : Dict Str Record} {name : Str} {r : Record} {w : World} {α : Type}

/-- All the programs a handler is made of, but for the changes of records. -/
theorem frame (P : Dict Str Record) : Frame fun w => w.profile = P where
  call c w hw := by
    unfold Py.call
    split <;> exact hw
  refuse _ _ hw := hw
  clock _ hw := hw
  files _ _ hw := hw
  rules _ _ hw := hw
  nextId _ _ hw := hw
  grow _ _ _ _ _ _ hw := hw
  build w hw := by
    unfold onConfig
    split <;> exact hw

theorem profile_loadProfile (name : Str) (w : World) : (loadProfile name w).2.profile = w.profile := by
  obtain ⟨text, ht⟩ := KeyCheck.loadProfile_frame name w
  rw [ht]

/-- A record that is there is looked up without a change. -/
theorem run_record (h : w.profile.get? name = some r) : TaskManager.record name w = (.ok r, w) := by
  simp only [TaskManager.record, run_bind, run_get, h, run_pure]

theorem run_registerProfile (h : w.profile.get? name = some r) : TaskManager.registerProfile name w = (.ok (), w) := by
  simp only [TaskManager.registerProfile, run_bind, run_get, h, run_pure]

theorem run_registerUnlessAttribute (h : w.profile.get? name = some r) :
    registerUnlessAttribute name w = (.ok (), w) := by
  unfold registerUnlessAttribute
  split
  · rfl
  · exact run_registerProfile h

theorem run_checkTaskStatus (h : w.profile.get? name = some r) : checkTaskStatus name w = (.ok r.status, w) := by
  simp only [checkTaskStatus, run_bind, run_get, h, run_pure, run_record h]

theorem run_setStopTask (h : w.profile.get? name = some r) (result : Str) (data : Json PyError) :
    TaskManager.setStopTask name result data w =
      (.ok (), { w with clock := w.clock + 1, profile := w.profile.set name (r.setStopTask result data w.clock) }) := by
  have hr : TaskManager.record name { w with clock := w.clock + 1 } = (.ok r, { w with clock := w.clock + 1 }) :=
    run_record h
  simp only [TaskManager.setStopTask, TaskManager.change, run_bind, now, hr, run_modify]

theorem run_markBusy {args : TaskArgs} (h : w.profile.get? args.configName = some r) : TaskManager.markBusy args w =
    (.ok (), { w with
      clock := w.clock + 2
      profile := w.profile.set args.configName (r.markBusy args.taskType w.clock (w.clock + 1)) }) := by
  have hr : TaskManager.record args.configName { w with clock := w.clock + 1 + 1 } =
      (.ok r, { w with clock := w.clock + 1 + 1 }) :=
    run_record h
  simp only [TaskManager.markBusy, TaskManager.change, run_bind, now, hr, run_modify]

theorem keeps_proxies (api : ApiConfig) (aws : AwsConfig) : Keeps (fun w => w.profile = P) (proxies api aws) :=
  .bind (Frame.int _) fun _ => .pure _

theorem keeps_spawn (args : TaskArgs) : Keeps (fun w => w.profile = P) (spawn args) := .modify fun _ hw => hw

theorem keeps_record (name : Str) : Keeps (fun w => w.profile = P) (TaskManager.record name) := by
  refine .bind .get fun w => ?_
  split
  · exact .pure _
  · exact .throw _

/-- The status of a registered profile. -/
theorem keeps_checkTaskStatus (h : P.get? name = some r) : Keeps (fun w => w.profile = P) (checkTaskStatus name) := by
  rintro w rfl
  rw [run_checkTaskStatus h]

theorem keeps_regionEntries (name oldRegion newRegion : Str) :
    Keeps (fun w => w.profile = P) (regionEntries name oldRegion newRegion) := .bind (keeps_record _) fun _ => .pure _

theorem keeps_regionAnswer (name oldRegion newRegion text : Str) :
    Keeps (fun w => w.profile = P) (regionAnswer name oldRegion newRegion text) :=
  .bind (keeps_regionEntries _ _ _) fun _ => .pure _

/-! ## What a failed login does -/

/-- The program writes the end of a task for each failure of `F`, and otherwise nothing. -/
structure Effect (name : Str) (r : Record) (m : Py α) (w : World) (F : PyError → Nat → Prop) : Prop where
  fails : ∀ err time, F err time →
    (m w).2.profile = w.profile.set name (r.setStopTask "failed" (.textOf err) time)
  otherwise : (∀ err time, ¬F err time) → (m w).2.profile = w.profile

theorem Effect.of_same {m : Py α} {F : PyError → Nat → Prop} (h : (m w).2.profile = w.profile)
    (hF : ∀ err time, ¬F err time) : Effect name r m w F :=
  ⟨fun err time hf => absurd hf (hF err time), fun _ => h⟩

theorem Effect.congr {m m' : Py α} {w' : World} {F F' : PyError → Nat → Prop} (h : Effect name r m w F)
    (hm : (m' w').2.profile = (m w).2.profile) (hw : w'.profile = w.profile)
    (hF : ∀ err time, F' err time ↔ F err time) :
    Effect name r m' w' F' := by
  refine ⟨fun err time hf => ?_, fun hno => ?_⟩
  · rw [hm, hw]
    exact h.fails err time ((hF err time).1 hf)
  · rw [hm, hw]
    exact h.otherwise fun err time hf => hno err time ((hF err time).2 hf)

/-- `withLogin`, around two programs that leave the table alone. -/
theorem effect_withLogin (h : w.profile.get? name = some r) {response : Py Entries} {rest : Aws → Py (Json PyError)}
    (hresponse : ∀ P, Keeps (fun w => w.profile = P) response)
    (hrest : ∀ a, Keeps (fun w' => w'.profile = w.profile) (rest a)) :
    Effect name r (withLogin name response rest) w (Refused name w) := by
  have hinit : (Aws.init name w).2.profile = w.profile := (frame w.profile).awsInit name w rfl
  cases hi : Aws.init name w with
  | mk x w₁ =>
    rw [hi] at hinit
    cases x with
    | error e =>
      refine .of_same ?_ ?_
      · rw [withLogin, run_bind_error hi]
        exact hinit
      · rintro err time ⟨a, w₁', w₂, ha, _⟩
        rw [hi] at ha
        cases ha
    | ok a =>
      have hkeep : (a.login w₁).2.profile = w.profile :=
        Keeps.of_triple ((frame w.profile).login a) (fun _ _ h => h.1) (fun _ _ h => h) w₁ hinit
      cases hl : a.login w₁ with
      | mk y w₂ =>
        rw [hl] at hkeep
        cases y with
        | ok b =>
          refine .of_same ?_ ?_
          · rw [withLogin, run_bind_ok hi, run_bind_ok (a := Except.ok b) (t := w₂)]
            · exact hrest b w₂ hkeep
            · rw [run_tryCatch, run_bind_ok hl]
              rfl
          · rintro err time ⟨a', w₁', w₂', ha, hfail, _⟩
            rw [hi] at ha
            cases ha
            rw [hl] at hfail
            cases hfail
        | error err =>
          have hr : w₂.profile.get? name = some r := by rw [show w₂.profile = w.profile from hkeep, h]
          have hrun : (withLogin name response rest w).2.profile =
              w.profile.set name (r.setStopTask "failed" (.textOf err) w₂.clock) := by
            rw [withLogin, run_bind_ok hi, run_bind_ok (a := Except.error err) (t := w₂)]
            · dsimp only
              rw [run_bind_ok (run_setStopTask hr _ _), ← show w₂.profile = w.profile from hkeep]
              exact Keeps.bind (hresponse _) (fun _ => .pure _) _ rfl
            · rw [run_tryCatch, run_bind_error hl]
              rfl
          refine ⟨?_, fun hno => absurd ⟨a, w₁, w₂, hi, hl, rfl⟩ (hno err w₂.clock)⟩
          rintro err' time ⟨a', w₁', w₂', ha, hfail, rfl⟩
          rw [hi] at ha
          cases ha
          rw [hl] at hfail
          cases hfail
          exact hrun

/-! ## The routes -/

/-- The key check, around a rest of which the effect is known. -/
theorem effect_checkKey {req : Request} {rest : ApiConfig → AwsConfig → Py (Json PyError)}
    {F : ApiConfig → AwsConfig → PyError → Nat → Prop}
    (hrest : ∀ api aws, Effect name r (rest api aws) (loadProfile (configName req) w).2 (F api aws)) :
    Effect name r (checkKey req rest) w fun err time => ∃ api aws,
      (loadProfile (configName req) w).1 = .ok (api, aws) ∧ validKey req api aws = true ∧ F api aws err time := by
  have hload := profile_loadProfile (configName req) w
  cases hr : (loadProfile (configName req) w).1 with
  | error e =>
    refine .of_same ?_ fun err time hf => ?_
    · rw [checkKey, run_bind_error (t := (loadProfile (configName req) w).2) (by rw [← hr])]
      exact hload
    · obtain ⟨_, _, h, _⟩ := hf
      cases h
  | ok x =>
    obtain ⟨api, aws⟩ := x
    cases hv : validKey req api aws with
    | false =>
      refine .of_same ?_ fun err time hf => ?_
      · rw [KeyCheck.checkKey_of_invalid hr hv]
        exact hload
      · obtain ⟨_, _, h, hv', _⟩ := hf
        cases h
        rw [hv] at hv'
        cases hv'
    | true =>
      refine (hrest api aws).congr (by rw [KeyCheck.checkKey_of_valid hr hv]) hload.symm fun err time => ?_
      constructor
      · rintro ⟨_, _, h, _, hf⟩
        cases h
        exact hf
      · exact fun hf => ⟨api, aws, rfl, hv, hf⟩

/-- The addresses depend on the profile only. -/
theorem run_proxies (api : ApiConfig) (aws : AwsConfig) : ∃ x, ∀ w, proxies api aws w = (x, w) := by
  obtain ⟨x, hx⟩ : ∃ x, Py.int aws.order = fun w => (x, w) := by
    unfold Py.int
    dsimp only
    split
    · exact ⟨_, rfl⟩
    · exact ⟨_, rfl⟩
  cases x with
  | ok n => exact ⟨_, fun w => by rw [proxies, run_bind_ok (congrFun hx w)]; rfl⟩
  | error e => exact ⟨_, fun w => by rw [proxies, run_bind_error (congrFun hx w)]⟩

/-- A busy record gets an answer, an idle one a thread. -/
theorem keeps_start (h : P.get? name = some r) {busy idle : Py (Json PyError)}
    (hbusy : Keeps (fun w => w.profile = P) busy) (hidle : Keeps (fun w => w.profile = P) idle) :
    Keeps (fun w => w.profile = P) (do
      let status ← checkTaskStatus name
      match status with
      | .busy => busy
      | .idle => idle) := by
  refine .bind (keeps_checkTaskStatus h) fun status => ?_
  cases status with
  | busy => exact hbusy
  | idle => exact hidle

/-- **What a request writes to the table.** -/
theorem effect_handle (e : Endpoint) (req : Request) (h : w.profile.get? (configName req) = some r) :
    Effect (configName req) r (handle e req) w (LoginFails (.keyed e) req w) := by
  have hload := profile_loadProfile (configName req) w
  have h₁ : (loadProfile (configName req) w).2.profile.get? (configName req) = some r := by rw [hload, h]
  -- four routes log in at once
  have hlogin : ∀ {response : ApiConfig → AwsConfig → Py Entries}
      {rest : ApiConfig → AwsConfig → Aws → Py (Json PyError)},
      (∀ api aws P, Keeps (fun w => w.profile = P) (response api aws)) →
      (∀ api aws a, Keeps (fun w' => w'.profile = (loadProfile (configName req) w).2.profile) (rest api aws a)) →
      Effect (configName req) r
        (checkKey req fun api aws => withLogin (configName req) (response api aws) (rest api aws)) w
        fun err time => ∃ api aws, (loadProfile (configName req) w).1 = .ok (api, aws) ∧ validKey req api aws = true ∧
          Refused (configName req) (loadProfile (configName req) w).2 err time := fun hresponse hrest =>
    effect_checkKey fun api aws => effect_withLogin h₁ (hresponse api aws) (hrest api aws)
  cases e with
  | reset =>
    refine (hlogin (fun _ _ _ => .pure _) fun _ _ _ => .bind (keeps_spawn _) fun _ => .pure _).congr rfl rfl
      fun err time => ?_
    simp [LoginFails]
  | changeAuth =>
    refine (hlogin (fun _ _ _ => .pure _) fun _ _ _ => .bind (keeps_spawn _) fun _ => .pure _).congr rfl rfl
      fun err time => ?_
    simp [LoginFails]
  | getAvailableRegion =>
    refine (hlogin (fun _ _ _ => .pure _) fun _ _ a => .bind ((frame _).getAllRegions a) fun _ => .pure _).congr rfl rfl
      fun err time => ?_
    simp [LoginFails]
  | getConfig =>
    refine (hlogin (fun _ _ _ => .pure _) fun api aws a => .bind ((frame _).getAllRegions a) fun _ => ?_).congr rfl rfl
      fun err time => ?_
    · refine .bind .get fun w' => ?_
      split
      · exact .throw _
      · exact .bind (keeps_proxies _ _) fun _ => .pure _
    · simp [LoginFails]
  | changeIp =>
    refine (effect_checkKey (F := fun api aws err time => (∃ ps, (proxies api aws w).1 = .ok ps) ∧
      Refused (configName req) (loadProfile (configName req) w).2 err time) fun api aws => ?_).congr rfl rfl
      fun err time => ?_
    · obtain ⟨x, hx⟩ := run_proxies api aws
      simp only [hx w]
      cases x with
      | error e' =>
        refine .of_same ?_ fun err time hf => ?_
        · rw [run_bind_error (hx _)]
        · obtain ⟨⟨_, hps⟩, _⟩ := hf
          cases hps
      | ok ps =>
        have hrest : ∀ a : Aws, Keeps (fun w' => w'.profile = (loadProfile (configName req) w).2.profile)
            (do
              let status ← checkTaskStatus (configName req)
              match status with
              | .busy => return .obj (nameAndRegion (configName req) aws ++ ps ++
                  ([("status", .str "busy"), ("message", .str "Process is busy")] : Entries))
              | .idle =>
                spawn (plainArgs .changeIp (configName req))
                return .obj (nameAndRegion (configName req) aws ++ ps ++
                  ([("status", .str "busy"), ("message", .str "Process started")] : Entries)) : Py (Json PyError)) :=
          fun _ => keeps_start h₁ (.pure _) (.bind (keeps_spawn _) fun _ => .pure _)
        have hresponse : ∀ P, Keeps (fun w => w.profile = P)
            (pure (nameAndRegion (configName req) aws ++ ps) : Py Entries) := fun _ => .pure _
        refine (effect_withLogin h₁ hresponse hrest).congr ?_ rfl fun err time => ?_
        · rw [run_bind_ok (hx _), run_bind_ok (run_registerUnlessAttribute h₁)]
          exact congrArg (fun x : Except PyError (Json PyError) × World => x.2.profile) (run_bind_ok (run_record h₁))
        · simp
    · simp [LoginFails]
  | changeRegion =>
    cases hreg : req.newRegion with
    | none =>
      refine .of_same ?_ fun err time hf => ?_
      · simp only [handle, getChangeRegion, hreg, run_pure]
      · obtain ⟨_, _, _, _, hne, _⟩ := hf
        exact hne rfl hreg
    | some region =>
      have hrest : ∀ (aws : AwsConfig) (_ : Aws), Keeps
          (fun w' => w'.profile = (loadProfile (configName req) w).2.profile)
          (do
            let _ ← TaskManager.record (configName req)
            if aws.region = region then
              regionAnswer (configName req) aws.region region "New region is the same as the old region"
            else
              let status ← checkTaskStatus (configName req)
              match status with
              | .busy => regionAnswer (configName req) aws.region region "Process is busy"
              | .idle =>
                spawn { plainArgs .changeRegion (configName req) with newRegion := some region }
                regionAnswer (configName req) aws.region region "Process started" : Py (Json PyError)) := fun aws _ =>
        .bind (keeps_record _) fun _ => .ite (keeps_regionAnswer _ _ _ _)
          (keeps_start h₁ (keeps_regionAnswer _ _ _ _) (.bind (keeps_spawn _) fun _ => keeps_regionAnswer _ _ _ _))
      have hlogin : ∀ (_ : ApiConfig) (aws : AwsConfig), Effect (configName req) r
          (changeRegionTo (configName req) region aws) (loadProfile (configName req) w).2
          (Refused (configName req) (loadProfile (configName req) w).2) := by
        intro _ aws
        refine (effect_withLogin h₁ (fun _ => keeps_regionEntries (configName req) aws.region region) (hrest aws)).congr
          ?_ rfl fun _ _ => .rfl
        exact congrArg (fun x : Except PyError (Json PyError) × World => x.2.profile) (run_bind_ok (run_record h₁))
      refine (effect_checkKey hlogin).congr ?_ rfl fun err time => ?_
      · simp only [handle, getChangeRegion, hreg]
      · simp [LoginFails, hreg]
  | changeWhitelist =>
    refine (effect_checkKey (F := fun _ _ _ _ => False) fun api aws => ?_).congr rfl rfl fun err time => ?_
    · exact .of_same rfl fun _ _ => id
    · simp [LoginFails]

theorem effect_getTask (name : Str) (req : Request) (w : World) :
    Effect name r (App.getTask req) w (LoginFails .getTask req w) := by
  refine .of_same ?_ fun _ _ => id
  have hkeep : Keeps (fun w' => w'.profile = w.profile) (App.getTask req) := by
    refine .bind (frame w.profile).build fun _ => .bind (Frame.ofConfig _) fun api => .ite (.pure _) ?_
    exact .bind .get fun _ => .pure _
  exact hkeep w rfl

/-- Replacing a record is seen in its own view. -/
theorem sameRecords_set {d : Dict Str Record} (h : d.get? name = some r) (r' : Record) :
    SameRecords d (d.set name r') ↔ view r' = view r := by
  constructor
  · intro hs
    have := hs name
    rw [Dict.get?_set_self, h] at this
    exact Option.some.inj this
  · intro hv name'
    by_cases hn : name = name'
    · rw [← hn, Dict.get?_set_self, h, Option.map_some, Option.map_some, hv]
    · rw [Dict.get?_set_ne _ hn]

/-- **A request for a registered profile leaves the records alone exactly if its login does not fail, or the record
already says what is written then.** -/
theorem sameRecords_iff (route : Route) (req : Request) (h : w.profile.get? (configName req) = some r) :
    SameRecords w.profile (answer route req w).2.profile ↔
      ∀ err time, LoginFails route req w err time → view (r.setStopTask "failed" (.textOf err) time) = view r := by
  have heffect : Effect (configName req) r (answer route req) w (LoginFails route req w) := by
    cases route with
    | keyed e => exact effect_handle e req h
    | getTask => exact effect_getTask _ req w
  constructor
  · intro hs err time hf
    rw [heffect.fails err time hf] at hs
    exact (sameRecords_set h _).1 hs
  · intro hall
    by_cases hf : ∃ err time, LoginFails route req w err time
    · obtain ⟨err, time, hf⟩ := hf
      rw [heffect.fails err time hf]
      exact (sameRecords_set h _).2 (hall err time hf)
    · rw [heffect.otherwise fun err time hf' => hf ⟨err, time, hf'⟩]
      exact fun _ => rfl

/-! ## Two requests -/

/-- A profile whose task runs. -/
def busyRecord : Record := ⟨"aws1", .busy, some (some .changeIp), some 0, some "us-east-1", .empty⟩

/-- The example file with that record; its account has no regions, so every login fails. -/
def busyWorld : World := { exampleWorld with profile := [("aws1", busyRecord)] }

def viewRequest (apikey : Str) : Request := ⟨some apikey, some "aws1", none, none, none, none⟩

/-- With the region of the profile, so that its login goes well. -/
def reachableWorld : World := { busyWorld with cloud := ⟨[("ap-southeast-2", .empty)], 0⟩ }

theorem not_loginFails_reachable (e : Endpoint) (key : Str) (err : PyError) (time : Nat) :
    ¬LoginFails (.keyed e) (viewRequest key) reachableWorld err time := by
  intro hfails
  have hrefused : Refused "aws1" reachableWorld err time := by
    cases e with
    | changeWhitelist => exact hfails.elim
    | _ =>
      obtain ⟨api, aws, -, -, -, -, hrefused⟩ := hfails
      rwa [show loadProfile (configName (viewRequest key)) reachableWorld = _ from
        KeyCheck.loadProfile_example rfl] at hrefused
  obtain ⟨a, w₁, w₂, hinit, hlogin, -⟩ := hrefused
  rw [Aws.init_example rfl] at hinit
  cases hinit
  have hok : (Aws.login ⟨ConfigLoader.exampleLoader, "aws1", ConfigLoader.exampleAwsConfig, none, none, none, none⟩
      reachableWorld).1.toOption.isSome = true := rfl
  rw [hlogin] at hok
  cases hok

/-- A `/get_config` of a busy profile with a valid key and a good login. -/
theorem sameRecords_busy :
    SameRecords reachableWorld.profile (answer (.keyed .getConfig) (viewRequest "api") reachableWorld).2.profile :=
  (sameRecords_iff (r := busyRecord) _ _ (by rfl)).2 fun err time hfails =>
    absurd hfails (not_loginFails_reachable .getConfig "api" err time)

/-- A `/get_config` whose login fails sets a busy record to idle, and starts no task. -/
theorem failed_login_writes : ¬∀ (route : Route) (req : Request) (w : World) (r : Record),
    w.profile.get? (configName req) = some r → (answer route req w).2.threads = w.threads →
    SameRecords w.profile (answer route req w).2.profile := by
  intro h
  have hrun : (answer (.keyed .getConfig) (viewRequest "api") busyWorld).2.threads = [] ∧
      ((answer (.keyed .getConfig) (viewRequest "api") busyWorld).2.profile.get? "aws1").map (·.status) =
        some .idle := by
    rw [answer, handle, getConfigDetail, KeyCheck.checkKey_example rfl rfl rfl]
    rw [show configName (viewRequest "api") = "aws1".toList from rfl, KeyCheck.withLogin_example rfl]
    decide +kernel
  have hsame := h (.keyed .getConfig) (viewRequest "api") busyWorld busyRecord rfl hrun.1 "aws1"
  have hview := congrArg (Option.map Prod.fst) hsame
  rw [Option.map_map, Option.map_map] at hview
  exact absurd (hrun.2.symm.trans hview) (by decide)

end RecordFrame
end Iprotate
