import Iprotate.Built
import Iprotate.RecordFrame

/-!
# Requests for profiles that are not registered

The seven routes for a profile of `config.conf` that may be missing in the table of records, as one that was added to
the file after the start is.

- A loader can be built again and again from what a construction leaves, so of the handlers' steps only those that
  need the record go wrong; which these are depends on the route and on how the login ends (`LoginRun`).
- A request with a good key is answered, and its thread gets to the task method, exactly if the profile is registered
  or the route does not come to such a step (`works_iff`).
- A `/get_config` for a new profile is an internal error (`unregistered_fails`).
-/

namespace Iprotate
namespace Endpoints

open App Py Prog ConfigLoader RecordFrame

/-! ## The property and the condition -/

/-- The handler returns JSON, if AWS does not raise where that is not caught. -/
def Answers (x : Except PyError (Json PyError)) : Prop := (∃ j, x = .ok j) ∨ ∃ m, x = .error (.external m)

/-- A thread with these arguments gets to `RunTask()` and over it. -/
def ReachesMethod (args : TaskArgs) (w : World) : Prop :=
  ∃ t w', (do TaskManager.markBusy args; RunTask.init : Py RunTask) w = (.ok t, w')

/-- The request is answered, and the threads it starts get to their methods. -/
structure Works (m : Py (Json PyError)) (w : World) : Prop where
  answers : Answers (m w).1
  threads : ∃ new, (m w).2.threads = w.threads ++ new ∧ ∀ args ∈ new, ReachesMethod args (m w).2

/-- The key check is passed. -/
def Authenticated (req : Request) (w : World) : Prop :=
  ∃ api aws, (loadProfile (configName req) w).1 = .ok (api, aws) ∧ validKey req api aws = true

/-- `config.conf` has a section for a profile of this name. -/
def IsProfile (name : Str) (w : World) : Prop :=
  ∃ p, ConfigParser.read w.config = .ok p ∧ name ∈ Loader.profileNames p

def Registered (name : Str) (w : World) : Prop := ∃ r, w.profile.get? name = some r

/-- `Aws(config_name)` goes well, and this is what `login` does. -/
def LoginRun (name : Str) (w : World) (x : Except PyError Aws) (w' : World) : Prop :=
  ∃ a w₁, Aws.init name w = (.ok a, w₁) ∧ a.login w₁ = (x, w')

/-- The request for a profile that is not registered does not come to a step that needs the record. A `/change_ip`
registers the profile, unless `hasattr` takes its name for a method of `dict`. -/
def Spared : Endpoint → Request → World → Prop
  | .changeIp, req, _ => configName req ∉ dictAttributes
  | .changeRegion, req, _ => req.newRegion = none
  | .getAvailableRegion, req, w => ∃ a w', LoginRun (configName req) (loadProfile (configName req) w).2 (.ok a) w'
  | .getConfig, req, w => ∃ a w' m, LoginRun (configName req) (loadProfile (configName req) w).2 (.ok a) w' ∧
      (a.getAllRegions w').1 = .error (.external m)
  | _, _, _ => False

/-! ## Constructions -/

variable {name : Str} {w w' : World} {P : Dict Str Record} {T : List TaskArgs}

/-- A readable file, and a table and threads that stay as they are. -/
def Steady (name : Str) (P : Dict Str Record) (T : List TaskArgs) (w : World) : Prop :=
  Readable name w.config ∧ w.profile = P ∧ w.threads = T

theorem frame (name : Str) (P : Dict Str Record) (T : List TaskArgs) : Frame (Steady name P T) where
  call c w hw := by
    unfold Py.call
    split <;> exact hw
  refuse _ _ hw := hw
  clock _ hw := hw
  files _ _ hw := hw
  rules _ _ hw := hw
  nextId _ _ hw := hw
  grow _ _ _ _ _ _ hw := hw
  build := by
    rintro w ⟨hr, hw⟩
    obtain ⟨l, text, hb, hr', -⟩ := hr.build
    rw [onConfig, hb]
    exact ⟨hr', hw⟩

theorem run_build (h : Steady name P T w) : ∃ l w', onConfig ConfigLoader.build w = (.ok l, w') ∧ Steady name P T w' ∧
    ∃ aws l', l.loadAws name = .ok (aws, l') := by
  obtain ⟨hr, hw⟩ := h
  obtain ⟨l, text, hb, hr', hload⟩ := hr.build
  exact ⟨l, { w with config := text }, by rw [onConfig, hb], ⟨hr', hw⟩, hload⟩

theorem exists_login (h : Steady name P T w) : ∃ x w', LoginRun name w x w' ∧ Steady name P T w' := by
  obtain ⟨l, w₁, hb, h₁, aws, l', hload⟩ := run_build h
  have hinit : Aws.init name w = (.ok ⟨l', name, aws, none, none, none, none⟩, w₁) := by
    rw [Aws.init, run_bind_ok hb, hload]
    rfl
  have hlogin := Keeps.of_triple ((frame name P T).login ⟨l', name, aws, none, none, none, none⟩) (fun _ _ h => h.1)
    (fun _ _ h => h) w₁ h₁
  exact ⟨_, _, ⟨_, _, hinit, rfl⟩, hlogin⟩

theorem LoginRun.unique {x y : Except PyError Aws} {w₁ w₂ : World} (h : LoginRun name w x w₁)
    (h' : LoginRun name w y w₂) : x = y ∧ w₁ = w₂ := by
  obtain ⟨a, u, hi, hl⟩ := h
  obtain ⟨b, v, hi', hl'⟩ := h'
  rw [hi] at hi'
  cases hi'
  rw [hl] at hl'
  cases hl'
  exact ⟨rfl, rfl⟩

/-- What `loadProfile` leaves, and the number of the profile. -/
theorem calm_of_loadProfile {api : ApiConfig} {aws : AwsConfig} (hp : IsProfile name w)
    (h : (loadProfile name w).1 = .ok (api, aws)) :
    Steady name w.profile w.threads (loadProfile name w).2 ∧ ∃ n, aws.order = showNat n := by
  obtain ⟨p, hread, hmem⟩ := hp
  obtain ⟨i, hi⟩ := List.mem_iff_getElem?.1 hmem
  have hnormal := ConfigParser.read_normal hread
  cases hb : ConfigLoader.build w.config with
  | mk x text =>
    cases x with
    | error e =>
      rw [loadProfile, run_bind_error (t := { w with config := text }) (e := .config e) (by rw [onConfig, hb])] at h
      cases h
    | ok l =>
      have hreadable := readable_of_build hb hread hmem
      have hrun : onConfig ConfigLoader.build w = (.ok l, { w with config := text }) := by rw [onConfig, hb]
      obtain ⟨q, hbuilt⟩ := built_of_build hb
      obtain rfl : p = q := Except.ok.inj (hread.symm.trans hbuilt.read)
      have hsteady : Steady name w.profile w.threads { w with config := text } := ⟨readable_left hbuilt hmem, rfl, rfl⟩
      rw [loadProfile, run_bind_ok hrun] at h
      cases hl : l.loadAws name with
      | error e =>
        rw [hl] at h
        cases h
      | ok r =>
        obtain ⟨aws₁, l₁⟩ := r
        cases hapi : Loader.loadApiConfig l₁.config with
        | error e =>
          simp only [hl, run_bind, run_ofConfig_ok, hapi, run_ofConfig_error] at h
          cases h
        | ok api' =>
          cases hl₁ : l₁.loadAws name with
          | error e =>
            simp only [hl, run_bind, run_ofConfig_ok, hapi, hl₁, run_ofConfig_error] at h
            cases h
          | ok r₁ =>
            have hrest : (loadProfile name w).2 = { w with config := text } := by
              rw [loadProfile, run_bind_ok hrun]
              simp only [hl, run_bind, run_ofConfig_ok, hapi, hl₁, run_pure]
            simp only [hl, run_bind, run_ofConfig_ok, hapi, hl₁, run_pure] at h
            cases h
            refine ⟨hrest ▸ hsteady, i + 1, ?_⟩
            -- the number is in the section, and `load_aws_config` leaves it there
            have hraw : l₁.config.raw name "order" = some (showNat (i + 1)) := by
              refine Loader.raw_setDefaults (Loader.loadAwsConfig_eq_ok.1 (loadAwsConfig_of_loadAws hl)).1 ?_
              rw [hbuilt.config]
              exact raw_settled_order hnormal hi
            exact congrArg Prod.snd (Numbering.order_of_loadAwsConfig hraw
              (fun hd => absurd (mem_toString hd) (by decide)) (loadAwsConfig_of_loadAws hl₁))

/-! ## The login -/

variable {response : Py Entries} {rest : Aws → Py (Json PyError)}

theorem run_withLogin_ok {a : Aws} (h : LoginRun name w (.ok a) w') : withLogin name response rest w = rest a w' := by
  obtain ⟨b, w₁, hi, hl⟩ := h
  rw [withLogin, run_bind_ok hi, run_bind_ok (a := Except.ok a) (t := w')]
  rw [run_tryCatch, run_bind_ok hl]
  rfl

theorem run_withLogin_error {e : PyError} (h : LoginRun name w (.error e) w') :
    withLogin name response rest w = (do
      TaskManager.setStopTask name "failed" (.textOf e)
      let response ← response
      return .obj ((response.set "status" (.str "failed")).set "message" (.textOf e)) : Py (Json PyError)) w' := by
  obtain ⟨b, w₁, hi, hl⟩ := h
  rw [withLogin, run_bind_ok hi, run_bind_ok (a := Except.error e) (t := w')]
  rw [run_tryCatch, run_bind_error hl]
  rfl

/-! ## Registered profiles -/

/-- The request is answered, and its threads are for this profile, which is registered. -/
structure Fine (name : Str) (T : List TaskArgs) (x : Except PyError (Json PyError) × World) : Prop where
  answers : Answers x.1
  threads : ∃ new, x.2.threads = T ++ new ∧ ∀ args ∈ new, args.configName = name
  readable : Readable name x.2.config
  registered : Registered name x.2

variable {r : Record}

theorem reaches {args : TaskArgs} (hname : args.configName = name) (hreadable : Readable name w.config)
    (hr : Registered name w) : ReachesMethod args w := by
  obtain ⟨r, hr⟩ := hr
  subst hname
  have hmark := run_markBusy hr
  obtain ⟨l, w₁, hb, -⟩ := run_build (w := { w with clock := w.clock + 2, profile := _ }) ⟨hreadable, rfl, rfl⟩
  refine ⟨⟨l⟩, w₁, ?_⟩
  rw [run_bind_ok hmark, RunTask.init, run_bind_ok hb]
  rfl

theorem Fine.works {m : Py (Json PyError)} (h : Fine name w.threads (m w)) : Works m w := by
  obtain ⟨new, hnew, hname⟩ := h.threads
  exact ⟨h.answers, new, hnew, fun args hargs => reaches (hname args hargs) h.readable h.registered⟩

theorem fine_pure (h : Steady name P T w) (hr : P.get? name = some r) (j : Json PyError) : Fine name T (.ok j, w) :=
  ⟨.inl ⟨j, rfl⟩, ⟨[], by rw [h.2.2, List.append_nil], fun _ h => by cases h⟩, h.1, r, by rw [h.2.1, hr]⟩

/-- A thread is started, and the rest is fine. -/
theorem fine_spawn (h : Steady name P T w) {args : TaskArgs} (hargs : args.configName = name) {m : Py (Json PyError)}
    (hm : ∀ w', Steady name P (T ++ [args]) w' → Fine name (T ++ [args]) (m w')) :
    Fine name T ((do spawn args; m : Py (Json PyError)) w) := by
  have h' : Steady name P (T ++ [args]) { w with threads := w.threads ++ [args] } := ⟨h.1, h.2.1, by rw [← h.2.2]⟩
  obtain ⟨hanswers, ⟨new, hnew, hname⟩, hreadable, hregistered⟩ := hm _ h'
  refine ⟨hanswers, ⟨args :: new, ?_, fun a ha => ?_⟩, hreadable, hregistered⟩
  · rw [List.append_cons]
    exact hnew
  · rcases List.mem_cons.1 ha with rfl | ha
    · exact hargs
    · exact hname a ha

/-- The two ends of a login. -/
theorem fine_withLogin (h : Steady name P T w) (hr : P.get? name = some r)
    (hresponse : ∀ w, Registered name w → ∃ es, response w = (.ok es, w))
    (hrest : ∀ a w', Steady name P T w' → Fine name T (rest a w')) : Fine name T (withLogin name response rest w) := by
  obtain ⟨x, w', hrun, h'⟩ := exists_login h
  cases x with
  | ok a =>
    rw [run_withLogin_ok hrun]
    exact hrest a w' h'
  | error e =>
    have hr' : w'.profile.get? name = some r := by rw [h'.2.1, hr]
    have hset := Dict.get?_set_self w'.profile name (r.setStopTask "failed" (.textOf e) w'.clock)
    rw [run_withLogin_error hrun, run_bind_ok (run_setStopTask hr' _ _)]
    have hafter : Steady name (w'.profile.set name (r.setStopTask "failed" (.textOf e) w'.clock)) T { w' with
        clock := w'.clock + 1, profile := w'.profile.set name (r.setStopTask "failed" (.textOf e) w'.clock) } :=
      ⟨h'.1, rfl, h'.2.2⟩
    obtain ⟨es, hes⟩ := hresponse _ ⟨_, hafter.2.1 ▸ hset⟩
    rw [run_bind_ok hes]
    exact fine_pure hafter hset _

theorem getAllRegions_answers (a : Aws) (w : World) :
    (∃ regions, (a.getAllRegions w).1 = .ok regions) ∨ ∃ m, (a.getAllRegions w).1 = .error (.external m) := by
  have hcall : ∀ c, Triple (fun _ => True) (Py.call c) (fun _ _ => True) (fun e _ => ∃ m, e = .external m) := by
    intro c w _
    unfold Py.call
    cases w.script with
    | nil => trivial
    | cons x script =>
      cases x with
      | ok text => trivial
      | raises m => exact ⟨m, rfl⟩
  have hquery : ∀ client op, Triple (fun _ => True) (Ec2.query client op) (fun _ _ => True)
      (fun e _ => ∃ m, e = .external m) := by
    intro client op
    refine .bind (hcall _) fun _ => .bind .get fun w => ?_
    rintro w' ⟨rfl, -⟩
    cases w.cloud.region? client.region with
    | none => exact ⟨_, rfl⟩
    | some r => trivial
  have h : Triple (fun _ => True) a.getAllRegions (fun _ _ => True) (fun e _ => ∃ m, e = .external m) :=
    .bind (hcall _) fun _ => .bind (hquery _ _) fun _ => .bind (.conseq .get (fun _ h => h) (fun _ _ _ => trivial)
      fun _ _ h => h) fun _ => .pure fun _ h => h
  have hw := h w trivial
  cases hr : a.getAllRegions w with
  | mk x w' =>
    rw [hr] at hw
    cases x with
    | ok regions => exact .inl ⟨regions, rfl⟩
    | error e =>
      obtain ⟨m, rfl⟩ := hw
      exact .inr ⟨m, rfl⟩

/-- The list of regions, and what is done with it. -/
theorem fine_getAllRegions (h : Steady name P T w) (hr : P.get? name = some r) {a : Aws}
    {rest : List (Str × Str) → Py (Json PyError)}
    (hrest : ∀ regions w', Steady name P T w' → Fine name T (rest regions w')) :
    Fine name T ((a.getAllRegions >>= rest) w) := by
  have h' := (frame name P T).getAllRegions a w h
  cases hg : a.getAllRegions w with
  | mk x w' =>
    have hanswers := getAllRegions_answers a w
    rw [hg] at h' hanswers
    cases x with
    | ok regions =>
      rw [run_bind_ok hg]
      exact hrest regions w' h'
    | error e =>
      obtain ⟨_, hm⟩ | ⟨m, hm⟩ := hanswers
      · cases hm
      · cases hm
        rw [run_bind_error hg]
        exact ⟨.inr ⟨m, rfl⟩, ⟨[], by rw [h'.2.2, List.append_nil], fun _ h => by cases h⟩, h'.1, r, by rw [h'.2.1, hr]⟩

/-- An answer to a busy profile, a thread for an idle one. -/
theorem fine_start (h : Steady name P T w) (hr : P.get? name = some r) {busy idle : Py (Json PyError)}
    (hbusy : Fine name T (busy w)) (hidle : Fine name T (idle w)) : Fine name T ((do
      let status ← checkTaskStatus name
      match status with
      | .busy => busy
      | .idle => idle : Py (Json PyError)) w) := by
  have hr' : w.profile.get? name = some r := by rw [h.2.1, hr]
  rw [run_bind_ok (run_checkTaskStatus hr')]
  cases r.status with
  | busy => exact hbusy
  | idle => exact hidle

theorem run_regionEntries (hr : Registered name w) (oldRegion newRegion : Str) :
    ∃ es, regionEntries name oldRegion newRegion w = (.ok es, w) := by
  obtain ⟨r, hr⟩ := hr
  exact ⟨_, by rw [regionEntries, run_bind_ok (run_record hr)]; rfl⟩

theorem fine_regionAnswer (h : Steady name P T w) (hr : P.get? name = some r) (oldRegion newRegion text : Str) :
    Fine name T (regionAnswer name oldRegion newRegion text w) := by
  obtain ⟨es, hes⟩ := run_regionEntries ⟨r, by rw [h.2.1, hr]⟩ oldRegion newRegion
  rw [regionAnswer, run_bind_ok hes]
  exact fine_pure h hr _

theorem run_proxies_showNat (api : ApiConfig) {aws : AwsConfig} {n : Nat} (h : aws.order = showNat n) (w : World) :
    ∃ es, proxies api aws w = (.ok es, w) :=
  ⟨_, by rw [proxies, h, run_bind_ok (Numbering.number_showNat n w)]; rfl⟩

/-- What a `/change_ip` does once its profile is registered. -/
theorem fine_changeIp (h : Steady name P T w) (hr : P.get? name = some r) (response : Entries) : Fine name T ((do
      let _ ← TaskManager.record name
      withLogin name (pure response) fun _ => do
        let status ← checkTaskStatus name
        match status with
        | .busy => return .obj (response ++ ([("status", .str "busy"), ("message", .str "Process is busy")] : Entries))
        | .idle =>
          spawn (plainArgs .changeIp name)
          return .obj (response ++ ([("status", .str "busy"), ("message", .str "Process started")] : Entries)) :
        Py (Json PyError)) w) := by
  have hr' : w.profile.get? name = some r := by rw [h.2.1, hr]
  rw [run_bind_ok (run_record hr')]
  refine fine_withLogin h hr (fun w _ => ⟨response, rfl⟩) fun _ w' h' => ?_
  exact fine_start h' hr (fine_pure h' hr _) (fine_spawn h' rfl fun _ h'' => fine_pure h'' hr _)

theorem works_of_answers {m : Py (Json PyError)} (h : Answers (m w).1) (hthreads : (m w).2.threads = w.threads) :
    Works m w := ⟨h, [], by rw [hthreads, List.append_nil], fun _ h => by cases h⟩

/-- A `/change_region` without a region. -/
theorem works_noRegion {req : Request} (h : req.newRegion = none) (w : World) : Works (handle .changeRegion req) w := by
  have hrun : handle .changeRegion req w = (.ok (message "New region is not provided"), w) := by
    show getChangeRegion req w = _
    rw [getChangeRegion, h]
    rfl
  exact works_of_answers (.inl ⟨_, congrArg Prod.fst hrun⟩) (congrArg (·.2.threads) hrun)

/-- A request for a registered profile. -/
theorem works_of_registered (e : Endpoint) {req : Request} (hp : IsProfile (configName req) w)
    (hauth : Authenticated req w) (hr : Registered (configName req) w) : Works (handle e req) w := by
  by_cases hnone : e = .changeRegion ∧ req.newRegion = none
  · obtain ⟨rfl, hnone⟩ := hnone
    exact works_noRegion hnone w
  obtain ⟨api, aws, hload, hv⟩ := hauth
  obtain ⟨r, hr⟩ := hr
  obtain ⟨h, n, horder⟩ := calm_of_loadProfile hp hload
  have hvalid : ∀ rest, checkKey req rest w = rest api aws (loadProfile (configName req) w).2 :=
    fun rest => KeyCheck.checkKey_of_valid hload hv
  have hrecord : ∀ {w'}, Steady (configName req) w.profile w.threads w' → w'.profile.get? (configName req) = some r :=
    fun h' => by rw [h'.2.1, hr]
  refine Fine.works (show Fine (configName req) w.threads _ from ?_)
  cases e with
  | changeIp =>
    show Fine (configName req) w.threads (getStartProcess req w)
    obtain ⟨es, hes⟩ := run_proxies_showNat api horder (loadProfile (configName req) w).2
    rw [getStartProcess, hvalid, run_bind_ok hes, run_bind_ok (run_registerUnlessAttribute (hrecord h))]
    exact fine_changeIp h hr _
  | reset =>
    show Fine (configName req) w.threads (getReset req w)
    rw [getReset, hvalid]
    exact fine_withLogin h hr (fun w _ => ⟨_, rfl⟩) fun _ _ h' => fine_spawn h' rfl fun _ h'' => fine_pure h'' hr _
  | changeAuth =>
    show Fine (configName req) w.threads (getChangeAuth req w)
    rw [getChangeAuth, hvalid]
    exact fine_withLogin h hr (fun w _ => ⟨_, rfl⟩) fun _ _ h' => fine_spawn h' rfl fun _ h'' => fine_pure h'' hr _
  | changeRegion =>
    show Fine (configName req) w.threads (getChangeRegion req w)
    unfold getChangeRegion
    cases hregion : req.newRegion with
    | none => exact absurd ⟨rfl, hregion⟩ hnone
    | some newRegion =>
      show Fine (configName req) w.threads (checkKey req _ w)
      rw [hvalid, changeRegionTo, run_bind_ok (run_record (hrecord h))]
      refine fine_withLogin h hr (fun w hw => run_regionEntries hw _ _) fun _ w' h' => ?_
      rw [run_bind_ok (run_record (hrecord h'))]
      split
      · exact fine_regionAnswer h' hr _ _ _
      · refine fine_start h' hr (fine_regionAnswer h' hr _ _ _) ?_
        exact fine_spawn h' rfl fun _ h'' => fine_regionAnswer h'' hr _ _ _
  | getAvailableRegion =>
    show Fine (configName req) w.threads (getAvailableRegion req w)
    rw [getAvailableRegion, hvalid]
    exact fine_withLogin h hr (fun w _ => ⟨_, rfl⟩) fun _ _ h' => fine_getAllRegions h' hr fun _ _ h'' =>
      fine_pure h'' hr _
  | getConfig =>
    show Fine (configName req) w.threads (getConfigDetail req w)
    rw [getConfigDetail, hvalid]
    refine fine_withLogin h hr (fun w _ => ⟨_, rfl⟩) fun _ _ h' => fine_getAllRegions h' hr fun _ w'' h'' => ?_
    obtain ⟨es, hes⟩ := run_proxies_showNat api horder w''
    rw [run_bind_ok (run_get w''), hrecord h'']
    show Fine (configName req) w.threads ((proxies api aws >>= fun _ => _) w'')
    rw [run_bind_ok hes]
    exact fine_pure h'' hr _
  | changeWhitelist =>
    show Fine (configName req) w.threads (App.changeWhitelist req w)
    rw [App.changeWhitelist, hvalid]
    exact fine_spawn h rfl fun _ h' => fine_pure h' hr _

/-! ## Profiles that are not registered -/

theorem run_record_none (h : w.profile.get? name = none) :
    TaskManager.record name w = (.error (.keyError name), w) := by
  simp only [TaskManager.record, run_bind, run_get, h, run_throw]

theorem not_works_of_error {m : Py (Json PyError)} {e : PyError} (h : (m w).1 = .error e)
    (he : ∀ msg, e ≠ .external msg) :
    ¬Works m w := by
  intro hw
  rcases hw.answers with ⟨j, hj⟩ | ⟨msg, hmsg⟩
  · rw [h] at hj
    cases hj
  · rw [h] at hmsg
    exact he msg (Except.error.inj hmsg)

/-- A thread whose record is missing dies at its first step. -/
theorem not_works_of_thread {m : Py (Json PyError)} (args : TaskArgs) (hthreads : (m w).2.threads = w.threads ++ [args])
    (hnone : (m w).2.profile.get? args.configName = none) : ¬Works m w := by
  intro hw
  obtain ⟨new, hnew, hreach⟩ := hw.threads
  obtain rfl : [args] = new := List.append_cancel_left (hthreads.symm.trans hnew)
  obtain ⟨t, w', hrun⟩ := hreach args List.mem_cons_self
  have hmark : ∃ w', TaskManager.markBusy args (m w).2 = (.error (.keyError args.configName), w') := by
    refine ⟨{ (m w).2 with clock := (m w).2.clock + 1 + 1 }, ?_⟩
    have hr : TaskManager.record args.configName { (m w).2 with clock := (m w).2.clock + 1 + 1 } = _ :=
      run_record_none hnone
    simp only [TaskManager.markBusy, TaskManager.change, run_bind, now, hr]
  obtain ⟨w₁, hmark⟩ := hmark
  rw [run_bind_error hmark] at hrun
  cases hrun

/-- A login that fails cannot be noted. -/
theorem withLogin_unregistered {e : PyError} (h : LoginRun name w (.error e) w') (hnone : w'.profile.get? name = none) :
    (withLogin name response rest w).1 = .error (.keyError name) := by
  have hstop : TaskManager.setStopTask name "failed" (.textOf e) w' =
      (.error (.keyError name), { w' with clock := w'.clock + 1 }) := by
    have hr : TaskManager.record name { w' with clock := w'.clock + 1 } = _ := run_record_none hnone
    simp only [TaskManager.setStopTask, TaskManager.change, run_bind, now, hr]
  rw [run_withLogin_error h, run_bind_error hstop]

/-- A login, and a thread that dies. -/
theorem not_works_login {m : Py (Json PyError)} {args : TaskArgs} (h : Steady name w.profile w.threads w')
    (hnone : w.profile.get? name = none) (hargs : args.configName = name) (j : Json PyError)
    (hm : m w = withLogin name response (fun _ => do spawn args; return j) w') : ¬Works m w := by
  obtain ⟨x, w'', hrun, h''⟩ := exists_login h
  have hnone'' : w''.profile.get? name = none := by rw [h''.2.1, hnone]
  cases x with
  | error e =>
    refine not_works_of_error (e := .keyError name) ?_ fun _ h => by cases h
    rw [hm, withLogin_unregistered hrun hnone'']
  | ok a =>
    rw [run_withLogin_ok hrun] at hm
    refine not_works_of_thread args ?_ ?_
    · rw [hm, ← h''.2.2]
      rfl
    · rw [hm, hargs]
      exact hnone''

/-- `register_profile` of a new profile. -/
theorem run_registerProfile_new (h : Steady name P T w) (hnone : P.get? name = none) : ∃ r w',
    TaskManager.registerProfile name w = (.ok (), w') ∧ Steady name (P.set name r) T w' := by
  obtain ⟨l, w₁, hb, h₁, aws, l', hload⟩ := run_build h
  refine ⟨.new aws, { w₁ with profile := w₁.profile.set name (.new aws) }, ?_, h₁.1, by rw [← h₁.2.1], h₁.2.2⟩
  have hget : w.profile.get? name = none := by rw [h.2.1, hnone]
  rw [TaskManager.registerProfile, run_bind_ok (run_get w), hget]
  show (onConfig ConfigLoader.build >>= _) w = _
  rw [run_bind_ok hb, hload]
  rfl

/-- **When a request for a profile works**: the profile is registered, or the route does not need the record. -/
theorem works_iff (e : Endpoint) (req : Request) (w : World) (hp : IsProfile (configName req) w)
    (hauth : Authenticated req w) : Works (handle e req) w ↔ Registered (configName req) w ∨ Spared e req w := by
  by_cases hreg : Registered (configName req) w
  · exact iff_of_true (works_of_registered e hp hauth hreg) (.inl hreg)
  have hnone : w.profile.get? (configName req) = none := by
    cases hr : w.profile.get? (configName req) with
    | none => rfl
    | some r => exact absurd ⟨r, hr⟩ hreg
  obtain ⟨api, aws, hload, hv⟩ := hauth
  obtain ⟨h, n, horder⟩ := calm_of_loadProfile hp hload
  have hvalid : ∀ rest, checkKey req rest w = rest api aws (loadProfile (configName req) w).2 :=
    fun rest => KeyCheck.checkKey_of_valid hload hv
  have hnone' : (loadProfile (configName req) w).2.profile.get? (configName req) = none := by rw [h.2.1, hnone]
  have hno : ∀ {m : Py (Json PyError)} {c : Prop}, ¬Works m w → ¬c →
      (Works m w ↔ Registered (configName req) w ∨ c) := fun hw hc => iff_of_false hw (not_or.2 ⟨hreg, hc⟩)
  cases e with
  | changeIp =>
    obtain ⟨es, hes⟩ := run_proxies_showNat api horder (loadProfile (configName req) w).2
    by_cases hattr : configName req ∈ dictAttributes
    · refine hno (not_works_of_error (e := .keyError (configName req)) ?_ fun _ h => by cases h) fun hs => hs hattr
      have hregister : registerUnlessAttribute (configName req) = pure () := if_pos hattr
      show (getStartProcess req w).1 = _
      rw [getStartProcess, hvalid, run_bind_ok hes, hregister, run_bind_ok (run_pure _ _),
        run_bind_error (run_record_none hnone')]
    · refine iff_of_true (Fine.works (show Fine (configName req) w.threads _ from ?_)) (.inr hattr)
      have hregister : registerUnlessAttribute (configName req) = TaskManager.registerProfile (configName req) :=
        if_neg hattr
      obtain ⟨r, w', hrun, h'⟩ := run_registerProfile_new h hnone
      show Fine (configName req) w.threads (getStartProcess req w)
      rw [getStartProcess, hvalid, run_bind_ok hes, hregister, run_bind_ok hrun]
      exact fine_changeIp h' (Dict.get?_set_self _ _ _) _
  | reset =>
    have hstart : handle .reset req w = withLogin (configName req) (pure (nameAndRegion (configName req) aws))
        (fun _ => do
          spawn (plainArgs .reset (configName req))
          return message "Process started") (loadProfile (configName req) w).2 := by
      show getReset req w = _
      rw [getReset, hvalid]
    exact hno (not_works_login h hnone rfl _ hstart) id
  | changeAuth =>
    have hstart : handle .changeAuth req w = withLogin (configName req) (pure (nameAndRegion (configName req) aws))
        (fun _ => do
          spawn { plainArgs .changeAuth (configName req) with newUser := req.newUser, newPass := req.newPass }
          return message "Process started") (loadProfile (configName req) w).2 := by
      show getChangeAuth req w = _
      rw [getChangeAuth, hvalid]
    exact hno (not_works_login h hnone rfl _ hstart) id
  | changeRegion =>
    cases hregion : req.newRegion with
    | none => exact iff_of_true (works_noRegion hregion w) (.inr hregion)
    | some newRegion =>
      refine hno (not_works_of_error (e := .keyError (configName req)) ?_ fun _ h => by cases h) fun hs => ?_
      · show (getChangeRegion req w).1 = _
        rw [getChangeRegion, hregion]
        show (checkKey req _ w).1 = _
        rw [hvalid, changeRegionTo, run_bind_error (run_record_none hnone')]
      · rw [Spared, hregion] at hs
        cases hs
  | getAvailableRegion =>
    obtain ⟨x, w', hrun, h'⟩ := exists_login h
    have hstart : handle .getAvailableRegion req w =
        withLogin (configName req) (pure (nameAndRegion (configName req) aws))
          (fun client => do
            let regions ← client.getAllRegions
            return regionsJson regions) (loadProfile (configName req) w).2 := by
      show getAvailableRegion req w = _
      rw [getAvailableRegion, hvalid]
    cases x with
    | error e =>
      refine hno (not_works_of_error (e := .keyError (configName req)) ?_ fun _ h => by cases h) ?_
      · rw [hstart, withLogin_unregistered hrun (by rw [h'.2.1, hnone])]
      · rintro ⟨a, w'', hok⟩
        cases (hrun.unique hok).1
    | ok a =>
      refine iff_of_true ?_ (.inr ⟨a, w', hrun⟩)
      have h'' := (frame _ _ _).getAllRegions a w' h'
      have hanswers := getAllRegions_answers a w'
      rw [run_withLogin_ok hrun] at hstart
      cases hg : a.getAllRegions w' with
      | mk y w'' =>
        rw [hg] at h'' hanswers
        cases y with
        | ok regions =>
          rw [run_bind_ok hg] at hstart
          exact works_of_answers (.inl ⟨_, congrArg Prod.fst hstart⟩) ((congrArg (·.2.threads) hstart).trans h''.2.2)
        | error e =>
          rw [run_bind_error hg] at hstart
          obtain ⟨_, hm⟩ | ⟨m, hm⟩ := hanswers
          · cases hm
          · cases hm
            exact works_of_answers (.inr ⟨m, congrArg Prod.fst hstart⟩) ((congrArg (·.2.threads) hstart).trans h''.2.2)
  | getConfig =>
    obtain ⟨x, w', hrun, h'⟩ := exists_login h
    have hstart : handle .getConfig req w = getConfigDetail req w := rfl
    rw [getConfigDetail, hvalid] at hstart
    cases x with
    | error e =>
      refine hno (not_works_of_error (e := .keyError (configName req)) ?_ fun _ h => by cases h) ?_
      · rw [hstart, withLogin_unregistered hrun (by rw [h'.2.1, hnone])]
      · rintro ⟨a, w'', m, hok, -⟩
        cases (hrun.unique hok).1
    | ok a =>
      have h'' := (frame _ _ _).getAllRegions a w' h'
      have hanswers := getAllRegions_answers a w'
      rw [run_withLogin_ok hrun] at hstart
      cases hg : a.getAllRegions w' with
      | mk y w'' =>
        rw [hg] at h'' hanswers
        cases y with
        | ok regions =>
          refine hno (not_works_of_error (e := .attributeError "get") ?_ fun _ h => by cases h) ?_
          · have hget : w''.profile.get? (configName req) = none := by rw [h''.2.1, hnone]
            rw [hstart, run_bind_ok hg, run_bind_ok (run_get w''), hget]
            rfl
          · rintro ⟨b, v, m, hok, hm⟩
            obtain ⟨hab, rfl⟩ := hrun.unique hok
            cases hab
            rw [hg] at hm
            cases hm
        | error e =>
          rw [run_bind_error hg] at hstart
          obtain ⟨_, hm⟩ | ⟨m, hm⟩ := hanswers
          · cases hm
          · cases hm
            refine iff_of_true (works_of_answers (.inr ⟨m, congrArg Prod.fst hstart⟩)
              ((congrArg (·.2.threads) hstart).trans h''.2.2)) (.inr ⟨a, w', m, hrun, ?_⟩)
            rw [hg]
  | changeWhitelist =>
    refine hno (not_works_of_thread ({ plainArgs .changeWhitelist (configName req) with
      newWhitelist := req.newWhitelist }) ?_ ?_) id
    · show (App.changeWhitelist req w).2.threads = _
      rw [App.changeWhitelist, hvalid, ← h.2.2]
      rfl
    · show (App.changeWhitelist req w).2.profile.get? _ = _
      rw [App.changeWhitelist, hvalid]
      exact hnone'

/-! ## A new profile -/

theorem isProfile_example (hw : w.config = exampleWorld.config) : IsProfile "aws1" w :=
  ⟨_, hw ▸ read_exampleWorld, by decide⟩

theorem authenticated_example {req : Request} (hw : w.config = exampleWorld.config)
    (hname : configName req = "aws1".toList) (hkey : req.apikey = some "api".toList) : Authenticated req w := by
  refine ⟨_, _, by rw [hname]; exact congrArg Prod.fst (KeyCheck.loadProfile_example hw), ?_⟩
  rw [validKey, hkey]
  rfl

/-- A registered profile whose login fails. -/
theorem works_busy : Works (handle .getConfig (viewRequest "api")) busyWorld :=
  (works_iff .getConfig (viewRequest "api") busyWorld (isProfile_example rfl)
    (authenticated_example rfl rfl rfl)).2 (.inl ⟨busyRecord, rfl⟩)

/-- A file without a profile. -/
def noProfiles : Str :=
  ConfigParser.write { Loader.exampleConfig with sections := Loader.exampleConfig.sections.take 1 }

/-- What the start with that file leaves. -/
def startedWorld : World := (TaskManager.init (.start noProfiles ⟨[], 0⟩)).2

/-- The example file instead of the one at the start. -/
def editedWorld : World := { startedWorld with config := exampleWorld.config }

def moveRequest : Request := { viewRequest "api" with newRegion := some "us-east-1" }

/-- A move of the profile that was added: the task table has no record under its name. -/
theorem raises_move : (match (handle .changeRegion moveRequest editedWorld).1 with
    | .error (.keyError name) => some name
    | _ => none) = some "aws1".toList := by
  rw [handle, getChangeRegion]
  dsimp only [moveRequest]
  rw [KeyCheck.checkKey_example rfl rfl rfl]
  decide +kernel

/-- The table is made of the file at the start; a section that is added afterwards is not in it. -/
theorem unregistered_fails : ¬∀ (w w' : World) (text : Str) (e : Endpoint) (req : Request),
    TaskManager.init w = (.ok (), w') → IsProfile (configName req) { w' with config := text } →
    Authenticated req { w' with config := text } → Works (handle e req) { w' with config := text } := by
  intro h
  have hstarts : (TaskManager.init (.start noProfiles ⟨[], 0⟩)).1.toOption = some () := by
    simp (disch := exact rfl) only [noProfiles, Loader.exampleConfig, toList_of_eq]
    decide +kernel
  have hinit : TaskManager.init (.start noProfiles ⟨[], 0⟩) = (.ok (), startedWorld) := by
    refine Prod.ext ?_ rfl
    cases hr : (TaskManager.init (.start noProfiles ⟨[], 0⟩)).1 with
    | error e =>
      rw [hr] at hstarts
      cases hstarts
    | ok u => rfl
  have hworks := h _ _ exampleWorld.config .changeRegion moveRequest hinit (isProfile_example rfl)
    (authenticated_example rfl rfl rfl)
  have hraises := raises_move
  cases hr : (handle .changeRegion moveRequest editedWorld).1 with
  | ok j =>
    rw [hr] at hraises
    cases hraises
  | error e =>
    refine not_works_of_error hr ?_ hworks
    rintro msg rfl
    rw [hr] at hraises
    cases hraises

end Endpoints
end Iprotate
