import Iprotate.Credentials

/-!
# The same credentials on both proxies

- `generate_3proxy_config` and `generate_shadowsocks_config` leave three files (`generate_writes`).
- The two proxies let in the same exactly if a credential is empty, or neither has white space and the user has no
  colon (`sameCredentials_iff`): JSON escapes what it is given, the 3proxy text does not.
- A password with a blank is cut off there (`blank_cuts_password`).
-/

namespace Iprotate
namespace Credentials

open ConfigLoader Prog

variable {user passwd : Str}

/-! ## The SOCKS5 proxy -/

theorem field_ssConfig (api : ApiConfig) (order : Int) (authPath : Option Str) : ∃ entry,
    field "locals" (ssConfig api order authPath) = some (.arr [entry]) ∧
      field "socks5_auth_config_path" entry = authPath.map .str := by
  cases authPath with
  | none => exact ⟨_, rfl, rfl⟩
  | some path => exact ⟨_, rfl, rfl⟩

theorem usersFile_authConfig (user passwd : Str) : usersFile (authConfig user passwd) = some [(user, passwd)] := rfl

/-- The file of users that the shadowsocks file names. -/
def authPath (directory user passwd : Str) : Option Str :=
  if user ≠ [] ∧ passwd ≠ [] then some (directory ++ "/auth.json") else none

/-- The JSON values that are written. -/
def written (api : ApiConfig) (order : Int) (directory user passwd : Str) : List (Json Empty) :=
  [ssConfig api order (authPath directory user passwd), authConfig user passwd]

/-- **Whom the SOCKS5 proxy lets in.** -/
theorem socksAuth_written {loads : Str → Option (Json Empty)} {api : ApiConfig} {order : Int} {directory path : Str}
    {files : Dict Str Str} (hloads : ∀ v ∈ written api order directory user passwd, loads (jsonText v) = some v)
    (hss : files.get? path = some (jsonText (ssConfig api order (authPath directory user passwd))))
    (hauth : ∀ p ∈ authPath directory user passwd, files.get? p = some (jsonText (authConfig user passwd))) :
    socksAuth loads files path = some (if Given user passwd then some [(user, passwd)] else none) := by
  obtain ⟨entry, hlocals, hentry⟩ := field_ssConfig api order (authPath directory user passwd)
  have hload : ((files.get? path).bind loads).bind (field "locals") = some (.arr [entry]) := by
    rw [hss, Option.bind_some, hloads _ List.mem_cons_self, Option.bind_some, hlocals]
  unfold socksAuth
  rw [hload]
  show entryAuth loads files entry = _
  rw [entryAuth, hentry]
  by_cases hg : Given user passwd
  · have hpath : authPath directory user passwd = some (directory ++ "/auth.json".toList) := if_pos hg
    have hfile := hauth _ hpath
    rw [hpath, if_pos hg]
    show (((files.get? (directory ++ "/auth.json".toList)).bind loads).bind usersFile).map some = _
    rw [hfile, Option.bind_some, hloads _ (List.mem_cons_of_mem _ List.mem_cons_self), Option.bind_some,
      usersFile_authConfig]
    rfl
  · have hpath : authPath directory user passwd = none := if_neg hg
    rw [hpath, if_neg hg]
    rfl

/-! ## What is written -/

/-- The 3proxy file. -/
def cfgPath (order configName : Str) : Str :=
  "profile_config/" ++ profileName order configName ++ "/proxy_" ++ profileName order configName ++ ".cfg"

/-- Where the shadowsocks files are. -/
def directory (order configName : Str) : Str := "/opt/cloud-iprotate/profile_config/" ++ profileName order configName

def ssPath (order configName : Str) : Str := directory order configName ++ "/shadowsocks.json"

/-- A file that is written. -/
theorem triple_writeFile {F : Dict Str Str → Prop} (path text : Str) : Triple (fun w => F w.files)
    (Py.writeFile path text) (fun _ w => ∃ files, F files ∧ w.files = files.set path text) (fun _ _ => True) := by
  refine .bind (Q := fun _ w => F w.files) (fun w hw => ?_) fun _ => .modify fun w hw => ⟨w.files, hw, rfl⟩
  unfold Py.call
  split
  · rename_i message t heq
    split at heq <;> cases heq <;> trivial
  · trivial

theorem absolute_ne_cfgPath (p o c : Str) : "/opt/cloud-iprotate/profile_config/".toList ++ p ≠ cfgPath o c := by
  intro h
  have hopt : ("/opt/cloud-iprotate/profile_config/" : Str) = '/' :: "opt/cloud-iprotate/profile_config/".toList := by
    decide +kernel
  have hrel : ("profile_config/" : Str) = 'p' :: "rofile_config/".toList := by decide +kernel
  have hcfg : cfgPath o c = "profile_config/".toList ++
      (profileName o c ++ ("/proxy_".toList ++ (profileName o c ++ ".cfg".toList))) := by
    show "profile_config/".toList ++ profileName o c ++ "/proxy_".toList ++ profileName o c ++ ".cfg".toList = _
    simp only [List.append_assoc]
  rw [hcfg, hopt, hrel, List.cons_append, List.cons_append, List.cons.injEq] at h
  exact absurd h.1 (by decide)

theorem auth_ne_ssPath (o c : Str) : directory o c ++ "/auth.json".toList ≠ ssPath o c := by
  intro h
  have hne : ("/auth.json" : Str) ≠ "/shadowsocks.json".toList := by decide
  exact hne (List.append_cancel_left h)

/-! ## The loader -/

/-- A loader that was built from a file, in which options but the number have been set. The profile is the one with
this number. -/
def Ready (l : ConfigLoader) (configName : Str) (order : Nat) : Prop :=
  ∃ text text' l₀ items i, build text = (.ok l₀, text') ∧ (Loader.profileNames l₀.config)[i]? = some configName ∧
    order = i + 1 ∧ (∀ e ∈ items, ConfigParser.optionxform e.1 ≠ "order".toList) ∧
    l₀.setValues configName items = .ok l

/-- What holds of the profile in such a loader. -/
structure Placed (l : ConfigLoader) (configName : Str) (order : Nat) : Prop where
  ordinary : ConfigParser.Ordinary configName
  mem : configName ∈ l.config.sectionNames
  newline : '\n' ∉ configName
  raw : l.config.raw configName "order" = some (showNat order)

theorem Placed.setValue {l l' : ConfigLoader} {c k : Str} {n : Nat} (h : Placed l c n) (v : Option Str)
    (hk : ConfigParser.optionxform k ≠ "order".toList) (hset : l.setValue c k v = .ok l') : Placed l' c n := by
  cases v with
  | none => cases hset
  | some v =>
    obtain ⟨p, hp, hl⟩ := except_bind_eq_ok.1 hset
    cases hl
    exact ⟨h.ordinary, (ConfigParser.sectionNames_set hp).symm ▸ h.mem, h.newline,
      (ConfigParser.raw_set_ne hp (.inr hk)).trans h.raw⟩

theorem Placed.setValues {c : Str} {n : Nat} : ∀ (items : List (Str × Str)) {l l' : ConfigLoader}, Placed l c n →
    (∀ e ∈ items, ConfigParser.optionxform e.1 ≠ "order".toList) → l.setValues c items = .ok l' → Placed l' c n
  | [], _, _, h, _, hset => by cases hset; exact h
  | e :: items, l, l', h, hk, hset => by
    rw [ConfigLoader.setValues, List.foldlM_cons] at hset
    obtain ⟨l₁, h₁, hrest⟩ := except_bind_eq_ok.1 hset
    exact (h.setValue _ (hk e List.mem_cons_self) h₁).setValues items
      (fun e' he' => hk e' (List.mem_cons_of_mem _ he')) hrest

theorem Ready.placed {l : ConfigLoader} {c : Str} {n : Nat} (h : Ready l c n) : Placed l c n := by
  obtain ⟨text, text', l₀, items, i, hbuild, hi, rfl, hitems, hset⟩ := h
  obtain ⟨p, hb⟩ := built_of_build hbuild
  have hnormal := ConfigParser.read_normal hb.read
  have hsections : l₀.config.sectionNames = p.sectionNames := by rw [hb.config, settled, sectionNames_settle]
  rw [Loader.profileNames, hsections, ← Loader.profileNames] at hi
  obtain ⟨hord, hmem⟩ := profiles_ordinary hnormal c (List.mem_of_getElem? hi)
  refine Placed.setValues items ⟨hord, hsections ▸ hmem, (hnormal.writable.names c hmem).newline, ?_⟩ hitems hset
  rw [hb.config]
  exact raw_settled_order hnormal hi

/-- What a profile is loaded as, read again. -/
structure Loaded (l : ConfigLoader) (configName : Str) (aws : AwsConfig) : Prop where
  again : l.loadAws configName = .ok (aws, l)
  user : l.config.get configName "user" = .ok aws.user
  pass : l.config.get configName "pass" = .ok aws.pass

/-- Options that are there are not added. -/
theorem withDefaults_again {p : ConfigParser} {s : Str} (hm : s ∈ p.sectionNames) :
    withDefaults s (withDefaults s p) = withDefaults s p := by
  have hself : ∀ (es : List (Str × Str)) (q : ConfigParser), (∀ e ∈ es, q.look s e.1 ≠ none) →
      es.foldl (withDefault s) q = q := by
    intro es
    induction es with
    | nil => exact fun _ _ => rfl
    | cons e es ih =>
      intro q hq
      have he : withDefault s q e = q := if_neg (hq e List.mem_cons_self)
      rw [List.foldl_cons, he, ih q fun e' he' => hq e' (List.mem_cons_of_mem _ he')]
  refine hself Loader.awsDefaults _ fun e he => ?_
  have hraw := raw_foldl_withDefault hm nodup_awsDefaults s e.1
  rw [ConfigParser.look, withDefaults, hraw, defaults_foldl_withDefault]
  split
  · have hkey : e.1 ∈ Dict.keys Loader.awsDefaults := List.mem_map_of_mem he
    obtain ⟨v, hv⟩ := Dict.mem_keys_iff.1 hkey
    rw [hv]
    exact Option.some_ne_none v
  · rename_i hl
    rw [← ConfigParser.look]
    exact fun h => hl ⟨rfl, h⟩

theorem loaded_of_loadAws {l l₁ : ConfigLoader} {c : Str} {aws : AwsConfig} (hord : ConfigParser.Ordinary c)
    (hm : c ∈ l.config.sectionNames) (h : l.loadAws c = .ok (aws, l₁)) : Loaded l₁ c aws := by
  obtain ⟨hdefaults, hread⟩ := Loader.loadAwsConfig_eq_ok.1 (loadAwsConfig_of_loadAws h)
  have haws := Loader.awsRead_of_readAwsConfig hread
  have hq : withDefaults c l.config = l₁.config := Except.ok.inj ((setDefaults_eq hord hm).symm.trans hdefaults)
  have hm₁ : c ∈ l₁.config.sectionNames := by rwa [Loader.sectionNames_setDefaults hdefaults]
  have hagain : Loader.loadAwsConfig l₁.config c = .ok (aws, l₁.config) := by
    refine Loader.loadAwsConfig_eq_ok.2 ⟨?_, hread⟩
    rw [setDefaults_eq hord hm₁, ← hq, withDefaults_again hm]
  refine ⟨?_, haws.user, haws.pass⟩
  rw [ConfigLoader.loadAws, hagain]
  rfl

/-! ## The two methods -/

theorem int_showNat (n : Nat) : Py.int (showNat n) = pure (n : Int) := funext fun w => Numbering.number_showNat n w

/-- The text of the 3proxy file. -/
def cfgText (c : Str) (n : Nat) (user passwd : Str) : Str :=
  proxyConfigString (profileName (showNat n) c) user passwd (interfaceIp (showNat n)) (httpPortBase + n)

/-- The text of the shadowsocks file. -/
def ssText (api : ApiConfig) (c : Str) (n : Nat) (user passwd : Str) : Str :=
  jsonText (ssConfig api n (authPath (directory (showNat n) c) user passwd))

/-- What the two methods leave. -/
structure Written (api : ApiConfig) (c : Str) (n : Nat) (user passwd : Str) (files : Dict Str Str) : Prop where
  cfg : files.get? (cfgPath (showNat n) c) = some (cfgText c n user passwd)
  ss : files.get? (ssPath (showNat n) c) = some (ssText api c n user passwd)
  auth : ∀ p ∈ authPath (directory (showNat n) c) user passwd, files.get? p = some (jsonText (authConfig user passwd))

section methods

variable {l l₁ : ConfigLoader} {c : Str} {aws : AwsConfig} {n : Nat}

theorem generate3proxyConfig_writes (hload : l.loadAws c = .ok (aws, l₁)) (horder : aws.order = showNat n) :
    Triple (fun _ => True) (l.generate3proxyConfig c)
      (fun l' w => l' = l₁ ∧ w.files.get? (cfgPath (showNat n) c) = some (cfgText c n aws.user aws.pass))
      (fun _ _ => True) := by
  rw [generate3proxyConfig, hload]
  show Triple _ (do
    let order ← Py.int aws.order
    Py.makedirs ("profile_config/" ++ profileName aws.order c)
    Py.writeFile (cfgPath aws.order c)
      (proxyConfigString (profileName aws.order c) aws.user aws.pass (interfaceIp aws.order) (httpPortBase + order))
    return l₁) _ _
  rw [horder, int_showNat]
  show Triple _ (do
    Py.makedirs ("profile_config/" ++ profileName (showNat n) c)
    Py.writeFile (cfgPath (showNat n) c) (cfgText c n aws.user aws.pass)
    return l₁) _ _
  refine Triple.bind (P := fun _ => True) (Q := fun _ _ => True) (fun w _ => ?_) (fun _ => .bind
    (triple_writeFile (F := fun _ => True) (cfgPath (showNat n) c) _) fun _ => .pure ?_)
  · split <;> trivial
  · rintro w ⟨files, -, hfiles⟩
    refine ⟨rfl, ?_⟩
    rw [hfiles, Dict.get?_set_self]

theorem directory_ne_cfgPath (o c file : Str) : directory o c ++ file ≠ cfgPath o c := by
  intro h
  refine absolute_ne_cfgPath (profileName o c ++ file) o c ?_
  rw [← List.append_assoc]
  exact h

theorem generateShadowsocksConfig_writes (h : Loaded l c aws) (horder : aws.order = showNat n) :
    Triple (fun w => w.files.get? (cfgPath (showNat n) c) = some (cfgText c n aws.user aws.pass))
      (l.generateShadowsocksConfig c) (fun _ w => Written l.apiConfig c n aws.user aws.pass w.files)
      (fun _ _ => True) := by
  rw [generateShadowsocksConfig, h.user, h.pass, h.again]
  show Triple _ (do
    let order ← Py.int aws.order
    let path : Option Str := if aws.user ≠ [] ∧ aws.pass ≠ [] then
      some (directory aws.order c ++ "/auth.json".toList) else none
    path.forM fun path => Py.writeFile path (jsonText (authConfig aws.user aws.pass))
    Py.writeFile (ssPath aws.order c) (jsonText (ssConfig l.apiConfig order path))
    return l) _ _
  rw [horder, int_showNat]
  show Triple _ (do
    (authPath (directory (showNat n) c) aws.user aws.pass).forM fun path =>
      Py.writeFile path (jsonText (authConfig aws.user aws.pass))
    Py.writeFile (ssPath (showNat n) c) (ssText l.apiConfig c n aws.user aws.pass)
    return l) _ _
  refine .bind (Q := fun _ w => w.files.get? (cfgPath (showNat n) c) = some (cfgText c n aws.user aws.pass) ∧
    ∀ p ∈ authPath (directory (showNat n) c) aws.user aws.pass,
      w.files.get? p = some (jsonText (authConfig aws.user aws.pass))) ?_ fun _ => ?_
  · by_cases hg : Given aws.user aws.pass
    · have hpath : authPath (directory (showNat n) c) aws.user aws.pass =
          some (directory (showNat n) c ++ "/auth.json".toList) := if_pos hg
      rw [hpath]
      refine (triple_writeFile
        (F := fun files => files.get? (cfgPath (showNat n) c) = some (cfgText c n aws.user aws.pass)) _ _).conseq
        (fun _ hw => hw) ?_ fun _ _ h => h
      rintro _ w ⟨files, hcfg, hfiles⟩
      rw [hfiles]
      refine ⟨?_, fun p hp => ?_⟩
      · rw [Dict.get?_set_ne _ (directory_ne_cfgPath _ _ _), hcfg]
      · cases hp
        rw [Dict.get?_set_self]
    · have hpath : authPath (directory (showNat n) c) aws.user aws.pass = none := if_neg hg
      rw [hpath]
      refine .pure fun w hw => ⟨hw, fun p hp => ?_⟩
      cases hp
  · refine .bind (triple_writeFile
      (F := fun files => files.get? (cfgPath (showNat n) c) = some (cfgText c n aws.user aws.pass) ∧
        ∀ p ∈ authPath (directory (showNat n) c) aws.user aws.pass,
          files.get? p = some (jsonText (authConfig aws.user aws.pass))) _ _) fun _ => .pure ?_
    rintro w ⟨files, ⟨hcfg, hauth⟩, hfiles⟩
    rw [hfiles]
    refine ⟨?_, Dict.get?_set_self _ _ _, fun p hp => ?_⟩
    · rw [ssPath, Dict.get?_set_ne _ (directory_ne_cfgPath _ _ _), hcfg]
    · have hne : ssPath (showNat n) c ≠ p := by
        unfold authPath at hp
        split at hp
        · cases hp
          exact Ne.symm (auth_ne_ssPath _ _)
        · cases hp
      rw [Dict.get?_set_ne _ hne, hauth p hp]

/-- **The files after both methods.** -/
theorem generate_writes (hord : ConfigParser.Ordinary c) (hm : c ∈ l.config.sectionNames)
    (hload : l.loadAws c = .ok (aws, l₁)) (horder : aws.order = showNat n) : Triple (fun _ => True)
      (do let l ← l.generate3proxyConfig c; l.generateShadowsocksConfig c)
      (fun _ w => Written l₁.apiConfig c n aws.user aws.pass w.files) (fun _ _ => True) := by
  refine .bind (generate3proxyConfig_writes hload horder) fun l' => ?_
  rintro w ⟨rfl, hw⟩
  exact generateShadowsocksConfig_writes (loaded_of_loadAws hord hm hload) horder w hw

end methods

/-! ## The two proxies -/

/-- The two proxies let in the same: the pair of user and password if both are given, everybody otherwise. The 3proxy
text has the same directives as without credentials, but for those about users: one that asks for a login and one
`users` directive. -/
def SameCredentials (loads : Str → Option (Json Empty)) (files : Dict Str Str) (n : Nat) (c user passwd : Str) : Prop :=
  ∃ text socks arg, files.get? (cfgPath (showNat n) c) = some text ∧
    socksAuth loads files (ssPath (showNat n) c) = some socks ∧
    (∀ login password, Accepts (httpAuth text) login password ↔ Accepts socks login password) ∧
    (if Given user passwd then
      ∀ login password, Accepts (httpAuth text) login password ↔ login = user ∧ password = passwd
    else httpAuth text = none ∧ socks = none) ∧
    (directives text).filter (fun d => !aboutUsers d) = directives (cfgText c n [] []) ∧
    (directives text).filter aboutUsers =
      if Given user passwd then [["auth".toList, "strong".toList], ["users".toList, arg]] else []

theorem newline_profileName {c : Str} (h : '\n' ∉ c) (n : Nat) : '\n' ∉ profileName (showNat n) c := by
  have hp : '\n' ∉ ("iprotate_" : Str) ∧ '\n' ∉ ("_" : Str) := by decide
  have hn : '\n' ∉ showNat n := fun hm => absurd (mem_toString hm) (by decide)
  intro hm
  rcases List.mem_append.1 hm with hm | hm
  · rcases List.mem_append.1 hm with hm | hm
    · exact (List.mem_append.1 hm).elim hp.1 hn
    · exact hp.2 hm
  · exact h hm

theorem newline_interfaceIp (n : Nat) : '\n' ∉ interfaceIp (showNat n) := by
  have hp : '\n' ∉ ("10.0." : Str) ∧ '\n' ∉ (".2/32" : Str) := by decide
  have hn : '\n' ∉ showNat n := fun hm => absurd (mem_toString hm) (by decide)
  intro hm
  rcases List.mem_append.1 hm with hm | hm
  · exact (List.mem_append.1 hm).elim hp.1 hn
  · exact hp.2 hm

/-- Whom the text lets in, if the pair can be told from its line. -/
theorem httpAuth_cfgText {c : Str} (hc : '\n' ∉ c) (n : Nat) (h : Given user passwd → Separable user passwd) :
    httpAuth (cfgText c n user passwd) = if Given user passwd then some [(user, passwd)] else none := by
  have hprofile := newline_profileName hc n
  have hip := newline_interfaceIp n
  by_cases hg : Given user passwd
  · have husers : usersOf ["users".toList, user ++ ":CL:".toList ++ passwd] = [(user, passwd)] := by
      rw [usersOf, if_pos rfl, List.filterMap_cons, userArg_pair (h hg).2.2, List.filterMap_nil]
    rw [cfgText, httpAuth_of_given _ hprofile hip hg, directives_usersLine (h hg), List.flatMap_singleton, husers,
      if_pos hg]
  · rw [cfgText, httpAuth_of_not_given _ hprofile hip hg, if_neg hg]

/-- A profile with credentials that the text cannot hold. -/
theorem separable_of_same {loads : Str → Option (Json Empty)} {c : Str} {n : Nat} {files : Dict Str Str} (hc : '\n' ∉ c)
    (hcfg : files.get? (cfgPath (showNat n) c) = some (cfgText c n user passwd)) (hg : Given user passwd)
    (h : SameCredentials loads files n c user passwd) : Separable user passwd := by
  obtain ⟨text, socks, arg, htext, -, -, hexact, -, -⟩ := h
  rw [hcfg] at htext
  cases htext
  rw [if_pos hg] at hexact
  exact separable_of_mem ((hexact user passwd).2 ⟨rfl, rfl⟩ _
    (httpAuth_of_given (httpPortBase + n) (newline_profileName hc n) (newline_interfaceIp n) hg))

theorem same_of_separable {loads : Str → Option (Json Empty)} {api : ApiConfig} {c : Str} {n : Nat}
    {files : Dict Str Str} (hc : '\n' ∉ c) (hw : Written api c n user passwd files)
    (hloads : ∀ v ∈ written api n (directory (showNat n) c) user passwd, loads (jsonText v) = some v)
    (h : Given user passwd → Separable user passwd) : SameCredentials loads files n c user passwd := by
  have hplain : cfgText c n [] [] = head (profileName (showNat n) c) (interfaceIp (showNat n))
      (httpPortBase + n) false :=
    proxyConfigString_of_not_given (fun h => h.1 rfl) ..
  have hsocks := socksAuth_written hloads hw.ss hw.auth
  have hhttp := httpAuth_cfgText hc n h
  obtain ⟨hothers, arg, habout⟩ :=
    filter_directives (httpPortBase + n) (newline_profileName hc n) (newline_interfaceIp n) h
  refine ⟨_, _, arg, hw.cfg, hsocks, fun login password => by rw [hhttp], ?_, by rw [hplain]; exact hothers, habout⟩
  by_cases hg : Given user passwd
  · rw [if_pos hg, hhttp, if_pos hg]
    intro login password
    constructor
    · intro hin
      simpa using hin _ rfl
    · rintro ⟨rfl, rfl⟩ pairs hpairs
      cases hpairs
      exact List.mem_singleton_self _
  · rw [if_neg hg, hhttp, if_neg hg]
    exact ⟨rfl, rfl⟩

/-- **The credentials of the two proxies.** They are the same exactly if one of user and password is empty, or neither
has white space and the user has no colon. -/
theorem sameCredentials_iff {loads : Str → Option (Json Empty)} {l l₁ l' : ConfigLoader} {c : Str} {n : Nat}
    {aws : AwsConfig} {w w' : World} (hl : Ready l c n) (hload : l.loadAws c = .ok (aws, l₁))
    (hrun : (do let l ← l.generate3proxyConfig c; l.generateShadowsocksConfig c : Py ConfigLoader) w = (.ok l', w'))
    (hloads : ∀ v ∈ written l₁.apiConfig n (directory (showNat n) c) aws.user aws.pass, loads (jsonText v) = some v) :
    SameCredentials loads w'.files n c aws.user aws.pass ↔
      aws.user = [] ∨ aws.pass = [] ∨ Separable aws.user aws.pass := by
  have hp := hl.placed
  have horder := (Prod.mk.inj (Numbering.order_of_loadAwsConfig hp.raw (fun h => absurd (mem_toString h) (by decide))
    (loadAwsConfig_of_loadAws hload))).2
  have hw := (generate_writes hp.ordinary hp.mem hload horder).ok trivial hrun
  constructor
  · intro h
    by_cases hg : Given aws.user aws.pass
    · exact .inr (.inr (separable_of_same hp.newline hw.cfg hg h))
    · rw [Given, not_and_or, not_not, not_not] at hg
      exact hg.imp_right .inl
  · intro h
    refine same_of_separable hp.newline hw hloads fun hg => ?_
    rcases h with h | h | h
    · exact absurd h hg.1
    · exact absurd h hg.2
    · exact h

/-! ## Credentials of the example's profile -/

/-- What `json.loads` makes of these texts. -/
def loadsAmong (vs : List (Json Empty)) (text : Str) : Option (Json Empty) := vs.find? (jsonText · = text)

theorem loadsAmong_written (api : ApiConfig) (order : Int) (directory user passwd : Str) :
    ∀ v ∈ written api order directory user passwd, loadsAmong (written api order directory user passwd) (jsonText v) =
      some v := by
  have hne : jsonText (ssConfig api order (authPath directory user passwd)) ≠ jsonText (authConfig user passwd) := by
    intro h
    have hss : (jsonText (ssConfig api order (authPath directory user passwd)))[2]? = some 's' := rfl
    have hauth : (jsonText (authConfig user passwd))[2]? = some 'p' := rfl
    rw [h, hauth] at hss
    exact absurd hss (by decide)
  intro v hv
  rcases List.mem_cons.1 hv with rfl | hv
  · exact List.find?_cons_of_pos (by simp)
  · obtain rfl := List.mem_singleton.1 hv
    rw [loadsAmong, written, List.find?_cons_of_neg (by simpa using hne), List.find?_cons_of_pos (by simp)]

/-- Set options of the first profile of a file and generate its files: what it was loaded as. -/
def generated (text c : Str) (items : List (Str × Str)) (w : World) : Option AwsConfig :=
  match build text with
  | (.error _, _) => none
  | (.ok l₀, _) =>
    if (Loader.profileNames l₀.config)[0]? = some c then
      match l₀.setValues c items with
      | .error _ => none
      | .ok l =>
        match l.loadAws c, (do let l ← l.generate3proxyConfig c; l.generateShadowsocksConfig c : Py ConfigLoader) w with
        | .ok (aws, _), (.ok _, _) => some aws
        | _, _ => none
    else none

theorem exists_of_generated {text c : Str} {items : List (Str × Str)} {w : World} {aws : AwsConfig}
    (hitems : ∀ e ∈ items, ConfigParser.optionxform e.1 ≠ "order".toList) (h : generated text c items w = some aws) :
    ∃ l l₁ l' w', Ready l c 1 ∧ l.loadAws c = .ok (aws, l₁) ∧
      (do let l ← l.generate3proxyConfig c; l.generateShadowsocksConfig c : Py ConfigLoader) w = (.ok l', w') := by
  unfold generated at h
  split at h
  · cases h
  · rename_i l₀ text' hbuild
    split at h
    · rename_i hc
      split at h
      · cases h
      · rename_i l hset
        split at h
        · rename_i aws' l₁ l' w' hload hrun
          cases h
          exact ⟨l, l₁, l', w', ⟨text, text', l₀, items, 0, hbuild, hc, rfl, hitems, hset⟩, hload, hrun⟩
        · cases h
    · cases h

/-- The example's own credentials. -/
theorem sameCredentials_example : ∃ l l₁ l' aws w', Ready l "aws1" 1 ∧ l.loadAws "aws1" = .ok (aws, l₁) ∧
    (do let l ← l.generate3proxyConfig "aws1"; l.generateShadowsocksConfig "aws1" : Py ConfigLoader) exampleWorld =
      (.ok l', w') ∧ aws.user = "ilyas".toList ∧ aws.pass = "ilyas".toList ∧
    SameCredentials (loadsAmong (written l₁.apiConfig 1 (directory (showNat 1) "aws1") aws.user aws.pass)) w'.files 1
      "aws1" aws.user aws.pass := by
  have h : (generated (ConfigParser.write Loader.exampleConfig) "aws1" [] exampleWorld).map
      (fun aws => (aws.user, aws.pass)) = some ("ilyas".toList, "ilyas".toList) := by
    simp (disch := exact rfl) only [exampleWorld, World.start, Loader.exampleConfig, toList_of_eq]
    decide +kernel
  obtain ⟨aws, haws, hpair⟩ := Option.map_eq_some_iff.1 h
  obtain ⟨huser, hpass⟩ := Prod.mk.inj hpair
  obtain ⟨l, l₁, l', w', hready, hload, hrun⟩ := exists_of_generated (fun e he => by cases he) haws
  have hsep : Separable "ilyas" "ilyas" := by decide
  refine ⟨l, l₁, l', aws, w', hready, hload, hrun, huser, hpass, ?_⟩
  refine (sameCredentials_iff hready hload hrun (loadsAmong_written _ _ _ _ _)).2 (.inr (.inr ?_))
  rw [huser, hpass]
  exact hsep

/-- A password with a blank is cut off there by the HTTP proxy. -/
theorem blank_cuts_password : ¬ ∀ (loads : Str → Option (Json Empty)) (l l₁ l' : ConfigLoader) (c : Str) (n : Nat)
    (aws : AwsConfig) (w w' : World), Ready l c n → l.loadAws c = .ok (aws, l₁) →
    (do let l ← l.generate3proxyConfig c; l.generateShadowsocksConfig c : Py ConfigLoader) w = (.ok l', w') →
    (∀ v ∈ written l₁.apiConfig n (directory (showNat n) c) aws.user aws.pass, loads (jsonText v) = some v) →
    SameCredentials loads w'.files n c aws.user aws.pass := by
  intro hall
  have h : (generated (ConfigParser.write Loader.exampleConfig) "aws1" [("pass", "two words")] exampleWorld).map
      (fun aws => (aws.order, aws.user, aws.pass)) = some ("1".toList, "ilyas".toList, "two words".toList) := by
    simp (disch := exact rfl) only [exampleWorld, World.start, Loader.exampleConfig, toList_of_eq]
    decide +kernel
  obtain ⟨aws, haws, htriple⟩ := Option.map_eq_some_iff.1 h
  obtain ⟨horder, hpair⟩ := Prod.mk.inj htriple
  obtain ⟨huser, hpass⟩ := Prod.mk.inj hpair
  obtain ⟨l, l₁, l', w', hready, hload, hrun⟩ := exists_of_generated (by decide) haws
  have hsame := hall _ l l₁ l' _ 1 aws _ w' hready hload hrun (loadsAmong_written _ _ _ _ _)
  have hp := hready.placed
  have hw := (generate_writes hp.ordinary hp.mem hload (n := 1) horder).ok trivial hrun
  have hsep := separable_of_same hp.newline hw.cfg (by rw [huser, hpass]; decide) hsame
  rw [huser, hpass] at hsep
  exact absurd hsep (by decide)

end Credentials
end Iprotate
