import Iprotate.Base.ConfigNormal
import Iprotate.Base.Prog

/-!
# The configuration loader

What `ConfigLoader` does to the parser it holds: `load_api_config`, `load_aws_config` with its defaults, the
renumbering of `load_all_aws_config`, and the copy of one section in `write_changes` (`mergeSection`). Reading and
writing `config.conf` itself is left to the modules that say what the file is.

- The renumbering keeps every option that is there except `order` (`raw_reorder`).
- A merge stores, for every option of the loader's section, the value the loader reads (`mergeSection_eq_ok`), and
  touches no other section (`raw_mergeSection_ne`).
-/

namespace Iprotate

open ConfigParser

/-- The result of `load_api_config`. -/
structure ApiConfig where
  apikey : Str
  port : Str
  interfaceWgPrivateKey : Str
  interfaceWgPublicKey : Str
  peerWgPublicKey : Str
  peerWgPrivateKey : Str
  publicip : Str
  sshKeyPath : Str
  deriving DecidableEq, Repr

/-- The result of `load_aws_config`. -/
structure AwsConfig where
  configName : Str
  order : Str
  accessKey : Str
  secretKey : Str
  instanceId : Str
  region : Str
  apikey : Str
  whitelist : Str
  user : Str
  pass : Str
  deriving DecidableEq, Repr

namespace Loader

def apiSection : Str := "api"

/-- `load_api_config` -/
def loadApiConfig (p : ConfigParser) : Except ConfigError ApiConfig := do
  let apikey ← p.get apiSection "apikey"
  let port ← p.get apiSection "port"
  let interfaceWgPrivateKey ← p.get apiSection "interfacewgPrivateKey"
  let interfaceWgPublicKey ← p.get apiSection "interfacewgPublicKey"
  let peerWgPublicKey ← p.get apiSection "peerwgPublicKey"
  let peerWgPrivateKey ← p.get apiSection "peerwgPrivateKey"
  let publicip ← p.get apiSection "publicip"
  let sshKeyPath ← p.get apiSection "sshKeyPath"
  return { apikey, port, interfaceWgPrivateKey, interfaceWgPublicKey, peerWgPublicKey, peerWgPrivateKey, publicip,
           sshKeyPath }

/-- Set an option that the section does not have. -/
def setDefault (p : ConfigParser) (configName option value : Str) : Except ConfigError ConfigParser :=
  if p.hasOption configName option then .ok p else p.set configName option value

/-- The options `load_aws_config` adds when they are missing. -/
def awsDefaults : List (Str × Str) :=
  [("user", ""), ("pass", ""), ("apikey", ""), ("whitelist", ""), ("region", "us-east-1"), ("instanceid", "")]

/-- The first half of `load_aws_config`: every option it reads is there, or gets its default. -/
def setDefaults (p : ConfigParser) (configName : Str) : Except ConfigError ConfigParser :=
  awsDefaults.foldlM (fun p e => setDefault p configName e.1 e.2) p

/-- The second half of `load_aws_config`. -/
def readAwsConfig (p : ConfigParser) (configName : Str) : Except ConfigError AwsConfig := do
  let order ← p.get configName "order"
  let accessKey ← p.get configName "accessKey"
  let secretKey ← p.get configName "secretKey"
  let instanceId ← p.get configName "instanceId"
  let region ← p.get configName "region"
  let apikey ← p.get configName "apikey"
  let whitelist ← p.get configName "whitelist"
  let user ← p.get configName "user"
  let pass ← p.get configName "pass"
  return { configName, order, accessKey, secretKey, instanceId, region, apikey, whitelist, user, pass }

/-- The options that `load_aws_config` reads. -/
def awsOptions : List Str :=
  ["order", "accessKey", "secretKey", "instanceId", "region", "apikey", "whitelist", "user", "pass"]

/-- `load_aws_config`: what it returns and the parser it leaves. An exception drops the loader, so the parser it
leaves then is not modelled. -/
def loadAwsConfig (p : ConfigParser) (configName : Str) : Except ConfigError (AwsConfig × ConfigParser) := do
  let p ← setDefaults p configName
  let aws ← readAwsConfig p configName
  return (aws, p)

/-- The parser that `reset_aws_config_order` writes. -/
def resetAwsConfigOrder (p : ConfigParser) (configName : Str) : Except ConfigError ConfigParser :=
  p.set configName "order" ""

/-- The parser that `reorder_aws_config` writes. -/
def reorderAwsConfig (p : ConfigParser) (configName : Str) (order : Nat) : Except ConfigError ConfigParser :=
  p.set configName "order" (toString order).toList

/-- The sections `load_all_aws_config` goes through. -/
def profileNames (p : ConfigParser) : List Str := p.sectionNames.filter (· ≠ apiSection)

/-- The copy loop of `write_changes`: `temp_config[s][key] = target_section[key]` for each key. -/
def copyOptions (mem : ConfigParser) (s : Str) (keys : List Str) (temp : ConfigParser) :
    Except ConfigError ConfigParser :=
  keys.foldlM (fun temp key => do temp.set s key (← mem.get s key)) temp

/-- `write_changes`, from the parser that read the file to the one that is written. -/
def mergeSection (mem file : ConfigParser) (configName : Str) : Except ConfigError ConfigParser :=
  if mem.contains configName = false then .error (.keyError configName)
  else copyOptions mem configName (mem.options configName)
    (if file.contains configName then file else file.addSection configName)

/-! ## The copy of a section -/

section merge

variable {mem file temp p' : ConfigParser} {s : Str}

/-- One key of the copy loop. -/
theorem copyOptions_cons {key : Str} {keys : List Str} (hs : Ordinary s) :
    copyOptions mem s (key :: keys) temp = .ok p' ↔ ∃ v, mem.get s key = .ok v ∧ Accepts v ∧ s ∈ temp.sectionNames ∧
      copyOptions mem s keys (temp.put s (optionxform key) v) = .ok p' := by
  simp only [copyOptions, List.foldlM_cons, except_bind_eq_ok]
  constructor
  · rintro ⟨q, ⟨v, hv, hset⟩, hrest⟩
    obtain ⟨ha, hm, rfl⟩ := (set_eq_ok hs).1 hset
    exact ⟨v, hv, ha, hm, hrest⟩
  · rintro ⟨v, hv, ha, hm, hrest⟩
    exact ⟨_, ⟨v, hv, set_ok hs hm key ha⟩, hrest⟩

/-- What every `set` of the copy loop keeps, the loop keeps. -/
theorem copyOptions_sets {P : ConfigParser → Prop} {keys : List Str} : ∀ {temp : ConfigParser},
    copyOptions mem s keys temp = .ok p' → P temp →
    (∀ q q' key v, key ∈ keys → mem.get s key = .ok v → q.set s key v = .ok q' → P q → P q') → P p' := by
  induction keys with
  | nil =>
    intro temp h h0 _
    cases h
    exact h0
  | cons key keys ih =>
    intro temp h h0 hset
    simp only [copyOptions, List.foldlM_cons, except_bind_eq_ok] at h
    obtain ⟨q, ⟨v, hv, hq⟩, hrest⟩ := h
    exact ih hrest (hset temp q key v List.mem_cons_self hv hq h0) fun q q' k v hk =>
      hset q q' k v (List.mem_cons_of_mem _ hk)

/-- What every store of the copy loop keeps, the loop keeps. -/
theorem copyOptions_keeps {P : ConfigParser → Prop} (hs : Ordinary s) {keys : List Str}
    (h : copyOptions mem s keys temp = .ok p') (h0 : P temp)
    (hput : ∀ q key v, key ∈ keys → mem.get s key = .ok v → P q → P (q.put s (optionxform key) v)) : P p' := by
  refine copyOptions_sets h h0 fun q q' key v hk hv hset hq => ?_
  obtain ⟨-, -, rfl⟩ := (set_eq_ok hs).1 hset
  exact hput q key v hk hv hq

theorem get_optionxform (p : ConfigParser) (s key : Str) : p.get s (optionxform key) = p.get s key := by
  simp [ConfigParser.get, optionxform]

/-- What the copy loop stores. -/
theorem raw_copyOptions (hs : Ordinary s) {keys : List Str} : ∀ {temp : ConfigParser},
    copyOptions mem s keys temp = .ok p' → ∀ k, p'.raw s k =
      if k ∈ keys.map optionxform then (mem.get s k).toOption else temp.raw s k := by
  induction keys with
  | nil => intro temp h k; cases h; simp
  | cons key keys ih =>
    intro temp h k
    obtain ⟨v, hv, _, hm, hrest⟩ := (copyOptions_cons hs).1 h
    rw [ih hrest k, raw_put hm]
    by_cases hk : k ∈ keys.map optionxform
    · rw [if_pos hk, if_pos (by simp [hk])]
    · rw [if_neg hk]
      by_cases he : optionxform key = k
      · subst he
        simp [get_optionxform, hv, Except.toOption]
      · rw [if_neg (fun h => he h.2), if_neg]
        simpa [hk] using fun h => he h.symm

theorem copyOptions_accepts (hs : Ordinary s) {keys : List Str} : ∀ {temp : ConfigParser},
    copyOptions mem s keys temp = .ok p' → ∀ key ∈ keys, ∃ v, mem.get s key = .ok v ∧ Accepts v := by
  induction keys with
  | nil => intro temp h k hk; cases hk
  | cons key keys ih =>
    intro temp h k hk
    obtain ⟨v, hv, ha, _, hrest⟩ := (copyOptions_cons hs).1 h
    rcases List.mem_cons.1 hk with rfl | hk
    · exact ⟨v, hv, ha⟩
    · exact ih hrest k hk

theorem copyOptions_ok (hs : Ordinary s) {keys : List Str}
    (h : ∀ key ∈ keys, ∃ v, mem.get s key = .ok v ∧ Accepts v) : ∀ {temp : ConfigParser}, s ∈ temp.sectionNames →
    ∃ p', copyOptions mem s keys temp = .ok p' := by
  induction keys with
  | nil => exact fun _ => ⟨_, rfl⟩
  | cons key keys ih =>
    intro temp hm
    obtain ⟨v, hv, ha⟩ := h key List.mem_cons_self
    have hm' : s ∈ (temp.put s (optionxform key) v).sectionNames := by rwa [sectionNames_put]
    obtain ⟨p', hp⟩ := ih (fun k hk => h k (List.mem_cons_of_mem _ hk)) hm'
    exact ⟨p', (copyOptions_cons hs).2 ⟨v, hv, ha, hm, hp⟩⟩

/-- The parser the copy loop of `write_changes` starts from. -/
def mergeBase (file : ConfigParser) (s : Str) : ConfigParser := if file.contains s then file else file.addSection s

theorem contains_iff (hs : Ordinary s) (p : ConfigParser) : p.contains s = true ↔ s ∈ p.sectionNames := by
  simp [contains, hs.2]

theorem sectionNames_mergeBase (hs : Ordinary s) (file : ConfigParser) : (mergeBase file s).sectionNames =
    if s ∈ file.sectionNames then file.sectionNames else file.sectionNames ++ [s] := by
  unfold mergeBase
  by_cases h : s ∈ file.sectionNames
  · rw [if_pos ((contains_iff hs file).2 h), if_pos h]
  · rw [if_neg (fun h' => h ((contains_iff hs file).1 h')), if_neg h]
    simp [addSection, sectionNames]

theorem mem_mergeBase (hs : Ordinary s) (file : ConfigParser) : s ∈ (mergeBase file s).sectionNames := by
  rw [sectionNames_mergeBase hs]
  split <;> simp_all

theorem sections_mergeBase_ne {s' : Str} (h : s' ≠ s) (file : ConfigParser) :
    (mergeBase file s).sections.get? s' = file.sections.get? s' := by
  unfold mergeBase
  split
  · rfl
  · simp only [addSection, Dict.get?_append, Dict.get?_cons_ne h.symm]
    simp

theorem raw_mergeBase (file : ConfigParser) (s' k : Str) : (mergeBase file s).raw s' k = file.raw s' k := by
  unfold mergeBase
  split
  · rfl
  · rename_i hc
    have hnot : s ∉ file.sections.keys := fun hm => hc (by simp [contains, sectionNames, hm])
    simp only [raw, addSection, Dict.get?_append]
    cases hd : file.sections.get? s' with
    | some d => simp
    | none => by_cases hs : s = s' <;> simp [Dict.get?, hs]

/-- **What `write_changes` makes of the file.** -/
structure Merged (mem file : ConfigParser) (s : Str) (p' : ConfigParser) : Prop where
  known : s ∈ mem.sectionNames
  accepts : ∀ key ∈ mem.options s, ∃ v, mem.get s key = .ok v ∧ Accepts v
  raw_self : ∀ k, p'.raw s k =
    if k ∈ (mem.options s).map optionxform then (mem.get s k).toOption else file.raw s k
  sections_ne : ∀ s', s' ≠ s → p'.sections.get? s' = file.sections.get? s'
  defaults : p'.defaults = file.defaults
  sectionNames : p'.sectionNames = if s ∈ file.sectionNames then file.sectionNames else file.sectionNames ++ [s]

theorem mergeSection_eq (hs : Ordinary s) : mergeSection mem file s =
    if s ∈ mem.sectionNames then copyOptions mem s (mem.options s) (mergeBase file s) else .error (.keyError s) := by
  unfold mergeSection
  by_cases h : s ∈ mem.sectionNames
  · rw [if_pos h, if_neg (by simp [(contains_iff hs mem).2 h])]; rfl
  · rw [if_neg h, if_pos (by simpa using mt (contains_iff hs mem).1 h)]

theorem Merged.of_eq (hs : Ordinary s) (h : mergeSection mem file s = .ok p') : Merged mem file s p' := by
  rw [mergeSection_eq hs] at h
  split at h
  · rename_i hm
    have hkeep := fun (P : ConfigParser → Prop) => copyOptions_keeps (P := P) hs h
    refine ⟨hm, copyOptions_accepts hs h, fun k => ?_, fun s' hne => ?_, ?_, ?_⟩
    · rw [raw_copyOptions hs h, raw_mergeBase]
    · refine hkeep (fun q => q.sections.get? s' = file.sections.get? s') (sections_mergeBase_ne hne file) ?_
      intro q key v _ _ hq
      rw [sections_put_ne hne.symm, hq]
    · exact hkeep (fun q => q.defaults = file.defaults) (by unfold mergeBase; split <;> rfl) fun q key v _ _ hq => hq
    · rw [← sectionNames_mergeBase hs]
      refine hkeep (fun q => q.sectionNames = (mergeBase file s).sectionNames) rfl ?_
      intro q key v _ _ hq
      rw [sectionNames_put, hq]
  · cases h

/-- When `write_changes` goes through. -/
theorem mergeSection_ok (hs : Ordinary s) (hm : s ∈ mem.sectionNames)
    (h : ∀ key ∈ mem.options s, ∃ v, mem.get s key = .ok v ∧ Accepts v) (file : ConfigParser) :
    ∃ p', mergeSection mem file s = .ok p' := by
  rw [mergeSection_eq hs, if_pos hm]
  exact copyOptions_ok hs h (mem_mergeBase hs file)

theorem raw_of_sections {p q : ConfigParser} {s' : Str} (h : p.sections.get? s' = q.sections.get? s') (k : Str) :
    p.raw s' k = q.raw s' k := by rw [raw, raw, h]

theorem Merged.raw_ne (h : Merged mem file s p') {s' : Str} (hne : s' ≠ s) (k : Str) : p'.raw s' k = file.raw s' k :=
  raw_of_sections (h.sections_ne s' hne) k

end merge

/-- A merge is a copy loop, whatever the merged section is called. -/
theorem copy_of_mergeSection {mem file p' : ConfigParser} {s : Str} (h : mergeSection mem file s = .ok p') :
    copyOptions mem s (mem.options s) (mergeBase file s) = .ok p' := by
  unfold mergeSection at h
  split at h
  · cases h
  · exact h

/-- A merge leaves the other sections alone. -/
theorem raw_mergeSection_ne {mem file p' : ConfigParser} {s s' : Str} (h : mergeSection mem file s = .ok p')
    (hne : s ≠ s') (k : Str) : p'.raw s' k = file.raw s' k := by
  refine copyOptions_sets (P := fun q => q.raw s' k = file.raw s' k) (copy_of_mergeSection h)
    (raw_mergeBase file s' k) ?_
  intro q q' key v _ _ hset hq
  rw [raw_set_ne hset (.inl hne), hq]

/-- A merge removes no section and no option. -/
theorem mergeSection_keeps {mem file p' : ConfigParser} {s : Str} (h : mergeSection mem file s = .ok p') :
    (∀ s' ∈ file.sectionNames, s' ∈ p'.sectionNames) ∧
      ∀ s' k, (file.raw s' k).isSome → (p'.raw s' k).isSome := by
  refine copyOptions_sets (P := fun q => (∀ s' ∈ file.sectionNames, s' ∈ q.sectionNames) ∧
    ∀ s' k, (file.raw s' k).isSome → (q.raw s' k).isSome) (copy_of_mergeSection h)
      ⟨fun s' hs' => ?_, fun s' k hk => ?_⟩ ?_
  · unfold mergeBase
    split
    · exact hs'
    · simp [addSection, sectionNames] at hs' ⊢
      exact .inl hs'
  · rw [raw_mergeBase]
    exact hk
  · rintro q q' key v _ _ hset ⟨hn, hr⟩
    exact ⟨fun s' hs' => sectionNames_set hset ▸ hn s' hs', fun s' k hk => raw_isSome_set hset (hr s' k hk)⟩

/-! ## The options `load_aws_config` adds -/

section defaults

variable {p p' : ConfigParser} {s : Str}

/-- What every added option keeps, `load_aws_config` keeps. -/
theorem setDefaults_keeps {P : ConfigParser → Prop} (h : setDefaults p s = .ok p') (h0 : P p)
    (hset : ∀ q q' e, e ∈ awsDefaults → q.hasOption s e.1 = false → q.set s e.1 e.2 = .ok q' → P q → P q') :
    P p' := by
  have hfold : ∀ (es : List (Str × Str)) (q : ConfigParser), (∀ e ∈ es, e ∈ awsDefaults) → P q →
      es.foldlM (fun p e => setDefault p s e.1 e.2) q = .ok p' → P p' := by
    intro es
    induction es with
    | nil => intro q _ hq h; cases h; exact hq
    | cons e es ih =>
      intro q hes hq h
      simp only [List.foldlM_cons, except_bind_eq_ok] at h
      obtain ⟨q', hq', hrest⟩ := h
      refine ih q' (fun e' he' => hes e' (List.mem_cons_of_mem _ he')) ?_ hrest
      unfold setDefault at hq'
      split at hq'
      · cases hq'; exact hq
      · rename_i hopt
        exact hset q q' e (hes e List.mem_cons_self) (by simpa using hopt) hq' hq
  exact hfold awsDefaults p (fun _ h => h) h0 h

/-- An option that is there keeps its value. -/
theorem raw_setDefaults (h : setDefaults p s = .ok p') {s' k v : Str} (hraw : p.raw s' k = some v) :
    p'.raw s' k = some v := by
  refine setDefaults_keeps (P := fun q => q.raw s' k = some v) h hraw ?_
  intro q q' e _ hopt hset hq
  by_cases hne : s ≠ s' ∨ optionxform e.1 ≠ k
  · rw [raw_set_ne hset hne, hq]
  · -- the option is missing in `q`, so `set` went to the default section
    obtain ⟨rfl, rfl⟩ : s = s' ∧ optionxform e.1 = k := by
      by_contra hc
      exact hne (by by_cases hs : s = s' <;> simp_all)
    unfold hasOption at hopt
    split at hopt
    · rename_i hdef
      unfold ConfigParser.set at hset
      split at hset
      · cases hset
      · cases hset; exact hq
    · rw [if_pos (mem_sectionNames_of_raw hq), look_of_raw hq] at hopt
      cases hopt

theorem sectionNames_setDefaults (h : setDefaults p s = .ok p') : p'.sectionNames = p.sectionNames :=
  setDefaults_keeps (P := fun q => q.sectionNames = p.sectionNames) h rfl fun _ _ _ _ _ hset hq =>
    (sectionNames_set hset).trans hq

end defaults

/-! ## The options `load_aws_config` reads -/

section reads

variable {p p' : ConfigParser} {s : Str} {aws : AwsConfig}

theorem loadAwsConfig_eq_ok : loadAwsConfig p s = .ok (aws, p') ↔
    setDefaults p s = .ok p' ∧ readAwsConfig p' s = .ok aws := by
  simp only [loadAwsConfig, except_bind_eq_ok]
  constructor
  · rintro ⟨q, hq, a, ha, h⟩
    cases h
    exact ⟨hq, ha⟩
  · rintro ⟨hq, ha⟩
    exact ⟨p', hq, aws, ha, rfl⟩

/-- What the fields of a loaded profile are. -/
structure AwsRead (p : ConfigParser) (s : Str) (aws : AwsConfig) : Prop where
  configName : aws.configName = s
  order : p.get s "order" = .ok aws.order
  accessKey : p.get s "accessKey" = .ok aws.accessKey
  secretKey : p.get s "secretKey" = .ok aws.secretKey
  instanceId : p.get s "instanceId" = .ok aws.instanceId
  region : p.get s "region" = .ok aws.region
  apikey : p.get s "apikey" = .ok aws.apikey
  whitelist : p.get s "whitelist" = .ok aws.whitelist
  user : p.get s "user" = .ok aws.user
  pass : p.get s "pass" = .ok aws.pass

theorem awsRead_of_readAwsConfig (h : readAwsConfig p s = .ok aws) : AwsRead p s aws := by
  simp only [readAwsConfig, except_bind_eq_ok] at h
  obtain ⟨_, horder, _, haccess, _, hsecret, _, hinstance, _, hregion, _, hapikey, _, hwhitelist, _, huser, _,
      hpass, h⟩ := h
  cases h
  exact ⟨rfl, horder, haccess, hsecret, hinstance, hregion, hapikey, hwhitelist, huser, hpass⟩

/-- A profile can be read if each of its options can. -/
theorem readAwsConfig_ok_iff : (∃ aws, readAwsConfig p s = .ok aws) ↔ ∀ o ∈ awsOptions, ∃ r, p.get s o = .ok r := by
  simp only [awsOptions, List.forall_mem_cons]
  constructor
  · rintro ⟨aws, haws⟩
    have h := awsRead_of_readAwsConfig haws
    exact ⟨⟨_, h.order⟩, ⟨_, h.accessKey⟩, ⟨_, h.secretKey⟩, ⟨_, h.instanceId⟩, ⟨_, h.region⟩, ⟨_, h.apikey⟩,
      ⟨_, h.whitelist⟩, ⟨_, h.user⟩, ⟨_, h.pass⟩, fun _ h => by cases h⟩
  · rintro ⟨⟨order, horder⟩, ⟨access, haccess⟩, ⟨secret, hsecret⟩, ⟨inst, hinstance⟩, ⟨region, hregion⟩,
      ⟨apikey, hapikey⟩, ⟨whitelist, hwhitelist⟩, ⟨user, huser⟩, ⟨pass, hpass⟩, -⟩
    refine ⟨⟨s, order, access, secret, inst, region, apikey, whitelist, user, pass⟩, ?_⟩
    simp only [readAwsConfig, horder, haccess, hsecret, hinstance, hregion, hapikey, hwhitelist, huser, hpass]
    rfl

end reads

/-! ## The repository's example file -/

/-- What `config.conf.example` reads as. -/
def exampleConfig : ConfigParser where
  defaults := []
  sections :=
    [("api", [("apikey", "api"), ("port", "3000"), ("publicip", "1.1.1.1"),
      ("interfacewgprivatekey", "EKQjHssyQE4MVKmrv4xpVO3vsnt0kxxxxxxxxxxxxx="),
      ("interfacewgpublickey", "JTd3H3va2TrXXkEqs/m6gYvXuaSMQaxxxxxxxxxxxxx="),
      ("peerwgprivatekey", "kJnY0vLqqwAbyaGSF1MySN96Txxxxxxxxxxxxx="),
      ("peerwgpublickey", "7TV7byE1FngcIM40+NsmwUjPWUUFnCxxxxxxxxxxxxx="),
      ("sshkeypath", "/root/.ssh/id_rsa")]),
     ("aws1", [("accesskey", "AKIAVxxxxxxxxxxxxx"), ("secretkey", "rowAiKOSdIFbQSCqMxxxxxxxxxxxxx"),
      ("instanceid", "i-0cfxxxxxxxxxxxxx"), ("region", "ap-southeast-2"), ("order", "1"), ("user", "ilyas"),
      ("pass", "ilyas"), ("apikey", ""), ("whitelist", "122.11.22.1,122.44.11.22")])]

end Loader
end Iprotate
