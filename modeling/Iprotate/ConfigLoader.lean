import Iprotate.Loader

/-!
# `ConfigLoader` and the file

The methods of `ConfigLoader` that read or write `config.conf`, as programs over the text of that file. A loader is a
value; the methods that change its parser return the new loader.

- What the renumbering and the defaults keep, a construction keeps of the file, whether it raises or not, and finds in
  its loader (`build_spec`).
- `write_changes` leaves the merge of the loader's section into what the file read as (`writeChanges_spec`).
-/

namespace Iprotate

open ConfigParser Loader

/-- A program on the text of `config.conf`. -/
abbrev ConfigFile (α : Type) : Type := Prog Str ConfigError α

/-- A `ConfigLoader` object. -/
structure ConfigLoader where
  config : ConfigParser
  apiConfig : ApiConfig
  allAwsConfigs : List AwsConfig
  deriving DecidableEq, Repr

namespace ConfigLoader

def ssBasePort : Nat := 30000
def wgPortBase : Nat := 40000
def socks5PortBase : Nat := 50000
def httpPortBase : Nat := 60000

/-- `config.read("config.conf")` into a new parser. -/
def readConfig : ConfigFile ConfigParser := do
  let text ← get
  Prog.ofExcept (ConfigParser.read text)

/-- `with open("config.conf", "w") as file: config.write(file)` -/
def writeConfig (p : ConfigParser) : ConfigFile Unit := set (ConfigParser.write p)

/-- The loop of `load_all_aws_config` over the profile sections, numbered from `counter`. -/
def loadAllAwsConfig : List Str → Nat → ConfigParser → ConfigFile (List AwsConfig × ConfigParser)
  | [], _, p => pure ([], p)
  | configName :: rest, counter, p => do
    let p ← Prog.ofExcept (resetAwsConfigOrder p configName)
    writeConfig p
    let p ← Prog.ofExcept (reorderAwsConfig p configName counter)
    writeConfig p
    let (aws, p) ← Prog.ofExcept (loadAwsConfig p configName)
    let (others, p) ← loadAllAwsConfig rest (counter + 1) p
    return (aws :: others, p)

/-- `ConfigLoader()` -/
def build : ConfigFile ConfigLoader := do
  let p ← readConfig
  let apiConfig ← Prog.ofExcept (loadApiConfig p)
  let (allAwsConfigs, config) ← loadAllAwsConfig (profileNames p) 1 p
  return { config, apiConfig, allAwsConfigs }

/-- `set_value`; `None` is no string. -/
def setValue (l : ConfigLoader) (configName key : Str) : Option Str → Except ConfigError ConfigLoader
  | none => .error .notString
  | some value => do
    let p ← l.config.set configName key value
    return { l with config := p }

/-- `set_value` for several options, in order. -/
def setValues (l : ConfigLoader) (configName : Str) (items : List (Str × Str)) : Except ConfigError ConfigLoader :=
  items.foldlM (fun l e => l.setValue configName e.1 (some e.2)) l

/-- `load_aws_config` on the loader's own parser. -/
def loadAws (l : ConfigLoader) (configName : Str) : Except ConfigError (AwsConfig × ConfigLoader) := do
  let (aws, p) ← loadAwsConfig l.config configName
  return (aws, { l with config := p })

/-- `write_changes` -/
def writeChanges (l : ConfigLoader) (configName : Str) : ConfigFile Unit := do
  let temp ← readConfig
  let p ← Prog.ofExcept (mergeSection l.config temp configName)
  writeConfig p

/-- `change_region` -/
def changeRegion (l : ConfigLoader) (configName : Str) (newRegion : Option Str) : ConfigFile ConfigLoader := do
  let (_, l) ← Prog.ofExcept (l.loadAws configName)
  let l ← Prog.ofExcept (l.setValue configName "region" newRegion)
  l.writeChanges configName
  return l

theorem loadAwsConfig_of_loadAws {l l' : ConfigLoader} {configName : Str} {aws : AwsConfig}
    (h : l.loadAws configName = .ok (aws, l')) : loadAwsConfig l.config configName = .ok (aws, l'.config) := by
  obtain ⟨⟨aws', p⟩, hp, hret⟩ := except_bind_eq_ok.1 h
  cases hret
  exact hp

/-! ## Constructions -/

/-- The file reads as a parser with the property. -/
def FileIs (I : ConfigParser → Prop) (text : Str) : Prop := ∃ p, ConfigParser.read text = .ok p ∧ I p

/-- What the renumbering and the defaults of a construction keep. -/
structure Settled (I : ConfigParser → Prop) : Prop where
  normal : ∀ p, I p → Normal p
  order : ∀ p i s, (profileNames p)[i]? = some s → I p → I (p.put s "order" (toString (i + 1)).toList)
  default : ∀ p s e, e ∈ awsDefaults → s ∈ profileNames p → p.hasOption s e.1 = false → I p → I (p.put s e.1 e.2)

theorem mem_profileNames {p : ConfigParser} {s : Str} : s ∈ profileNames p ↔ s ∈ p.sectionNames ∧ s ≠ apiSection := by
  simp [profileNames]

theorem ordinary_of_normal {p : ConfigParser} (h : Normal p) {s : Str} (hs : s ∈ p.sectionNames) : Ordinary s :=
  ⟨(h.writable.names s hs).ne_nil, (h.writable.names s hs).ne_default⟩

theorem optionxform_awsDefaults : ∀ e ∈ awsDefaults, optionxform e.1 = e.1 := by decide

theorem optionxform_order : optionxform "order" = "order".toList := by decide

theorem accepts_awsDefaults : ∀ e ∈ awsDefaults, Accepts e.2 := by decide

/-- The digits of a number hold no percent sign and no blanks. -/
theorem mem_toString {n : Nat} {c : Char} (h : c ∈ (toString n).toList) : c.isDigit = true := by
  rw [show toString n = n.repr from rfl, Nat.toList_repr] at h
  exact Nat.isDigit_of_mem_toDigits (by omega) (by omega) h

variable {I : ConfigParser → Prop}

theorem Settled.setDefaults (hI : Settled I) {p p' : ConfigParser} {s : Str} (hp : I p) (hs : s ∈ profileNames p)
    (h : Loader.setDefaults p s = .ok p') : I p' ∧ p'.sectionNames = p.sectionNames := by
  have hord := ordinary_of_normal (hI.normal p hp) (mem_profileNames.1 hs).1
  refine setDefaults_keeps (P := fun q => I q ∧ q.sectionNames = p.sectionNames) h ⟨hp, rfl⟩ ?_
  rintro q q' e he hopt hset ⟨hq, hn⟩
  obtain ⟨_, _, rfl⟩ := (set_eq_ok hord).1 hset
  rw [optionxform_awsDefaults e he]
  refine ⟨hI.default q s e he ?_ hopt hq, by rw [sectionNames_put, hn]⟩
  rw [mem_profileNames, hn]
  exact mem_profileNames.1 hs

/-- One round of the loop of `load_all_aws_config`. -/
theorem run_loadAllAwsConfig_cons {p : ConfigParser} {s : Str} (hs : Ordinary s) (hm : s ∈ p.sectionNames)
    (rest : List Str) (n : Nat) (text : Str) : loadAllAwsConfig (s :: rest) n p text =
      (do
        let (aws, p₂) ← Prog.ofExcept (loadAwsConfig (p.put s "order" (toString n).toList) s)
        let (others, p₃) ← loadAllAwsConfig rest (n + 1) p₂
        return (aws :: others, p₃) : ConfigFile _) (write (p.put s "order" (toString n).toList)) := by
  have hreset : resetAwsConfigOrder p s = .ok (p.put s "order" []) := set_ok hs hm "order" accepts_nil
  have hdigits : Accepts (toString n).toList := accepts_plain fun h => by
    have := mem_toString h
    revert this
    decide
  have hreorder : reorderAwsConfig (p.put s "order" []) s n = .ok (p.put s "order" (toString n).toList) := by
    rw [reorderAwsConfig, set_ok hs (by rwa [sectionNames_put]) "order" hdigits, optionxform_order, put_put]
  simp only [loadAllAwsConfig, Prog.run_bind, Prog.run_ofExcept, hreset, hreorder, writeConfig, Prog.run_set]

theorem loadAllAwsConfig_spec (hI : Settled I) : ∀ (ss : List Str) (i : Nat) {p : ConfigParser},
    (profileNames p).drop i = ss → I p → Prog.Triple (FileIs I) (loadAllAwsConfig ss (i + 1) p)
      (fun r t => FileIs I t ∧ I r.2) (fun _ => FileIs I)
  | [], i, p, _, hp => .pure fun _ h => ⟨h, hp⟩
  | s :: rest, i, p, hdrop, hp => by
    intro text htext
    have hi : (profileNames p)[i]? = some s := by
      rw [← List.head?_drop, hdrop, List.head?_cons]
    have hs : s ∈ profileNames p := List.mem_of_getElem? hi
    have hm := (mem_profileNames.1 hs).1
    rw [run_loadAllAwsConfig_cons (ordinary_of_normal (hI.normal p hp) hm) hm]
    have hp₁ := hI.order p i s hi hp
    generalize hput : p.put s "order" (toString (i + 1)).toList = p₁ at hp₁ ⊢
    have hn₁ : p₁.sectionNames = p.sectionNames := by rw [← hput, sectionNames_put]
    have hfile : FileIs I (write p₁) := ⟨p₁, (hI.normal p₁ hp₁).read_write, hp₁⟩
    have hrun : Prog.Triple (FileIs I) (do
        let (aws, p₂) ← Prog.ofExcept (loadAwsConfig p₁ s)
        let (others, p₃) ← loadAllAwsConfig rest (i + 1 + 1) p₂
        return (aws :: others, p₃) : ConfigFile _) (fun r t => FileIs I t ∧ I r.2) (fun _ => FileIs I) := by
      refine .bind (Q := fun r t => FileIs I t ∧ I r.2 ∧ r.2.sectionNames = p.sectionNames) ?_ fun r => ?_
      · refine .ofExcept (fun r t hr ht => ⟨ht, ?_⟩) fun e t _ ht => ht
        have := hI.setDefaults hp₁ (by rw [mem_profileNames, hn₁]; exact mem_profileNames.1 hs)
          (loadAwsConfig_eq_ok.1 hr).1
        exact ⟨this.1, this.2.trans hn₁⟩
      · rintro t ⟨ht, hr, hn⟩
        refine (Prog.Triple.bind (loadAllAwsConfig_spec hI rest (i + 1) (p := r.2) ?_ hr) fun x => .pure fun _ h => h)
          t ht
        rw [profileNames, hn, ← profileNames, ← List.drop_drop, hdrop]
        rfl
    exact hrun _ hfile

theorem readConfig_spec : Prog.Triple (FileIs I) readConfig (fun p t => FileIs I t ∧ I p) (fun _ => FileIs I) := by
  rintro t ⟨p, hp, hI⟩
  simp only [readConfig, Prog.run_bind, Prog.run_get, Prog.run_ofExcept, hp]
  exact ⟨⟨p, hp, hI⟩, hI⟩

/-- **What a construction keeps of the file and finds in its loader.** -/
theorem build_spec (hI : Settled I) : Prog.Triple (FileIs I) build (fun l t => FileIs I t ∧ I l.config)
    (fun _ => FileIs I) := by
  refine .bind readConfig_spec fun p => ?_
  rintro t ⟨ht, hp⟩
  refine (Prog.Triple.bind (Q := fun _ => FileIs I) (.ofExcept (fun _ _ _ h => h) fun _ _ _ h => h) fun api => ?_) t ht
  exact .bind (loadAllAwsConfig_spec hI _ 0 rfl hp) fun r => .pure fun _ h => h

/-! ## Writing a section -/

/-- `write_changes` writes the merge, or leaves the file. -/
theorem run_writeChanges (l : ConfigLoader) (s text : Str) : l.writeChanges s text =
    match (ConfigParser.read text).bind fun file => mergeSection l.config file s with
    | .ok p => (.ok (), write p)
    | .error e => (.error e, text) := by
  simp only [writeChanges, readConfig, writeConfig, Prog.run_bind, Prog.run_get, Prog.run_ofExcept, Prog.run_set]
  cases ConfigParser.read text with
  | error e => rfl
  | ok file =>
    simp only [Except.bind]
    cases mergeSection l.config file s <;> rfl

/-- A merge can be written if every copied line is read as the line of its option. -/
theorem writable_mergeSection {mem file p : ConfigParser} {s : Str} (hs : Ordinary s) (hmem : Writable mem)
    (hfile : Writable file) (h : mergeSection mem file s = .ok p)
    (hentry : ∀ k ∈ mem.options s, ∀ r, mem.get s k = .ok r → EntryOk k r) : Writable p := by
  rw [mergeSection_eq hs] at h
  split at h
  · rename_i hm
    refine copyOptions_keeps (P := Writable) hs h ?_ fun q k r hk hr hq => ?_
    · unfold mergeBase
      split
      · exact hfile
      · rename_i hc
        exact hfile.addSection (hmem.names s hm) fun hin => hc ((contains_iff hs file).2 hin)
    · rw [hmem.optionxform_of_mem hk]
      exact hq.put s (hentry k hk r hr)
  · cases h

/-- **What `write_changes` leaves.** -/
theorem writeChanges_spec {J : ConfigParser → Prop} {l : ConfigLoader} {s : Str}
    (h : ∀ p p', I p → mergeSection l.config p s = .ok p' → Writable p' ∧ J p'.norm) :
    Prog.Triple (FileIs I) (l.writeChanges s) (fun _ => FileIs J) (fun _ => FileIs I) := by
  refine .bind readConfig_spec fun p => ?_
  rintro t ⟨ht, hp⟩
  refine (Prog.Triple.bind (Q := fun p' t => FileIs I t ∧ mergeSection l.config p s = .ok p')
    (.ofExcept (fun p' t hp' ht => ⟨ht, hp'⟩) fun _ _ _ h => h) fun p' => ?_) t ht
  rintro t ⟨_, hp'⟩
  obtain ⟨hw, hJ⟩ := h p p' hp hp'
  exact ⟨p'.norm, read_write hw, hJ⟩

/-! ## The repository's example file -/

def exampleApiConfig : ApiConfig where
  apikey := "api"
  port := "3000"
  interfaceWgPrivateKey := "EKQjHssyQE4MVKmrv4xpVO3vsnt0kxxxxxxxxxxxxx="
  interfaceWgPublicKey := "JTd3H3va2TrXXkEqs/m6gYvXuaSMQaxxxxxxxxxxxxx="
  peerWgPublicKey := "7TV7byE1FngcIM40+NsmwUjPWUUFnCxxxxxxxxxxxxx="
  peerWgPrivateKey := "kJnY0vLqqwAbyaGSF1MySN96Txxxxxxxxxxxxx="
  publicip := "1.1.1.1"
  sshKeyPath := "/root/.ssh/id_rsa"

def exampleAwsConfig : AwsConfig where
  configName := "aws1"
  order := "1"
  accessKey := "AKIAVxxxxxxxxxxxxx"
  secretKey := "rowAiKOSdIFbQSCqMxxxxxxxxxxxxx"
  instanceId := "i-0cfxxxxxxxxxxxxx"
  region := "ap-southeast-2"
  apikey := ""
  whitelist := "122.11.22.1,122.44.11.22"
  user := "ilyas"
  pass := "ilyas"

/-- The loader of the example file. -/
def exampleLoader : ConfigLoader := ⟨exampleConfig, exampleApiConfig, [exampleAwsConfig]⟩

/-- The example file reads as `exampleConfig`, and a construction leaves it as it is. -/
theorem build_example : ConfigParser.read (write exampleConfig) = .ok exampleConfig ∧
    build (write exampleConfig) = (.ok exampleLoader, write exampleConfig) := by
  simp (disch := exact rfl) only [exampleLoader, exampleConfig, exampleApiConfig, exampleAwsConfig, toList_of_eq]
  decide +kernel

/-- What a loader of the example file has of its profile. -/
theorem loadAws_example : exampleLoader.loadAws "aws1" = .ok (exampleAwsConfig, exampleLoader) := by
  simp (disch := exact rfl) only [exampleLoader, exampleConfig, exampleApiConfig, exampleAwsConfig, toList_of_eq]
  decide +kernel

theorem loadApi_example : loadApiConfig exampleConfig = .ok exampleApiConfig := by
  simp (disch := exact rfl) only [exampleConfig, exampleApiConfig, toList_of_eq]
  decide +kernel

theorem read_example : ConfigParser.read (write exampleConfig) = .ok exampleConfig := build_example.1

theorem normal_example : Normal exampleConfig := read_normal read_example

/-- The second profile of a file with two. -/
def secondAwsConfig : AwsConfig where
  configName := "aws2"
  order := "2"
  accessKey := "AKIAVyyyyyyyyyyyyy"
  secretKey := "rowAiKOSdIFbQSCqMyyyyyyyyyyyyy"
  instanceId := "i-0d1"
  region := "us-west-2"
  apikey := "api2"
  whitelist := ""
  user := "mala"
  pass := "mala2"

/-- The example file with a second profile. -/
def pairConfig : ConfigParser where
  defaults := []
  sections := exampleConfig.sections ++ ([("aws2", [("accesskey", "AKIAVyyyyyyyyyyyyy"),
    ("secretkey", "rowAiKOSdIFbQSCqMyyyyyyyyyyyyy"), ("instanceid", "i-0d1"), ("region", "us-west-2"), ("order", "2"),
    ("user", "mala"), ("pass", "mala2"), ("apikey", "api2"), ("whitelist", "")])] : Dict Str (Dict Str Str))

theorem build_pair : ConfigParser.read (write pairConfig) = .ok pairConfig ∧ build (write pairConfig) =
    (.ok ⟨pairConfig, exampleApiConfig, [exampleAwsConfig, secondAwsConfig]⟩, write pairConfig) := by
  simp (disch := exact rfl) only [pairConfig, exampleConfig, exampleApiConfig, exampleAwsConfig, secondAwsConfig,
    toList_of_eq]
  decide +kernel

end ConfigLoader
end Iprotate
