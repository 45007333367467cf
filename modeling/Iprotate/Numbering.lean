import Iprotate.ProfileFiles

/-!
# What the number of a profile stands for

`ConfigLoader()` numbers the profile sections from 1 on, and each number gives a profile its ports, its two addresses
and its routing table.

- After a construction the profiles have the numbers 1 to n, in the order of the file (`orders_of_build`).
- The resources are valid and no two profiles share one, exactly if there are at most 252 profiles (`resources_iff`).
- The 253rd profile gets the kernel's routing table 253 (`table_253`).
-/

namespace Iprotate
namespace Numbering

open ConfigParser Loader ConfigLoader IpNetwork Prog

/-! ## The resources -/

/-- What a port is for. -/
inductive Role
  | shadowsocks
  | wireguard
  | socks5
  | http
  deriving DecidableEq, Repr

/-- The ports of the generated files. -/
def port : Role → Int → Int
  | .shadowsocks, order => ssBasePort + order
  | .wireguard, order => wgPortBase + order
  | .socks5, order => socks5PortBase + order
  | .http, order => httpPortBase + order

/-- The two ends of a tunnel. -/
inductive Side
  | interface
  | peer
  deriving DecidableEq, Repr

/-- The address of an end, from the order's text. -/
def address : Side → Str → Str
  | .interface, order => withoutMask (interfaceIp order)
  | .peer, order => withoutMask (peerIp order)

/-- The routing tables that the kernel reserves. -/
def reservedTables : List Int := [0, 253, 254, 255]

/-- `int(text)` is this number. -/
def Number (text : Str) (n : Int) : Prop := ∀ w, Py.int text w = (.ok n, w)

/-- One profile's resources are valid. -/
structure Valid (c : AwsConfig) (n : Int) : Prop where
  order : Number c.order n
  ports : ∀ role, 1 ≤ port role n ∧ port role n ≤ 65535
  addresses : ∀ side, (parseIPv4 (address side c.order)).isSome = true
  table : n ∉ reservedTables

/-- All profiles' resources are valid, and no two profiles share one. -/
structure Resources (cs : List AwsConfig) : Prop where
  valid : ∀ c ∈ cs, ∃ n, Valid c n
  ports : ∀ c ∈ cs, ∀ d ∈ cs, ∀ n m, Number c.order n → Number d.order m → ∀ role role', port role n = port role' m →
    c.configName = d.configName ∧ role = role'
  addresses : ∀ c ∈ cs, ∀ d ∈ cs, ∀ side side' a, parseIPv4 (address side c.order) = some a →
    parseIPv4 (address side' d.order) = some a → c.configName = d.configName ∧ side = side'

/-! ## Numbers as texts -/

theorem isDigit_of_mem_showNat {n : Nat} {c : Char} (h : c ∈ showNat n) : c.isDigit = true := mem_toString h

theorem showNat_ne_nil (n : Nat) : showNat n ≠ [] := by
  rw [showNat, show toString n = n.repr from rfl, Nat.toList_repr]
  exact Nat.toDigits_ne_nil

/-- **The text of a number is read as that number.** -/
theorem number_showNat (n : Nat) : Number (showNat n) n := by
  intro w
  have hdigit : ∀ c ∈ showNat n, c.isDigit = true := fun c hc => isDigit_of_mem_showNat hc
  have hvalue : (showNat n).foldl (fun n c => 10 * n + (c.toNat - 48)) 0 = n := by
    rw [showNat, show toString n = n.repr from rfl, Nat.toList_repr]
    exact (Nat.ofDigitChars_eq_foldl.symm.trans Nat.ofDigitChars_ten_toDigits)
  have hsplit : (showNat n).splitOn '_' = [showNat n] := List.splitOn_eq_singleton fun h => by
    have := hdigit _ h
    revert this
    decide
  have hall : (showNat n).all Char.isDigit = true := List.all_eq_true.2 hdigit
  unfold Py.int
  dsimp only
  rw [Text.strip_solid fun c hc => Text.not_isSpace_of_isDigit (hdigit c hc)]
  have hsign : ∀ c t, showNat n = c :: t → c ≠ '-' ∧ c ≠ '+' := by
    intro c t hs
    have hc := hdigit c (by simp [hs])
    constructor <;> rintro rfl <;> exact absurd hc (by decide)
  split
  · rename_i heq
    exact absurd rfl (hsign _ _ heq).1
  · rename_i heq
    exact absurd rfl (hsign _ _ heq).2
  · simp only [hsplit, List.all_cons, showNat_ne_nil, hall, ne_eq, not_false_eq_true, decide_true, List.all_nil,
      Bool.and_self, if_true, List.flatten_cons, List.flatten_nil, List.append_nil, hvalue, Option.map_some]
    rfl

/-- A text is the text of one number at most. -/
theorem Number.unique {text : Str} {n m : Int} (h : Number text n) (h' : Number text m) : n = m := by
  have := (h exampleWorld).symm.trans (h' exampleWorld)
  cases this
  rfl

/-! ## The numbers of the profiles -/

variable {p p' : ConfigParser} {s : Str} {text text' : Str} {l : ConfigLoader} {cs : List AwsConfig}

/-- A profile is loaded under its name and with the order that was just stored. -/
theorem order_of_loadAwsConfig {aws : AwsConfig} {d : Str} (hraw : p.raw s "order" = some d) (hd : '%' ∉ d)
    (h : loadAwsConfig p s = .ok (aws, p')) : (aws.configName, aws.order) = (s, d) := by
  obtain ⟨hdefaults, hread⟩ := loadAwsConfig_eq_ok.1 h
  have haws := awsRead_of_readAwsConfig hread
  have horder := eq_of_get_plain (look_of_raw (raw_setDefaults hdefaults hraw)) hd haws.order
  rw [haws.configName, horder]

/-- The loop numbers the sections in their order. -/
theorem orders_of_loop : ∀ (ss : List Str) (n : Nat) {p p' : ConfigParser} {text text' : Str} {cs : List AwsConfig},
    (∀ s ∈ ss, Ordinary s ∧ s ∈ p.sectionNames) → loadAllAwsConfig ss n p text = (.ok (cs, p'), text') →
    cs.map (fun c => (c.configName, c.order)) = (ss.zipIdx n).map fun e => (e.1, showNat e.2)
  | [], _, _, _, _, _, _, _, h => by
    cases h
    rfl
  | s :: ss, n, p, p', text, text', cs, hss, h => by
    obtain ⟨hs, hm⟩ := hss s List.mem_cons_self
    rw [run_loadAllAwsConfig_cons hs hm] at h
    have hraw : (p.put s "order" (toString n).toList).raw s "order" = some (showNat n) := raw_put_self hm _ _
    cases hload : loadAwsConfig (p.put s "order" (toString n).toList) s with
    | error e => simp only [run_bind, run_ofExcept, hload] at h; cases h
    | ok x =>
      obtain ⟨aws, q⟩ := x
      have hhead := order_of_loadAwsConfig hraw (fun hp => by
        have := isDigit_of_mem_showNat hp
        revert this
        decide) hload
      have hnames : q.sectionNames = p.sectionNames :=
        (sectionNames_setDefaults (loadAwsConfig_eq_ok.1 hload).1).trans (sectionNames_put ..)
      simp only [run_bind, run_ofExcept, hload] at h
      split at h
      · rename_i others t hrest
        obtain ⟨others, q'⟩ := others
        cases h
        have ih := orders_of_loop ss (n + 1) (fun s' hs' => by
          rw [hnames]
          exact hss s' (List.mem_cons_of_mem _ hs')) hrest
        rw [List.map_cons, hhead, ih, List.zipIdx_cons, List.map_cons]
      · cases h

/-- **After a construction the profiles are numbered from 1 on.** -/
theorem orders_of_build (hread : read text = .ok p) (h : build text = (.ok l, text')) :
    l.allAwsConfigs.map (fun c => (c.configName, c.order)) =
      ((profileNames p).zipIdx 1).map fun e => (e.1, showNat e.2) := by
  have hnormal := read_normal hread
  simp only [build, readConfig, run_bind, run_get, run_ofExcept, hread] at h
  split at h
  · split at h
    · rename_i r t hloop
      obtain ⟨cs, q⟩ := r
      cases h
      refine orders_of_loop _ 1 (fun s hs => ?_) hloop
      have hm := (mem_profileNames.1 hs).1
      exact ⟨ordinary_of_normal hnormal hm, hm⟩
    · cases h
  · cases h

/-! ## When the resources are valid -/

section numbered

variable {names : List Str}
  (h : cs.map (fun c => (c.configName, c.order)) = (names.zipIdx 1).map fun e => (e.1, showNat e.2))

include h

/-- Every profile has a number. -/
theorem exists_number {c : AwsConfig} (hc : c ∈ cs) :
    ∃ k, 1 ≤ k ∧ k ≤ names.length ∧ c.order = showNat k ∧ names[k - 1]? = some c.configName := by
  have hmem : (c.configName, c.order) ∈ cs.map fun c => (c.configName, c.order) := List.mem_map_of_mem hc
  rw [h] at hmem
  obtain ⟨⟨s, k⟩, hk, he⟩ := List.mem_map.1 hmem
  simp only [Prod.mk.injEq] at he
  obtain ⟨rfl, ho⟩ := he
  obtain ⟨h₁, h₂, h₃⟩ := List.mem_zipIdx hk
  refine ⟨k, h₁, by omega, ho.symm, ?_⟩
  rw [List.getElem?_eq_getElem (by omega), h₃]

/-- Every number up to the last belongs to a profile. -/
theorem exists_profile {k : Nat} (h₁ : 1 ≤ k) (h₂ : k ≤ names.length) : ∃ c ∈ cs, c.order = showNat k := by
  have hmem : (names[k - 1], showNat k) ∈ (names.zipIdx 1).map fun e => (e.1, showNat e.2) := by
    refine List.mem_map.2 ⟨(names[k - 1], k), ?_, rfl⟩
    rw [List.mem_zipIdx_iff_le_and_getElem?_sub]
    exact ⟨h₁, List.getElem?_eq_getElem (by omega)⟩
  rw [← h] at hmem
  obtain ⟨c, hc, he⟩ := List.mem_map.1 hmem
  exact ⟨c, hc, congrArg Prod.snd he⟩

/-- With 253 profiles one of them has the routing table 253. -/
theorem le_of_resources (hr : Resources cs) : names.length ≤ 252 := by
  by_contra hlt
  obtain ⟨c, hc, ho⟩ := exists_profile h (k := 253) (by omega) (by omega)
  obtain ⟨n, hn⟩ := hr.valid c hc
  have : n = 253 := hn.order.unique (ho ▸ number_showNat 253)
  exact hn.table (by rw [this]; decide)

end numbered

/-- The last byte of an address. -/
def Side.host : Side → Nat
  | .interface => 2
  | .peer => 1

theorem parseIPv4_address : ∀ n, n ≤ 252 → ∀ side,
    parseIPv4 (address side (showNat n)) = some (167772160 + 256 * n + side.host) := by
  have hall : ∀ i : Fin 253, parseIPv4 (address .interface (showNat i)) = some (167772160 + 256 * i.val + 2) ∧
      parseIPv4 (address .peer (showNat i)) = some (167772160 + 256 * i.val + 1) := by decide +kernel
  intro n hn side
  cases side with
  | interface => exact (hall ⟨n, by omega⟩).1
  | peer => exact (hall ⟨n, by omega⟩).2

theorem resources_of_le {names : List Str}
    (h : cs.map (fun c => (c.configName, c.order)) = (names.zipIdx 1).map fun e => (e.1, showNat e.2))
    (hle : names.length ≤ 252) : Resources cs where
  valid c hc := by
    obtain ⟨k, h₁, h₂, ho, _⟩ := exists_number h hc
    refine ⟨k, by rw [ho]; exact number_showNat k, fun role => ?_, fun side => ?_, ?_⟩
    · cases role <;> simp only [port, ssBasePort, wgPortBase, socks5PortBase, httpPortBase] <;> omega
    · rw [ho, parseIPv4_address k (by omega) side]
      rfl
    · simp only [reservedTables, List.mem_cons, List.not_mem_nil, or_false]
      omega
  ports c hc d hd n m hn hm role role' he := by
    obtain ⟨k, h₁, h₂, ho, hname⟩ := exists_number h hc
    obtain ⟨k', h₁', h₂', ho', hname'⟩ := exists_number h hd
    obtain rfl : n = k := hn.unique (ho ▸ number_showNat k)
    obtain rfl : m = k' := hm.unique (ho' ▸ number_showNat k')
    have hk : k = k' ∧ role = role' := by
      cases role <;> cases role' <;>
        simp only [port, ssBasePort, wgPortBase, socks5PortBase, httpPortBase] at he <;> simp <;> omega
    obtain ⟨rfl, rfl⟩ := hk
    exact ⟨Option.some.inj (hname.symm.trans hname'), rfl⟩
  addresses c hc d hd side side' a ha ha' := by
    obtain ⟨k, h₁, h₂, ho, hname⟩ := exists_number h hc
    obtain ⟨k', h₁', h₂', ho', hname'⟩ := exists_number h hd
    rw [ho, parseIPv4_address k (by omega)] at ha
    rw [ho', parseIPv4_address k' (by omega), ← ha] at ha'
    have hk : k = k' ∧ side = side' := by
      cases side <;> cases side' <;> simp [Side.host] at ha' ⊢ <;> omega
    obtain ⟨rfl, rfl⟩ := hk
    exact ⟨Option.some.inj (hname.symm.trans hname'), rfl⟩

/-- **The resources of the profiles are valid and disjoint exactly if there are at most 252 profiles.** -/
theorem resources_iff (hread : read text = .ok p) (h : build text = (.ok l, text')) :
    Resources l.allAwsConfigs ↔ (profileNames p).length ≤ 252 :=
  ⟨le_of_resources (orders_of_build hread h), resources_of_le (orders_of_build hread h)⟩

/-- The profiles of a file with two. -/
theorem resources_example : ∃ l text, build (write pairConfig) = (.ok l, text) ∧ Resources l.allAwsConfigs :=
  ⟨_, _, build_pair.2, (resources_iff build_pair.1 build_pair.2).2 (by decide)⟩

/-! ## Many profiles -/

/-- The options of a profile but `order`, as `[DEFAULT]` may have them. -/
def sharedOptions : Dict Str Str :=
  [("accesskey", "k"), ("secretkey", "s"), ("instanceid", ""), ("region", "us-east-1"), ("apikey", ""),
   ("whitelist", ""), ("user", ""), ("pass", "")]

/-- The `[api]` section of the example file. -/
def apiOptions : Dict Str Str := (exampleConfig.sections.get? "api").getD []

/-- A file with `n` profiles, named `a`, `aa`, and so on. -/
def fleet (n : Nat) : ConfigParser where
  defaults := sharedOptions
  sections := (apiSection, apiOptions) ::
    (List.range n).map fun i => (List.replicate (i + 1) 'a', [])

/-- No value holds a percent sign, and every option of a profile but `order` has a default. -/
structure Loadable (p : ConfigParser) : Prop where
  plain : ∀ s k v, p.look s k = some v → '%' ∉ v
  shared : p.defaults = sharedOptions

theorem Loadable.put (h : Loadable p) (hm : s ∈ p.sectionNames) (k : Str) {v : Str} (hv : '%' ∉ v) :
    Loadable (p.put s k v) := by
  refine ⟨fun s' k' v' hl => ?_, h.shared⟩
  rw [look, raw_put hm] at hl
  split at hl
  · cases hl
    exact hv
  · exact h.plain s' k' v' hl

theorem Loadable.look_isSome (h : Loadable p) (s : Str) {k : Str} (hk : (sharedOptions.get? k).isSome = true) :
    (p.look s k).isSome = true := by
  rw [look, h.shared]
  cases p.raw s k with
  | some v => rfl
  | none => exact hk

theorem Loadable.setDefaults (h : Loadable p) (hs : Ordinary s) (hm : s ∈ p.sectionNames) :
    Loader.setDefaults p s = .ok p := by
  have hall : ∀ e ∈ awsDefaults, setDefault p s e.1 e.2 = .ok p := by
    intro e he
    have hshared : ∀ e ∈ awsDefaults, (sharedOptions.get? (optionxform e.1)).isSome = true := by decide
    have hopt : p.hasOption s e.1 = true := by
      rw [hasOption, if_neg (not_or.2 ⟨hs.1, hs.2⟩), if_pos hm, h.look_isSome s (hshared e he)]
    rw [setDefault, if_pos hopt]
  have hfold : ∀ es : List (Str × Str), (∀ e ∈ es, e ∈ awsDefaults) →
      es.foldlM (fun p e => setDefault p s e.1 e.2) p = .ok p := by
    intro es
    induction es with
    | nil => exact fun _ => rfl
    | cons e es ih =>
      intro hes
      rw [List.foldlM_cons, hall e (hes e List.mem_cons_self)]
      exact ih fun e he => hes e (List.mem_cons_of_mem _ he)
  exact hfold _ fun _ h => h

theorem Loadable.loadAwsConfig (h : Loadable p) (hs : Ordinary s) (hm : s ∈ p.sectionNames)
    (ho : (p.look s "order").isSome = true) : ∃ aws, Loader.loadAwsConfig p s = .ok (aws, p) := by
  have hget : ∀ k : Str, (p.look s (optionxform k)).isSome = true → ∃ v, p.get s k = .ok v := by
    intro k hk
    obtain ⟨v, hv⟩ := Option.isSome_iff_exists.1 hk
    exact ⟨v, get_plain hm hv (h.plain _ _ _ hv)⟩
  have hshared : ∀ k : Str, (sharedOptions.get? (optionxform k)).isSome = true → ∃ v, p.get s k = .ok v :=
    fun k hk => hget k (h.look_isSome s hk)
  have hreads : ∀ o ∈ awsOptions, ∃ v, p.get s o = .ok v := by
    have hall : ∀ o ∈ awsOptions, o = "order".toList ∨ (sharedOptions.get? (optionxform o)).isSome = true := by decide
    intro o hmem
    rcases hall o hmem with rfl | hk
    · exact hget "order" ho
    · exact hshared o hk
  obtain ⟨aws, haws⟩ := readAwsConfig_ok_iff.2 hreads
  exact ⟨aws, loadAwsConfig_eq_ok.2 ⟨h.setDefaults hs hm, haws⟩⟩

theorem Loadable.loop : ∀ (ss : List Str) (n : Nat) {p : ConfigParser} (text : Str), Loadable p →
    (∀ s ∈ ss, Ordinary s ∧ s ∈ p.sectionNames) →
    ∃ cs p' text', loadAllAwsConfig ss n p text = (.ok (cs, p'), text')
  | [], _, p, text, _, _ => ⟨[], p, text, rfl⟩
  | s :: ss, n, p, text, h, hss => by
    obtain ⟨hs, hm⟩ := hss s List.mem_cons_self
    have hput : Loadable (p.put s "order" (toString n).toList) := h.put hm _ fun hp => by
      have := isDigit_of_mem_showNat hp
      revert this
      decide
    have hm' : s ∈ (p.put s "order" (toString n).toList).sectionNames := by rwa [sectionNames_put]
    obtain ⟨aws, haws⟩ := hput.loadAwsConfig hs hm' (by rw [look_of_raw (raw_put_self hm _ _)]; rfl)
    obtain ⟨cs, q, text', hrest⟩ := loop ss (n + 1) (write (p.put s "order" (toString n).toList)) hput fun s' hs' => by
      rw [sectionNames_put]
      exact hss s' (List.mem_cons_of_mem _ hs')
    refine ⟨aws :: cs, q, text', ?_⟩
    rw [run_loadAllAwsConfig_cons hs hm]
    simp only [run_bind, run_ofExcept, haws, hrest, run_pure]

/-- A file with plain values is loaded. -/
theorem Loadable.build (h : Loadable p) (hread : read text = .ok p) {api : ApiConfig}
    (hapi : loadApiConfig p = .ok api) :
    ∃ l text', ConfigLoader.build text = (.ok l, text') := by
  obtain ⟨cs, q, text', hloop⟩ := h.loop (profileNames p) 1 text fun s hs => by
    have hm := (mem_profileNames.1 hs).1
    exact ⟨ordinary_of_normal (read_normal hread) hm, hm⟩
  refine ⟨⟨q, api, cs⟩, text', ?_⟩
  simp only [ConfigLoader.build, readConfig, run_bind, run_get, run_ofExcept, hread, hapi, hloop, run_pure]

/-! ### The fleet -/

theorem sectionNames_fleet (n : Nat) : (fleet n).sectionNames =
    apiSection :: (List.range n).map fun i => List.replicate (i + 1) 'a' := by
  simp [fleet, sectionNames, Dict.keys, Function.comp_def]

theorem fleetName_ne_api (i : Nat) : List.replicate (i + 1) 'a' ≠ apiSection := fun h => by
  have : 'p' ∈ List.replicate (i + 1) 'a' := by rw [h]; decide
  exact absurd (List.eq_of_mem_replicate this) (by decide)

theorem length_profileNames_fleet (n : Nat) : (profileNames (fleet n)).length = n := by
  have hfilter : ((List.range n).map fun i => List.replicate (i + 1) 'a').filter (· ≠ apiSection) =
      (List.range n).map fun i => List.replicate (i + 1) 'a' := List.filter_eq_self.2 fun s hs => by
    obtain ⟨i, _, rfl⟩ := List.mem_map.1 hs
    exact decide_eq_true (fleetName_ne_api i)
  rw [profileNames, sectionNames_fleet, List.filter_cons_of_neg (by decide), hfilter, List.length_map,
    List.length_range]

/-- The section of a profile of the fleet is empty, so its values come from `[api]` and `[DEFAULT]`. -/
theorem loadable_fleet (n : Nat) : Loadable (fleet n) := by
  refine ⟨fun s k v hl => ?_, rfl⟩
  have hshared : ∀ e ∈ sharedOptions, '%' ∉ e.2 := by decide
  have hapi : ∀ e ∈ apiOptions, '%' ∉ e.2 := by decide
  rcases Option.or_eq_some_iff.1 hl with hraw | ⟨_, hdef⟩
  · obtain ⟨d, hd, hv⟩ := Option.bind_eq_some_iff.1 hraw
    have hmem := Dict.mem_of_get? hd
    simp only [fleet, List.mem_cons, Prod.mk.injEq, List.mem_map] at hmem
    rcases hmem with ⟨_, rfl⟩ | ⟨_, _, _, rfl⟩
    · exact hapi _ (Dict.mem_of_get? hv)
    · cases hv
  · exact hshared _ (Dict.mem_of_get? hdef)

theorem writable_fleet (n : Nat) : Writable (fleet n) where
  defaults := ⟨show sharedOptions.keys.Nodup by decide, by
    have hentry : ∀ e ∈ sharedOptions, KeyOk e.1 ∧ e.1.head? ≠ some '[' ∧ '\r' ∉ e.2 := by decide
    exact fun e he => .of_head (hentry e he).1 (hentry e he).2.1 (hentry e he).2.2⟩
  nodup := by
    have hinj : ((List.range n).map fun i => List.replicate (i + 1) 'a').Nodup :=
      List.Nodup.map (fun i j h => by simpa using congrArg List.length h) List.nodup_range
    rw [show (fleet n).sections.keys = _ from sectionNames_fleet n, List.nodup_cons]
    refine ⟨fun h => ?_, hinj⟩
    obtain ⟨i, _, hi⟩ := List.mem_map.1 h
    exact fleetName_ne_api i hi
  names name h := by
    rw [show (fleet n).sections.keys = _ from sectionNames_fleet n] at h
    rcases List.mem_cons.1 h with rfl | h
    · exact ⟨by decide, by decide, by decide, by decide⟩
    · obtain ⟨i, _, rfl⟩ := List.mem_map.1 h
      refine ⟨by simp, fun h => ?_, by simp, by simp⟩
      have : 'D' ∈ List.replicate (i + 1) 'a' := by rw [h]; decide
      exact absurd (List.eq_of_mem_replicate this) (by decide)
  items e h := by
    have hentry : ∀ e ∈ apiOptions, KeyOk e.1 ∧ e.1.head? ≠ some '[' ∧ '\r' ∉ e.2 := by
      decide
    simp only [fleet, List.mem_cons, List.mem_map] at h
    rcases h with rfl | ⟨_, _, rfl⟩
    · exact ⟨by decide, fun e he => .of_head (hentry e he).1 (hentry e he).2.1 (hentry e he).2.2⟩
    · exact ⟨List.nodup_nil, fun e he => by cases he⟩

theorem norm_fleet (n : Nat) : (fleet n).norm = fleet n := by
  have hapi : apiOptions.mapVal normValue = apiOptions := by
    simp (disch := exact rfl) only [apiOptions, exampleConfig, toList_of_eq]
    decide +kernel
  have hshared : sharedOptions.mapVal normValue = sharedOptions := by
    simp (disch := exact rfl) only [sharedOptions, toList_of_eq]
    decide +kernel
  simp only [ConfigParser.norm, fleet, hshared]
  congr 1
  simp only [Dict.mapVal, List.map_cons, List.map_map] at hapi ⊢
  rw [hapi]
  rfl

/-- The 253rd profile of a file gets a routing table of the kernel. -/
theorem table_253 : ¬∀ (text text' : Str) (l : ConfigLoader), build text = (.ok l, text') →
    Resources l.allAwsConfigs := by
  intro h
  have hread : read (write (fleet 253)) = .ok (fleet 253) := by rw [read_write (writable_fleet 253), norm_fleet]
  have hapi : (loadApiConfig (fleet 253)).toOption.isSome = true := by
    simp (disch := exact rfl) only [fleet, sharedOptions, apiOptions, exampleConfig, toList_of_eq]
    decide +kernel
  obtain ⟨api, hload⟩ := except_exists_ok hapi
  obtain ⟨l, text', hbuild⟩ := (loadable_fleet 253).build hread hload
  have hle := le_of_resources (orders_of_build hread hbuild) (h _ _ _ hbuild)
  rw [length_profileNames_fleet] at hle
  omega

end Numbering
end Iprotate
