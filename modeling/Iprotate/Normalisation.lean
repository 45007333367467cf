import Iprotate.Base.Percents
import Iprotate.Built
import Iprotate.Numbering

/-!
# What a construction makes of the file

`ConfigLoader()` numbers the profiles and adds what they lack, and writes the file twice for each of them.

- When the file is written for the last time, every profile has its number, and every profile but the last has the
  options it lacked (`raw_lastWritten_eq`).
- What could be read before can be read with that (`reads_settled`), so the construction ends normally.
- Numbering the profiles of such a file again changes nothing (`lastWritten_again`).
- So a construction brings the file into a normal form and another one leaves it there
  (`construction_normalises`), if the options in `[api]` can be read; one with a stray percent sign cannot
  (`api_percent`).
-/

namespace Iprotate
namespace Normalisation

open ConfigParser Loader ConfigLoader

/-- The options that `load_api_config` reads. -/
def apiKeys : List Str :=
  ["apikey", "port", "interfacewgPrivateKey", "interfacewgPublicKey", "peerwgPublicKey", "peerwgPrivateKey", "publicip",
   "sshKeyPath"]

/-- The options that a construction may add to a profile. -/
def addedKeys : List Str := ["order", "user", "pass", "apikey", "whitelist", "region", "instanceid"]

/-- A configuration that has what a construction reads. -/
structure Complete (p : ConfigParser) : Prop where
  api : ∀ o ∈ apiKeys, p.hasOption apiSection o = true
  keys : ∀ s ∈ profileNames p, p.hasOption s "accesskey" = true ∧ p.hasOption s "secretkey" = true
  values : ∀ s ∈ profileNames p, ∀ o ∈ p.options s, ∃ r, p.get s o = .ok r

/-- The second configuration is the first one, with its profiles numbered and some options added to them. -/
structure Normalised (p q : ConfigParser) : Prop where
  sectionNames : q.sectionNames = p.sectionNames
  defaults : q.defaults = p.defaults
  order : ∀ i s, (profileNames p)[i]? = some s → q.raw s "order" = some (showNat (i + 1))
  kept : ∀ s o v, (s ∈ profileNames p → o ≠ "order".toList) → p.raw s o = some v → q.raw s o = some v
  added : ∀ s o v, p.raw s o = none → q.raw s o = some v → s ∈ profileNames p ∧ o ∈ addedKeys

/-- A loader that lists these profiles in this order, each with a number of its own. -/
structure Lists (l : ConfigLoader) (names : List Str) : Prop where
  names : l.allAwsConfigs.map AwsConfig.configName = names
  orders : (l.allAwsConfigs.map AwsConfig.order).Nodup

/-- A construction ends normally and leaves the configuration in this form, and the next one leaves the file as it
is. -/
def Normalises (text : Str) (p : ConfigParser) : Prop :=
  ∃ l text' q, build text = (.ok l, text') ∧ ConfigParser.read text' = .ok q ∧ Normalised p q ∧
    Lists l (profileNames p) ∧ ∃ l', build text' = (.ok l', text')

variable {p q : ConfigParser} {s : Str}

/-! ## What is written last -/

theorem mem_settleSection {ss : List Str} {n : Nat} {t : Str} (h : ∀ s ∈ ss, s ∈ p.sectionNames) :
    ∀ s ∈ ss, s ∈ (settleSection p t n).sectionNames := fun s hs => by
  rw [sectionNames_settleSection]
  exact h s hs

theorem raw_lastWritten_not_mem : ∀ {ss : List Str} {n : Nat} {p : ConfigParser}, (∀ s ∈ ss, s ∈ p.sectionNames) →
    s ∉ ss → ∀ o, (lastWritten ss n p).raw s o = p.raw s o
  | [], _, _, _, _, _ => rfl
  | [s'], n, p, hss, hs, o => by
    rw [lastWritten, raw_put_ne (.inl (Ne.symm (List.ne_of_not_mem_cons hs)))]
  | s' :: s'' :: ss, n, p, hss, hs, o => by
    rw [List.mem_cons, not_or] at hs
    have hrest : ∀ s ∈ s'' :: ss, s ∈ p.sectionNames := fun s hs => hss s (List.mem_cons_of_mem _ hs)
    rw [lastWritten, raw_lastWritten_not_mem (mem_settleSection hrest) hs.2,
      raw_settleSection (hss s' List.mem_cons_self), if_neg (Ne.symm hs.1)]

/-- **A profile when the file is written for the last time**: the last one still lacks what it lacked. -/
theorem raw_lastWritten_eq :
    ∀ {ss : List Str} {n i : Nat} {p : ConfigParser}, (∀ s ∈ ss, s ∈ p.sectionNames) → ss.Nodup →
    ss[i]? = some s → ∀ o, (lastWritten ss n p).raw s o =
      if o = "order".toList then some (showNat (n + i))
      else if p.look s o = none ∧ i + 1 < ss.length then Dict.get? awsDefaults o else p.raw s o
  | [], _, _, _, _, _, hi, _ => by cases hi
  | [s'], n, 0, p, hss, _, hi, o => by
    cases hi
    rw [lastWritten, raw_put (hss s List.mem_cons_self)]
    by_cases ho : o = "order".toList
    · rw [if_pos ⟨rfl, ho.symm⟩, if_pos ho]
      rfl
    · rw [if_neg fun h => ho h.2.symm, if_neg ho, if_neg fun h => absurd h.2 (Nat.lt_irrefl _)]
  | [_], _, _ + 1, _, _, _, hi, _ => by cases hi
  | s' :: s'' :: ss, n, 0, p, hss, hnd, hi, o => by
    cases hi
    have hrest : ∀ t ∈ s'' :: ss, t ∈ p.sectionNames := fun t ht => hss t (List.mem_cons_of_mem _ ht)
    have hlast : 0 + 1 < (s :: s'' :: ss).length := by simp
    rw [lastWritten, raw_lastWritten_not_mem (mem_settleSection hrest) (List.nodup_cons.1 hnd).1,
      raw_settleSection (hss s List.mem_cons_self), if_pos rfl]
    simp only [hlast, and_true]
    rfl
  | s' :: s'' :: ss, n, i + 1, p, hss, hnd, hi, o => by
    have hrest : ∀ t ∈ s'' :: ss, t ∈ p.sectionNames := fun t ht => hss t (List.mem_cons_of_mem _ ht)
    rw [List.nodup_cons] at hnd
    rw [List.getElem?_cons_succ] at hi
    have hne : s' ≠ s := fun he => hnd.1 (he ▸ List.mem_of_getElem? hi)
    have hraw : ∀ o, (settleSection p s' n).raw s o = p.raw s o := fun o => by
      rw [raw_settleSection (hss s' List.mem_cons_self), if_neg hne]
    have hlook : (settleSection p s' n).look s o = p.look s o := by rw [look, look, hraw, defaults_settleSection]
    have hlast : i + 1 + 1 < (s' :: s'' :: ss).length ↔ i + 1 < (s'' :: ss).length := by simp
    rw [lastWritten, raw_lastWritten_eq (mem_settleSection hrest) hnd.2 hi, hraw, hlook, Nat.add_right_comm,
      Nat.add_assoc]
    simp only [hlast]

/-! ## Numbering again -/

/-- A profile that has its number and lacks nothing. -/
theorem settleSection_eq_self {n : Nat} (horder : q.raw s "order" = some (showNat n))
    (hlacks : ∀ e ∈ awsDefaults, q.look s e.1 ≠ none) : settleSection q s n = q := by
  have hfold : ∀ es : List (Str × Str), (∀ e ∈ es, e ∈ awsDefaults) → es.foldl (withDefault s) q = q := by
    intro es
    induction es with
    | nil => exact fun _ => rfl
    | cons e es ih =>
      intro hes
      rw [List.foldl_cons, withDefault, if_neg (hlacks e (hes e List.mem_cons_self))]
      exact ih fun e he => hes e (List.mem_cons_of_mem _ he)
  rw [settleSection, put_eq_self horder, withDefaults, hfold awsDefaults fun _ h => h]

theorem settleSection_settleSection (hm : s ∈ p.sectionNames) {n : Nat}
    (hraw : ∀ o, q.raw s o = (settleSection p s n).raw s o)
    (hdefaults : q.defaults = p.defaults) : settleSection q s n = q := by
  refine settleSection_eq_self ?_ fun e he hnone => ?_
  · rw [hraw, raw_settleSection hm, if_pos rfl, if_pos rfl]
  · obtain ⟨hr, hd⟩ := Option.or_eq_none_iff.1 hnone
    rw [hraw, raw_settleSection hm, if_pos rfl] at hr
    rw [hdefaults] at hd
    split at hr
    · cases hr
    split at hr
    · have hsome : ∀ e ∈ awsDefaults, Dict.get? awsDefaults e.1 ≠ none := by decide
      exact hsome e he hr
    · rename_i hlook
      exact hlook (Option.or_eq_none_iff.2 ⟨hr, hd⟩)

/-- **What was written last is written again.** -/
theorem lastWritten_again : ∀ {ss : List Str} (n : Nat) {p : ConfigParser}, (∀ s ∈ ss, s ∈ p.sectionNames) → ss.Nodup →
    lastWritten ss n (lastWritten ss n p) = lastWritten ss n p
  | [], _, _, _, _ => rfl
  | [s], n, p, _, _ => put_put p s "order" _ _
  | s :: s' :: ss, n, p, hss, hnd => by
    have hm := hss s List.mem_cons_self
    have hrest : ∀ t ∈ s' :: ss, t ∈ (settleSection p s n).sectionNames :=
      mem_settleSection fun t ht => hss t (List.mem_cons_of_mem _ ht)
    rw [List.nodup_cons] at hnd
    have hself : settleSection (lastWritten (s' :: ss) (n + 1) (settleSection p s n)) s n =
        lastWritten (s' :: ss) (n + 1) (settleSection p s n) := by
      refine settleSection_settleSection hm (fun o => raw_lastWritten_not_mem hrest hnd.1 o) ?_
      rw [defaults_lastWritten, defaults_settleSection]
    show lastWritten (s' :: ss) (n + 1) (settleSection (lastWritten (s' :: ss) (n + 1) (settleSection p s n)) s n) = _
    rw [hself]
    exact lastWritten_again (n + 1) hrest hnd.2

/-! ## What can be read -/

/-- What an option of a loader's profile reads from. -/
theorem look_settled (h : Normal p) {i : Nat} (hi : (profileNames p)[i]? = some s) (o : Str) : (settled p).look s o =
    if o = "order".toList then some (showNat (i + 1))
    else if p.look s o = none then Dict.get? awsDefaults o else p.look s o := by
  have hdefaults : (settled p).defaults = p.defaults := defaults_settle ..
  rw [look, raw_settled h hi, hdefaults]
  split
  · rfl
  split
  · rename_i hlook
    rw [(Option.or_eq_none_iff.1 hlook).2, Option.or_none]
  · rfl

/-- Each option of a profile is its number, one of its keys, or has a default. -/
theorem awsOptions_cases : ∀ o ∈ awsOptions, optionxform o = "order".toList ∨ optionxform o = "accesskey".toList ∨
    optionxform o = "secretkey".toList ∨ ∃ d, Dict.get? awsDefaults (optionxform o) = some d ∧ '%' ∉ d := by
  have hcases : ∀ o ∈ awsOptions, optionxform o = "order".toList ∨ optionxform o = "accesskey".toList ∨
      optionxform o = "secretkey".toList ∨ ((Dict.get? awsDefaults (optionxform o)).any fun d => '%' ∉ d) = true := by
    decide
  intro o ho
  refine (hcases o ho).imp_right (.imp_right (.imp_right fun h => ?_))
  obtain ⟨d, hd, hplain⟩ := (Option.any_eq_true ..).1 h
  exact ⟨d, hd, by simpa using hplain⟩

theorem look_ne_none_of_hasOption (hs : Ordinary s) (hm : s ∈ p.sectionNames) {o : Str} (h : p.hasOption s o = true) :
    p.look s (optionxform o) ≠ none := by
  rw [hasOption, if_neg fun h => h.elim hs.1 hs.2, if_pos hm] at h
  exact Option.isSome_iff_ne_none.1 h

/-- **The construction can read every profile.** -/
theorem reads_settled (h : Normal p) (hc : Complete p) (hs : s ∈ profileNames p) :
    ∃ aws, readAwsConfig (settled p) s = .ok aws := by
  obtain ⟨hord, hm⟩ := profiles_ordinary h s hs
  obtain ⟨i, hi⟩ := List.mem_iff_getElem?.1 hs
  have hm' : s ∈ (settled p).sectionNames := by rwa [settled, sectionNames_settle]
  have hdigits : '%' ∉ showNat (i + 1) := fun hp => absurd (Numbering.isDigit_of_mem_showNat hp) (by decide)
  refine readAwsConfig_ok_iff.2 fun o ho => ?_
  have hlook := look_settled h hi (optionxform o)
  by_cases horder : optionxform o = "order".toList
  · rw [if_pos horder] at hlook
    exact ⟨_, get_plain hm' hlook hdigits⟩
  rw [if_neg horder] at hlook
  cases hv : p.look s (optionxform o) with
  | none =>
    obtain ⟨haccess, hsecret⟩ := hc.keys s hs
    rcases awsOptions_cases o ho with ho | ho | ho | ⟨d, hd, hplain⟩
    · exact absurd ho horder
    · rw [ho] at hv
      exact absurd hv (look_ne_none_of_hasOption hord hm haccess)
    · rw [ho] at hv
      exact absurd hv (look_ne_none_of_hasOption hord hm hsecret)
    · rw [if_pos hv, hd] at hlook
      exact ⟨d, get_plain hm' hlook hplain⟩
  | some v =>
    rw [if_neg (by rw [hv]; exact Option.some_ne_none v), hv] at hlook
    obtain ⟨r, hr⟩ := hc.values s hs _ (mem_options_of_look hv)
    rw [get_optionxform] at hr
    obtain ⟨-, v', hv', hx⟩ := get_eq_ok.1 hr
    obtain rfl := Option.some.inj (hv.symm.trans hv')
    have hlooks : ∀ x u, p.look s x = some u → (settled p).look s x = some u ∨
        ∃ u', (settled p).look s x = some u' ∧ '%' ∉ u' := fun x u hu => by
      have hx := look_settled h hi x
      by_cases horder : x = "order".toList
      · rw [if_pos horder] at hx
        exact .inr ⟨_, hx, hdigits⟩
      · rw [if_neg horder, if_neg (by rw [hu]; exact Option.some_ne_none u), hu] at hx
        exact .inl hx
    obtain ⟨r', hr'⟩ := Interpolation.exists_expand hlooks hx
    exact ⟨r', get_eq_ok.2 ⟨.inl hm', v, hlook, hr'⟩⟩

theorem loadApiConfig_ok (h : ∀ o ∈ apiKeys, ∃ r, p.get apiSection o = .ok r) : ∃ api, loadApiConfig p = .ok api := by
  simp only [apiKeys, List.forall_mem_cons] at h
  obtain ⟨⟨apikey, hapikey⟩, ⟨port, hport⟩, ⟨iprivate, hiprivate⟩, ⟨ipublic, hipublic⟩, ⟨ppublic, hppublic⟩,
    ⟨pprivate, hpprivate⟩, ⟨publicip, hpublicip⟩, ⟨ssh, hssh⟩, -⟩ := h
  refine ⟨⟨apikey, port, iprivate, ipublic, ppublic, pprivate, publicip, ssh⟩, ?_⟩
  simp only [loadApiConfig, hapikey, hport, hiprivate, hipublic, hppublic, hpprivate, hpublicip, hssh]
  rfl

/-! ## The normal form -/

theorem mem_addedKeys {o d : Str} (h : Dict.get? awsDefaults o = some d) : o ∈ addedKeys := by
  have hkeys : ∀ e ∈ awsDefaults, e.1 ∈ addedKeys := by decide
  exact hkeys _ (Dict.mem_of_get? h)

theorem normalised_leftParser (h : Normal p) : Normalised p (leftParser p) := by
  have hmem : ∀ s ∈ profileNames p, s ∈ p.sectionNames := fun s hs => (mem_profileNames.1 hs).1
  have hnot : ∀ {s o}, s ∉ profileNames p → (leftParser p).raw s o = p.raw s o := fun hs =>
    raw_lastWritten_not_mem hmem hs _
  have heq : ∀ {i s o}, (profileNames p)[i]? = some s → (leftParser p).raw s o = _ := fun hi =>
    raw_lastWritten_eq hmem (nodup_profileNames h) hi _
  refine ⟨sectionNames_leftParser p, defaults_leftParser p, fun i s hi => ?_, fun s o v ho hv => ?_,
    fun s o v hnone hv => ?_⟩
  · rw [heq hi, if_pos rfl, Nat.add_comm]
  · by_cases hs : s ∈ profileNames p
    · obtain ⟨i, hi⟩ := List.mem_iff_getElem?.1 hs
      rw [heq hi, if_neg (ho hs), if_neg, hv]
      rintro ⟨hlook, -⟩
      rw [look_of_raw hv] at hlook
      cases hlook
    · rw [hnot hs, hv]
  · by_cases hs : s ∈ profileNames p
    · refine ⟨hs, ?_⟩
      obtain ⟨i, hi⟩ := List.mem_iff_getElem?.1 hs
      rw [heq hi] at hv
      split at hv
      · rename_i horder
        rw [horder]
        decide
      split at hv
      · exact mem_addedKeys hv
      · rw [hnone] at hv
        cases hv
    · rw [hnot hs, hnone] at hv
      cases hv

theorem lists_of_build {text text' : Str} {l : ConfigLoader} (hread : read text = .ok p)
    (h : build text = (.ok l, text')) : Lists l (profileNames p) := by
  have horders := Numbering.orders_of_build hread h
  constructor
  · have hnames := congrArg (List.map Prod.fst) horders
    simp only [List.map_map, Function.comp_def] at hnames
    rw [hnames]
    exact List.zipIdx_map_fst 1 _
  · have hnumbers := congrArg (List.map Prod.snd) horders
    simp only [List.map_map, Function.comp_def] at hnumbers
    have hrange : ((profileNames p).zipIdx 1).map (fun e => showNat e.2) =
        (List.range' 1 (profileNames p).length).map showNat := by
      rw [← List.zipIdx_map_snd, List.map_map]
      rfl
    rw [hnumbers, hrange]
    exact (List.nodup_map_iff showNat_injective).2 (List.nodup_range' ..)

/-- What a construction leaves in the file, it leaves there again. -/
theorem leftIn_again (h : Normal p) (text : Str) : leftIn (leftParser p) (leftIn p text) = leftIn p text := by
  have hagain : lastWritten (profileNames p) 1 (leftParser p) = leftParser p :=
    lastWritten_again 1 (fun s hs => (mem_profileNames.1 hs).1) (nodup_profileNames h)
  rw [leftIn, textAfter, profileNames_leftParser, hagain]
  split
  · rfl
  · rename_i hne
    rw [leftIn, textAfter, if_neg hne]
    rfl

/-- **A construction brings the file into a normal form, and another one leaves it there.** -/
theorem construction_normalises (text : Str) (p : ConfigParser) (hread : ConfigParser.read text = .ok p)
    (hc : Complete p) (hapi : ∀ o ∈ apiKeys, ∃ r, p.get apiSection o = .ok r) : Normalises text p := by
  have hnormal := read_normal hread
  obtain ⟨api, hapi⟩ := loadApiConfig_ok hapi
  obtain ⟨cs, hbuild⟩ := build_ok hread hapi fun s hs => reads_settled hnormal hc hs
  refine ⟨_, _, leftParser p, hbuild, read_leftIn hread, normalised_leftParser hnormal, lists_of_build hread hbuild, ?_⟩
  obtain ⟨cs', hagain⟩ := build_ok (read_leftIn hread) ((loadApiConfig_leftParser hnormal).trans hapi) fun s hs => by
    rw [profileNames_leftParser] at hs
    rw [readAwsConfig_leftParser hnormal hs]
    exact reads_settled hnormal hc hs
  rw [leftIn_again hnormal] at hagain
  exact ⟨_, hagain⟩

/-! ## An example -/

/-- Two profiles, the first without a number and the second with one that is not its own. -/
def twoProfiles : ConfigParser where
  defaults := []
  sections :=
    [("api", Numbering.apiOptions),
     ("aws1", [("accesskey", "AKIAVxxxxxxxxxxxxx"), ("secretkey", "rowAiKOSdIFbQSCqMxxxxxxxxxxxxx"),
      ("user", "%(accesskey)s")]),
     ("aws2", [("accesskey", "AKIAVxxxxxxxxxxxxx"), ("secretkey", "rowAiKOSdIFbQSCqMxxxxxxxxxxxxx"), ("order", "7")])]

theorem complete_twoProfiles : Complete twoProfiles where
  api := by decide +kernel
  keys := by decide +kernel
  values := by
    have hreads : ∀ s ∈ profileNames twoProfiles, ∀ o ∈ twoProfiles.options s,
        (twoProfiles.get s o).toOption.isSome = true := by decide +kernel
    exact fun s hs o ho => except_exists_ok (hreads s hs o ho)

theorem normalises_twoProfiles : Normalises (write twoProfiles) twoProfiles := by
  have hread : ConfigParser.read (write twoProfiles) = .ok twoProfiles := by
    simp (disch := exact rfl) only [twoProfiles, Numbering.apiOptions, exampleConfig, toList_of_eq]
    decide +kernel
  have hapi : ∀ o ∈ apiKeys, (twoProfiles.get apiSection o).toOption.isSome = true := by decide +kernel
  exact construction_normalises _ _ hread complete_twoProfiles fun o ho => except_exists_ok (hapi o ho)

/-- The example file with a percent sign for the port. -/
def percentPort : ConfigParser := exampleConfig.put apiSection "port" "%"

theorem complete_percentPort : Complete percentPort where
  api := by
    simp (disch := exact rfl) only [percentPort, exampleConfig, apiSection, toList_of_eq]
    decide +kernel
  keys := by
    simp (disch := exact rfl) only [percentPort, exampleConfig, apiSection, toList_of_eq]
    decide +kernel
  values := by
    have hreads : ∀ s ∈ profileNames percentPort, ∀ o ∈ percentPort.options s,
        (percentPort.get s o).toOption.isSome = true := by
      simp (disch := exact rfl) only [percentPort, exampleConfig, apiSection, toList_of_eq]
      decide +kernel
    exact fun s hs o ho => except_exists_ok (hreads s hs o ho)

/-- An option of `[api]` that is there and cannot be read stops the construction. -/
theorem api_percent : ¬∀ (text : Str) (p : ConfigParser), ConfigParser.read text = .ok p → Complete p →
    Normalises text p := by
  intro h
  have hread : ConfigParser.read (write percentPort) = .ok percentPort := by
    simp (disch := exact rfl) only [percentPort, exampleConfig, apiSection, toList_of_eq]
    decide +kernel
  obtain ⟨l, text', q, hbuild, -⟩ := h _ _ hread complete_percentPort
  have hnone : (build (write percentPort)).1.toOption = none := by
    simp (disch := exact rfl) only [percentPort, exampleConfig, apiSection, toList_of_eq]
    decide +kernel
  rw [hbuild] at hnone
  cases hnone

end Normalisation
end Iprotate
