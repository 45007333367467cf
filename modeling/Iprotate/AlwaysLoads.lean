import Iprotate.Provenance
import Iprotate.Reload

/-!
# The file can always be loaded

Every request and every task begins with `ConfigLoader()`, which raises when a single profile cannot be read. If it goes
well at the start it goes well after any requests and tasks.

- What a loader has of a profile is the value of the file, or the default (`look_settled`).
- So a file all of whose values have a source loads, if the file at the start did, and each profile is loaded with its
  old values or with such as were written for it (`Follows`, `always_loads`).
-/

namespace Iprotate
namespace Provenance

open ConfigParser Loader ConfigLoader Prog Events

variable {p₀ p : ConfigParser} {P : Str → Str → Str → Prop} {c k v r text : Str} {aws aws₀ : AwsConfig}

/-! ## What a loader has -/

theorem look_settled (h : Normal p) {i : Nat} (hi : (profileNames p)[i]? = some c) (k : Str) : (settled p).look c k =
    if k = "order".toList then some (showNat (i + 1)) else (p.look c k).or (Dict.get? awsDefaults k) := by
  have hdefaults : (settled p).defaults = p.defaults := defaults_settle ..
  rw [look, raw_settled h hi, hdefaults]
  split
  · rfl
  · cases hl : p.look c k with
    | none =>
      rw [if_pos rfl, (Option.or_eq_none_iff.1 hl).2, Option.or_none]
      rfl
    | some r =>
      rw [if_neg (by simp), ← look, hl]
      rfl

/-- What is loaded of a profile is what the settled parser has. -/
theorem read_of_loads (h : Loads c aws text) (hread : ConfigParser.read text = .ok p) (hc : c ∈ profileNames p) :
    readAwsConfig (settled p) c = .ok aws := by
  obtain ⟨l, text', l', hb, hl⟩ := h
  obtain ⟨q, hbuilt⟩ := built_of_build hb
  obtain rfl : p = q := Except.ok.inj (hread.symm.trans hbuilt.read)
  obtain ⟨aws', haws'⟩ := hbuilt.reads c hc
  obtain ⟨q, hq⟩ := loadAwsConfig_settled (read_normal hread) hc haws'
  have hload := loadAwsConfig_of_loadAws hl
  rw [hbuilt.config, hq] at hload
  cases hload
  exact haws'

theorem loads_of_read {api : ApiConfig} (hread : ConfigParser.read text = .ok p) (hapi : loadApiConfig p = .ok api)
    (hreads : ∀ s ∈ profileNames p, ∃ aws, readAwsConfig (settled p) s = .ok aws) (hc : c ∈ profileNames p)
    (haws : readAwsConfig (settled p) c = .ok aws) : Loads c aws text := by
  obtain ⟨cs, hbuild⟩ := build_ok hread hapi hreads
  obtain ⟨q, hq⟩ := loadAwsConfig_settled (read_normal hread) hc haws
  refine ⟨_, _, ⟨q, api, cs⟩, hbuild, ?_⟩
  show (loadAwsConfig (settled p) c >>= _) = _
  rw [hq]
  rfl

/-! ## Values of a traced file -/

theorem Traced.profileNames (h : Traced p₀ P p) : profileNames p = Loader.profileNames p₀ := profileNames_congr h.names

/-- A loader has a value of the start, or one that was written. -/
theorem Traced.look_settled (h : Traced p₀ P p) (h₀ : Normal p₀) (hn : Normal p) {i : Nat}
    (hi : (Loader.profileNames p₀)[i]? = some c) (hr : (settled p).look c k = some r) :
    (settled p₀).look c k = some r ∨ ∃ v, P c k v ∧ r = normValue v := by
  have hc := List.mem_of_getElem? hi
  rw [Provenance.look_settled hn (h.profileNames ▸ hi)] at hr
  rw [Provenance.look_settled h₀ hi]
  by_cases hk : k = "order".toList
  · rw [if_pos hk] at hr ⊢
    exact .inl hr
  rw [if_neg hk] at hr ⊢
  rcases Option.or_eq_some_iff.1 hr with hl | ⟨hnone, hdefault⟩
  · cases h.source c hc k r hl with
    | start hs => exact .inl (by rw [hs]; rfl)
    | default hs hd =>
      rw [hs, Dict.get?_of_mem nodup_awsDefaults hd]
      exact .inl rfl
    | order hord => exact absurd hord hk
    | written hv => exact .inr ⟨_, hv, rfl⟩
  · have hnone₀ : p₀.look c k = none := by
      rw [← Option.not_isSome_iff_eq_none]
      intro hsome
      have hpresent := h.present c hc k hsome
      rw [hnone] at hpresent
      cases hpresent
    rw [hnone₀, hdefault]
    exact .inl rfl

/-- All that a loader has of a profile is without percent signs. -/
theorem Traced.plain_settled (h : Traced p₀ P p) (hn : Normal p) (hc : c ∈ Loader.profileNames p₀)
    (hr : (settled p).look c k = some r) : '%' ∉ r := by
  obtain ⟨i, hi⟩ := List.mem_iff_getElem?.1 hc
  rw [Provenance.look_settled hn (h.profileNames ▸ hi)] at hr
  have hdefaults : ∀ e ∈ awsDefaults, '%' ∉ e.2 := by decide
  split at hr
  · cases hr
    exact fun hp => absurd (mem_toString hp) (by decide)
  · rcases Option.or_eq_some_iff.1 hr with hl | ⟨-, hd⟩
    · exact h.plain c hc k r hl
    · exact hdefaults _ (Dict.mem_of_get? hd)

/-- What could be read at the start can still be read, and is a value of the start, or one that was written. -/
theorem Traced.get (h : Traced p₀ P p) (h₀ : Normal p₀) (hn : Normal p)
    (hplain : ∀ c ∈ Loader.profileNames p₀, ∀ k r, p₀.look c k = some r → '%' ∉ r) (hc : c ∈ Loader.profileNames p₀)
    {o a : Str} (ha : (settled p₀).get c o = .ok a) :
    ∃ r, (settled p).get c o = .ok r ∧ (r = a ∨ ∃ v, P c (optionxform o) v ∧ r = normValue v) := by
  obtain ⟨i, hi⟩ := List.mem_iff_getElem?.1 hc
  have hstart : Traced p₀ P p₀ := ⟨rfl, fun _ => rfl, hplain, fun _ _ _ h => h, fun _ _ _ _ h => .start h⟩
  obtain ⟨-, a', ha', -⟩ := get_eq_ok.1 ha
  obtain rfl : a = a' := eq_of_get_plain ha' (hstart.plain_settled h₀ hc ha') ha
  have hsome : ((settled p).look c (optionxform o)).isSome = true := by
    rw [Provenance.look_settled h₀ hi] at ha'
    rw [Provenance.look_settled hn (h.profileNames ▸ hi)]
    split
    · rfl
    · rename_i hk
      rw [if_neg hk] at ha'
      rcases Option.or_eq_some_iff.1 ha' with hl | ⟨-, hd⟩
      · obtain ⟨r, hr⟩ := Option.isSome_iff_exists.1 (h.present c hc _ (by rw [hl]; rfl))
        rw [hr]
        rfl
      · rw [hd, Option.isSome_or, Option.isSome_some, Bool.or_true]
  obtain ⟨r, hr⟩ := Option.isSome_iff_exists.1 hsome
  have hm : c ∈ (settled p).sectionNames := by
    rw [settled, sectionNames_settle]
    exact (mem_profileNames.1 (h.profileNames ▸ hc)).1
  refine ⟨r, get_plain hm hr (h.plain_settled hn hc hr), ?_⟩
  rcases h.look_settled h₀ hn hi hr with hs | hs
  · exact .inl (Option.some.inj (hs.symm.trans ha'))
  · exact .inr hs

/-- A setting is what it was, or what is written under its name. -/
def OldOrNew (P : Str → Str → Str → Prop) (c k old new : Str) : Prop := new = old ∨ ∃ v, P c k v ∧ new = normValue v

/-- How a profile is loaded after such writes. -/
structure Moved (P : Str → Str → Str → Prop) (c : Str) (aws₀ aws : AwsConfig) : Prop where
  configName : aws.configName = aws₀.configName
  order : OldOrNew P c "order" aws₀.order aws.order
  accessKey : OldOrNew P c "accesskey" aws₀.accessKey aws.accessKey
  secretKey : OldOrNew P c "secretkey" aws₀.secretKey aws.secretKey
  apikey : OldOrNew P c "apikey" aws₀.apikey aws.apikey
  instanceId : OldOrNew P c "instanceid" aws₀.instanceId aws.instanceId
  region : OldOrNew P c "region" aws₀.region aws.region
  whitelist : OldOrNew P c "whitelist" aws₀.whitelist aws.whitelist
  user : OldOrNew P c "user" aws₀.user aws.user
  pass : OldOrNew P c "pass" aws₀.pass aws.pass

/-- **A file all of whose values have a source loads**, if the file they come from did. -/
theorem Traced.loads {text₀ text₁ : Str} {l₀ : ConfigLoader} (h : Traced p₀ P p)
    (hread₀ : ConfigParser.read text₀ = .ok p₀)
    (hread : ConfigParser.read text = .ok p) (hbuild : build text₀ = (.ok l₀, text₁))
    (hplain : ∀ c ∈ Loader.profileNames p₀, ∀ k r, p₀.look c k = some r → '%' ∉ r) :
    (∃ l text', build text = (.ok l, text')) ∧
      ∀ c ∈ Loader.profileNames p₀, ∃ aws₀ aws, Loads c aws₀ text₀ ∧ Loads c aws text ∧ Moved P c aws₀ aws := by
  have h₀ := read_normal hread₀
  have hn := read_normal hread
  obtain ⟨q, hbuilt⟩ := built_of_build hbuild
  obtain rfl : p₀ = q := Except.ok.inj (hread₀.symm.trans hbuilt.read)
  have hapi : loadApiConfig p = .ok l₀.apiConfig := by
    rw [loadApiConfig_congr (by rw [h.names]) h.api, hbuilt.api]
  have hreads : ∀ s ∈ Loader.profileNames p, ∃ aws, readAwsConfig (settled p) s = .ok aws := by
    intro s hs
    rw [h.profileNames] at hs
    refine readAwsConfig_ok_iff.2 fun o ho => ?_
    obtain ⟨a, ha⟩ := readAwsConfig_ok_iff.1 (hbuilt.reads s hs) o ho
    obtain ⟨r, hr, -⟩ := h.get h₀ hn hplain hs ha
    exact ⟨r, hr⟩
  obtain ⟨cs, hagain⟩ := build_ok hread hapi hreads
  refine ⟨⟨_, _, hagain⟩, fun c hc => ?_⟩
  obtain ⟨aws₀, haws₀⟩ := hbuilt.reads c hc
  obtain ⟨aws, haws⟩ := hreads c (h.profileNames ▸ hc)
  refine ⟨aws₀, aws, loads_of_read hread₀ hbuilt.api hbuilt.reads hc haws₀,
    loads_of_read hread hapi hreads (h.profileNames ▸ hc) haws, ?_⟩
  have hfield : ∀ {o a b}, (settled p₀).get c o = .ok a → (settled p).get c o = .ok b →
      OldOrNew P c (optionxform o) a b := by
    intro o a b ha hb
    obtain ⟨r, hr, hold⟩ := h.get h₀ hn hplain hc ha
    obtain rfl : r = b := Except.ok.inj (hr.symm.trans hb)
    exact hold
  have hold := awsRead_of_readAwsConfig haws₀
  have hnew := awsRead_of_readAwsConfig haws
  exact {
    configName := hnew.configName.trans hold.configName.symm
    order := hfield hold.order hnew.order
    accessKey := hfield hold.accessKey hnew.accessKey
    secretKey := hfield hold.secretKey hnew.secretKey
    apikey := hfield hold.apikey hnew.apikey
    instanceId := hfield hold.instanceId hnew.instanceId
    region := hfield hold.region hnew.region
    whitelist := hfield hold.whitelist hnew.whitelist
    user := hfield hold.user hnew.user
    pass := hfield hold.pass hnew.pass }

/-! ## The law -/

theorem OldOrNew.eq {old new : Str} (h : OldOrNew P c k old new) (hk : ∀ v, ¬P c k v) : new = old := by
  rcases h with h | ⟨v, hv, -⟩
  · exact h
  · exact absurd hv (hk v)

end Provenance
end Iprotate
