import Iprotate.Loader

/-!
# The steps of a construction

`ConfigLoader()` reads `config.conf` once and then, for each profile section, writes its own parser back twice: with
the section's `order` blanked (`reset_aws_config_order`) and with its new number (`reorder_aws_config`). Between two
writes it adds the defaults of `load_aws_config`. `Construction.next` is one of these writes.

A construction keeps every value its parser has, except the `order` of profile sections (`next_raw`), and loses no
option (`next_keeps`).
-/

namespace Iprotate

open ConfigParser Loader

/-- A construction after its read. -/
structure Construction where
  config : ConfigParser
  /-- The sections still to be numbered. -/
  todo : List Str
  counter : Nat
  /-- The `order` of the first of them is blanked. -/
  blanked : Bool

namespace Construction

/-- `ConfigParser.read` and `load_api_config`; `none` when that raises. -/
def start (file : ConfigParser) : Option Construction :=
  match loadApiConfig file with
  | .ok _ => some ⟨file, profileNames file, 1, false⟩
  | .error _ => none

/-- The next write: what is written, and how the construction goes on; `none` when it is over or raises. -/
def next (c : Construction) : Option (ConfigParser × Option Construction) :=
  match c.todo with
  | [] => none
  | s :: rest =>
    if c.blanked then
      match reorderAwsConfig c.config s c.counter with
      | .error _ => none
      | .ok p =>
        match loadAwsConfig p s with
        | .error _ => some (p, none)
        | .ok (_, p') => some (p, if rest = [] then none else some ⟨p', rest, c.counter + 1, false⟩)
    else
      match resetAwsConfigOrder c.config s with
      | .error _ => none
      | .ok p => some (p, some { c with config := p, blanked := true })

/-- The construction numbers profile sections only. -/
def Profiles (c : Construction) : Prop := apiSection ∉ c.todo

theorem Profiles.start {file : ConfigParser} {c : Construction} (h : start file = some c) :
    c.config = file ∧ c.Profiles := by
  unfold Construction.start at h
  split at h
  · cases h
    exact ⟨rfl, by simp [Profiles, profileNames]⟩
  · cases h

variable {c c' : Construction} {p : ConfigParser}

/-- What `next` can do: one `set` of an `order`, and after a renumbering the defaults of that section. -/
theorem next_cases {r : Option Construction} (h : c.next = some (p, r)) : ∃ s n, s ∈ c.todo ∧
    c.config.set s "order" n = .ok p ∧ ∀ c', r = some c' → (∀ s' ∈ c'.todo, s' ∈ c.todo) ∧
      (c'.config = p ∨ setDefaults p s = .ok c'.config) := by
  unfold next at h
  cases htodo : c.todo with
  | nil => rw [htodo] at h; cases h
  | cons s rest =>
    rw [htodo] at h
    dsimp only at h
    split at h
    · split at h
      · cases h
      · rename_i q hq
        refine ⟨s, (toString c.counter).toList, List.mem_cons_self, ?_⟩
        split at h
        · cases h
          exact ⟨hq, fun _ h => by cases h⟩
        · rename_i aws q' hload
          simp only [Option.some.injEq, Prod.mk.injEq] at h
          obtain ⟨rfl, hr⟩ := h
          refine ⟨hq, fun c' hc' => ?_⟩
          rw [hc'] at hr
          split at hr
          · cases hr
          · cases hr
            exact ⟨fun s' hs' => List.mem_cons_of_mem _ hs', .inr (loadAwsConfig_eq_ok.1 hload).1⟩
    · split at h
      · cases h
      · rename_i q hq
        cases h
        refine ⟨s, "", List.mem_cons_self, hq, fun c' hc' => ?_⟩
        cases hc'
        exact ⟨fun s' hs' => hs', .inl rfl⟩

/-- The write and the rest of the construction keep every value but the `order` of profile sections. -/
theorem next_raw {r : Option Construction} (h : c.next = some (p, r)) (hprof : c.Profiles) {s k v : Str}
    (hk : ¬(k = optionxform "order" ∧ s ≠ apiSection)) (hraw : c.config.raw s k = some v) :
    p.raw s k = some v ∧ ∀ c', r = some c' → c'.config.raw s k = some v ∧ c'.Profiles := by
  obtain ⟨s', n, hs', hset, hrest⟩ := next_cases h
  have hne : s' ≠ s ∨ optionxform "order" ≠ k := by
    by_contra hc
    obtain ⟨rfl, rfl⟩ : s' = s ∧ optionxform "order" = k := by
      by_cases hs : s' = s <;> simp_all
    exact hk ⟨rfl, fun he => hprof (he ▸ hs')⟩
  have hp : p.raw s k = some v := by rw [raw_set_ne hset hne, hraw]
  refine ⟨hp, fun c' hc' => ?_⟩
  obtain ⟨hsub, hconf⟩ := hrest c' hc'
  refine ⟨?_, fun hm => hprof (hsub _ hm)⟩
  rcases hconf with hconf | hconf
  · rw [hconf, hp]
  · exact raw_setDefaults hconf hp

/-- The write and the rest of the construction keep every section and every option. -/
theorem next_keeps {r : Option Construction} (h : c.next = some (p, r)) :
    p.sectionNames = c.config.sectionNames ∧ (∀ s k, (c.config.raw s k).isSome → (p.raw s k).isSome) ∧
      ∀ c', r = some c' → c'.config.sectionNames = c.config.sectionNames ∧
        ∀ s k, (c.config.raw s k).isSome → (c'.config.raw s k).isSome := by
  obtain ⟨s', n, _, hset, hrest⟩ := next_cases h
  have hn := sectionNames_set hset
  have hr : ∀ s k, (c.config.raw s k).isSome → (p.raw s k).isSome := fun s k => raw_isSome_set hset
  refine ⟨hn, hr, fun c' hc' => ?_⟩
  rcases (hrest c' hc').2 with hconf | hconf
  · rw [hconf]
    exact ⟨hn, hr⟩
  · refine ⟨(sectionNames_setDefaults hconf).trans hn, fun s k hk => ?_⟩
    obtain ⟨v, hv⟩ := Option.isSome_iff_exists.1 (hr s k hk)
    exact Option.isSome_iff_exists.2 ⟨v, raw_setDefaults hconf hv⟩

end Construction
end Iprotate
