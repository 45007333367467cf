import Iprotate.Calls
import Iprotate.Frame

/-!
# Elastic IPs

`disassociate_and_release_ip` goes through the answer of `describe_addresses` and tries to disassociate and to release
each address of the instance; a call that fails does not stop it.

- The calls it makes are given by the answer alone, and when none of them raises, no address of the instance that has
  an `AllocationId` is left (`releases`). One without stays (`no_allocation_stays`).
- A rotation ends with such a pass, so what it leaves behind is what that pass could not disassociate or release
  (`rotations_leave`). One failed call is enough (`failed_release_stays`).
-/

namespace Iprotate
namespace Addresses

open Py Prog Ec2

variable {ec2 : Client} {id : Str} {w w' : World} {r r' : Region}

/-! ## What is left of a list of addresses -/

/-- The address belongs to an instance. -/
def Tagged (id : Str) (b : Address) : Prop := ("instance".toList, id) ∈ b.tags.getD []

instance (id : Str) (b : Address) : Decidable (Tagged id b) := inferInstanceAs (Decidable (_ ∈ _))

/-- An address whose association is one of these has none any more. -/
def disassociated (cleared : List Str) (b : Address) : Address :=
  if ∃ s ∈ cleared, b.associationId = some s then { b with associationId := none, associatedWith := none } else b

/-- The addresses without the released ones. -/
def left (cleared gone : List Str) (addresses : List Address) : List Address :=
  (addresses.filter fun b => ∀ x ∈ gone, b.allocationId ≠ some x).map (disassociated cleared)

variable {cleared gone : List Str} {addresses : List Address} {b : Address}

theorem allocationId_disassociated (cleared : List Str) (b : Address) :
    (disassociated cleared b).allocationId = b.allocationId := by
  unfold disassociated
  split <;> rfl

theorem tags_disassociated (cleared : List Str) (b : Address) : (disassociated cleared b).tags = b.tags := by
  unfold disassociated
  split <;> rfl

theorem tagged_disassociated (id : Str) (cleared : List Str) (b : Address) :
    Tagged id (disassociated cleared b) ↔ Tagged id b := by rw [Tagged, Tagged, tags_disassociated]

theorem associationId_disassociated {s : Str} : (disassociated cleared b).associationId = some s ↔
    b.associationId = some s ∧ s ∉ cleared := by
  unfold disassociated
  split
  · rename_i h
    obtain ⟨t, ht, hb⟩ := h
    refine iff_of_false (fun h => by cases h) ?_
    rintro ⟨hs, hno⟩
    rw [hb] at hs
    cases hs
    exact hno ht
  · rename_i h
    exact ⟨fun hs => ⟨hs, fun hmem => h ⟨s, hmem, hs⟩⟩, fun hs => hs.1⟩

theorem disassociated_cases (cleared : List Str) (b : Address) : disassociated cleared b = b ∨
    disassociated cleared b = { b with associationId := none, associatedWith := none } := by
  unfold disassociated
  split
  · exact .inr rfl
  · exact .inl rfl

theorem left_nil (addresses : List Address) : left [] [] addresses = addresses := by
  have hfilter : (addresses.filter fun b => ∀ x ∈ ([] : List Str), b.allocationId ≠ some x) = addresses :=
    List.filter_eq_self.2 fun b _ => by simp
  rw [left, hfilter]
  refine (List.map_congr_left fun b _ => ?_).trans (List.map_id _)
  exact if_neg fun ⟨s, hs, _⟩ => by cases hs

theorem mem_left : b ∈ left cleared gone addresses ↔
    ∃ b₀ ∈ addresses, (∀ x ∈ gone, b₀.allocationId ≠ some x) ∧ disassociated cleared b₀ = b := by
  simp only [left, List.mem_map, List.mem_filter, decide_eq_true_eq, and_assoc]

theorem left_disassociate (s : Str) (cleared gone : List Str) (addresses : List Address) :
    ((left cleared gone addresses).map fun b =>
      if b.associationId = some s then { b with associationId := none, associatedWith := none } else b) =
    left (s :: cleared) gone addresses := by
  rw [left, left, List.map_map]
  refine List.map_congr_left fun b _ => ?_
  show (if (disassociated cleared b).associationId = some s then _ else _) = _
  by_cases hcleared : ∃ t ∈ cleared, b.associationId = some t
  · have hnow : disassociated cleared b = { b with associationId := none, associatedWith := none } := if_pos hcleared
    obtain ⟨t, ht, hb⟩ := hcleared
    rw [hnow, if_neg (fun h => by cases h), disassociated, if_pos ⟨t, List.mem_cons_of_mem _ ht, hb⟩]
  · have hnow : disassociated cleared b = b := if_neg hcleared
    rw [hnow]
    by_cases hs : b.associationId = some s
    · rw [if_pos hs, disassociated, if_pos ⟨s, List.mem_cons_self, hs⟩]
    · rw [if_neg hs, disassociated, if_neg]
      rintro ⟨t, ht, hb⟩
      rcases List.mem_cons.1 ht with rfl | ht
      · exact hs hb
      · exact hcleared ⟨t, ht, hb⟩

theorem left_release (x : Str) (cleared gone : List Str) (addresses : List Address) :
    (left cleared gone addresses).filter (·.allocationId ≠ some x) = left cleared (x :: gone) addresses := by
  rw [left, left, List.filter_map, List.filter_filter]
  congr 1
  refine List.filter_congr fun b _ => ?_
  simp only [Function.comp, allocationId_disassociated, List.forall_mem_cons, Bool.decide_and]

/-! ## One address -/

/-- The addresses of the client's region. -/
def At (ec2 : Client) (addresses : List Address) (w : World) : Prop :=
  ∃ r, w.cloud.region? ec2.region = some r ∧ r.addresses = addresses

/-- The calls for one address. -/
def attempts (ec2 : Client) (b : Address) : List Call :=
  (b.associationId.toList.map fun s => .aws ec2 (.disassociateAddress s)) ++
    b.allocationId.toList.map fun x => .aws ec2 (.releaseAddress x)

/-- The address is released, and none has its association. -/
structure Done (b : Address) (cleared gone : List Str) (addresses : List Address) : Prop where
  released : ∀ x, b.allocationId = some x → x ∈ gone
  freed : ∀ s, b.associationId = some s → ∀ b' ∈ left cleared gone addresses, b'.associationId ≠ some s

/-- The program ends normally after these calls. Of `addresses` there are some left, and none of `done` whose calls
did not raise. -/
def Sweeps (ec2 : Client) (addresses : List Address) (m : Py Unit) (cs : List Call) (done : List Address) : Prop :=
  ∀ w cleared gone, At ec2 (left cleared gone addresses) w → ∃ w' log cleared' gone',
    m w = (.ok (), w') ∧ w'.calls = w.calls ++ log ∧ log.map Prod.fst = cs ∧
    At ec2 (left cleared' gone' addresses) w' ∧ cleared ⊆ cleared' ∧ gone ⊆ gone' ∧
    ∀ b ∈ done, (∀ e ∈ log, e.1 ∈ attempts ec2 b → e.2 = false) → Done b cleared' gone' addresses

theorem Done.mono {cleared' gone' : List Str} (h : Done b cleared gone addresses) (hc : cleared ⊆ cleared')
    (hg : gone ⊆ gone') : Done b cleared' gone' addresses where
  released x hx := hg (h.released x hx)
  freed s hs b' hb' hb := by
    obtain ⟨b₀, hb₀, hno, rfl⟩ := mem_left.1 hb'
    obtain ⟨hassoc, hs'⟩ := associationId_disassociated.1 hb
    exact h.freed s hs _ (mem_left.2 ⟨b₀, hb₀, fun x hx => hno x (hg hx), rfl⟩)
      (associationId_disassociated.2 ⟨hassoc, fun h => hs' (hc h)⟩)

theorem Sweeps.pure (addresses : List Address) : Sweeps ec2 addresses (Pure.pure ()) [] [] :=
  fun w cleared gone h => ⟨w, [], cleared, gone, rfl, (List.append_nil _).symm, rfl, h, List.Subset.refl _,
    List.Subset.refl _, fun _ hb => by cases hb⟩

theorem Sweeps.bind {m m' : Py Unit} {cs cs' : List Call} {done done' : List Address}
    (h : Sweeps ec2 addresses m cs done) (h' : Sweeps ec2 addresses m' cs' done') :
    Sweeps ec2 addresses (do m; m') (cs ++ cs') (done ++ done') := by
  intro w c g hat
  obtain ⟨w₁, log, c₁, g₁, hm, hcalls, hlog, hat₁, hc, hg, hdone⟩ := h w c g hat
  obtain ⟨w₂, log', c₂, g₂, hm', hcalls', hlog', hat₂, hc', hg', hdone'⟩ := h' w₁ c₁ g₁ hat₁
  refine ⟨w₂, log ++ log', c₂, g₂, (run_bind_ok hm).trans hm', ?_, ?_, hat₂, List.Subset.trans hc hc',
    List.Subset.trans hg hg', fun b hb hok => ?_⟩
  · rw [hcalls', hcalls, List.append_assoc]
  · rw [List.map_append, hlog, hlog']
  · rcases List.mem_append.1 hb with hb | hb
    · exact (hdone b hb fun e he => hok e (List.mem_append_left _ he)).mono hc' hg'
    · exact hdone' b hb fun e he => hok e (List.mem_append_right _ he)

/-- A loop, with what its rounds do. -/
theorem Sweeps.each {α : Type} {m : α → Py Unit} {cs : α → List Call} {done : α → List Address} :
    ∀ {as : List α}, (∀ a ∈ as, Sweeps ec2 addresses (m a) (cs a) (done a)) →
      Sweeps ec2 addresses (Prog.each m as) (as.flatMap cs) (as.flatMap done)
  | [], _ => .pure addresses
  | a :: _, h => (h a List.mem_cons_self).bind (Sweeps.each fun a' ha' => h a' (List.mem_cons_of_mem _ ha'))

/-- No address has the association of this one. -/
def Freed (b : Address) (addresses : List Address) : Prop :=
  ∀ s, b.associationId = some s → ∀ b' ∈ addresses, b'.associationId ≠ some s

/-- An operation whose exceptions are dropped. -/
theorem run_tried (op : AwsOp) (f : Region → Option Region) (h : w.cloud.region? ec2.region = some r) : ∃ script,
    (∃ r', f r = some r' ∧
      (tryCatch (change ec2 op f) fun _ => pure () : Py Unit) w = (.ok (), changed w ec2 op script r')) ∨
    (f r = none ∧
      (tryCatch (change ec2 op f) fun _ => pure () : Py Unit) w = (.ok (), w.called (.aws ec2 op) false script)) ∨
    (tryCatch (change ec2 op f) fun _ => pure () : Py Unit) w = (.ok (), w.called (.aws ec2 op) true script) := by
  obtain ⟨script, ⟨r', hf, hrun⟩ | ⟨hf, e, hrun⟩ | ⟨e, hrun⟩⟩ := change_cases op f h
  · exact ⟨script, .inl ⟨r', hf, by rw [run_tryCatch, hrun]⟩⟩
  · exact ⟨script, .inr (.inl ⟨hf, by rw [run_tryCatch, hrun]; rfl⟩)⟩
  · exact ⟨script, .inr (.inr (by rw [run_tryCatch, hrun]; rfl))⟩

theorem run_disassociate (b : Address) (h : At ec2 (left cleared gone addresses) w) : ∃ w' log cleared',
    (tryCatch (do
        let associationId ← Aws.getKey "AssociationId" b.associationId
        let n ← nextId
        change ec2 (.disassociateAddress associationId) (·.disassociateAddress associationId (newIp n)))
      fun _ => pure () : Py Unit) w = (.ok (), w') ∧
    w'.calls = w.calls ++ log ∧
      log.map Prod.fst = b.associationId.toList.map (fun s => .aws ec2 (.disassociateAddress s)) ∧
    At ec2 (left cleared' gone addresses) w' ∧ cleared ⊆ cleared' ∧
    ((∀ e ∈ log, e.2 = false) → Freed b (left cleared' gone addresses)) := by
  obtain ⟨r, hr, hleft⟩ := h
  cases hs : b.associationId with
  | none =>
    refine ⟨w, [], cleared, rfl, (List.append_nil _).symm, rfl, ⟨r, hr, hleft⟩, List.Subset.refl _, fun _ s hb => ?_⟩
    rw [hs] at hb
    cases hb
  | some s =>
    let w₁ : World := { w with cloud := { w.cloud with nextId := w.cloud.nextId + 1 } }
    have hr₁ : w₁.cloud.region? ec2.region = some r := hr
    obtain ⟨script, ⟨r', hf, hrun⟩ | ⟨hf, hrun⟩ | hrun⟩ := run_tried (.disassociateAddress s)
      (·.disassociateAddress s (newIp w.cloud.nextId)) hr₁
    · have hleft' : r'.addresses = left (s :: cleared) gone addresses := by
        unfold Region.disassociateAddress at hf
        split at hf
        · cases hf
        · cases hf
          rw [← left_disassociate, ← hleft]
          dsimp only
          split <;> rfl
      refine ⟨_, [(.aws ec2 (.disassociateAddress s), false)], s :: cleared, hrun, rfl, rfl,
        ⟨r', region?_changed hr₁ _ _ _, hleft'⟩, List.subset_cons_self _ _, fun _ t ht b' hb' => ?_⟩
      rw [hs] at ht
      cases ht
      obtain ⟨b₀, -, -, rfl⟩ := mem_left.1 hb'
      exact fun hb => (associationId_disassociated.1 hb).2 List.mem_cons_self
    · refine ⟨_, [(.aws ec2 (.disassociateAddress s), false)], cleared, hrun, rfl, rfl, ⟨r, hr, hleft⟩,
        List.Subset.refl _, fun _ t ht b' hb' => ?_⟩
      -- it could not be done as no address has this association
      rw [hs] at ht
      cases ht
      unfold Region.disassociateAddress at hf
      split at hf
      · rename_i hfind
        rw [hleft] at hfind
        exact fun hb => List.find?_eq_none.1 hfind b' hb' (decide_eq_true hb)
      · cases hf
    · exact ⟨_, [(.aws ec2 (.disassociateAddress s), true)], cleared, hrun, rfl, rfl, ⟨r, hr, hleft⟩,
        List.Subset.refl _, fun hok => by cases hok _ List.mem_cons_self⟩

theorem run_release (hb : b ∈ addresses) (h : At ec2 (left cleared gone addresses) w) : ∃ w' log gone',
    (tryCatch (do
        let allocationId ← Aws.getKey "AllocationId" b.allocationId
        change ec2 (.releaseAddress allocationId) (·.releaseAddress allocationId))
      fun _ => pure () : Py Unit) w = (.ok (), w') ∧
    w'.calls = w.calls ++ log ∧ log.map Prod.fst = b.allocationId.toList.map (fun x => .aws ec2 (.releaseAddress x)) ∧
    At ec2 (left cleared gone' addresses) w' ∧ gone ⊆ gone' ∧
    ((∀ e ∈ log, e.2 = false) → Freed b (left cleared gone addresses) → ∀ x, b.allocationId = some x → x ∈ gone') := by
  obtain ⟨r, hr, hleft⟩ := h
  cases hx : b.allocationId with
  | none =>
    exact ⟨w, [], gone, rfl, (List.append_nil _).symm, rfl, ⟨r, hr, hleft⟩, List.Subset.refl _,
      fun _ _ x hb => by cases hb⟩
  | some x =>
    obtain ⟨script, ⟨r', hf, hrun⟩ | ⟨hf, hrun⟩ | hrun⟩ := run_tried (.releaseAddress x) (·.releaseAddress x) hr
    · have hleft' : r'.addresses = left cleared (x :: gone) addresses := by
        unfold Region.releaseAddress at hf
        split at hf
        · cases hf
          rw [← left_release, ← hleft]
        · cases hf
      refine ⟨_, [(.aws ec2 (.releaseAddress x), false)], x :: gone, hrun, rfl, rfl,
        ⟨r', region?_changed hr _ _ _, hleft'⟩, List.subset_cons_self _ _, fun _ _ y hy => ?_⟩
      cases hy
      exact List.mem_cons_self
    · refine ⟨_, [(.aws ec2 (.releaseAddress x), false)], gone, hrun, rfl, rfl, ⟨r, hr, hleft⟩,
        List.Subset.refl _, fun _ hfreed y hy => ?_⟩
      -- it could not be done: the address is gone or, as it is not, in use
      cases hy
      by_contra hno
      have hmem : disassociated cleared b ∈ left cleared gone addresses :=
        mem_left.2 ⟨b, hb, fun y hy he => hno (by rw [hx] at he; cases he; exact hy), rfl⟩
      unfold Region.releaseAddress at hf
      split at hf
      · cases hf
      · rename_i hany
        rw [hleft] at hany
        refine hany (List.any_eq_true.2 ⟨_, hmem, ?_⟩)
        rw [allocationId_disassociated, hx]
        cases hs : (disassociated cleared b).associationId with
        | none => simp
        | some s => exact absurd hs (hfreed s (associationId_disassociated.1 hs).1 _ hmem)
    · exact ⟨_, [(.aws ec2 (.releaseAddress x), true)], gone, hrun, rfl, rfl, ⟨r, hr, hleft⟩,
        List.Subset.refl _, fun hok => by cases hok _ List.mem_cons_self⟩

theorem sweeps_releaseTagged (id : Str) (hb : b ∈ addresses) (tag : Str × Str) :
    Sweeps ec2 addresses (Aws.releaseTagged ec2 id b tag) (if tag = ("instance".toList, id) then attempts ec2 b else [])
      (if tag = ("instance".toList, id) then [b] else []) := by
  by_cases htag : tag = ("instance".toList, id)
  · rw [if_pos htag, if_pos htag, Aws.releaseTagged, if_pos htag]
    intro w cleared gone h
    obtain ⟨w₁, log, cleared', hrun, hcalls, hlog, h₁, hc, hfreed⟩ := run_disassociate b h
    obtain ⟨w₂, log', gone', hrun', hcalls', hlog', h₂, hg, hreleased⟩ := run_release hb h₁
    refine ⟨w₂, log ++ log', cleared', gone', (run_bind_ok hrun).trans hrun', ?_, ?_, h₂, hc, hg, fun b' hb' hok => ?_⟩
    · rw [hcalls', hcalls, List.append_assoc]
    · rw [List.map_append, hlog, hlog', attempts]
    · obtain rfl := List.mem_singleton.1 hb'
      have hlog₁ : ∀ e ∈ log, e.2 = false := fun e he =>
        hok e (List.mem_append_left _ he) (List.mem_append_left _ (hlog ▸ List.mem_map_of_mem he))
      have hlog₂ : ∀ e ∈ log', e.2 = false := fun e he =>
        hok e (List.mem_append_right _ he) (List.mem_append_right _ (hlog' ▸ List.mem_map_of_mem he))
      refine ⟨hreleased hlog₂ (hfreed hlog₁), fun s hs b₁ hb₁ => ?_⟩
      obtain ⟨b₀, hb₀, hno, rfl⟩ := mem_left.1 hb₁
      exact hfreed hlog₁ s hs _ (mem_left.2 ⟨b₀, hb₀, fun x hx => hno x (hg hx), rfl⟩)
  · rw [if_neg htag, if_neg htag, Aws.releaseTagged, if_neg htag]
    exact .pure addresses

/-! ## All addresses -/

/-- The calls of a pass over these addresses: as many rounds for each as it has tags for the instance. -/
def passCalls (ec2 : Client) (id : Str) (addresses : List Address) : List Call :=
  addresses.flatMap fun b => ((b.tags.getD []).filter (· = ("instance".toList, id))).flatMap fun _ => attempts ec2 b

theorem flatMap_ite {α β : Type} {c : α → Prop} [DecidablePred c] (f : α → List β) (as : List α) :
    (as.flatMap fun a => if c a then f a else []) = (as.filter c).flatMap f := by
  induction as with
  | nil => rfl
  | cons a as ih =>
    rw [List.flatMap_cons, ih, List.filter_cons]
    by_cases h : c a
    · rw [if_pos h, if_pos (decide_eq_true h), List.flatMap_cons]
    · rw [if_neg h, if_neg (by simpa using h), List.nil_append]

theorem sweeps_pass (ec2 : Client) (id : Str) (addresses : List Address) :
    Sweeps ec2 addresses (Prog.each (fun b => Prog.each (Aws.releaseTagged ec2 id b) (b.tags.getD [])) addresses)
      (passCalls ec2 id addresses) (addresses.filter (Tagged id)) := by
  have hone : ∀ b ∈ addresses, Sweeps ec2 addresses (Prog.each (Aws.releaseTagged ec2 id b) (b.tags.getD []))
      (((b.tags.getD []).filter (· = ("instance".toList, id))).flatMap fun _ => attempts ec2 b)
      (((b.tags.getD []).filter (· = ("instance".toList, id))).flatMap fun _ => [b]) := by
    intro b hb
    rw [← flatMap_ite, ← flatMap_ite]
    exact .each fun tag _ => sweeps_releaseTagged id hb tag
  intro w cleared gone h
  obtain ⟨w', log, cleared', gone', hrun, hcalls, hlog, h', hc, hg, hdone⟩ := Sweeps.each hone w cleared gone h
  refine ⟨w', log, cleared', gone', hrun, hcalls, hlog, h', hc, hg, fun b hb => hdone b ?_⟩
  obtain ⟨hb, htag⟩ := List.mem_filter.1 hb
  refine List.mem_flatMap.2
    ⟨b, hb, List.mem_flatMap.2 ⟨("instance".toList, id), List.mem_filter.2 ?_, List.mem_singleton.2 rfl⟩⟩
  exact ⟨of_decide_eq_true htag, decide_eq_true rfl⟩

/-- Where a pass over these addresses ends, and the calls it made. -/
structure Swept (ec2 : Client) (id : Str) (addresses : List Address) (w : World) (log : List (Call × Bool)) : Prop where
  attempted : log.map Prod.fst = passCalls ec2 id addresses
  leaves : ∃ cleared gone, At ec2 (left cleared gone addresses) w ∧
    ∀ b ∈ addresses, Tagged id b → (∀ e ∈ log, e.1 ∈ attempts ec2 b → e.2 = false) → Done b cleared gone addresses

/-- What `disassociate_and_release_ip` does once `describe_addresses` has answered. -/
theorem run_pass {a : Aws} (hec2 : a.ec2 = some ec2) {w₁ : World} (h : query ec2 .describeAddresses w = (.ok r, w₁)) :
    ∃ w' log, a.disassociateAndReleaseIp w = (.ok (), w') ∧ w'.calls = w₁.calls ++ log ∧
      Swept ec2 a.awsConfig.instanceId r.addresses w' log := by
  obtain ⟨hr, script, rfl⟩ := query_ok h
  have hat : At ec2 (left [] [] r.addresses) (w.called (.aws ec2 .describeAddresses) false script) :=
    ⟨r, hr, (left_nil _).symm⟩
  obtain ⟨w', log, cleared, gone, hrun, hcalls, hlog, h', -, -, hdone⟩ :=
    sweeps_pass ec2 a.awsConfig.instanceId r.addresses _ [] [] hat
  refine ⟨w', log, ?_, hcalls, hlog, cleared, gone, h', fun b hb htag =>
    hdone b (List.mem_filter.2 ⟨hb, decide_eq_true htag⟩)⟩
  rw [Aws.disassociateAndReleaseIp, hec2, Aws.getAttr, run_bind_ok (run_pure _ _), run_bind_ok h, hrun]

/-- With one value for each key, an address is tried once. -/
theorem passCalls_eq (ec2 : Client) (id : Str) (h : ∀ b ∈ addresses, ((b.tags.getD []).map Prod.fst).Nodup) :
    passCalls ec2 id addresses = (addresses.filter (Tagged id)).flatMap (attempts ec2) := by
  rw [← flatMap_ite, passCalls]
  refine List.flatMap_congr fun b hb => ?_
  rw [List.filter_eq, ((h b hb).of_map).count]
  show ((List.replicate (if Tagged id b then 1 else 0) _).flatMap fun _ => _) = _
  by_cases htag : Tagged id b
  · rw [if_pos htag, if_pos htag, List.replicate_one, List.flatMap_singleton]
  · rw [if_neg htag, if_neg htag, List.replicate_zero, List.flatMap_nil]

theorem eq_nil_of_map_fst {log : List (Call × Bool)} (h : log.map Prod.fst = []) : log = [] := List.map_eq_nil_iff.1 h

/-- A pass over these addresses, from the answer of `describe_addresses` on. -/
structure Pass (a : Aws) (ec2 : Client) (addresses : List Address) (w w' : World)
    (log : List (Call × Bool)) : Prop where
  calls : w'.calls = w.calls ++ log
  attempted : log.map Prod.fst = (addresses.filter (Tagged a.awsConfig.instanceId)).flatMap (attempts ec2)
  released : (∀ e ∈ log, e.2 = false) → ∀ r, w'.cloud.region? ec2.region = some r → ∀ b ∈ r.addresses,
    Tagged a.awsConfig.instanceId b → b.allocationId = none
  again : (∀ e ∈ log, e.2 = false) → ∀ r w₁, query ec2 .describeAddresses w' = (.ok r, w₁) →
    ∃ w₂, a.disassociateAndReleaseIp w' = (.ok (), w₂) ∧ w₂.calls = w₁.calls

/-- **`disassociate_and_release_ip` tries every address of the instance, and no other.** -/
theorem releases (a : Aws) (ec2 : Client) (w w₁ : World) (r : Region) (hec2 : a.ec2 = some ec2)
    (hdescribe : query ec2 .describeAddresses w = (.ok r, w₁))
    (hkeys : ∀ b ∈ r.addresses, ((b.tags.getD []).map Prod.fst).Nodup) :
    ∃ w' log, a.disassociateAndReleaseIp w = (.ok (), w') ∧ Pass a ec2 r.addresses w₁ w' log := by
  obtain ⟨w', log, hrun, hcalls, hlog, cleared, gone, ⟨r', hr', hleft⟩, hdone⟩ := run_pass hec2 hdescribe
  -- what is left for the instance has neither an allocation nor an association
  have hleaves : (∀ e ∈ log, e.2 = false) → ∀ b ∈ r'.addresses, Tagged a.awsConfig.instanceId b →
      b.allocationId = none ∧ b.associationId = none := by
    intro hok b hb htag
    rw [hleft] at hb
    obtain ⟨b₀, hb₀, hno, rfl⟩ := mem_left.1 hb
    have hd := hdone b₀ hb₀ ((tagged_disassociated _ _ _).1 htag) fun e he _ => hok e he
    constructor
    · rw [allocationId_disassociated]
      cases hx : b₀.allocationId with
      | none => rfl
      | some x => exact absurd hx (hno x (hd.released x hx))
    · cases hs : (disassociated cleared b₀).associationId with
      | none => rfl
      | some s => exact absurd hs (hd.freed s (associationId_disassociated.1 hs).1 _ hb)
  refine ⟨w', log, hrun, hcalls, by rw [hlog, passCalls_eq ec2 _ hkeys], fun hok r'' hr'' b hb htag => ?_,
    fun hok r₂ w₂ h₂ => ?_⟩
  · rw [hr'] at hr''
    cases hr''
    exact (hleaves hok b hb htag).1
  · obtain ⟨hr₂, -⟩ := query_ok h₂
    rw [hr'] at hr₂
    cases hr₂
    obtain ⟨w₃, log', hrun', hcalls', hlog', -⟩ := run_pass hec2 h₂
    refine ⟨w₃, hrun', ?_⟩
    have hnone : passCalls ec2 a.awsConfig.instanceId r'.addresses = [] := by
      refine List.flatMap_eq_nil_iff.2 fun b hb => List.flatMap_eq_nil_iff.2 fun tag htag => ?_
      obtain ⟨hmem, htag⟩ := List.mem_filter.1 htag
      obtain rfl := of_decide_eq_true htag
      obtain ⟨hx, hs⟩ := hleaves hok b hb hmem
      rw [attempts, hx, hs]
      rfl
    rw [hcalls', eq_nil_of_map_fst (hlog'.trans hnone), List.append_nil]

/-- The instance's address, in use, and one without tags. -/
def twoAddresses : Region :=
  { Region.empty with addresses :=
      [⟨"3.0.0.1", some "eipalloc-1", some "eipassoc-1", some "i-1", some [("instance", "i-1")]⟩,
       ⟨"3.0.0.2", some "eipalloc-2", none, none, none⟩] }

theorem releases_twoAddresses : ∃ w' log, (exampleAws "i-1").disassociateAndReleaseIp (exampleAccount twoAddresses) =
    (.ok (), w') ∧ Pass (exampleAws "i-1") exampleClient twoAddresses.addresses
      ((exampleAccount twoAddresses).called (.aws exampleClient .describeAddresses) false []) w' log :=
  releases (exampleAws "i-1") exampleClient (exampleAccount twoAddresses) _ twoAddresses rfl rfl (by decide)

/-- An address that cannot be released as it has no `AllocationId`. -/
def noAllocation : Region :=
  { Region.empty with addresses := [⟨"3.0.0.1", none, none, none, some [("instance", "i-1")]⟩] }

/-- Such an address stays, though no call raises. -/
theorem no_allocation_stays : ¬∀ (a : Aws) (ec2 : Client) (w w' : World) (r : Region), a.ec2 = some ec2 →
    w.cloud.region? ec2.region = some r → (∀ b ∈ r.addresses, ((b.tags.getD []).map Prod.fst).Nodup) →
    a.disassociateAndReleaseIp w = (.ok (), w') → (∀ e ∈ w'.calls, e.2 = false) →
    ∀ r', w'.cloud.region? ec2.region = some r' → ∀ b ∈ r'.addresses, ¬Tagged a.awsConfig.instanceId b := by
  intro h
  exact h (exampleAws "i-1") exampleClient (exampleAccount noAllocation)
    ((exampleAccount noAllocation).called (.aws exampleClient .describeAddresses) false []) noAllocation rfl rfl
    (by decide)
    rfl (by decide) noAllocation rfl _ List.mem_cons_self (by decide)

/-! ## Rotations -/

/-- How many of the addresses are allocated for an instance. -/
def held (id : Str) (addresses : List Address) : Nat :=
  addresses.countP fun b => decide (Tagged id b) && b.allocationId.isSome

/-- How many are allocated for an instance in a region. -/
def heldIn (region id : Str) (w : World) : Nat := ((w.cloud.region? region).map fun r => held id r.addresses).getD 0

/-- Whether a call raised between these two worlds. -/
def raisedIn (w w' : World) : Nat := if ∃ e ∈ w'.calls.drop w.calls.length, e.2 = true then 1 else 0

theorem held_left (id : Str) (cleared gone : List Str) (addresses : List Address) :
    held id (left cleared gone addresses) ≤ held id addresses := by
  rw [held, left, List.countP_map]
  refine le_of_eq_of_le (List.countP_congr fun b _ => ?_) List.filter_sublist.countP_le
  simp only [Function.comp, tagged_disassociated, allocationId_disassociated]

/-- `allocate_and_associate_ip` up to its pass: the `AllocationId` of the new address. -/
def newAddress (a : Aws) : Py Str := do
  let ec2 ← Aws.getAttr "ec2" a.ec2
  let id := a.awsConfig.instanceId
  let n ← nextId
  let allocationId : Str := "eipalloc-" ++ showNat n
  change ec2 (.allocateAddress id) fun r => some (r.allocateAddress allocationId (newIp n) id)
  let m ← nextId
  change ec2 (.associateAddress id allocationId) (·.associateAddress ("eipassoc-" ++ showNat m) id allocationId)
  return allocationId

/-- A rotation up to its last pass: the old address of the instance, and the `AllocationId` of the new one. -/
def beforeLastPass (a : Aws) : Py (Str × Str) := do
  let oldIp ← a.getInstanceAddress
  a.disassociateAndReleaseIp
  let allocationId ← newAddress a
  return (oldIp, allocationId)

theorem allocateAndAssociateIp_eq (a : Aws) : a.allocateAndAssociateIp = (do
    let _ ← newAddress a
    a.disassociateAndReleaseIp) := by
  simp only [Aws.allocateAndAssociateIp, newAddress, bind_assoc, Prog.pure_bind]

theorem getNewIp_eq {a : Aws} (hid : a.awsConfig.instanceId ≠ []) : a.getNewIp =
    Aws.wrapping "Error getting new IP: " (do
      let ips ← beforeLastPass a
      a.disassociateAndReleaseIp
      let newIp ← a.getInstanceAddress
      return ((some ips.1, newIp), a)) := by
  rw [Aws.getNewIp, if_pos hid]
  simp only [beforeLastPass, allocateAndAssociateIp_eq, bind_assoc, Prog.pure_bind]

/-- How a rotation from `w` that returned in `w'` ended: with a pass over the addresses the region had then, the new
one among them. What is left for the instance are addresses for which one of the calls of this pass raised. -/
def Leaves (a : Aws) (ec2 : Client) (w w' : World) : Prop :=
  ∃ oldIp allocationId w₁ r last, beforeLastPass a w = (.ok (oldIp, allocationId), w₁) ∧
    w₁.cloud.region? ec2.region = some r ∧
    (∃ b ∈ r.addresses, b.allocationId = some allocationId ∧ b.associatedWith = some a.awsConfig.instanceId ∧
      Tagged a.awsConfig.instanceId b) ∧
    w'.calls = w₁.calls ++ (.aws ec2 .describeAddresses, false) :: last ++
      [(.aws ec2 (.describeInstances [a.awsConfig.instanceId]), false)] ∧
    last.map Prod.fst = passCalls ec2 a.awsConfig.instanceId r.addresses ∧
    ∀ r', w'.cloud.region? ec2.region = some r' → ∀ b ∈ r'.addresses, Tagged a.awsConfig.instanceId b →
      b.allocationId.isSome = true → ∃ b₀ ∈ r.addresses, Tagged a.awsConfig.instanceId b₀ ∧
        (b = b₀ ∨ b = { b₀ with associationId := none, associatedWith := none }) ∧
        ∃ e ∈ last, e.1 ∈ attempts ec2 b₀ ∧ e.2 = true

theorem getInstanceAddress_ok {a : Aws} {ip : Str} (hec2 : a.ec2 = some ec2)
    (h : a.getInstanceAddress w = (.ok ip, w')) : ∃ script,
    w' = w.called (.aws ec2 (.describeInstances [a.awsConfig.instanceId])) false script := by
  obtain ⟨c, w₁, hc, h⟩ := bind_eq_ok.1 (Aws.wrapping_eq_ok.1 h)
  obtain ⟨hsome, rfl⟩ := Aws.getAttr_eq_ok.1 hc
  obtain rfl : ec2 = c := Option.some.inj (hec2.symm.trans hsome)
  obtain ⟨r, w₂, hq, h⟩ := bind_eq_ok.1 h
  obtain ⟨hr, script, rfl⟩ := query_ok hq
  refine ⟨script, ?_⟩
  cases his : (r.reservationsOf a.awsConfig.instanceId).flatten with
  | nil =>
    rw [his] at h
    cases h
  | cons i is =>
    rw [his] at h
    cases hip : i.publicIpAddress with
    | none =>
      simp only [hip, Aws.getKey] at h
      cases h
    | some publicIp =>
      simp only [hip, Aws.getKey] at h
      cases h
      rfl

/-- A pass that returns: the call of `describe_addresses` went well. -/
theorem pass_ok {a : Aws} (hec2 : a.ec2 = some ec2) (h : a.disassociateAndReleaseIp w = (.ok (), w')) :
    ∃ r log, w.cloud.region? ec2.region = some r ∧
      w'.calls = w.calls ++ (.aws ec2 .describeAddresses, false) :: log ∧
      Swept ec2 a.awsConfig.instanceId r.addresses w' log := by
  obtain ⟨c, w₁, hc, hrest⟩ := bind_eq_ok.1 h
  obtain ⟨hsome, rfl⟩ := Aws.getAttr_eq_ok.1 hc
  obtain rfl : ec2 = c := Option.some.inj (hec2.symm.trans hsome)
  obtain ⟨r, w₂, hq, -⟩ := bind_eq_ok.1 hrest
  obtain ⟨w₃, log, hrun, hcalls, hswept⟩ := run_pass hec2 hq
  obtain rfl : w' = w₃ := congrArg Prod.snd (h.symm.trans hrun)
  obtain ⟨hr, script, rfl⟩ := query_ok hq
  exact ⟨r, log, hr, by rw [hcalls, World.called_calls, List.append_assoc]; rfl, hswept⟩

/-- A pass allocates nothing. -/
theorem Swept.heldIn_le {addresses : List Address} {log : List (Call × Bool)} (h : Swept ec2 id addresses w log) :
    heldIn ec2.region id w ≤ held id addresses := by
  obtain ⟨cleared, gone, ⟨r, hr, hleft⟩, -⟩ := h.leaves
  rw [heldIn, hr, Option.map_some, Option.getD_some, hleft]
  exact held_left id cleared gone addresses

theorem held_map {id : Str} {f : Address → Address}
    (hf : ∀ b, (f b).tags = b.tags ∧ (f b).allocationId = b.allocationId) (addresses : List Address) :
    held id (addresses.map f) = held id addresses := by
  rw [held, List.countP_map]
  refine List.countP_congr fun b _ => ?_
  have htag : Tagged id (f b) ↔ Tagged id b := by rw [Tagged, Tagged, (hf b).1]
  simp only [Function.comp, htag, (hf b).2]

/-- What a pass leaves for the instance is what one of its calls raised for. -/
theorem Swept.raised {addresses : List Address} {log : List (Call × Bool)} (h : Swept ec2 id addresses w log)
    (hr : w.cloud.region? ec2.region = some r) (hb : b ∈ r.addresses) (htag : Tagged id b)
    (hsome : b.allocationId.isSome = true) :
    ∃ b₀ ∈ addresses, Tagged id b₀ ∧ (b = b₀ ∨ b = { b₀ with associationId := none, associatedWith := none }) ∧
      ∃ e ∈ log, e.1 ∈ attempts ec2 b₀ ∧ e.2 = true := by
  obtain ⟨cleared, gone, ⟨r', hr', hleft⟩, hdone⟩ := h.leaves
  rw [hr] at hr'
  cases hr'
  rw [hleft] at hb
  obtain ⟨b₀, hb₀, hno, rfl⟩ := mem_left.1 hb
  rw [allocationId_disassociated] at hsome
  rw [tagged_disassociated] at htag
  obtain ⟨x, hx⟩ := Option.isSome_iff_exists.1 hsome
  refine ⟨b₀, hb₀, htag, disassociated_cases cleared b₀, ?_⟩
  by_contra hall
  have hok : ∀ e ∈ log, e.1 ∈ attempts ec2 b₀ → e.2 = false := fun e he hmem =>
    Bool.eq_false_iff.2 fun htrue => hall ⟨e, he, hmem, htrue⟩
  exact hno x ((hdone b₀ hb₀ htag hok).released x hx) hx

theorem Swept.heldIn_eq_zero {addresses : List Address} {log : List (Call × Bool)} (h : Swept ec2 id addresses w log)
    (hok : ∀ e ∈ log, e.2 = false) : heldIn ec2.region id w = 0 := by
  obtain ⟨-, -, ⟨r, hr, -⟩, -⟩ := h.leaves
  rw [heldIn, hr, Option.map_some, Option.getD_some, held, List.countP_eq_zero]
  intro b hb hheld
  obtain ⟨htag, hsome⟩ := Bool.and_eq_true_iff.1 hheld
  obtain ⟨-, -, -, -, e, he, -, hraised⟩ := h.raised hr hb (of_decide_eq_true htag) hsome
  rw [hok e he] at hraised
  cases hraised

/-- An association changes what an address is in use for, and no more. -/
theorem held_associate {associationId instanceId allocationId : Str}
    (h : r.associateAddress associationId instanceId allocationId = some r') :
    held id r'.addresses = held id r.addresses := by
  unfold Region.associateAddress at h
  split at h
  · cases h
  · cases h
  · cases h
    refine held_map (fun b => ?_) r.addresses
    split <;> exact ⟨rfl, rfl⟩

/-- The association of an address changes its association, and no more. -/
theorem mem_associate {associationId instanceId allocationId : Str}
    (h : r.associateAddress associationId instanceId allocationId = some r') (hb : b ∈ r.addresses)
    (hx : b.allocationId = some allocationId) :
    { b with associationId := some associationId, associatedWith := some instanceId } ∈ r'.addresses := by
  unfold Region.associateAddress at h
  split at h
  · cases h
  · cases h
  · cases h
    exact List.mem_map.2 ⟨b, hb, if_pos hx⟩

/-- A new address for the instance. -/
theorem newAddress_ok {a : Aws} {allocationId : Str} (hec2 : a.ec2 = some ec2)
    (h : newAddress a w = (.ok allocationId, w')) :
    ∃ r, w'.cloud.region? ec2.region = some r ∧
      held a.awsConfig.instanceId r.addresses ≤ heldIn ec2.region a.awsConfig.instanceId w + 1 ∧
      (∃ b ∈ r.addresses, b.allocationId = some allocationId ∧ b.associatedWith = some a.awsConfig.instanceId ∧
        Tagged a.awsConfig.instanceId b) ∧
      ∃ log, w'.calls = w.calls ++ log := by
  obtain ⟨c, w₁, hc, h⟩ := bind_eq_ok.1 h
  obtain ⟨hsome, rfl⟩ := Aws.getAttr_eq_ok.1 hc
  obtain rfl : ec2 = c := Option.some.inj (hec2.symm.trans hsome)
  obtain ⟨n, w₁, hn, h⟩ := bind_eq_ok.1 h
  cases hn
  obtain ⟨_, w₂, hallocate, h⟩ := bind_eq_ok.1 h
  obtain ⟨r, r₁, script₁, hr, hf, rfl⟩ := change_ok hallocate
  cases hf
  obtain ⟨m, w₂, hm, h⟩ := bind_eq_ok.1 h
  cases hm
  obtain ⟨_, w₃, hassociate, h⟩ := bind_eq_ok.1 h
  obtain ⟨r₁, r₂, script₂, hr₁, hf, rfl⟩ := change_ok hassociate
  cases h
  have hbefore : heldIn ec2.region a.awsConfig.instanceId w = held a.awsConfig.instanceId r.addresses := by
    rw [heldIn, show w.cloud.region? ec2.region = some r from hr]
    rfl
  have hr₁' := (region?_changed hr (.allocateAddress a.awsConfig.instanceId) script₁ _).symm.trans hr₁
  cases hr₁'
  refine ⟨r₂, region?_changed hr₁ _ _ _, ?_, ⟨_, mem_associate hf (List.mem_append_right _ List.mem_cons_self) rfl, rfl,
    rfl, List.mem_cons_self⟩, _, List.append_assoc _ _ _⟩
  rw [hbefore, held_associate hf]
  show held _ (r.addresses ++ [_]) ≤ _
  rw [held, List.countP_append, held]
  exact Nat.add_le_add_left List.countP_le_length _

/-- A rotation up to its last pass. Between its calls there are no more addresses than before, and the new one. -/
theorem beforeLastPass_ok {a : Aws} {ips : Str × Str} (hec2 : a.ec2 = some ec2)
    (h : beforeLastPass a w = (.ok ips, w')) :
    ∃ r, w'.cloud.region? ec2.region = some r ∧
      held a.awsConfig.instanceId r.addresses ≤ heldIn ec2.region a.awsConfig.instanceId w + 1 ∧
      (∃ b ∈ r.addresses, b.allocationId = some ips.2 ∧ b.associatedWith = some a.awsConfig.instanceId ∧
        Tagged a.awsConfig.instanceId b) ∧
      ∃ log, w'.calls = w.calls ++ log := by
  obtain ⟨oldIp, w₁, hold, h⟩ := bind_eq_ok.1 h
  obtain ⟨_, w₂, hpass, h⟩ := bind_eq_ok.1 h
  obtain ⟨allocationId, w₃, hnew, h⟩ := bind_eq_ok.1 h
  cases h
  obtain ⟨script, rfl⟩ := getInstanceAddress_ok hec2 hold
  obtain ⟨r, log, hr, hcalls, hswept⟩ := pass_ok hec2 hpass
  obtain ⟨r', hr', hheld, hmem, log', hcalls'⟩ := newAddress_ok hec2 hnew
  have hbefore : heldIn ec2.region a.awsConfig.instanceId w = held a.awsConfig.instanceId r.addresses := by
    rw [heldIn, show w.cloud.region? ec2.region = some r from hr]
    rfl
  have hfirst := hswept.heldIn_le
  refine ⟨r', hr', by omega, hmem, (.aws ec2 (.describeInstances [a.awsConfig.instanceId]), false) ::
    ((.aws ec2 .describeAddresses, false) :: log ++ log'), ?_⟩
  rw [hcalls', hcalls]
  show w.calls ++ [_] ++ _ ++ _ = _
  simp only [List.append_assoc, List.cons_append, List.nil_append]

/-- One rotation. -/
theorem leaves_of_getNewIp {a : Aws} {x : (Option Str × Str) × Aws} (hec2 : a.ec2 = some ec2)
    (hid : a.awsConfig.instanceId ≠ []) (h : a.getNewIp w = (.ok x, w')) :
    Leaves a ec2 w w' ∧
      heldIn ec2.region a.awsConfig.instanceId w' ≤ heldIn ec2.region a.awsConfig.instanceId w + raisedIn w w' := by
  rw [getNewIp_eq hid] at h
  obtain ⟨⟨oldIp, allocationId⟩, w₁, hbefore, h⟩ := bind_eq_ok.1 (Aws.wrapping_eq_ok.1 h)
  obtain ⟨_, w₂, hpass, h⟩ := bind_eq_ok.1 h
  obtain ⟨newIp, w₃, hnew, h⟩ := bind_eq_ok.1 h
  cases h
  obtain ⟨r, hr, hheld, hmem, front, hfront⟩ := beforeLastPass_ok hec2 hbefore
  obtain ⟨r', last, hr', hlast, hswept⟩ := pass_ok hec2 hpass
  obtain rfl := Option.some.inj (hr.symm.trans hr')
  obtain ⟨script, rfl⟩ := getInstanceAddress_ok hec2 hnew
  constructor
  · exact ⟨oldIp, allocationId, w₁, r, last, hbefore, hr, hmem, by rw [World.called_calls, hlast], hswept.attempted,
      fun r' hr' b hb htag hsome => hswept.raised hr' hb htag hsome⟩
  · show heldIn ec2.region a.awsConfig.instanceId w₂ ≤ _
    rw [raisedIn, World.called_calls, hlast, hfront, List.append_assoc, List.append_assoc, List.drop_left]
    split
    · have hone := hswept.heldIn_le
      omega
    · rename_i hno
      rw [hswept.heldIn_eq_zero fun e he => Bool.eq_false_iff.2 fun htrue => hno ⟨e, ?_, htrue⟩]
      · exact Nat.zero_le _
      · simp only [List.mem_append, List.mem_cons]
        exact .inr (.inl (.inr he))

/-- Rotations for one instance, and in how many of them a call raised. -/
inductive Rotations (region id : Str) : Nat → World → World → Prop
  | refl (w : World) : Rotations region id 0 w w
  | step {n : Nat} {w w₁ w₂ : World} {a : Aws} {ec2 : Client} {x : (Option Str × Str) × Aws} :
      Rotations region id n w w₁ → a.ec2 = some ec2 → ec2.region = region → a.awsConfig.instanceId = id →
      a.getNewIp w₁ = (.ok x, w₂) → Rotations region id (n + raisedIn w₁ w₂) w w₂

theorem heldIn_rotations {region : Str} (hid : id ≠ []) {n : Nat} (h : Rotations region id n w w') :
    heldIn region id w' ≤ heldIn region id w + n := by
  induction h with
  | refl w => exact Nat.le_refl _
  | step _ hec2 hregion hinstance hrun ih =>
    subst hregion hinstance
    have hone := (leaves_of_getNewIp hec2 hid hrun).2
    omega

/-- **What a rotation that returns leaves of the instance's addresses**, and how many there are after any number of
rotations. -/
theorem rotations_leave (a : Aws) (ec2 : Client) (n : Nat) (w w₁ w₂ : World) (x : (Option Str × Str) × Aws)
    (hid : a.awsConfig.instanceId ≠ []) (hec2 : a.ec2 = some ec2)
    (hbefore : Rotations ec2.region a.awsConfig.instanceId n w w₁) (hrun : a.getNewIp w₁ = (.ok x, w₂)) :
    Leaves a ec2 w₁ w₂ ∧
      heldIn ec2.region a.awsConfig.instanceId w₂ ≤
        heldIn ec2.region a.awsConfig.instanceId w + (n + raisedIn w₁ w₂) :=
  ⟨(leaves_of_getNewIp hec2 hid hrun).1, heldIn_rotations hid (hbefore.step hec2 rfl rfl hrun)⟩

/-- A running instance with a public address. -/
def running : Region :=
  { Region.empty with reservations := [[⟨⟨"i-1", by decide⟩, .running, [("role", "iprotate")], some "3.0.0.9"⟩]] }

/-- The release of the new address raises, and that is all. -/
def failingAccount : World :=
  { exampleAccount running with script :=
      [.ok [], .ok [], .ok [], .ok [], .ok [], .ok [], .raises "An error occurred (RequestLimitExceeded)"] }

/-- A second rotation after one that left an address. -/
theorem rotations_leave_failingAccount : ∃ x₁ w₁ x₂ w₂, (exampleAws "i-1").getNewIp failingAccount = (.ok x₁, w₁) ∧
    (exampleAws "i-1").getNewIp w₁ = (.ok x₂, w₂) ∧ Leaves (exampleAws "i-1") exampleClient w₁ w₂ ∧
      heldIn "ap-southeast-2" "i-1" w₂ ≤ heldIn "ap-southeast-2" "i-1" failingAccount +
        (0 + raisedIn failingAccount w₁ + raisedIn w₁ w₂) := by
  obtain ⟨x₁, w₁, hrun₁⟩ := exists_ok (m := (exampleAws "i-1").getNewIp) (s := failingAccount) (by decide +kernel)
  obtain ⟨x₂, w₂, hrun₂⟩ := exists_ok (m := (exampleAws "i-1").getNewIp)
    (s := ((exampleAws "i-1").getNewIp failingAccount).2) (by decide +kernel)
  rw [hrun₁] at hrun₂
  exact ⟨x₁, w₁, x₂, w₂, hrun₁, hrun₂, rotations_leave (exampleAws "i-1") exampleClient _ failingAccount w₁ w₂ x₂
    (by decide) rfl (.step (.refl _) rfl rfl rfl hrun₁) hrun₂⟩

/-- The rotation returns, and an address of the instance is left. -/
theorem failed_release_stays : ¬∀ (a : Aws) (ec2 : Client) (w w' : World) (x : (Option Str × Str) × Aws),
    a.awsConfig.instanceId ≠ [] → a.ec2 = some ec2 → a.getNewIp w = (.ok x, w') →
    ∀ r, w'.cloud.region? ec2.region = some r → ∀ b ∈ r.addresses, b.allocationId.isSome = true →
      ¬Tagged a.awsConfig.instanceId b := by
  intro h
  have hheld : heldIn "ap-southeast-2" "i-1" ((exampleAws "i-1").getNewIp failingAccount).2 = 1 := by decide +kernel
  obtain ⟨x, w', hrun⟩ := exists_ok (m := (exampleAws "i-1").getNewIp) (s := failingAccount) (by decide +kernel)
  have hnone := h (exampleAws "i-1") exampleClient failingAccount w' x (by decide) rfl hrun
  rw [hrun, heldIn] at hheld
  cases hr : w'.cloud.region? "ap-southeast-2" with
  | none =>
    rw [hr] at hheld
    cases hheld
  | some r =>
    rw [hr, Option.map_some, Option.getD_some, held] at hheld
    obtain ⟨b, hb, hb'⟩ := List.countP_pos_iff.1 (Nat.lt_of_lt_of_eq Nat.zero_lt_one hheld.symm)
    obtain ⟨htag, hsome⟩ := Bool.and_eq_true_iff.1 hb'
    exact hnone r hr b hb hsome (of_decide_eq_true htag)

end Addresses
end Iprotate
