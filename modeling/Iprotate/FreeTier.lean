import Iprotate.SecurityGroups

/-!
# The free-tier instance type

`get_instance_type_free_tier` asks for the instance types page by page, with the token of the page before, until a page
has none. From any page on, and with whatever was collected so far, the loop collects the rest in order and makes one
request for each page that follows (`moreInstanceTypes_chain`); so the whole search sees every page once
(`sees_every_page`).
-/

namespace Iprotate
namespace FreeTier

open Py Prog Ec2 Aws Firewall SecurityGroups

variable {a : Aws} {client : Client} {w : World} {r : Region}

/-- `get_instance_type_free_tier` -/
def instanceTypeFreeTier (a : Aws) : Py (Option InstanceType) := do
  let ec2 ← getAttr "ec2" a.ec2
  let r ← Ec2.query ec2 (.describeInstanceTypes none)
  let all ← (match r.typePages with
    | [] => pure []
    | page :: pages => moreInstanceTypes ec2 page pages (page.instanceTypes.getD []) : Py (List InstanceType))
  return all.find? (·.defaultCores = 1)

/-- `launch_instance` asks for the name of what was found. -/
theorem getInstanceTypeFreeTier_eq (a : Aws) : a.getInstanceTypeFreeTier = (do
    let found ← instanceTypeFreeTier a
    let found ← getAttr "get" found
    return found.instanceType) := by
  rw [getInstanceTypeFreeTier, instanceTypeFreeTier, Prog.bind_assoc]
  congr 1
  funext ec2
  rw [Prog.bind_assoc]
  congr 1
  funext r
  rw [Prog.bind_assoc]
  congr 1
  funext all
  show _ = getAttr "get" (all.find? (·.defaultCores = 1)) >>= _
  cases all.find? (·.defaultCores = 1) <;> rfl

/-- What a page lists. -/
def types (page : TypePage) : List InstanceType := page.instanceTypes.getD []

/-- Every page but the last has a token, and the last one has none. -/
def Chain : List TypePage → Prop
  | [] => False
  | [page] => page.nextToken = none ∨ page.nextToken = some []
  | page :: next :: pages => (∃ token, page.nextToken = some token ∧ token ≠ []) ∧ Chain (next :: pages)

/-- The requests for these pages after the first. -/
def following (client : Client) (pages : List TypePage) : List Call :=
  pages.dropLast.map fun page => .aws client (.describeInstanceTypes page.nextToken)

theorem moreInstanceTypes_chain : ∀ (pages : List TypePage) (page : TypePage) (all : List InstanceType) (w : World),
    Chain (page :: pages) → Calm w → w.cloud.region? client.region = some r →
    ∃ w', moreInstanceTypes client page pages all w = (.ok (all ++ pages.flatMap types), w') ∧
      w'.calls = w.calls ++ (following client (page :: pages)).map (·, false)
  | [], ⟨_, token⟩, all, w, hchain, _, _ => by
    refine ⟨w, ?_, (List.append_nil _).symm⟩
    obtain rfl | rfl : token = none ∨ token = some [] := hchain
    · rw [moreInstanceTypes, List.flatMap_nil, List.append_nil]
      rfl
    · rw [moreInstanceTypes, List.flatMap_nil, List.append_nil]
      rfl
  | next :: pages, ⟨_, token⟩, all, w, ⟨⟨token', htoken, hne⟩, hchain⟩, hcalm, hr => by
    obtain rfl : token = some token' := htoken
    obtain ⟨c, cs, rfl⟩ := List.exists_cons_of_ne_nil hne
    obtain ⟨script, hq, hcalm'⟩ := query_calm hcalm hr (.describeInstanceTypes (some (c :: cs)))
    obtain ⟨w', hrun, hcalls⟩ := moreInstanceTypes_chain pages next (all ++ types next) _ hchain hcalm' hr
    refine ⟨w', ?_, ?_⟩
    · show (Ec2.query client _ >>= fun _ => moreInstanceTypes client next pages (all ++ types next)) w = _
      rw [run_bind_ok hq, hrun]
      rw [List.flatMap_cons, List.append_assoc]
    · rw [hcalls, World.called_calls, List.append_assoc]
      rfl

/-- The types of all pages in their order. -/
def allTypes (pages : List TypePage) : List InstanceType := pages.flatMap types

/-- **The free-tier search sees every page once.** -/
theorem sees_every_page (a : Aws) (client : Client) (w : World) (r : Region) (hec2 : a.ec2 = some client)
    (hr : w.cloud.region? client.region = some r) (hchain : Chain r.typePages) (hcalm : Calm w) :
    ∃ found w', instanceTypeFreeTier a w = (.ok found, w') ∧
      newCalls w w' = .aws client (.describeInstanceTypes none) :: following client r.typePages ∧
      found = (allTypes r.typePages).find? (·.defaultCores = 1) ∧
      (found = none ↔ ∀ page ∈ r.typePages, ∀ t ∈ types page, t.defaultCores ≠ 1) := by
  cases hpages : r.typePages with
  | nil =>
    rw [hpages] at hchain
    exact hchain.elim
  | cons page pages =>
    rw [hpages] at hchain
    obtain ⟨script, hq, hcalm'⟩ := query_calm hcalm hr (.describeInstanceTypes none)
    obtain ⟨w', hrun, hcalls⟩ := moreInstanceTypes_chain pages page (types page) _ hchain hcalm' hr
    refine ⟨_, w', ?_, ?_, rfl, ?_⟩
    · rw [instanceTypeFreeTier, hec2, getAttr, run_bind_ok (run_pure _ _), run_bind_ok hq, hpages]
      exact run_bind_ok hrun
    · rw [newCalls_eq (hcalls.trans (List.append_assoc _ _ _)), List.singleton_append, List.map_cons, List.map_map]
      exact congrArg (List.cons _) (List.map_id _)
    · simp [allTypes]

/-- Three pages, one of which lists nothing. -/
def threePages : List TypePage :=
  [⟨some [⟨"t3.small", 2⟩], some "a"⟩, ⟨none, some "b"⟩,
    ⟨some [⟨"t3.nano", 2⟩, ⟨"t3.micro", 1⟩, ⟨"t2.micro", 1⟩], none⟩]

theorem sees_threePages : ∃ w', instanceTypeFreeTier (exampleAws "")
    (exampleAccount { Region.empty with typePages := threePages }) = (.ok (some ⟨"t3.micro", 1⟩), w') ∧
    newCalls (exampleAccount { Region.empty with typePages := threePages }) w' =
      [.aws exampleClient (.describeInstanceTypes none), .aws exampleClient (.describeInstanceTypes (some "a")),
        .aws exampleClient (.describeInstanceTypes (some "b"))] := by
  obtain ⟨found, w', hrun, hcalls, rfl, -⟩ := sees_every_page (exampleAws "") exampleClient
    (exampleAccount { Region.empty with typePages := threePages }) { Region.empty with typePages := threePages } rfl rfl
    ⟨⟨_, rfl, by decide⟩, ⟨_, rfl, by decide⟩, .inl rfl⟩ (fun a ha => by cases ha)
  exact ⟨w', hrun, hcalls⟩

end FreeTier
end Iprotate
