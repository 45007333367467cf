import Iprotate.Base.Unwinding
import Iprotate.Events
import Iprotate.Reload

/-!
# Requests without a key

What the requests of somebody do who has neither the key of `[api]` nor that of the profile asked for. They can come at
any time between the other requests and the tasks.

- The two files before and after a construction load the same (`SameFile`), and all the program begins with a
  construction: so it goes the same from both (`perform_congr`, `answer_congr`).
- A request without a key leaves the world as a construction does, if the file can be loaded at all
  (`answer_of_stranger`).
- So the other requests and the tasks are answered as if it had never come (`strangers_unnoticed`).
-/

namespace Iprotate
namespace Strangers

open App ConfigLoader Loader Py Prog RecordFrame Events

/-- `config.conf` can be loaded. -/
def loadable (w : World) : Bool := (ConfigLoader.build w.config).1.toOption.isSome

/-- The request has neither key, or asks for no region, or for a profile that cannot be loaded. A request that comes
while `config.conf` cannot be loaded does not count as one. -/
def withoutKey (w : World) (req : Request) : Route → Bool
  | .keyed e => e = .changeRegion && req.newRegion = none ||
    match (loadProfile (configName req) w).1 with
    | .ok (api, aws) => loadable w && !validKey req api aws
    | .error _ => loadable w
  | .getTask =>
    match (ConfigLoader.build w.config).1 with
    | .ok l =>
      match loadApiConfig l.config with
      | .ok api => req.apikey ≠ some api.apikey
      | .error _ => true
    | .error _ => false

/-- The requests of strangers. -/
def stranger (w : World) : Event → Bool
  | .request route req => withoutKey w req route
  | .task _ => false

/-- An answer that tells nothing of the profiles: the two messages, or an internal server error. -/
def Turned : Outcome → Prop
  | .answered (.ok answer) => answer = invalidKey ∨ answer = message "New region is not provided"
  | .answered (.error _) => True
  | .ended _ => False

/-! ## Files that load the same -/

/-- The files are the same, or constructions from both make the same loader and leave the same file. -/
def SameFile (x y : Str) : Prop := x = y ∨ ∃ l z, build x = (.ok l, z) ∧ build y = (.ok l, z)

/-- The worlds differ in files that load the same. -/
def Same (w t : World) : Prop := ∃ text, t = { w with config := text } ∧ SameFile w.config text

theorem Same.refl (w : World) : Same w w := ⟨w.config, rfl, .inl rfl⟩

theorem SameFile.after {x y z : Str} {l : ConfigLoader} (hb : build x = (.ok l, z)) (h : SameFile x y) :
    SameFile z y := by
  rcases h with rfl | ⟨l', z', hx, hy⟩
  · exact .inr ⟨l, z, build_again hb, hb⟩
  · cases hb.symm.trans hx
    exact .inr ⟨l, z, build_again hb, hy⟩

variable {α : Type} {w t : World}

/-- What begins with a construction goes the same way from both. -/
theorem onConfig_congr (k : ConfigLoader → Py α) (h : Same w t) :
    (onConfig build >>= k) w = (onConfig build >>= k) t := by
  obtain ⟨text, rfl, hsame⟩ := h
  rcases hsame with hsame | ⟨l, z, hx, hy⟩
  · rw [← hsame]
  · have hw : onConfig build w = (.ok l, { w with config := z }) := by rw [onConfig, hx]
    have ht : onConfig build { w with config := text } = (.ok l, { w with config := z }) := by rw [onConfig, hy]
    rw [run_bind_ok hw, run_bind_ok ht]

theorem loadProfile_congr (name : Str) (h : Same w t) : loadProfile name w = loadProfile name t := onConfig_congr _ h

/-- A request that is not turned away for its region is answered the same. -/
theorem answer_congr {route : Route} {req : Request} (h : Same w t)
    (hregion : route = .keyed .changeRegion → req.newRegion ≠ none) : answer route req w = answer route req t := by
  cases route with
  | getTask => exact onConfig_congr _ h
  | keyed e =>
    have hnew : e = .changeRegion → req.newRegion ≠ none := fun he => hregion (he ▸ rfl)
    obtain ⟨rest, hrest⟩ := KeyCheck.handle_eq_checkKey hnew
    show handle e req w = handle e req t
    rw [hrest, checkKey, run_bind, loadProfile_congr _ h, ← run_bind]

/-- A task goes the same way from both. -/
theorem perform_congr (args : TaskArgs) (h : Same w t) : RunTask.perform args w = RunTask.perform args t := by
  have hsplit : RunTask.perform args = (do
      let config ← onConfig build
      let task ← (pure ⟨config⟩ : Py RunTask)
      task.run args) := Prog.bind_assoc _ _ _
  rw [hsplit]
  exact onConfig_congr _ h

/-- The beginning of a task does not look at the file. -/
theorem markBusy_congr (args : TaskArgs) (h : Same w t) :
    (TaskManager.markBusy args w).1 = (TaskManager.markBusy args t).1 ∧
      Same (TaskManager.markBusy args w).2 (TaskManager.markBusy args t).2 := by
  obtain ⟨text, rfl, hsame⟩ := h
  cases hr : w.profile.get? args.configName with
  | some r =>
    have ht : ({ w with config := text } : World).profile.get? args.configName = some r := hr
    rw [run_markBusy hr, run_markBusy ht]
    exact ⟨rfl, text, rfl, hsame⟩
  | none =>
    have ht : ({ w with config := text } : World).profile.get? args.configName = none := hr
    simp only [TaskManager.markBusy, TaskManager.change, TaskManager.record, run_bind, now, run_get, hr, run_throw]
    exact ⟨trivial, text, rfl, hsame⟩

theorem setStartTask_congr (args : TaskArgs) (h : Same w t) :
    (TaskManager.setStartTask args w).1 = (TaskManager.setStartTask args t).1 ∧
      Same (TaskManager.setStartTask args w).2 (TaskManager.setStartTask args t).2 := by
  obtain ⟨heq, hnext⟩ := markBusy_congr args h
  rw [TaskManager.setStartTask, run_bind, run_bind]
  cases hw : TaskManager.markBusy args w with
  | mk x w₁ =>
    cases ht : TaskManager.markBusy args t with
    | mk y t₁ =>
      rw [hw, ht] at heq hnext
      cases heq
      cases x with
      | error e => exact ⟨rfl, hnext⟩
      | ok a =>
        dsimp only
        rw [run_bind, run_bind, perform_congr args hnext]
        exact ⟨rfl, .refl _⟩

/-! ## Requests without a key -/

theorem exists_build (h : loadable w = true) : ∃ l z, build w.config = (.ok l, z) := by
  obtain ⟨l, hl⟩ := except_exists_ok h
  exact ⟨l, (build w.config).2, Prod.ext hl rfl⟩

/-- A construction leaves what `loadProfile` leaves. -/
theorem run_loadProfile {l : ConfigLoader} {z : Str} (hb : build w.config = (.ok l, z)) (name : Str) :
    (loadProfile name w).2 = { w with config := z } := by
  have hw : onConfig build w = (.ok l, { w with config := z }) := by rw [onConfig, hb]
  have hrest : ∀ k : AwsConfig × ConfigLoader → Py (ApiConfig × AwsConfig),
      (∀ r u, (k r u).2 = u) → ((Py.ofConfig (l.loadAws name) >>= k) { w with config := z }).2 =
        { w with config := z } := by
    intro k hk
    cases l.loadAws name with
    | error e => rfl
    | ok r => exact hk r _
  rw [loadProfile, run_bind_ok hw]
  refine hrest _ fun r u => ?_
  dsimp only
  cases loadApiConfig r.2.config with
  | error e => rfl
  | ok api =>
    rw [run_bind_ok (Py.run_ofConfig_ok _ _)]
    cases r.2.loadAws name with
    | error e => rfl
    | ok r' => rfl

/-- The answer tells nothing, and the world is as before or as a construction leaves it. -/
structure Harmless (w : World) (r : Except PyError (Json PyError) × World) : Prop where
  turned : Turned (.answered r.1)
  reloaded : r.2 = w ∨ ∃ l z, build w.config = (.ok l, z) ∧ r.2 = { w with config := z }

/-- **What a stranger's request does**: it is turned away, and the file is left as a construction leaves it, or as it
was. -/
theorem answer_of_stranger {route : Route} {req : Request} (h : withoutKey w req route = true) :
    Harmless w (answer route req w) := by
  cases route with
  | getTask =>
    unfold withoutKey at h
    cases hb : build w.config with
    | mk x z =>
      rw [hb] at h
      cases x with
      | error e => cases h
      | ok l =>
        have hw : onConfig build w = (.ok l, { w with config := z }) := by rw [onConfig, hb]
        show Harmless w (App.getTask req w)
        rw [App.getTask, run_bind_ok hw]
        dsimp only at h
        cases hapi : loadApiConfig l.config with
        | error e => exact ⟨trivial, .inr ⟨l, z, hb, rfl⟩⟩
        | ok api =>
          rw [hapi] at h
          rw [run_bind_ok (Py.run_ofConfig_ok _ _), if_pos (of_decide_eq_true h)]
          exact ⟨.inl rfl, .inr ⟨l, z, hb, rfl⟩⟩
  | keyed e =>
    by_cases hregion : e = .changeRegion ∧ req.newRegion = none
    · obtain ⟨rfl, hnone⟩ := hregion
      have hrun : answer (.keyed .changeRegion) req w = (.ok (message "New region is not provided"), w) := by
        simp only [answer, handle, getChangeRegion, hnone, run_pure]
      rw [hrun]
      exact ⟨.inr rfl, .inl rfl⟩
    · have hregion' : e = .changeRegion → req.newRegion ≠ none := fun he hn => hregion ⟨he, hn⟩
      obtain ⟨rest, hrest⟩ := KeyCheck.handle_eq_checkKey hregion'
      have hcase : (match (loadProfile (configName req) w).1 with
          | .ok (api, aws) => loadable w && !validKey req api aws
          | .error _ => loadable w) = true := by
        unfold withoutKey at h
        simpa [hregion] using h
      show Harmless w (handle e req w)
      rw [hrest]
      cases hload : (loadProfile (configName req) w).1 with
      | error err =>
        rw [hload] at hcase
        obtain ⟨l, z, hb⟩ := exists_build hcase
        rw [checkKey, run_bind_error (t := (loadProfile (configName req) w).2) (by rw [← hload])]
        exact ⟨trivial, .inr ⟨l, z, hb, run_loadProfile hb _⟩⟩
      | ok x =>
        obtain ⟨api, aws⟩ := x
        rw [hload] at hcase
        obtain ⟨hloadable, hinvalid⟩ := Bool.and_eq_true_iff.1 hcase
        obtain ⟨l, z, hb⟩ := exists_build hloadable
        rw [KeyCheck.checkKey_of_invalid hload (by simpa using hinvalid)]
        exact ⟨.inl rfl, .inr ⟨l, z, hb, run_loadProfile hb _⟩⟩

/-! ## Runs -/

theorem unwinding : Unwinding step stranger Same where
  hides := by
    rintro w t a ⟨text, rfl, hsame⟩ ha
    cases a with
    | task args => cases ha
    | request route req =>
      rcases (answer_of_stranger ha).reloaded with hw | ⟨l, z, hb, hw⟩
      · show Same (answer route req w).2 _
        rw [hw]
        exact ⟨text, rfl, hsame⟩
      · show Same (answer route req w).2 _
        rw [hw]
        exact ⟨text, rfl, hsame.after hb⟩
  agrees := by
    intro w t a h ha
    cases a with
    | task args =>
      obtain ⟨heq, hnext⟩ := setStartTask_congr args h
      exact ⟨congrArg Outcome.ended heq, hnext⟩
    | request route req =>
      have hregion : route = .keyed .changeRegion → req.newRegion ≠ none := by
        rintro rfl hnone
        have htrue : stranger w (.request (.keyed .changeRegion) req) = true := by
          simp [stranger, withoutKey, hnone]
        rw [htrue] at ha
        cases ha
      have heq := answer_congr h hregion
      refine ⟨congrArg Outcome.answered (congrArg Prod.fst heq), ?_⟩
      show Same (answer route req w).2 (answer route req t).2
      rw [heq]
      exact .refl _

/-- **Requests without a key are not noticed**: each is turned away; the other requests and the tasks come to what they
come to without them, and the world ends the same but for the form of its file. -/
theorem strangers_unnoticed (w : World) (events : List Event) :
    (∀ x ∈ unseen step stranger w events, Turned x) ∧
      (outcome step w (purge step stranger w events)).1 = seen step stranger w events ∧
      Same (outcome step w events).2 (outcome step w (purge step stranger w events)).2 := by
  refine ⟨forall_unseen (fun w a ha => ?_) events w, unwinding.no_trace events (.refl w)⟩
  cases a with
  | task args => cases ha
  | request route req => exact (answer_of_stranger ha).turned

/-- Two requests without a key and one with, of which the last is seen. -/
example : (purge step stranger exampleWorld [.request (.keyed .reset) ⟨some "no", some "aws1", none, none, none, none⟩,
    .request .getTask ⟨none, none, none, none, none, none⟩,
    .request .getTask ⟨some "api", none, none, none, none, none⟩]) =
    [.request .getTask ⟨some "api", none, none, none, none, none⟩] := by
  simp (disch := exact rfl) only [exampleWorld, World.start, Loader.exampleConfig, toList_of_eq]
  decide +kernel

end Strangers
end Iprotate
