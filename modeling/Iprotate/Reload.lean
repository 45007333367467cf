import Iprotate.Calls
import Iprotate.Frame
import Iprotate.Normalisation

/-!
# Loading again

A construction brings the file into a form that the next one finds as it is, and makes the same loader of it
(`build_again`). So what a profile is loaded as does not depend on how often the file was loaded before (`Loads.build`),
and stays the same in all that writes to `config.conf` by constructions only (`loads_frame`).
-/

namespace Iprotate
namespace ConfigLoader

open ConfigParser Loader Normalisation Prog

variable {p : ConfigParser} {text text' c : Str} {l : ConfigLoader} {aws aws' : AwsConfig}

/-- What was written last is settled to what it was written from. -/
theorem settle_lastWritten : ∀ {ss : List Str} (n : Nat) {p : ConfigParser}, (∀ s ∈ ss, s ∈ p.sectionNames) → ss.Nodup →
    settle ss n (lastWritten ss n p) = settle ss n p
  | [], _, _, _, _ => rfl
  | [s], n, p, _, _ => by
    show settleSection (p.put s "order" (showNat n)) s n = settleSection p s n
    rw [settleSection, put_put, ← settleSection]
  | s :: s' :: ss, n, p, hss, hnd => by
    have hm := hss s List.mem_cons_self
    have hrest : ∀ t ∈ s' :: ss, t ∈ (settleSection p s n).sectionNames :=
      mem_settleSection fun t ht => hss t (List.mem_cons_of_mem _ ht)
    rw [List.nodup_cons] at hnd
    have hself : settleSection (lastWritten (s' :: ss) (n + 1) (settleSection p s n)) s n =
        lastWritten (s' :: ss) (n + 1) (settleSection p s n) := by
      refine settleSection_settleSection hm (fun o => raw_lastWritten_not_mem hrest hnd.1 o) ?_
      rw [defaults_lastWritten, defaults_settleSection]
    show settle (s' :: ss) (n + 1) (settleSection (lastWritten (s' :: ss) (n + 1) (settleSection p s n)) s n) = _
    rw [hself]
    exact settle_lastWritten (n + 1) hrest hnd.2

theorem settled_leftParser (h : Normal p) : settled (leftParser p) = settled p := by
  rw [settled, profileNames_leftParser]
  exact settle_lastWritten 1 (fun s hs => (profiles_ordinary h s hs).2) (nodup_profileNames h)

/-- A construction loads the profiles as its parser has them. -/
theorem build_loaded {api : ApiConfig} (hread : ConfigParser.read text = .ok p) (hapi : loadApiConfig p = .ok api)
    (hreads : ∀ s ∈ profileNames p, ∃ aws, readAwsConfig (settled p) s = .ok aws) :
    ∃ cs : List AwsConfig, (profileNames p).map (readAwsConfig (settled p)) = cs.map .ok ∧
      build text = (.ok ⟨settled p, api, cs⟩, leftIn p text) := by
  have hnormal := read_normal hread
  obtain ⟨cs, hloaded, hloop⟩ := run_loop_loaded text (profiles_ordinary hnormal) (nodup_profileNames hnormal) hreads
  refine ⟨cs, hloaded, ?_⟩
  simp only [build, readConfig, run_bind, run_get, run_ofExcept, hread, hapi, hloop, run_pure]
  rfl

/-- **What a construction left, another one leaves as it is**, and makes the same loader of it. -/
theorem build_again (h : build text = (.ok l, text')) : build text' = (.ok l, text') := by
  obtain ⟨p, hb⟩ := built_of_build h
  have hnormal := read_normal hb.read
  have hread : ConfigParser.read text' = .ok (leftParser p) := hb.file ▸ read_leftIn hb.read
  have hapi : loadApiConfig (leftParser p) = .ok l.apiConfig := by rw [loadApiConfig_leftParser hnormal, hb.api]
  have hsettled := settled_leftParser hnormal
  have hnames := profileNames_leftParser p
  obtain ⟨cs, hloaded, hbuild⟩ := build_loaded hb.read hb.api hb.reads
  obtain ⟨cs', hloaded', hbuild'⟩ := build_loaded hread hapi (by rw [hsettled, hnames]; exact hb.reads)
  have hcs : cs' = cs := by
    rw [hsettled, hnames, hloaded] at hloaded'
    exact List.map_injective_iff.2 (fun _ _ => Except.ok.inj) hloaded'.symm
  have hl : l = ⟨settled p, l.apiConfig, cs⟩ := Except.ok.inj (Prod.mk.inj (h.symm.trans hbuild)).1
  rw [hsettled, hb.file, leftIn_again hnormal, hcs, ← hl] at hbuild'
  rw [hb.file]
  exact hbuild'

/-- The profile is loaded as this from the text. -/
def Loads (c : Str) (aws : AwsConfig) (text : Str) : Prop :=
  ∃ l text' l', build text = (.ok l, text') ∧ l.loadAws c = .ok (aws, l')

theorem Loads.unique (h : Loads c aws text) (h' : Loads c aws' text) : aws = aws' := by
  obtain ⟨l, t, k, hb, hl⟩ := h
  obtain ⟨l', t', k', hb', hl'⟩ := h'
  cases hb.symm.trans hb'
  cases hl.symm.trans hl'
  rfl

/-- A construction goes through again, and finds the profile as it was. -/
theorem Loads.build (h : Loads c aws text) : ∃ l text', ConfigLoader.build text = (.ok l, text') ∧ Loads c aws text' ∧
    ∃ l', l.loadAws c = .ok (aws, l') := by
  obtain ⟨l, text', l', hb, hl⟩ := h
  exact ⟨l, text', hb, ⟨l, text', l', build_again hb, hl⟩, l', hl⟩

end ConfigLoader

end Iprotate
