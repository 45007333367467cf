import Iprotate.Terminations

/-!
# The key pair

`set_keypair` looks for the fingerprint of the key file among the key pairs of the region, and imports the key if it is
not there.

- The fingerprint's text determines the digest (`formatFingerprint_injective`).
- A call ends in one of three ways (`setKeypair_cases`): without an import, with one that raised, or with one that added
  the key; and it asks for an import only if no key pair has the fingerprint.
- Once a key pair has the fingerprint it stays so, so of any number of calls one imports at most (`keypair_once`).
-/

namespace Iprotate
namespace KeyPairs

open Py Prog Ec2 Aws SecurityGroups Terminations

/-! ## Fingerprints -/

/-- `binascii.hexlify` -/
def hexlify (digest : List (Fin 256)) : Str :=
  digest.flatMap fun b => [Json.hexDigit (b / 16), Json.hexDigit (b % 16)]

/-- `text[i : i + 2] for i in range(0, len(text), 2)` -/
def slices : Str → List Str
  | [] => []
  | [c] => [[c]]
  | c :: d :: text => [c, d] :: slices text

theorem slices_hexlify : ∀ digest : List (Fin 256),
    slices (hexlify digest) = digest.map fun b => [Json.hexDigit (b / 16), Json.hexDigit (b % 16)]
  | [] => rfl
  | _ :: digest => congrArg (List.cons _) (slices_hexlify digest)

/-- `format_fingerprint` joins the slices of the hexadecimal text. -/
theorem formatFingerprint_eq (digest : List (Fin 256)) :
    formatFingerprint digest = [':'].intercalate (slices (hexlify digest)) := by
  rw [slices_hexlify, formatFingerprint]

/-- The number of a hexadecimal digit. -/
def digitValue (c : Char) : Nat := if c.toNat < 87 then c.toNat - 48 else c.toNat - 87

theorem digitValue_hexDigit : ∀ n : Fin 16, digitValue (Json.hexDigit n) = n := by decide

/-- Read the bytes of a fingerprint back. -/
def parseFingerprint : Str → List Nat
  | c :: d :: ':' :: text => (16 * digitValue c + digitValue d) :: parseFingerprint text
  | c :: d :: _ => [16 * digitValue c + digitValue d]
  | _ => []

theorem value_of_byte (b : Fin 256) :
    16 * digitValue (Json.hexDigit (b / 16)) + digitValue (Json.hexDigit (b % 16)) = b := by
  have hhigh := digitValue_hexDigit ⟨b / 16, by omega⟩
  have hlow := digitValue_hexDigit ⟨b % 16, by omega⟩
  dsimp only at hhigh hlow
  rw [hhigh, hlow]
  exact Nat.div_add_mod _ _

theorem parseFingerprint_format :
    ∀ digest : List (Fin 256), parseFingerprint (formatFingerprint digest) = digest.map (↑·)
  | [] => rfl
  | [b] => congrArg (fun n => [n]) (value_of_byte b)
  | b :: b' :: digest => by
    have ih := parseFingerprint_format (b' :: digest)
    show (_ :: parseFingerprint (formatFingerprint (b' :: digest))) = _
    rw [ih, value_of_byte]
    rfl

/-- Two digests of the same text are equal. -/
theorem formatFingerprint_injective : Function.Injective formatFingerprint := by
  intro digest digest' h
  have hbytes := congrArg parseFingerprint h
  rw [parseFingerprint_format, parseFingerprint_format] at hbytes
  exact List.map_injective_iff.2 (fun _ _ => Fin.ext) hbytes

/-! ## One call -/

variable {a b : Aws} {client : Client} {base w w' : World} {r : Region}

/-- The call asks for an import. -/
def asks : Call → Bool
  | .aws _ (.importKeyPair _ _) => true
  | _ => false

/-- Since `base` the account and the key file are the same, and no import was asked for. -/
structure Looked (base w : World) : Prop where
  cloud : w.cloud = base.cloud
  sshKey : w.sshKey = base.sshKey
  calls : Within (asks · = false) base.calls w

theorem Looked.refl (w : World) : Looked w w := ⟨rfl, rfl, [], (List.append_nil _).symm, fun _ h => by cases h⟩

theorem Looked.call {c : Call} (hc : asks c = false) : Keeps (Looked base) (Py.call c) := by
  intro w hw
  have hcalls := Within.call (P := (asks · = false)) hc w hw.calls
  obtain ⟨script, ⟨text, hr⟩ | ⟨message, hr⟩⟩ := call_cases c w
  · rw [hr] at hcalls ⊢
    exact ⟨hw.cloud, hw.sshKey, hcalls⟩
  · rw [hr] at hcalls ⊢
    exact ⟨hw.cloud, hw.sshKey, hcalls⟩

theorem Looked.query {op : AwsOp} (hop : asks (.aws client op) = false) :
    Keeps (Looked base) (Ec2.query client op) := by
  refine .bind (Looked.call hop) fun _ => .bind .get fun w => ?_
  cases w.cloud.region? client.region with
  | none => exact .throw _
  | some r => exact .pure _

theorem Looked.now : Keeps (Looked base) Py.now := fun _ hw => ⟨hw.cloud, hw.sshKey, hw.calls⟩

/-- The call found a key pair with the fingerprint, and keeps its name. -/
def Found (a : Aws) (w : World) (b : Aws) : Prop :=
  ∃ client r pair, a.ec2 = some client ∧ w.cloud.region? client.region = some r ∧ pair ∈ r.keyPairs ∧
    b.keyPairName = some pair.keyName ∧ pair.keyFingerprint = formatFingerprint w.sshKey.digest

/-- No key pair of the region has the fingerprint. -/
def Missing (client : Client) (w : World) (r : Region) : Prop :=
  w.cloud.region? client.region = some r ∧ ∀ pair ∈ r.keyPairs, pair.keyFingerprint ≠ formatFingerprint w.sshKey.digest

/-- `set_keypair` from the answer of `describe_key_pairs` on. -/
def findOrImport (a : Aws) (client : Client) (key : SshKey) (r : Region) : Py Aws :=
  match r.keyPairs.find? (·.keyFingerprint = formatFingerprint key.digest) with
  | some keypair => return { a with keyPairName := some keypair.keyName }
  | none =>
    wrapping "Error importing keypair: " do
      let date ← now
      let keyName : Str := "iprotate-" ++ showNat date
      Ec2.change client (.importKeyPair keyName ("ssh-rsa ".toList ++ key.publicKey)) fun r =>
        some (r.importKeyPair keyName (formatFingerprint key.digest))
      return { a with keyPairName := some keyName }

/-- Until then a call only looks. -/
theorem setKeypair_answer (a : Aws) (w : World) : (∃ e w', a.setKeypair w = (.error e, w') ∧ Looked w w') ∨
    ∃ client r u, a.ec2 = some client ∧ w.cloud.region? client.region = some r ∧ Looked w u ∧
      a.setKeypair w = findOrImport a client w.sshKey r u := by
  have hread : Keeps (Looked w)
      (wrapping "Error reading keypair file: " (call (.readKey a.config.apiConfig.sshKeyPath))) :=
    Frame.wrapping _ (Looked.call rfl)
  cases hkey : wrapping "Error reading keypair file: " (call (.readKey a.config.apiConfig.sshKeyPath)) w with
  | mk x w₁ =>
    have hlooked₁ := hread.run hkey (Looked.refl w)
    cases x with
    | error e => exact .inl ⟨e, w₁, by rw [setKeypair, run_bind_error hkey], hlooked₁⟩
    | ok _ =>
      rw [setKeypair, run_bind_ok hkey, run_bind_ok (run_get _)]
      cases hec2 : a.ec2 with
      | none => exact .inl ⟨_, w₁, rfl, hlooked₁⟩
      | some client =>
        rw [getAttr, run_bind_ok (run_pure _ _)]
        cases hquery : query client .describeKeyPairs w₁ with
        | mk x w₂ =>
          have hquiet : Keeps (Looked w) (query client .describeKeyPairs) := Looked.query rfl
          have hlooked₂ := hquiet.run hquery hlooked₁
          cases x with
          | error e => exact .inl ⟨e, w₂, run_bind_error hquery, hlooked₂⟩
          | ok r =>
            have hr := (query_ok hquery).1
            rw [hlooked₁.cloud] at hr
            refine .inr ⟨client, r, w₂, rfl, hr, hlooked₂, ?_⟩
            rw [run_bind_ok hquery, hlooked₁.sshKey, ← hec2]
            rfl

/-- **How a call ends**: without an import, with one that raised, or with one that added the key. -/
theorem setKeypair_cases (a : Aws) (w : World) :
    (Looked w (a.setKeypair w).2 ∧ ∀ b, (a.setKeypair w).1 = .ok b → Found a w b) ∨
    ∃ client r u keyName publicKey script, a.ec2 = some client ∧ Missing client w r ∧ Looked w u ∧
      ((∃ e, a.setKeypair w = (.error e, u.called (.aws client (.importKeyPair keyName publicKey)) true script)) ∨
        a.setKeypair w = (.ok { a with keyPairName := some keyName }, changed u client
          (.importKeyPair keyName publicKey) script
            (r.importKeyPair keyName (formatFingerprint w.sshKey.digest)))) := by
  obtain ⟨e, w', hrun, hlooked⟩ | ⟨client, r, u, hec2, hr, hlooked, hrun⟩ := setKeypair_answer a w
  · rw [hrun]
    exact .inl ⟨hlooked, fun b hb => by cases hb⟩
  rw [hrun, findOrImport]
  cases hfind : r.keyPairs.find? (·.keyFingerprint = formatFingerprint w.sshKey.digest) with
  | some pair =>
    refine .inl ⟨hlooked, fun b hb => ?_⟩
    cases hb
    exact ⟨client, r, pair, hec2, hr, List.mem_of_find?_eq_some hfind, rfl, by simpa using List.find?_some hfind⟩
  | none =>
    have hmissing : Missing client w r := ⟨hr, by simpa using hfind⟩
    obtain ⟨v, hnow, hv⟩ : ∃ v, now u = (.ok u.clock, v) ∧ Looked w v := ⟨_, rfl, Looked.now u hlooked⟩
    have hrv : v.cloud.region? client.region = some r := by rw [hv.cloud, hr]
    refine .inr ⟨client, r, v, "iprotate-" ++ showNat u.clock, "ssh-rsa ".toList ++ w.sshKey.publicKey, ?_⟩
    obtain ⟨script, ⟨r', hr', hchange⟩ | ⟨hnone, -⟩ | ⟨e, hchange⟩⟩ := change_cases
      (.importKeyPair ("iprotate-" ++ showNat u.clock) ("ssh-rsa ".toList ++ w.sshKey.publicKey))
      (fun r => some (r.importKeyPair ("iprotate-" ++ showNat u.clock) (formatFingerprint w.sshKey.digest))) hrv
    · cases hr'
      refine ⟨script, hec2, hmissing, hv, .inr (wrapping_eq_ok.2 ?_)⟩
      rw [run_bind_ok hnow, run_bind_ok hchange]
      rfl
    · cases hnone
    · refine ⟨script, hec2, hmissing, hv, .inl ⟨.wrapped "Error importing keypair: " e, ?_⟩⟩
      show wrapping _ _ u = _
      rw [wrapping, run_tryCatch, run_bind_ok hnow, run_bind_error hchange]
      rfl

/-! ## Any number of calls -/

/-- The calls of these objects, one after the other. -/
def setKeypairs : List Aws → World → World
  | [], w => w
  | a :: as, w => setKeypairs as (a.setKeypair w).2

/-- A key pair of the region has the fingerprint. -/
def Has (region fingerprint : Str) (w : World) : Prop :=
  ∃ r, w.cloud.region? region = some r ∧ ∃ pair ∈ r.keyPairs, pair.keyFingerprint = fingerprint

/-- The call imports a key pair in the region. -/
def importsIn (region : Str) : Call → Bool
  | .aws client (.importKeyPair _ _) => client.region = region
  | _ => false

/-- An import in the region that went well. -/
def imported (region : Str) (e : Call × Bool) : Bool := importsIn region e.1 && !e.2

theorem asks_of_imported {region : Str} {e : Call × Bool} (h : imported region e = true) : asks e.1 = true := by
  have himports := (Bool.and_eq_true_iff.1 h).1
  unfold importsIn at himports
  split at himports
  · rename_i client keyName publicKey he
    rw [he]
    rfl
  · cases himports

theorem countP_imported {region : Str} {log : List (Call × Bool)} (h : ∀ e ∈ log, asks e.1 = false) :
    log.countP (imported region) = 0 := by
  refine List.countP_eq_zero.2 fun e he himported => ?_
  have := asks_of_imported himported
  rw [h e he] at this
  cases this

/-- Since `base` there was one import in the region at most, and if there was one, the key is there. -/
structure Once (region : Str) (base w : World) : Prop where
  sshKey : w.sshKey = base.sshKey
  calls : ∃ log, w.calls = base.calls ++ log ∧ (log.countP (imported region) = 0 ∨
    log.countP (imported region) = 1 ∧ Has region (formatFingerprint base.sshKey.digest) w)

theorem Once.refl (region : Str) (w : World) : Once region w w := ⟨rfl, [], (List.append_nil _).symm, .inl rfl⟩

theorem Has.importKeyPair {region fingerprint : Str} (hr : w.cloud.region? client.region = some r) (op : AwsOp)
    (script : List Answer) (keyName fp : Str) (h : Has region fingerprint w) :
    Has region fingerprint (changed w client op script (r.importKeyPair keyName fp)) := by
  obtain ⟨s, hs, pair, hpair, hfp⟩ := h
  by_cases hregion : client.region = region
  · subst hregion
    obtain rfl : r = s := Option.some.inj (hr.symm.trans hs)
    exact ⟨_, region?_changed hr _ _ _, pair, List.mem_append_left _ hpair, hfp⟩
  · exact ⟨s, (Cloud.region?_setRegion_ne hregion _).trans hs, pair, hpair, hfp⟩

/-- What a call leaves of it. -/
theorem once_setKeypair {region : Str} (a : Aws) (h : Once region base w) : Once region base (a.setKeypair w).2 := by
  obtain ⟨log, hcalls, hcount⟩ := h.calls
  obtain ⟨hlooked, -⟩ | ⟨client, r, u, keyName, publicKey, script, -, ⟨hr, hmissing⟩, hlooked, ⟨e, hrun⟩ | hrun⟩ :=
    setKeypair_cases a w
  · obtain ⟨log', hcalls', hlog'⟩ := hlooked.calls
    refine ⟨hlooked.sshKey.trans h.sshKey, log ++ log', by rw [hcalls', hcalls, List.append_assoc], ?_⟩
    rw [List.countP_append, countP_imported hlog']
    refine hcount.imp_right fun ⟨hone, hhas⟩ => ⟨hone, ?_⟩
    rwa [Has, hlooked.cloud]
  · -- the import raised
    obtain ⟨log', hcalls', hlog'⟩ := hlooked.calls
    rw [hrun]
    refine ⟨hlooked.sshKey.trans h.sshKey,
      log ++ log' ++ [(.aws client (.importKeyPair keyName publicKey), true)], ?_, ?_⟩
    · rw [World.called_calls, hcalls', hcalls, List.append_assoc, List.append_assoc, List.append_assoc]
    · have hraised : imported region (.aws client (.importKeyPair keyName publicKey), true) = false := Bool.and_false _
      rw [List.countP_append, List.countP_append, countP_imported hlog', List.countP_singleton, hraised]
      refine hcount.imp_right fun ⟨hone, hhas⟩ => ⟨hone, ?_⟩
      rwa [Has, World.called_cloud, hlooked.cloud]
  · -- the key was imported, so it was not there before
    obtain ⟨log', hcalls', hlog'⟩ := hlooked.calls
    have hr' : u.cloud.region? client.region = some r := by rw [hlooked.cloud, hr]
    rw [hrun]
    refine ⟨hlooked.sshKey.trans h.sshKey,
      log ++ log' ++ [(.aws client (.importKeyPair keyName publicKey), false)], ?_, ?_⟩
    · show u.calls ++ _ = _
      rw [hcalls', hcalls, List.append_assoc, List.append_assoc, List.append_assoc]
    · rw [List.countP_append, List.countP_append, countP_imported hlog', Nat.add_zero]
      by_cases hregion : client.region = region
      · subst hregion
        refine .inr ⟨?_, _, region?_changed hr' _ _ _, _, List.mem_append_right _ (List.mem_singleton_self _), ?_⟩
        · rcases hcount with hzero | ⟨-, s, hs, pair, hpair, hfp⟩
          · rw [hzero]
            simp [imported, importsIn]
          · obtain rfl : r = s := Option.some.inj (hr.symm.trans hs)
            rw [h.sshKey] at hmissing
            exact absurd hfp (hmissing pair hpair)
        · rw [h.sshKey]
      · have hother : imported region (.aws client (.importKeyPair keyName publicKey), false) = false := by
          simp [imported, importsIn, hregion]
        rw [List.countP_singleton, hother]
        refine hcount.imp_right fun ⟨hone, hhas⟩ => ⟨hone, Has.importKeyPair hr' _ _ _ _ ?_⟩
        rwa [Has, hlooked.cloud]

theorem run_setKeypairs {region : Str} : ∀ (as : List Aws) {w : World}, Once region base w →
    Once region base (setKeypairs as w)
  | [], _, h => h
  | a :: as, _, h => run_setKeypairs as (once_setKeypair a h)

/-- The imports in the region that did not raise. -/
def newImports (region : Str) (w w' : World) : Nat := (w'.calls.drop w.calls.length).countP (imported region)

/-- **The key is imported once at most**, and then it is found. -/
theorem keypair_once (as : List Aws) (w : World) :
    (∀ (a b : Aws) (w' : World), a.setKeypair (setKeypairs as w) = (.ok b, w') → ∃ client r pair, a.ec2 = some client ∧
      w'.cloud.region? client.region = some r ∧ pair ∈ r.keyPairs ∧ b.keyPairName = some pair.keyName ∧
      pair.keyFingerprint = formatFingerprint w.sshKey.digest) ∧
    (∀ a : Aws, ∀ c ∈ newCalls (setKeypairs as w) (a.setKeypair (setKeypairs as w)).2, asks c = true →
      ∃ client r, a.ec2 = some client ∧ (setKeypairs as w).cloud.region? client.region = some r ∧
        ∀ pair ∈ r.keyPairs, pair.keyFingerprint ≠ formatFingerprint w.sshKey.digest) ∧
    (∀ region, newImports region w (setKeypairs as w) ≤ 1) ∧ Function.Injective formatFingerprint := by
  have honce : ∀ region, Once region w (setKeypairs as w) := fun region => run_setKeypairs as (Once.refl region w)
  have hkey := (honce []).sshKey
  refine ⟨fun a b w' hrun => ?_, fun a c hc hasks => ?_, fun region => ?_, formatFingerprint_injective⟩
  · rw [← hkey]
    obtain ⟨hlooked, hfound⟩ | ⟨client, r, u, keyName, publicKey, script, hec2, ⟨hr, -⟩, hlooked, ⟨e, hend⟩ | hend⟩ :=
      setKeypair_cases a (setKeypairs as w)
    · rw [hrun] at hlooked hfound
      obtain ⟨client, r, pair, hec2, hr, hfound⟩ := hfound b rfl
      exact ⟨client, r, pair, hec2, by rw [hlooked.cloud, hr], hfound⟩
    · rw [hrun] at hend
      cases hend
    · rw [hrun] at hend
      cases hend
      have hr' : u.cloud.region? client.region = some r := by rw [hlooked.cloud, hr]
      exact ⟨client, _, _, hec2, region?_changed hr' _ _ _, List.mem_append_right _
        (List.mem_singleton_self _), rfl, rfl⟩
  · rw [← hkey]
    obtain ⟨hlooked, -⟩ | ⟨client, r, u, keyName, publicKey, script, hec2, hmissing, -⟩ :=
      setKeypair_cases a (setKeypairs as w)
    · obtain ⟨log, hcalls, hlog⟩ := hlooked.calls
      rw [newCalls_eq hcalls] at hc
      obtain ⟨e, he, rfl⟩ := List.mem_map.1 hc
      rw [hlog e he] at hasks
      cases hasks
    · exact ⟨client, r, hec2, hmissing⟩
  · obtain ⟨log, hcalls, hcount⟩ := (honce region).calls
    rw [newImports, hcalls, List.drop_left]
    omega

end KeyPairs
end Iprotate
