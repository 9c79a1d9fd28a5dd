import Attest.Bundle
import Attest.Verification

/-!
# What the verifiers report

Both verifiers turn the hash and the signature of a row, the root and the signature of
a batch and the steps of its proofs into bytes before they check them, and a text that
is no hex raises. A replay reports on every row, the damaged ones as failing, exactly
when it can read each of them (`verifyEventChain_reports_iff`), and the standalone
verifier gives a verdict exactly when it can read the bundle
(`Verifier.verifyBundle_succeeds`). `verifiers_report` is both.
-/

namespace Attest

/-- The text stands for bytes. -/
def IsHex (text : String) : Prop :=
  (Bytes.fromHex text).isSome = true

theorem succeeds_fromHex {text : String} : (fromHex text).succeeds = true ↔ IsHex text := by
  unfold fromHex IsHex
  cases Bytes.fromHex text <;> simp [Except.succeeds]

theorem succeeds_mapM_fromHex {texts : List String} :
    (texts.mapM fromHex).succeeds = true ↔ ∀ text ∈ texts, IsHex text := by
  simp only [Except.succeeds_mapM, succeeds_fromHex]

theorem succeeds_verifyMerkleProof {leafHex rootHex : String} {index : Int} {proof : List String} :
    (verifyMerkleProof leafHex index proof rootHex).succeeds = true ↔
      IsHex leafHex ∧ ∀ sibling ∈ proof, IsHex sibling := by
  rw [← succeeds_mapM_fromHex, ← succeeds_fromHex, verifyMerkleProof, Except.succeeds_bind]
  simp only [Except.succeeds_bind]
  constructor
  · rintro ⟨leaf, hleaf, siblings, hsiblings, -⟩
    exact ⟨Except.succeeds_iff.mpr ⟨leaf, hleaf⟩, Except.succeeds_iff.mpr ⟨siblings, hsiblings⟩⟩
  · rintro ⟨hleaf, hsiblings⟩
    obtain ⟨leaf, hleaf⟩ := Except.succeeds_iff.mp hleaf
    obtain ⟨siblings, hsiblings⟩ := Except.succeeds_iff.mp hsiblings
    exact ⟨leaf, hleaf, siblings, hsiblings, rfl⟩

/-- A signature is looked at when its suite can be looked up, and read when it is one
of this build. -/
theorem succeeds_isSupported_bind (alg : JVal) (check : Except PyError Bool) :
    (do if ← isSupported alg then check else .ok false).succeeds = true ↔
      hashable alg = true ∧ (alg = .str algSha256Ed25519V1 → check.succeeds = true) := by
  rw [Except.succeeds_bind]
  by_cases halg : alg = .str algSha256Ed25519V1
  · subst halg
    simp [hashable]
  · have hfalse : isSupported alg = .ok false ↔ hashable alg = true := by
      unfold isSupported
      cases hashable alg <;> simp [supportedAlgorithms, halg]
    have htrue : isSupported alg ≠ .ok true := fun h => halg (isSupported_eq_true.mp h)
    constructor
    · rintro ⟨supported, hsupported, -⟩
      cases supported with
      | true => exact absurd hsupported htrue
      | false => exact ⟨hfalse.mp hsupported, fun h => absurd h halg⟩
    · rintro ⟨hhashable, -⟩
      exact ⟨false, hfalse.mpr hhashable, rfl⟩

/-! ## Replays -/

/-- What a replay needs to read a row : the time in its envelope, a suite it can look up,
and hash and signature in hex where the suite is one of this build. -/
structure VerifiableEvent.Readable (e : VerifiableEvent) : Prop where
  createdAt : (e.envelope.get? "created_at").isSome = true
  suite : hashable e.suite = true
  texts : e.suite = .str algSha256Ed25519V1 → IsHex e.hash ∧ IsHex e.signature

/-- The hash of the row before the one at `i`. -/
def hashBefore (events : List VerifiableEvent) : Nat → Option String
  | 0 => none
  | i + 1 => events[i]?.map VerifiableEvent.hash

section Replay

variable [SignatureScheme]

/-- The results are one for each row, in order, and a row is marked as verified exactly
when it verifies and names the hash before it. -/
structure ReportsOn (publicPem : String) (events : List VerifiableEvent)
    (results : List EventVerifyResult) : Prop where
  length_eq : results.length = events.length
  verified_iff : ∀ {i : Nat} {e : VerifiableEvent}, events[i]? = some e →
    ∃ r, results[i]? = some r ∧ r.seq = e.seq ∧ r.type = e.type ∧
      (r.verified = true ↔ RowVerifies e publicPem ∧ e.prevHash = hashBefore events i)

theorem succeeds_verifyHex {publicPem messageHex signatureHex : String}
    (hkey : SignatureScheme.publicKind publicPem = .usable) :
    (verifyHex publicPem messageHex signatureHex).succeeds = true ↔
      IsHex messageHex ∧ IsHex signatureHex := by
  simp only [verifyHex, loadPublicKey, hkey, Except.succeeds_bind, ← succeeds_fromHex,
    Except.ok_bind']
  constructor
  · rintro ⟨s, hs, m, hm, -⟩
    exact ⟨Except.succeeds_iff.mpr ⟨m, hm⟩, Except.succeeds_iff.mpr ⟨s, hs⟩⟩
  · rintro ⟨hm, hs⟩
    obtain ⟨m, hm⟩ := Except.succeeds_iff.mp hm
    obtain ⟨s, hs⟩ := Except.succeeds_iff.mp hs
    exact ⟨s, hs, m, hm, rfl⟩

theorem succeeds_verifySingleEvent {publicPem : String}
    (hkey : SignatureScheme.publicKind publicPem = .usable) (e : VerifiableEvent)
    (expected : Option String) :
    (verifySingleEvent e publicPem expected).succeeds = true ↔ e.Readable := by
  have hsignature : (checkSignature e publicPem).succeeds = true ↔ hashable e.suite = true ∧
      (e.suite = .str algSha256Ed25519V1 → IsHex e.hash ∧ IsHex e.signature) := by
    rw [← succeeds_verifyHex hkey]
    exact succeeds_isSupported_bind _ _
  simp only [verifySingleEvent, Except.succeeds_bind, createdAt_eq_ok]
  constructor
  · rintro ⟨createdAt, hcreated, signatureOk, hsig, -⟩
    obtain ⟨hsuite, htexts⟩ := hsignature.mp (Except.succeeds_iff.mpr ⟨signatureOk, hsig⟩)
    exact ⟨by rw [hcreated]; rfl, hsuite, htexts⟩
  · intro h
    obtain ⟨createdAt, hcreated⟩ := Option.isSome_iff_exists.mp h.createdAt
    obtain ⟨signatureOk, hsig⟩ := Except.succeeds_iff.mp (hsignature.mpr ⟨h.suite, h.texts⟩)
    exact ⟨createdAt, hcreated, signatureOk, hsig, rfl⟩

theorem verifySingleEvent_seq_type {publicPem : String} {e : VerifiableEvent}
    {expected : Option String} {r : EventVerifyResult}
    (h : verifySingleEvent e publicPem expected = .ok r) : r.seq = e.seq ∧ r.type = e.type := by
  simp only [verifySingleEvent, Except.bind_eq_ok, Except.pure_eq, Except.ok.injEq] at h
  obtain ⟨_, -, _, -, rfl⟩ := h
  exact ⟨rfl, rfl⟩

theorem succeeds_verifyRows {publicPem : String}
    (hkey : SignatureScheme.publicKind publicPem = .usable) :
    ∀ (prevHash : Option String) (events : List VerifiableEvent),
      (verifyRows (fun _ => .ok publicPem) prevHash events).succeeds = true ↔
        ∀ e ∈ events, e.Readable
  | _, [] => by simp [verifyRows, Except.succeeds]
  | prevHash, e :: es => by
    rw [List.forall_mem_cons, ← succeeds_verifySingleEvent hkey e prevHash,
      ← succeeds_verifyRows hkey (some e.hash) es]
    simp only [verifyRows, Except.ok_bind', Except.succeeds_bind]
    constructor
    · rintro ⟨r, hr, rest, hrest, -⟩
      exact ⟨Except.succeeds_iff.mpr ⟨r, hr⟩, Except.succeeds_iff.mpr ⟨rest, hrest⟩⟩
    · rintro ⟨hr, hrest⟩
      obtain ⟨r, hr⟩ := Except.succeeds_iff.mp hr
      obtain ⟨rest, hrest⟩ := Except.succeeds_iff.mp hrest
      exact ⟨r, hr, rest, hrest, rfl⟩

/-- Rows from a given hash on are reported one by one. -/
theorem verifyRows_reports {publicPem : String} : ∀ {prevHash : Option String}
    {events : List VerifiableEvent} {results : List EventVerifyResult},
    verifyRows (fun _ => .ok publicPem) prevHash events = .ok results →
      results.length = events.length ∧ ∀ {i : Nat} {e : VerifiableEvent}, events[i]? = some e →
        ∃ r, results[i]? = some r ∧ r.seq = e.seq ∧ r.type = e.type ∧
          (r.verified = true ↔ RowVerifies e publicPem ∧
            e.prevHash = if i = 0 then prevHash else hashBefore events i)
  | _, [], results, h => by
    obtain rfl : [] = results := by simpa [verifyRows] using h
    simp
  | prevHash, e :: es, results, h => by
    simp only [verifyRows, Except.ok_bind', Except.bind_eq_ok, Except.pure_eq,
      Except.ok.injEq] at h
    obtain ⟨r, hr, rest, hrest, rfl⟩ := h
    obtain ⟨hlength, hrows⟩ := verifyRows_reports hrest
    refine ⟨by simp [hlength], ?_⟩
    rintro (_ | i) x hx
    · obtain rfl : e = x := by simpa using hx
      obtain ⟨hseq, htype⟩ := verifySingleEvent_seq_type hr
      exact ⟨r, rfl, hseq, htype, verifySingleEvent_verified hr⟩
    · obtain ⟨y, hy, hseq, htype, hverified⟩ := hrows (show es[i]? = some x from hx)
      refine ⟨y, hy, hseq, htype, hverified.trans ?_⟩
      cases i <;> simp [hashBefore]

/-- A replay reports on every row exactly when it can read each. -/
theorem verifyEventChain_reports_iff {publicPem : String}
    (hkey : SignatureScheme.publicKind publicPem = .usable) (traceId : String)
    (events : List VerifiableEvent) :
    (∃ result, verifyEventChain traceId events (fun _ => .ok publicPem) = .ok result ∧
      ReportsOn publicPem events result.events) ↔ ∀ e ∈ events, e.Readable := by
  rw [← succeeds_verifyRows hkey none events, Except.succeeds_iff]
  simp only [verifyEventChain, Except.bind_eq_ok, Except.pure_eq, Except.ok.injEq]
  constructor
  · rintro ⟨_, ⟨results, hresults, -⟩, -⟩
    exact ⟨results, hresults⟩
  · rintro ⟨results, hresults⟩
    obtain ⟨hlength, hrows⟩ := verifyRows_reports hresults
    refine ⟨_, ⟨results, hresults, rfl⟩, hlength, ?_⟩
    intro i e he
    obtain ⟨r, hr, hseq, htype, hverified⟩ := hrows he
    refine ⟨r, hr, hseq, htype, hverified.trans ?_⟩
    cases i <;> simp [hashBefore]

end Replay

/-! ## Bundles -/

/-- The key can be loaded, and where it is of the type asked for, both texts stand for
bytes. -/
structure SignatureReadable [SignatureScheme] (publicPem messageHex signatureHex : String) :
    Prop where
  key : SignatureScheme.publicKind publicPem ≠ .invalid
  texts : SignatureScheme.publicKind publicPem = .usable → IsHex messageHex ∧ IsHex signatureHex

/-- What the standalone verifier needs to read an event. -/
structure BundleEvent.Readable [SignatureScheme] (publicPem : String) (e : BundleEvent) : Prop where
  alg : hashable e.alg = true
  signature : e.alg = .str algSha256Ed25519V1 → SignatureReadable publicPem e.hash e.signature

/-- What it needs to read a batch : hex in each proof it can start, and under the root. -/
structure BundleBatch.Readable [SignatureScheme] (publicPem : String) (events : List BundleEvent)
    (b : BundleBatch) : Prop where
  proofs : ∀ p ∈ b.merkleProofs, ∀ index hash, b.eventIds.idxOf? p.1 = some index →
    Verifier.leafHash events b p.1 = some hash → IsHex hash ∧ ∀ sibling ∈ p.2, IsHex sibling
  signature : SignatureReadable publicPem b.root b.signature

structure EvidenceBundle.Readable [SignatureScheme] (bundle : EvidenceBundle) : Prop where
  events : ∀ e ∈ bundle.events, e.Readable bundle.publicKeyPem
  batches : ∀ b ∈ Verifier.batchesOf bundle, b.Readable bundle.publicKeyPem bundle.events

namespace Verifier

theorem succeeds_verifyProof {events : List BundleEvent} {b : BundleBatch}
    {p : String × List String} : (verifyProof events b p).succeeds = true ↔
      ∀ index hash, b.eventIds.idxOf? p.1 = some index → leafHash events b p.1 = some hash →
        IsHex hash ∧ ∀ sibling ∈ p.2, IsHex sibling := by
  unfold verifyProof
  cases b.eventIds.idxOf? p.1 with
  | none => simp [Except.succeeds]
  | some index =>
    cases leafHash events b p.1 with
    | none => simp [Except.succeeds]
    | some hash => simp [succeeds_verifyMerkleProof]

section Reports

variable [SignatureScheme]

theorem succeeds_verifyHex {publicPem messageHex signatureHex : String} :
    (verifyHex publicPem messageHex signatureHex).succeeds = true ↔
      SignatureReadable publicPem messageHex signatureHex := by
  unfold verifyHex
  cases hkind : SignatureScheme.publicKind publicPem with
  | invalid => exact iff_of_false (by simp [Except.succeeds]) fun h => h.key hkind
  | other => exact iff_of_true rfl ⟨by simp [hkind], by simp [hkind]⟩
  | usable =>
    simp only [Except.succeeds_bind]
    constructor
    · rintro ⟨s, hs, m, hm, -⟩
      exact ⟨by simp [hkind], fun _ => ⟨succeeds_fromHex.mp (Except.succeeds_iff.mpr ⟨m, hm⟩),
        succeeds_fromHex.mp (Except.succeeds_iff.mpr ⟨s, hs⟩)⟩⟩
    · intro h
      obtain ⟨hm, hs⟩ := h.texts hkind
      obtain ⟨m, hm⟩ := Except.succeeds_iff.mp (succeeds_fromHex.mpr hm)
      obtain ⟨s, hs⟩ := Except.succeeds_iff.mp (succeeds_fromHex.mpr hs)
      exact ⟨s, hs, m, hm, rfl⟩

theorem succeeds_checkSignature {publicPem : String} {e : BundleEvent} :
    (checkSignature publicPem e).succeeds = true ↔ e.Readable publicPem := by
  have h := succeeds_isSupported_bind e.alg
    (verifyHex publicPem e.hash e.signature)
  rw [succeeds_verifyHex] at h
  exact h.trans ⟨fun h => ⟨h.1, h.2⟩, fun h => ⟨h.alg, h.signature⟩⟩

theorem succeeds_verifyEvents {publicPem : String} : ∀ (prevHash : Option String)
    (es : List BundleEvent),
    (verifyEvents publicPem prevHash es).succeeds = true ↔ ∀ e ∈ es, e.Readable publicPem
  | _, [] => by simp [verifyEvents, Except.succeeds]
  | prevHash, e :: es => by
    rw [List.forall_mem_cons, ← succeeds_checkSignature,
      ← succeeds_verifyEvents (some e.hash) es]
    simp only [verifyEvents, Except.succeeds_bind]
    constructor
    · rintro ⟨sigOk, hsig, rest, hrest, -⟩
      exact ⟨Except.succeeds_iff.mpr ⟨sigOk, hsig⟩, Except.succeeds_iff.mpr ⟨rest, hrest⟩⟩
    · rintro ⟨hsig, hrest⟩
      obtain ⟨sigOk, hsig⟩ := Except.succeeds_iff.mp hsig
      obtain ⟨rest, hrest⟩ := Except.succeeds_iff.mp hrest
      exact ⟨sigOk, hsig, rest, hrest, rfl⟩

variable [AnchorVerifier]

theorem succeeds_verifyBatch {publicPem : String} {events : List BundleEvent} {b : BundleBatch} :
    (verifyBatch publicPem events b).succeeds = true ↔ b.Readable publicPem events := by
  have hproofs : (b.merkleProofs.mapM (verifyProof events b)).succeeds = true ↔
      ∀ p ∈ b.merkleProofs, ∀ index hash, b.eventIds.idxOf? p.1 = some index →
        leafHash events b p.1 = some hash → IsHex hash ∧ ∀ sibling ∈ p.2, IsHex sibling := by
    simp only [Except.succeeds_mapM, succeeds_verifyProof]
  simp only [verifyBatch, Except.succeeds_bind]
  constructor
  · rintro ⟨proofs, hp, sigOk, hsig, -⟩
    exact ⟨hproofs.mp (Except.succeeds_iff.mpr ⟨proofs, hp⟩),
      succeeds_verifyHex.mp (Except.succeeds_iff.mpr ⟨sigOk, hsig⟩)⟩
  · intro h
    obtain ⟨proofs, hp⟩ := Except.succeeds_iff.mp (hproofs.mpr h.proofs)
    obtain ⟨sigOk, hsig⟩ := Except.succeeds_iff.mp (succeeds_verifyHex.mpr h.signature)
    exact ⟨proofs, hp, sigOk, hsig, rfl⟩

/-- The verifier gives a verdict exactly when it can read the bundle. -/
theorem verifyBundle_succeeds {bundle : EvidenceBundle} :
    (∃ verdict, verifyBundle bundle = .ok verdict) ↔ bundle.Readable := by
  have hbatches : ((batchesOf bundle).mapM
      (verifyBatch bundle.publicKeyPem bundle.events)).succeeds = true ↔
      ∀ b ∈ batchesOf bundle, b.Readable bundle.publicKeyPem bundle.events := by
    simp only [Except.succeeds_mapM, succeeds_verifyBatch]
  rw [← Except.succeeds_iff]
  simp only [verifyBundle, Except.succeeds_bind]
  constructor
  · rintro ⟨eventsOk, hevents, batches, hb, -⟩
    exact ⟨(succeeds_verifyEvents none bundle.events).mp
      (Except.succeeds_iff.mpr ⟨eventsOk, hevents⟩),
      hbatches.mp (Except.succeeds_iff.mpr ⟨batches, hb⟩)⟩
  · intro h
    obtain ⟨eventsOk, hevents⟩ := Except.succeeds_iff.mp
      ((succeeds_verifyEvents none bundle.events).mpr h.events)
    obtain ⟨batches, hb⟩ := Except.succeeds_iff.mp (hbatches.mpr h.batches)
    exact ⟨eventsOk, hevents, batches, hb, rfl⟩

end Reports

end Verifier

/-- What the verifiers need to report. Under a valid key, a replay returns a result
with the damaged rows marked as failing exactly when it can read each row, and the
standalone verifier returns `True` or `False` exactly when it can read the bundle. -/
theorem verifiers_report [SignatureScheme] [AnchorVerifier] {publicPem : String}
    (hkey : SignatureScheme.publicKind publicPem = .usable) (traceId : String)
    (events : List VerifiableEvent) (bundle : EvidenceBundle) :
    ((∃ result, verifyEventChain traceId events (fun _ => .ok publicPem) = .ok result ∧
        ReportsOn publicPem events result.events) ↔ ∀ e ∈ events, e.Readable) ∧
      ((∃ verdict, Verifier.verifyBundle bundle = .ok verdict) ↔ bundle.Readable) :=
  ⟨verifyEventChain_reports_iff hkey traceId events, Verifier.verifyBundle_succeeds⟩

/-- A row whose signature was overwritten with a text that is no hex. -/
def damagedRow : VerifiableEvent where
  traceId := "00000000-0000-0000-0000-000000000001"
  seq := 1
  type := "model_completion"
  payloadHash := "00"
  prevHash := none
  policyVersion := none
  hash := "00"
  signature := "zz"
  alg := algSha256Ed25519V1
  envelope := [("created_at", .str "2025-01-01T00:00:00+00:00")]
  signingKeyId := none

/-- A bundle of the sample event, with such a signature. -/
def damagedBundle : EvidenceBundle :=
  { sampleBundle with events := [{ sampleBundleEvent with signature := "zz" }] }

theorem not_isHex_zz : ¬ (Bytes.fromHex "zz").isSome = true := by
  decide +kernel

theorem not_readable_damagedBundle :
    ¬ @EvidenceBundle.Readable SignatureScheme.transparent damagedBundle := by
  intro h
  have hevent := @EvidenceBundle.Readable.events .transparent _ h _ (List.mem_singleton_self _)
  have hsignature := @BundleEvent.Readable.signature .transparent _ _ hevent rfl
  exact not_isHex_zz (@SignatureReadable.texts .transparent _ _ _ hsignature rfl).2

/-- The row with a signature of nobody, which is hex. -/
def forgedRow : VerifiableEvent := { damagedRow with signature := "00" }

theorem readable_forgedRow : forgedRow.Readable where
  createdAt := rfl
  suite := rfl
  texts := by
    have hhex : IsHex "00" := by
      unfold IsHex
      decide
    exact fun _ => ⟨hhex, hhex⟩

/-- A forged row is reported on. A damaged one after it is not, and neither is the bundle. -/
theorem verifiers_report_sample :
    (∃ result, @verifyEventChain .transparent "trace" [forgedRow] (fun _ => .ok "service") =
        .ok result ∧ @ReportsOn .transparent "service" [forgedRow] result.events) ∧
      (¬ ∃ result, @verifyEventChain .transparent "trace" [forgedRow, damagedRow]
          (fun _ => .ok "service") = .ok result ∧
        @ReportsOn .transparent "service" [forgedRow, damagedRow] result.events) ∧
      ¬ ∃ verdict, @Verifier.verifyBundle .transparent .absent damagedBundle = .ok verdict := by
  have h (events : List VerifiableEvent) :=
    @verifiers_report .transparent .absent "service" rfl "trace" events damagedBundle
  refine ⟨(h [forgedRow]).1.mpr fun e he => ?_, fun hreports => ?_,
    fun hverdict => not_readable_damagedBundle ((h []).2.mp hverdict)⟩
  · rw [List.mem_singleton.mp he]
    exact readable_forgedRow
  · have hreadable := (h [forgedRow, damagedRow]).1.mp hreports damagedRow
      (List.mem_cons_of_mem _ (List.mem_singleton_self _))
    exact not_isHex_zz (hreadable.texts rfl).2

/-- One overwritten signature, and neither verifier reports. -/
theorem damagedRow_raises :
    @verifyEventChain .transparent "trace" [damagedRow] (fun _ => .ok "service") =
        .error .valueError ∧
      @Verifier.verifyBundle .transparent .absent damagedBundle = .error .valueError :=
  ⟨rfl, rfl⟩

end Attest
