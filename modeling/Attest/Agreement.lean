import Attest.Evidence
import Attest.Tamper

/-!
# Replay and the exported bundle

The same rows are verified twice : in the service, by `verifyEventChain`, and by the
auditor, from the bundle that was exported of them. The algorithm of an event is stored
twice too. Replay reads the column and, where it is empty, the envelope; the export
reads the envelope. Of rows that pass every other check, the two verifiers agree exactly
when both copies name the suite on every row, or neither does
(`replayed_iff_exportAccepted_iff`).
-/

namespace Attest

/-! ## The two copies of the algorithm -/

/-- The copy of the algorithm that replay reads. -/
def Event.ColumnSupported (e : Event) : Prop :=
  e.alg = algSha256Ed25519V1 ∨
    e.alg = "" ∧ e.envelope.get "alg" = .str algSha256Ed25519V1

/-- The copy of the algorithm that is exported. -/
def Event.EnvelopeSupported (e : Event) : Prop :=
  e.envelope.get "alg" = .str algSha256Ed25519V1

theorem orElse_empty_eq_iff {alg : JVal} :
    alg.orElse (.str "") = .str algSha256Ed25519V1 ↔ alg = .str algSha256Ed25519V1 := by
  unfold JVal.orElse
  split
  · rfl
  · rename_i hfalse
    constructor
    · intro h
      exact absurd (JVal.str.inj h) (by decide)
    · rintro rfl
      exact absurd rfl hfalse

theorem suite_eq_iff {e : Event} :
    e.verifiable.suite = .str algSha256Ed25519V1 ↔ e.ColumnSupported := by
  by_cases halg : e.alg = ""
  · have hempty : "" ≠ algSha256Ed25519V1 := by decide
    have hsuite : e.verifiable.suite = (e.envelope.get "alg").orElse (.str "") := by
      rw [VerifiableEvent.suite, show e.verifiable.alg = "" from halg]
      rfl
    rw [hsuite, orElse_empty_eq_iff]
    simp [Event.ColumnSupported, halg, hempty]
  · simp [VerifiableEvent.suite, Event.verifiable, Event.ColumnSupported, halg, JVal.orElse,
      JVal.truthy]

section Agreement

variable [SignatureScheme]

/-! ## Export of rows -/

/-- `build_evidence_bundle(db, org_id, trace_id)` of the rows its query returned, which no
batch holds. -/
def exportRows (svc : SigningKeyPair) (db : Db) (orgId : String) (traceId : Uuid)
    (rows : List Event) : Except PyError EvidenceBundle := do
  let replay ← verifyEventChain traceId.str (rows.map Event.verifiable) (resolveKey svc db)
  let serialized ← rows.mapM (serializeEvent db orgId)
  return {
    traceId := traceId.str
    publicKeyPem := svc.publicPem
    allReplayVerified := replay.allVerified
    events := serialized
    batches := []
    batch := none }

/-- `verify_event_chain` accepts the rows. -/
def Replayed (svc : SigningKeyPair) (db : Db) (traceId : Uuid) (rows : List Event) : Prop :=
  ∃ r, verifyEventChain traceId.str (rows.map Event.verifiable) (resolveKey svc db) = .ok r ∧
    r.allVerified = true

/-- `verify_bundle` accepts what is exported of the rows. -/
def ExportAccepted [AnchorVerifier] (svc : SigningKeyPair) (db : Db) (orgId : String)
    (traceId : Uuid) (rows : List Event) : Prop :=
  ∃ bundle, exportRows svc db orgId traceId rows = .ok bundle ∧
    Verifier.verifyBundle bundle = .ok true

/-- The row has the hash of what it states under the suite of this build, and a signature
over it. -/
structure SignedRow (svc : SigningKeyPair) (e : Event) : Prop where
  dated : ∃ createdAt, e.envelope.get? "created_at" = some createdAt
  hash_eq : ∀ createdAt, e.envelope.get? "created_at" = some createdAt →
    e.hash = sha256Hex (buildEnvelope e.traceId.str e.seq e.type e.payloadHash e.prevHash
      e.policyVersion createdAt (.str algSha256Ed25519V1))
  signature_ok : verifyHex svc.publicPem e.hash e.signature = .ok true

/-- The rows are signed in a chain. Nothing is said of the algorithm they name. -/
def SignedRows (svc : SigningKeyPair) (rows : List Event) : Prop :=
  (∀ e ∈ rows, SignedRow svc e) ∧ HashChain.Linked Event.hash Event.prevHash none rows

/-- An export of a trace that no batch holds an event of is the export of its rows. -/
theorem buildEvidenceBundle_nil {svc : SigningKeyPair} {db : Db} {orgId : String} {traceId : Uuid}
    (haccess : ensureTraceAccess db orgId traceId = .ok ())
    (hne : db.eventsForTrace orgId traceId ≠ []) :
    buildEvidenceBundle svc db orgId traceId [] =
      exportRows svc db orgId traceId (db.eventsForTrace orgId traceId) := by
  simp only [buildEvidenceBundle, exportRows, replayTrace, haccess, Except.ok_bind',
    List.isEmpty_iff, hne, if_false]
  rfl

/-! ## What each verifier asks -/

variable {svc : SigningKeyPair} {db : Db} {orgId : String} {traceId : Uuid} {rows : List Event}

/-- A row verifies in replay when it is signed and its column names the suite. -/
theorem rowVerifies_iff {e : Event} :
    RowVerifies e.verifiable svc.publicPem ↔ SignedRow svc e ∧ e.ColumnSupported := by
  constructor
  · rintro ⟨⟨createdAt, hcreated, hhash⟩, hsuite, hsignature⟩
    refine ⟨⟨⟨createdAt, hcreated⟩, ?_, hsignature⟩, suite_eq_iff.mp hsuite⟩
    intro createdAt' hcreated'
    obtain rfl : createdAt = createdAt' := Option.some.inj (hcreated.symm.trans hcreated')
    rw [VerifiableEvent.rebuilt, hsuite] at hhash
    exact hhash
  · rintro ⟨⟨⟨createdAt, hcreated⟩, hhash, hsignature⟩, hcolumn⟩
    have hsuite := suite_eq_iff.mpr hcolumn
    refine ⟨⟨createdAt, hcreated, ?_⟩, hsuite, hsignature⟩
    rw [VerifiableEvent.rebuilt, hsuite]
    exact hhash createdAt hcreated

theorem resolveKey_eq {e : Event} (h : e.signingKeyId = none) :
    resolveKey svc db e.verifiable = .ok svc.publicPem := by
  have hkey : e.verifiable.signingKeyId = none := h
  rw [resolveKey, hkey]

/-- Replay accepts the signed rows whose columns name the suite. -/
theorem replayed_iff (hkeys : ∀ e ∈ rows, e.signingKeyId = none) :
    Replayed svc db traceId rows ↔ SignedRows svc rows ∧ ∀ e ∈ rows, e.ColumnSupported := by
  constructor
  · rintro ⟨r, hr, hall⟩
    obtain ⟨rs, hrs, hr⟩ := Except.bind_eq_ok.mp hr
    obtain rfl := Except.ok.inj hr
    obtain ⟨hrows, hlinked⟩ := verifyRows_all_verified hrs hall
    rw [HashChain.linked_map] at hlinked
    have hrow : ∀ e ∈ rows, SignedRow svc e ∧ e.ColumnSupported := by
      intro e he
      obtain ⟨pem, hpem, hverifies⟩ := hrows e.verifiable (List.mem_map_of_mem he)
      rw [resolveKey_eq (hkeys e he)] at hpem
      obtain rfl := Except.ok.inj hpem
      exact rowVerifies_iff.mp hverifies
    exact ⟨⟨fun e he => (hrow e he).1, hlinked⟩, fun e he => (hrow e he).2⟩
  · rintro ⟨⟨hsigned, hlinked⟩, hcolumns⟩
    have hrows : ∀ x ∈ rows.map Event.verifiable, ∃ pem,
        resolveKey svc db x = .ok pem ∧ RowVerifies x pem := by
      intro x hx
      obtain ⟨e, he, rfl⟩ := List.mem_map.mp hx
      exact ⟨svc.publicPem, resolveKey_eq (hkeys e he),
        rowVerifies_iff.mpr ⟨hsigned e he, hcolumns e he⟩⟩
    obtain ⟨rs, hrs, hall, -⟩ := verifyRows_of_linked hrows (HashChain.linked_map _ |>.mpr hlinked)
    exact ⟨⟨traceId.str, rs.all EventVerifyResult.verified, rs⟩, by simp [verifyEventChain, hrs],
      hall⟩

/-- What an entry takes from its row. -/
structure EntryOf (e : Event) (x : BundleEvent) : Prop where
  hash_eq : x.hash = e.hash
  prevHash_eq : x.prevHash = e.prevHash
  verifies_iff : ∀ svc : SigningKeyPair, Verifier.EventVerifies svc.publicPem x ↔
    SignedRow svc e ∧ e.EnvelopeSupported

/-- A row with a time in its envelope is exported, and verifies in the bundle when it is
signed and its envelope names the suite. -/
theorem serializeEvent_eq_ok {e : Event} {x : BundleEvent}
    (h : serializeEvent db orgId e = .ok x) : EntryOf e x := by
  simp only [serializeEvent, Except.bind_eq_ok, createdAt_eq_ok, Except.pure_eq,
    Except.ok.injEq] at h
  obtain ⟨createdAt, hcreated, rfl⟩ := h
  refine ⟨rfl, rfl, fun svc => ⟨?_, ?_⟩⟩
  · rintro ⟨hhash, halg, hsignature⟩
    refine ⟨⟨⟨createdAt, hcreated⟩, ?_, Verifier.verifyHex_eq_true.mp hsignature⟩, halg⟩
    intro createdAt' hcreated'
    obtain rfl : createdAt = createdAt' := Option.some.inj (hcreated.symm.trans hcreated')
    rw [Verifier.buildEnvelope, halg] at hhash
    exact hhash
  · rintro ⟨⟨-, hhash, hsignature⟩, halg⟩
    refine ⟨?_, halg, Verifier.verifyHex_eq_true.mpr hsignature⟩
    rw [Verifier.buildEnvelope]
    exact (hhash createdAt hcreated).trans (congrArg _ (by rw [← halg]))

theorem SignedRow.serializeEvent {e : Event} (h : SignedRow svc e) :
    ∃ x, serializeEvent db orgId e = .ok x ∧ EntryOf e x := by
  obtain ⟨createdAt, hcreated⟩ := h.dated
  have hok : e.verifiable.createdAt = .ok createdAt := createdAt_eq_ok.mpr hcreated
  have hsome : ∃ x, Attest.serializeEvent db orgId e = .ok x := by
    simp only [Attest.serializeEvent, hok, Except.ok_bind', Except.pure_eq, Except.ok.injEq,
      exists_eq']
  obtain ⟨x, hx⟩ := hsome
  exact ⟨x, hx, serializeEvent_eq_ok hx⟩

/-- Replay reports on a signed row whose envelope names the suite, whatever its column
says. -/
theorem SignedRow.verifySingleEvent {e : Event} (h : SignedRow svc e)
    (henvelope : e.EnvelopeSupported) (expected : Option String) :
    ∃ r, verifySingleEvent e.verifiable svc.publicPem expected = .ok r := by
  obtain ⟨createdAt, hcreated⟩ := h.dated
  have hok : e.verifiable.createdAt = .ok createdAt := createdAt_eq_ok.mpr hcreated
  have hsignature : ∃ b, Attest.checkSignature e.verifiable svc.publicPem = .ok b := by
    by_cases hsuite : e.ColumnSupported
    · exact ⟨true, checkSignature_eq_true.mpr ⟨suite_eq_iff.mpr hsuite, h.signature_ok⟩⟩
    · have halg : e.alg ≠ "" := fun halg => hsuite (Or.inr ⟨halg, henvelope⟩)
      have hname : e.verifiable.suite = .str e.alg := by
        simp [VerifiableEvent.suite, Event.verifiable, JVal.orElse, JVal.truthy, halg]
      have hne : e.alg ≠ algSha256Ed25519V1 := fun h => hsuite (Or.inl h)
      exact ⟨false, by simp [Attest.checkSignature, hname, hne]⟩
  obtain ⟨b, hb⟩ := hsignature
  simp [Attest.verifySingleEvent, hok, hb]

theorem exists_verifyRows : ∀ {rows : List Event} (prevHash : Option String),
    (∀ e ∈ rows, e.signingKeyId = none) → (∀ e ∈ rows, SignedRow svc e) →
      (∀ e ∈ rows, e.EnvelopeSupported) →
        ∃ rs, verifyRows (resolveKey svc db) prevHash (rows.map Event.verifiable) = .ok rs
  | [], _, _, _, _ => ⟨[], rfl⟩
  | e :: es, prevHash, hkeys, hsigned, henvelopes => by
    rw [List.forall_mem_cons] at hkeys hsigned henvelopes
    obtain ⟨r, hr⟩ := hsigned.1.verifySingleEvent henvelopes.1 prevHash
    obtain ⟨rs, hrs⟩ := exists_verifyRows (some e.hash) hkeys.2 hsigned.2 henvelopes.2
    have htail : e.verifiable.hash = e.hash := rfl
    exact ⟨r :: rs, by simp [verifyRows, resolveKey_eq hkeys.1, hr, htail, hrs]⟩

/-- The event of a ledger without other keys is a signed row, and both its copies name the
suite. -/
theorem Event.Signed.signedRow (hideal : SignatureScheme.Ideal) {e : Event} (h : e.Signed svc db)
    (hnodup : (db.signingKeys.map OrgSigningKey.keyId).Nodup) (hkey : e.signingKeyId = none) :
    SignedRow svc e ∧ e.EnvelopeSupported := by
  obtain ⟨pem, hpem, hverifies⟩ := h.rowVerifies hideal hnodup
  rw [resolveKey_eq hkey] at hpem
  obtain rfl := Except.ok.inj hpem
  refine ⟨(rowVerifies_iff.mp hverifies).1, ?_⟩
  rw [Event.EnvelopeSupported, h.envelope_eq]
  rfl

/-- What the column says is no part of the signature. -/
theorem SignedRow.withAlg {e : Event} (h : SignedRow svc e) (alg : String) :
    SignedRow svc { e with alg := alg } :=
  ⟨h.dated, h.hash_eq, h.signature_ok⟩

variable [AnchorVerifier]

/-- The bundle is accepted of signed rows whose envelopes name the suite. -/
theorem exportAccepted_iff (hkeys : ∀ e ∈ rows, e.signingKeyId = none) :
    ExportAccepted svc db orgId traceId rows ↔
      SignedRows svc rows ∧ ∀ e ∈ rows, e.EnvelopeSupported := by
  have hlinks {xs : List BundleEvent} (h : List.Forall₂ EntryOf rows xs) :
      HashChain.Linked Event.hash Event.prevHash none rows ↔
        HashChain.Linked BundleEvent.hash BundleEvent.prevHash none xs :=
    HashChain.linked_iff_of_forall₂ (fun h => ⟨h.hash_eq.symm, h.prevHash_eq.symm⟩) h
  constructor
  · rintro ⟨bundle, hexport, haccepted⟩
    simp only [exportRows, Except.bind_eq_ok, Except.mapM_eq_ok, Except.pure_eq,
      Except.ok.injEq] at hexport
    obtain ⟨r, -, xs, hxs, rfl⟩ := hexport
    have hentries : List.Forall₂ EntryOf rows xs := hxs.imp fun _ _ h => serializeEvent_eq_ok h
    obtain ⟨⟨hverify, hlinked⟩, -⟩ := Verifier.verifyBundle_eq_true.mp haccepted
    have hrow : ∀ e ∈ rows, SignedRow svc e ∧ e.EnvelopeSupported := by
      intro e he
      obtain ⟨x, hx, hentry⟩ := exists_of_forall₂ hentries.flip he
      exact (hentry.verifies_iff svc).mp (hverify x hx)
    exact ⟨⟨fun e he => (hrow e he).1, (hlinks hentries).mpr hlinked⟩, fun e he => (hrow e he).2⟩
  · rintro ⟨⟨hsigned, hlinked⟩, henvelopes⟩
    obtain ⟨rs, hrs⟩ := @exists_verifyRows _ svc db rows none hkeys hsigned henvelopes
    obtain ⟨xs, hxs, hentries⟩ := Except.exists_mapM_eq_ok (R := EntryOf)
      fun e he => @SignedRow.serializeEvent _ svc db orgId e (hsigned e he)
    refine ⟨⟨traceId.str, svc.publicPem, rs.all EventVerifyResult.verified, xs, [], none⟩, ?_, ?_⟩
    · simp [exportRows, verifyEventChain, hrs, hxs]
    · refine Verifier.verifyBundle_eq_true.mpr ⟨⟨?_, (hlinks hentries).mp hlinked⟩, ?_⟩
      · intro x hx
        obtain ⟨e, he, hentry⟩ := exists_of_forall₂ hentries hx
        exact (hentry.verifies_iff svc).mpr ⟨hsigned e he, henvelopes e he⟩
      · simp [Verifier.batchesOf]

/-- Replay of the rows and the bundle exported of them agree exactly when the rows fail
another check, or both copies of the algorithm name the suite on every row, or neither
does. -/
theorem replayed_iff_exportAccepted_iff (hkeys : ∀ e ∈ rows, e.signingKeyId = none) :
    (Replayed svc db traceId rows ↔ ExportAccepted svc db orgId traceId rows) ↔
      (SignedRows svc rows →
        ((∀ e ∈ rows, e.ColumnSupported) ↔ ∀ e ∈ rows, e.EnvelopeSupported)) := by
  rw [replayed_iff hkeys, exportAccepted_iff hkeys]
  exact and_congr_right_iff

end Agreement

/-! ## A ledger of two events -/

theorem replayed_iff_exportAccepted_iff_sample : ∃ (db : Db) (rows : List Event), rows.length = 2 ∧
    ((@Replayed .transparent sampleKey db (Uuid.ofNat 1) rows ↔
        @ExportAccepted .transparent .absent sampleKey db "acme" (Uuid.ofNat 1) rows) ↔
      (@SignedRows .transparent sampleKey rows →
        ((∀ e ∈ rows, e.ColumnSupported) ↔ ∀ e ∈ rows, e.EnvelopeSupported))) := by
  obtain ⟨w, e, e', htwo⟩ := exists_twoEvents
  have hkeys : ∀ x ∈ [e, e'], x.signingKeyId = none := fun x hx =>
    @Event.Signed.keyless .transparent sampleKey w.db x
      (@Sound.signed .transparent sampleKey w.db htwo.sound x (htwo.events ▸ hx)) htwo.signingKeys
  exact ⟨w.db, [e, e'], rfl, @replayed_iff_exportAccepted_iff .transparent sampleKey w.db "acme"
    (Uuid.ofNat 1) [e, e'] .absent hkeys⟩

/-- Once its column was overwritten, an event is refused in replay and accepted from the
bundle. -/
theorem overwritten_alg_disagrees : ∃ (db : Db) (rows : List Event), rows ≠ [] ∧
    (∀ e ∈ rows, e.signingKeyId = none) ∧
      ¬ (@Replayed .transparent sampleKey db (Uuid.ofNat 1) rows ↔
        @ExportAccepted .transparent .absent sampleKey db "acme" (Uuid.ofNat 1) rows) := by
  obtain ⟨w, e, e', htwo⟩ := exists_twoEvents
  have hsigned := @Sound.signed .transparent sampleKey w.db htwo.sound e (by simp [htwo.events])
  have hkey := @Event.Signed.keyless .transparent _ _ _ hsigned htwo.signingKeys
  obtain ⟨hrow, henvelope⟩ := @Event.Signed.signedRow .transparent _ _
    SignatureScheme.ideal_transparent _ hsigned
    (@Sound.keys_nodup .transparent sampleKey w.db htwo.sound) hkey
  have hprev : e.prevHash = none := htwo.prevHash
  have hkeyless : ∀ x ∈ [{ e with alg := "md5" }], x.signingKeyId = none := by simpa using hkey
  refine ⟨w.db, [{ e with alg := "md5" }], List.cons_ne_nil _ _, hkeyless, fun hsame => ?_⟩
  rw [@replayed_iff .transparent _ _ _ _ hkeyless,
    @exportAccepted_iff .transparent _ _ _ _ _ .absent hkeyless] at hsame
  have hrows : @SignedRows .transparent sampleKey [{ e with alg := "md5" }] := by
    refine ⟨?_, hprev, trivial⟩
    simpa using @SignedRow.withAlg .transparent _ _ hrow "md5"
  have henvelopes : ∀ x ∈ [{ e with alg := "md5" }], x.EnvelopeSupported := by
    intro x hx
    obtain rfl := List.mem_singleton.mp hx
    exact henvelope
  obtain ⟨-, hcolumns⟩ := hsame.mpr ⟨hrows, henvelopes⟩
  have hcolumn : "md5" = algSha256Ed25519V1 ∨ "md5" = "" ∧ _ := hcolumns _ List.mem_cons_self
  rcases hcolumn with h | ⟨h, -⟩
  · exact absurd h (by decide)
  · exact absurd h (by decide)

end Attest
