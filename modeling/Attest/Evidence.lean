import Attest.Bundle
import Attest.Sealing

/-!
# Evidence bundles

`buildEvidenceBundle` exports a trace : its events, the batches they were sealed in with
a Merkle proof each, and the service's public key. In every reachable state the export
succeeds, its chain links and its batches verify (`Sound.buildEvidenceBundle`).

The bundle carries one public key and replay asks for the key of each event. So the two
verifiers agree exactly on traces whose events were all signed under the service's key
(`verifyBundle_iff_replay`).
-/

namespace Attest

/-! ## The export -/

/-- `_serialize_event(db, org_id, event)`. -/
def serializeEvent (db : Db) (orgId : String) (e : Event) : Except PyError BundleEvent := do
  let payloadRow := db.getPayload orgId e.payloadHash
  let content := readPayloadContent db orgId e.payloadHash
  let createdAt ← e.verifiable.createdAt
  return {
    id := e.id.str
    traceId := e.traceId.str
    seq := e.seq
    type := e.type
    payloadHash := e.payloadHash
    payload := content
    payloadErased := match payloadRow with
      | some row => row.erasedAt.isSome
      | none => false
    piiRedacted := match payloadRow with
      | some row => row.piiLabels
      | none => []
    prevHash := e.prevHash
    hash := e.hash
    signature := e.signature
    alg := e.envelope.get "alg"
    policyVersion := e.policyVersion
    createdAt := createdAt
    batchId := e.batchId.map Uuid.str }

/-- The proofs of `_serialize_batch`, for the events of the trace. -/
def merkleProofs (ids : List Uuid) (leafHashes traceEventIds : List String) :
    Except PyError (List (String × List String)) := do
  let proofs ← (ids.zipIdx.filter fun p => traceEventIds.contains p.1.str).mapM fun p =>
    (merkleProof leafHashes p.2).map fun proof => (p.1.str, proof)
  return dictOf proofs

/-- `_serialize_batch(db, batch, trace_event_ids)`. -/
def serializeBatch (db : Db) (b : Batch) (traceEventIds : List String) :
    Except PyError BundleBatch := do
  let leafHashes ← batchLeafHashes db b.eventIds
  let proofs ← merkleProofs b.eventIds leafHashes traceEventIds
  return {
    batchId := b.id.str
    root := b.root
    signature := b.signature
    eventIds := b.eventIds.map Uuid.str
    leafHashes := dictOf ((b.eventIds.map Uuid.str).zip leafHashes)
    sealedAt := b.sealedAt
    merkleProofs := proofs
    anchor := (db.anchors.find? fun a => a.batchId = b.id).map fun a =>
      ⟨a.kind, a.token, a.anchoredAt⟩ }

/-- What `batches_for_event_ids(db, event_ids)` returns : the batches the events name,
once each and in any order. -/
def BatchesForEvents (db : Db) (events : List Event) (batches : List Batch) : Prop :=
  List.Perm batches (db.batches.filter fun b => events.any fun e => e.batchId = some b.id)

/-- `batch_data[0] if len(batch_data) == 1 else None`. -/
def soleBatch : List BundleBatch → Option BundleBatch
  | [b] => some b
  | _ => none

/-- `build_evidence_bundle(db, org_id, trace_id)`, with the batches its query returned. -/
def buildEvidenceBundle [SignatureScheme] (svc : SigningKeyPair) (db : Db) (orgId : String)
    (traceId : Uuid) (batches : List Batch) : Except PyError EvidenceBundle := do
  ensureTraceAccess db orgId traceId
  let events := db.eventsForTrace orgId traceId
  if events.isEmpty then .error (.traceNotFound ("trace not found: " ++ traceId.str))
  else
    let replay ← replayTrace svc db orgId traceId
    let serialized ← events.mapM (serializeEvent db orgId)
    let traceEventIds := events.map fun e => e.id.str
    let batchData ← batches.mapM fun b => serializeBatch db b traceEventIds
    return {
      traceId := traceId.str
      publicKeyPem := svc.publicPem
      allReplayVerified := replay.allVerified
      events := serialized
      batches := batchData
      batch := soleBatch batchData }

/-! ## Exported events -/

/-- The entry holds what the row's envelope was made of. -/
structure Exports (e : Event) (x : BundleEvent) : Prop where
  id_eq : x.id = e.id.str
  hash_eq : x.hash = e.hash
  prevHash_eq : x.prevHash = e.prevHash
  signature_eq : x.signature = e.signature
  alg_eq : x.alg = .str defaultAlgorithm
  envelope_eq : Verifier.buildEnvelope x = e.envelope

/-- The event was signed under the service's key, as its own or its organisation's. -/
def Event.UnderServiceKey [SignatureScheme] (svc : SigningKeyPair) (db : Db) (e : Event) : Prop :=
  ∀ keyId, e.signingKeyId = some keyId →
    ∀ k ∈ db.signingKeys, k.keyId = keyId → k.publicPem = svc.publicPem

/-- A proof in a batch is the one of the event at its place. -/
theorem merkleProofs_eq_ok {ids : List Uuid} {leaves : List Bytes} {traceEventIds : List String} :
    ∃ proofs, merkleProofs ids (leaves.map Bytes.hex) traceEventIds = .ok proofs ∧
      ∀ p ∈ proofs, ∃ id i, ids[i]? = some id ∧ id.str ∈ traceEventIds ∧ p.1 = id.str ∧
        merkleProof (leaves.map Bytes.hex) i = .ok p.2 := by
  obtain ⟨proofs, hproofs, hall⟩ := Except.exists_mapM_eq_ok
    (R := fun (p : Uuid × Nat) (q : String × List String) => q.1 = p.1.str ∧
      merkleProof (leaves.map Bytes.hex) p.2 = .ok q.2)
    (f := fun p => (merkleProof (leaves.map Bytes.hex) p.2).map fun proof => (p.1.str, proof))
    fun p (_ : p ∈ ids.zipIdx.filter fun p => traceEventIds.contains p.1.str) => by
      rw [merkleProof_hex]
      exact ⟨_, rfl, rfl, rfl⟩
  refine ⟨dictOf proofs, by simp only [merkleProofs, hproofs]; rfl, ?_⟩
  intro q hq
  obtain ⟨⟨id, i⟩, hp, hq₁, hq₂⟩ := exists_of_forall₂ hall (mem_of_mem_dictOf hq)
  obtain ⟨hzip, hin⟩ := List.mem_filter.mp hp
  exact ⟨id, i, List.mk_mem_zipIdx_iff_getElem?.mp hzip, by simpa using hin, hq₁, hq₂⟩

/-- The place of an id that occurs once. -/
theorem idxOf?_map_str {ids : List Uuid} (hnodup : ids.Nodup) {id : Uuid} {i : Nat}
    (h : ids[i]? = some id) : (ids.map Uuid.str).idxOf? id.str = some i := by
  have hnodup' : (ids.map Uuid.str).Nodup := hnodup.map Uuid.str_injective
  obtain ⟨hi, hget⟩ := List.getElem?_eq_some_iff.mp h
  rw [List.idxOf?_eq_some_iff]
  refine ⟨by simpa using hi, by simp [hget], ?_⟩
  intro j hj hsame
  have hj' : j < ids.length := hj.trans hi
  have hi'' : i < (ids.map Uuid.str).length := by simpa using hi
  have hj'' : j < (ids.map Uuid.str).length := by simpa using hj'
  have heq : (ids.map Uuid.str)[j] = (ids.map Uuid.str)[i] := by
    rw [hsame]
    simp [hget]
  exact hj.ne ((hnodup'.getElem_inj_iff).mp heq)

/-- The entry of an event under its id. -/
theorem eventById_of_exports {db : Db} (hnodup : (db.events.map Event.id).Nodup)
    {events : List Event} {xs : List BundleEvent} (hmem : ∀ e ∈ events, e ∈ db.events)
    (h : List.Forall₂ Exports events xs) {e : Event} (he : e ∈ events) :
    ∃ x, Verifier.eventById xs e.id.str = some x ∧ x.hash = e.hash := by
  obtain ⟨x, hx⟩ : ∃ x, Verifier.eventById xs e.id.str = some x := by
    rw [← Option.isSome_iff_exists, Verifier.eventById, List.find?_isSome]
    obtain ⟨y, hy, hexports⟩ := exists_of_forall₂ h.flip he
    exact ⟨y, by simpa using hy, by simpa using hexports.id_eq⟩
  refine ⟨x, hx, ?_⟩
  have hid : x.id = e.id.str := by simpa using List.find?_some hx
  have hin : x ∈ xs := by simpa using List.mem_of_find?_eq_some hx
  obtain ⟨e', he', hexports⟩ := exists_of_forall₂ h hin
  have hsame : e'.id = e.id := Uuid.str_injective (hexports.id_eq.symm.trans hid)
  rw [hexports.hash_eq, List.inj_on_of_nodup_map hnodup (hmem e' he') (hmem e he) hsame]

section Export

variable [SignatureScheme] {svc : SigningKeyPair} {db : Db}

theorem Event.Signed.serializeEvent {e : Event} (h : e.Signed svc db) (orgId : String) :
    ∃ x, serializeEvent db orgId e = .ok x ∧ Exports e x := by
  have hcreated : e.envelope.get? "created_at" = some (.str e.createdAt) := by
    rw [h.envelope_eq]
    simp [buildEnvelope, Dict.get?]
  have halg : e.envelope.get "alg" = .str defaultAlgorithm := by
    rw [h.envelope_eq]
    simp [buildEnvelope, Dict.get, Dict.getD, Dict.get?]
  have hok : e.verifiable.createdAt = .ok (.str e.createdAt) := createdAt_eq_ok.mpr hcreated
  simp only [Attest.serializeEvent, hok, Except.ok_bind', Except.pure_eq, Except.ok.injEq,
    exists_eq_left']
  refine ⟨rfl, rfl, rfl, rfl, halg, ?_⟩
  rw [Verifier.buildEnvelope, halg, h.envelope_eq]

/-- The pair a row's key id names has the service's public key when the row says so. -/
theorem Event.underServiceKey_iff {e : Event} {pair : SigningKeyPair}
    (hnodup : (db.signingKeys.map OrgSigningKey.keyId).Nodup)
    (hpair : keyPairOf svc db e.signingKeyId pair) :
    e.UnderServiceKey svc db ↔ pair.publicPem = svc.publicPem := by
  unfold Event.UnderServiceKey
  cases hid : e.signingKeyId with
  | none =>
    rw [hid] at hpair
    obtain rfl : pair = svc := hpair
    simp
  | some keyId =>
    rw [hid] at hpair
    obtain ⟨k, hk, rfl, -, hpub⟩ := hpair
    constructor
    · intro h
      rw [← hpub]
      exact h k.keyId rfl k hk rfl
    · rintro h keyId hkeyId k' hk' rfl
      have hsame : k' = k :=
        List.inj_on_of_nodup_map hnodup hk' hk (Option.some.inj hkeyId).symm
      rw [hsame, hpub, h]

/-- An exported event verifies under the bundled key when it was signed under it. -/
theorem Exports.eventVerifies_iff (hideal : SignatureScheme.Ideal)
    (hnodup : (db.signingKeys.map OrgSigningKey.keyId).Nodup) {e : Event} {x : BundleEvent}
    (h : Exports e x) (hs : e.Signed svc db) :
    Verifier.EventVerifies svc.publicPem x ↔ e.UnderServiceKey svc db := by
  obtain ⟨pair, hpair, hsig⟩ := hs.signature_eq
  rw [Event.underServiceKey_iff hnodup hpair]
  have hhash : x.hash = sha256Hex e.envelope := by rw [h.hash_eq, hs.hash_eq]
  constructor
  · intro hv
    have hverify := Verifier.verifyHex_eq_true.mp hv.signature_ok
    rw [h.signature_eq, hsig, hhash] at hverify
    obtain ⟨m, -, hsign⟩ := eq_sign_of_verifyHex hideal svc.isEd25519 hverify
    rw [Bytes.fromHex_hex, Option.some.injEq] at hsign
    exact (hideal.sign_inj pair.isEd25519 svc.isEd25519 hsign).1
  · intro hpub
    refine ⟨by rw [hhash, h.envelope_eq], h.alg_eq, ?_⟩
    rw [Verifier.verifyHex_eq_true, h.signature_eq, hsig, hhash, ← hpub]
    exact verifyHex_sign hideal pair.isEd25519 _

/-! ## Exported batches -/

/-- The leaf at an event's place is its hash. -/
theorem Sound.leaf_eq (hsound : Sound svc db) {ids : List Uuid} {leaves : List Bytes}
    (hleaves : batchLeafHashes db ids = .ok (leaves.map Bytes.hex)) {i : Nat} {e : Event}
    (hplace : ids[i]? = some e.id) (he : e ∈ db.events) :
    leaves[i]? = some (sha256 (canonicalBytes e.envelope)) := by
  have hall := batchLeafHashes_eq_ok.mp hleaves
  obtain ⟨hi, hid⟩ := List.getElem?_eq_some_iff.mp hplace
  have hi' : i < (leaves.map Bytes.hex).length := by rwa [← hall.length_eq]
  obtain ⟨e', hfind, hhash⟩ := hall.get hi hi'
  have hid' : e'.id = e.id := by
    rw [← hid]
    simpa using List.find?_some hfind
  have hsame : e' = e :=
    List.inj_on_of_nodup_map hsound.ids_nodup (List.mem_of_find?_eq_some hfind) he hid'
  have hlt : i < leaves.length := by simpa using hi'
  have hhex : leaves[i].hex = sha256Hex e.envelope := by
    rw [← (hsound.signed e he).hash_eq, ← hsame, hhash]
    simp
  rw [List.getElem?_eq_getElem hlt, Bytes.hex_injective hhex]

variable [AnchorVerifier]

/-- A rooted batch is exported, and its entry verifies. -/
theorem Batch.Rooted.serializeBatch (hideal : SignatureScheme.Ideal) (hsound : Sound svc db)
    (hsealed : Sealed svc db) {b : Batch} (hb : b ∈ db.batches) {events : List Event}
    {xs : List BundleEvent} (hmem : ∀ e ∈ events, e ∈ db.events)
    (hexports : List.Forall₂ Exports events xs) :
    ∃ y, serializeBatch db b (events.map fun e => e.id.str) = .ok y ∧
      Verifier.BatchVerifies svc.publicPem xs y := by
  have hrooted := hsealed.rooted b hb
  obtain ⟨leaves, -, hleaves, hroot⟩ := hrooted.rooted
  obtain ⟨proofs, hproofs, hall⟩ := @merkleProofs_eq_ok b.eventIds leaves
    (events.map fun e => e.id.str)
  simp only [Attest.serializeBatch, hleaves, hproofs, Except.ok_bind', Except.pure_eq,
    Except.ok.injEq, exists_eq_left']
  refine ⟨?_, ?_, ?_⟩
  · intro p hp
    obtain ⟨id, i, hget, htrace, hid, hproof⟩ := hall p hp
    obtain ⟨e, he, hstr⟩ := List.mem_map.mp htrace
    obtain ⟨x, hx, hhash⟩ := eventById_of_exports hsound.ids_nodup hmem hexports he
    have hplace : b.eventIds[i]? = some e.id := by rw [hget, Uuid.str_injective hstr]
    have hleaf := hsound.leaf_eq hleaves hplace (hmem e he)
    have hindex : (b.eventIds.map Uuid.str).idxOf? p.1 = some i := by
      rw [hid]
      exact idxOf?_map_str hrooted.ids_nodup hget
    refine (Verifier.verifyProof_eq hindex (?_ : _ = some e.hash)).trans ?_
    · rw [Verifier.leafHash, hid, ← hstr, hx, ← hhash]
    · rw [(hsound.signed e (hmem e he)).hash_eq]
      exact verifyMerkleProof_merkleProof hleaf hroot hproof
  · exact Verifier.verifyHex_eq_true.mpr (verifyHex_of_signHex hideal hrooted.signed)
  · simp [Verifier.anchorOk, hsealed.anchors_nil]

/-- In a sound database a trace with events is exported, to a bundle that is accepted
when the events were signed under the service's key. -/
theorem Sound.buildEvidenceBundle (hideal : SignatureScheme.Ideal) (hsound : Sound svc db)
    (hsealed : Sealed svc db) {t : Trace} (ht : t ∈ db.traces)
    (hne : db.eventsForTrace t.orgId t.id ≠ []) {batches : List Batch}
    (hbatches : BatchesForEvents db (db.eventsForTrace t.orgId t.id) batches) :
    ∃ bundle, buildEvidenceBundle svc db t.orgId t.id batches = .ok bundle ∧
      (Verifier.verifyBundle bundle = .ok true ↔
        ∀ e ∈ db.eventsForTrace t.orgId t.id, e.UnderServiceKey svc db) := by
  obtain ⟨r, hr, -, -, -⟩ := hsound.replayTrace hideal ht hne
  have hevents := hsound.eventsForTrace ht
  have hmem : ∀ e ∈ db.eventsForTrace t.orgId t.id, e ∈ db.events := by
    rw [hevents]
    exact fun e he => (mem_chain.mp he).1
  obtain ⟨xs, hxs, hexports⟩ := Except.exists_mapM_eq_ok (R := Exports)
    fun e he => (hsound.signed e (hmem e he)).serializeEvent t.orgId
  obtain ⟨ys, hys, hverifies⟩ := Except.exists_mapM_eq_ok
    (R := fun (_ : Batch) y => Verifier.BatchVerifies svc.publicPem xs y)
    fun b (hb : b ∈ batches) => Batch.Rooted.serializeBatch hideal hsound hsealed
      (List.mem_filter.mp (hbatches.mem_iff.mp hb)).1 hmem hexports
  have haccess : ensureTraceAccess db t.orgId t.id = .ok () :=
    ensureTraceAccess_eq_ok.mpr ⟨t, hsound.getTraceById ht, rfl⟩
  refine ⟨⟨t.id.str, svc.publicPem, r.allVerified, xs, ys, soleBatch ys⟩, ?_, ?_⟩
  · simp only [Attest.buildEvidenceBundle, haccess, Except.ok_bind', List.isEmpty_iff, hne,
      if_false, hr, hxs, hys, Except.pure_eq]
  · rw [Verifier.verifyBundle_eq_true]
    have hlinked : HashChain.Linked BundleEvent.hash BundleEvent.prevHash none xs := by
      rw [hevents] at hexports
      refine (HashChain.linked_iff_of_forall₂ ?_ hexports).mp (hsound.chained t.id).linked
      exact fun h => ⟨h.hash_eq.symm, h.prevHash_eq.symm⟩
    have hall : ∀ y ∈ ys, Verifier.BatchVerifies svc.publicPem xs y := by
      intro y hy
      obtain ⟨-, -, h⟩ := exists_of_forall₂ hverifies hy
      exact h
    constructor
    · rintro ⟨⟨hx, -⟩, -⟩ e he
      obtain ⟨x, hmemx, hex⟩ := exists_of_forall₂ hexports.flip he
      exact (hex.eventVerifies_iff hideal hsound.keys_nodup (hsound.signed e (hmem e he))).mp
        (hx x hmemx)
    · intro hkeys
      refine ⟨⟨?_, hlinked⟩, ?_⟩
      · intro x hx
        obtain ⟨e, he, hex⟩ := exists_of_forall₂ hexports hx
        exact (hex.eventVerifies_iff hideal hsound.keys_nodup (hsound.signed e (hmem e he))).mpr
          (hkeys e he)
      · intro y hy
        unfold Verifier.batchesOf at hy
        split at hy
        · rename_i hempty
          obtain rfl : ys = [] := by simpa using hempty
          simp [soleBatch] at hy
        · exact hall y hy

variable [KeyWrapping] [PyUnicode]

/-- The bundle of a trace and its replay agree exactly when every event of it was signed
under the service's key. -/
theorem verifyBundle_iff_replay (hideal : SignatureScheme.Ideal) {w : World}
    (h : (ledger svc).Reachable w) {t : Trace} (ht : t ∈ w.db.traces)
    (hne : w.db.eventsForTrace t.orgId t.id ≠ []) {batches : List Batch}
    (hbatches : BatchesForEvents w.db (w.db.eventsForTrace t.orgId t.id) batches) :
    ((∃ bundle, buildEvidenceBundle svc w.db t.orgId t.id batches = .ok bundle ∧
        Verifier.verifyBundle bundle = .ok true) ↔
      ∃ r, replayTrace svc w.db t.orgId t.id = .ok r ∧ r.allVerified = true) ↔
    ∀ e ∈ w.db.eventsForTrace t.orgId t.id, e.UnderServiceKey svc w.db := by
  have hsound := sound_of_reachable h
  obtain ⟨bundle, hbuild, hverify⟩ := hsound.buildEvidenceBundle hideal (sealed_of_reachable h) ht
    hne hbatches
  obtain ⟨r, hr, hall, -, -⟩ := hsound.replayTrace hideal ht hne
  have hreplay : ∃ r, replayTrace svc w.db t.orgId t.id = .ok r ∧ r.allVerified = true :=
    ⟨r, hr, hall⟩
  rw [← hverify, iff_true_right hreplay, hbuild]
  simp

end Export

/-! ## A trace under an organisation's key -/

theorem verifyBundle_iff_replay_sample : ∃ (w : World) (t : Trace) (batches : List Batch),
    (w.db.eventsForTrace t.orgId t.id).length = 2 ∧
    (((∃ bundle, @buildEvidenceBundle .transparent sampleKey w.db t.orgId t.id
      batches = .ok bundle ∧
        @Verifier.verifyBundle .transparent .absent bundle = .ok true) ↔
      ∃ r, @replayTrace .transparent sampleKey w.db t.orgId t.id = .ok r ∧ r.allVerified = true) ↔
    ∀ e ∈ w.db.eventsForTrace t.orgId t.id,
      @Event.UnderServiceKey .transparent sampleKey w.db e) := by
  obtain ⟨w, e, e', htwo⟩ := exists_twoEvents
  obtain ⟨t, ht, -, hevents⟩ := htwo.exists_trace
  exact ⟨w, t, _, by rw [hevents]; rfl,
    @verifyBundle_iff_replay .transparent sampleKey .absent .lenient .ascii
      SignatureScheme.ideal_transparent w htwo.reach t ht (by simp [hevents]) _ (List.Perm.refl _)⟩

def sampleOrgKey : @SigningKeyPair SignatureScheme.transparent :=
  @SigningKeyPair.mk SignatureScheme.transparent "acme key" rfl

/-- After an organisation got a key of its own, its events name the key. -/
theorem exists_orgKey_sample : ∃ db₁ db out,
    @provisionManagedSigningKey .transparent sampleBlank "acme" sampleOrgKey (Uuid.ofNat 3) 0 =
      .ok db₁ ∧
    @recordEvent .transparent .lenient .ascii sampleKey db₁ sampleArgs sampleFresh = .ok (db, out) ∧
      db.events.map Event.signingKeyId = [some (Uuid.ofNat 3)] := by
  have h : (@provisionManagedSigningKey .transparent sampleBlank "acme" sampleOrgKey
    (Uuid.ofNat 3) 0
      >>= fun db₁ => @recordEvent .transparent .lenient .ascii sampleKey db₁ sampleArgs sampleFresh
      >>= fun r => require (r.1.events.map Event.signingKeyId == [some (Uuid.ofNat 3)])
        .valueError).succeeds = true := by
    decide +kernel
  simp only [Except.succeeds_bind] at h
  obtain ⟨db₁, hprov, ⟨db, out⟩, hrecord, hkeys⟩ := h
  obtain ⟨_, hrequire⟩ := Except.succeeds_iff.mp hkeys
  exact ⟨db₁, db, out, hprov, hrecord, by simpa using hrequire⟩

/-- Its trace replays, and the bundle of it is refused. -/
theorem orgKey_bundle_refused : ∃ (w : World) (t : Trace) (batches : List Batch),
    (@ledger .transparent .lenient .ascii sampleKey).Reachable w ∧ t ∈ w.db.traces ∧
      w.db.eventsForTrace t.orgId t.id ≠ [] ∧
      BatchesForEvents w.db (w.db.eventsForTrace t.orgId t.id) batches ∧
      (∃ r, @replayTrace .transparent sampleKey w.db t.orgId t.id = .ok r ∧
        r.allVerified = true) ∧
      ∃ bundle, @buildEvidenceBundle .transparent sampleKey w.db t.orgId t.id batches = .ok bundle ∧
        @Verifier.verifyBundle .transparent .absent bundle ≠ .ok true := by
  obtain ⟨db₁, db, out, hprov, hrecord, hkeys⟩ := exists_orgKey_sample
  have hreach : (@ledger .transparent .lenient .ascii sampleKey).Reachable ⟨db, []⟩ :=
    ⟨⟨sampleBlank, []⟩, blank_sampleBlank, .head (@Step.provision .transparent .lenient .ascii _ _ _
      _ _ _ _ _ hprov) (@run_recordEvent .transparent _ .lenient .ascii _ _ _ _ _ hrecord [])⟩
  have hsound := @sound_of_reachable .transparent sampleKey .lenient .ascii _ hreach
  have hsealed := @sealed_of_reachable .transparent sampleKey .lenient .ascii _ hreach
  obtain ⟨e, he, hkey⟩ : ∃ e ∈ db.events, e.signingKeyId = some (Uuid.ofNat 3) := by
    rw [← List.mem_map, hkeys]
    exact List.mem_singleton.mpr rfl
  obtain ⟨t, ht, hmem⟩ := @Sound.exists_trace .transparent sampleKey db hsound e he
  have hne := List.ne_nil_of_mem hmem
  obtain ⟨bundle, hbuild, hverify⟩ := @Sound.buildEvidenceBundle .transparent sampleKey db .absent
    SignatureScheme.ideal_transparent hsound hsealed t ht hne _ (List.Perm.refl _)
  obtain ⟨r, hr, hall, -, -⟩ := @Sound.replayTrace .transparent sampleKey db
    SignatureScheme.ideal_transparent hsound t ht hne
  refine ⟨⟨db, []⟩, t, _, hreach, ht, hne, List.Perm.refl _, ⟨r, hr, hall⟩, bundle, hbuild, ?_⟩
  intro haccepted
  obtain ⟨k, hk, hid, hpub⟩ : ∃ k ∈ db.signingKeys, k.keyId = Uuid.ofNat 3 ∧
      k.publicPem = "acme key" := by
    obtain ⟨-, hdb₁⟩ := @provisionManagedSigningKey_eq_ok .transparent _ _ _ _ _ _ hprov
    obtain ⟨_, _, _, _, -, -, -, hdb⟩ :=
      @recordEvent_eq_ok .transparent .lenient .ascii _ _ _ _ _ _ hrecord
    refine ⟨⟨Uuid.ofNat 3, "acme", defaultAlgorithm, "acme key", some "acme key", "active", 0⟩, ?_,
      rfl, rfl⟩
    rw [hdb, hdb₁]
    exact List.mem_append_right _ (List.mem_singleton.mpr rfl)
  have := hverify.mp haccepted e hmem _ hkey k hk hid
  rw [hpub] at this
  exact absurd this (by decide)

end Attest
