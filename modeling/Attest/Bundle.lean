import Attest.Batching
import Attest.Envelope
import Attest.Lib.HashChain

/-!
# The standalone verifier

`Verifier.verifyBundle` is what an auditor runs on an exported bundle : it rebuilds and
checks every event under the one public key the bundle carries, follows the chain, and
checks the Merkle proofs, the root signatures and the anchors of the batches
(`Verifier.verifyBundle_eq_true`).

It does not read the content of an event, so a bundle it accepts is accepted with any
other content (`Verifier.verifyBundle_congr`), and only a bundle without events binds
what it shows (`Verifier.contentBound_iff`).
-/

namespace Attest

/-! ## Bundles -/

/-- An entry of `bundle["events"]`. -/
structure BundleEvent where
  id : String
  traceId : String
  seq : Int
  type : String
  payloadHash : String
  payload : Option Dict
  payloadErased : Bool
  piiRedacted : List String
  prevHash : Option String
  hash : String
  signature : String
  alg : JVal
  policyVersion : Option String
  createdAt : JVal
  batchId : Option String
deriving DecidableEq

structure BundleAnchor where
  kind : String
  token : String
  anchoredAt : String
deriving DecidableEq

/-- An entry of `bundle["batches"]`. -/
structure BundleBatch where
  batchId : String
  root : String
  signature : String
  eventIds : List String
  leafHashes : List (String × String)
  sealedAt : String
  merkleProofs : List (String × List String)
  anchor : Option BundleAnchor
deriving DecidableEq

/-- The bundle, as far as it is verified. -/
structure EvidenceBundle where
  traceId : String
  publicKeyPem : String
  allReplayVerified : Bool
  events : List BundleEvent
  batches : List BundleBatch
  batch : Option BundleBatch
deriving DecidableEq

/-- What `verify_anchor` finds of a token. -/
inductive AnchorStatus where
  | trusted
  | bound
  | skipped
  | failed
deriving DecidableEq

/-- The library for timestamp tokens : the status of a token for a root. -/
class AnchorVerifier where
  verifyAnchor : String → String → AnchorStatus

/-- The library is not installed. -/
@[reducible] def AnchorVerifier.absent : AnchorVerifier := ⟨fun _ _ => .skipped⟩

namespace Verifier

/-- `d.get(key)` of a dictionary of texts. -/
def lookup {α : Type} (d : List (String × α)) (key : String) : Option α :=
  (d.find? fun item => item.1 = key).map Prod.snd

/-- `build_envelope(event)`. -/
def buildEnvelope (e : BundleEvent) : Dict :=
  Attest.buildEnvelope e.traceId e.seq e.type e.payloadHash e.prevHash e.policyVersion e.createdAt
    e.alg

/-- `event_by_id`, where the last event of an id counts. -/
def eventById (events : List BundleEvent) (id : String) : Option BundleEvent :=
  events.reverse.find? fun e => e.id = id

/-- The hash a proof of `eid` starts from. -/
def leafHash (events : List BundleEvent) (b : BundleBatch) (eid : String) : Option String :=
  match eventById events eid with
  | some e => some e.hash
  | none => lookup b.leafHashes eid

/-- One of the Merkle proofs of a batch. -/
def verifyProof (events : List BundleEvent) (b : BundleBatch) (p : String × List String) :
    Except PyError Bool :=
  match b.eventIds.idxOf? p.1, leafHash events b p.1 with
  | some index, some hash => verifyMerkleProof hash index p.2 b.root
  | _, _ => .ok false

theorem verifyProof_eq {events : List BundleEvent} {b : BundleBatch} {p : String × List String}
    {index : Nat} {hash : String} (hindex : b.eventIds.idxOf? p.1 = some index)
    (hhash : leafHash events b p.1 = some hash) :
    verifyProof events b p = verifyMerkleProof hash index p.2 b.root := by
  simp only [verifyProof, hindex, hhash]

section Verify

variable [SignatureScheme]

/-- `verify_hex(public_pem, message_hex, signature_hex)` of the verifier, which refuses a
key of another type where the service raises. -/
def verifyHex (publicPem messageHex signatureHex : String) : Except PyError Bool :=
  match SignatureScheme.publicKind publicPem with
  | .invalid => .error .valueError
  | .other => .ok false
  | .usable => do
    let signature ← fromHex signatureHex
    let message ← fromHex messageHex
    return SignatureScheme.verify publicPem message signature

/-- `alg_ok and verify_hex(..)`. -/
def checkSignature (publicPem : String) (e : BundleEvent) : Except PyError Bool := do
  let algOk ← isSupported e.alg
  if algOk then verifyHex publicPem e.hash e.signature else .ok false

/-- The loop over the events, after one that left `prevHash`. -/
def verifyEvents (publicPem : String) :
    Option String → List BundleEvent → Except PyError Bool
  | _, [] => .ok true
  | prevHash, e :: es => do
    let hashOk := sha256Hex (buildEnvelope e) == e.hash
    let sigOk ← checkSignature publicPem e
    let chainOk := e.prevHash == prevHash
    let rest ← verifyEvents publicPem (some e.hash) es
    return hashOk && sigOk && chainOk && rest

/-- `anchor and anchor.get("token")`, and its status. -/
def anchorOk [AnchorVerifier] (b : BundleBatch) : Bool :=
  match b.anchor with
  | none => true
  | some a => a.token == "" || AnchorVerifier.verifyAnchor a.token b.root != .failed

/-- One round of the loop over the batches. -/
def verifyBatch [AnchorVerifier] (publicPem : String) (events : List BundleEvent)
    (b : BundleBatch) : Except PyError Bool := do
  let proofs ← b.merkleProofs.mapM (verifyProof events b)
  let sigOk ← verifyHex publicPem b.root b.signature
  return proofs.all id && sigOk && anchorOk b

/-- `bundle.get("batches") or []`, and the single batch where there is none. -/
def batchesOf (bundle : EvidenceBundle) : List BundleBatch :=
  if bundle.batches.isEmpty then bundle.batch.toList else bundle.batches

/-- `verify_bundle(bundle)`. -/
def verifyBundle [AnchorVerifier] (bundle : EvidenceBundle) : Except PyError Bool := do
  let eventsOk ← verifyEvents bundle.publicKeyPem none bundle.events
  let batches ← (batchesOf bundle).mapM (verifyBatch bundle.publicKeyPem bundle.events)
  return eventsOk && batches.all id

/-! ## What an accepted bundle says -/

/-- The event is what its fields hash to, signed under `publicPem`. -/
structure EventVerifies (publicPem : String) (e : BundleEvent) : Prop where
  hash_eq : e.hash = sha256Hex (buildEnvelope e)
  alg_eq : e.alg = .str algSha256Ed25519V1
  signature_ok : verifyHex publicPem e.hash e.signature = .ok true

/-- Proofs, root signature and anchor of the batch hold. -/
structure BatchVerifies [AnchorVerifier] (publicPem : String) (events : List BundleEvent)
    (b : BundleBatch) : Prop where
  proofs_ok : ∀ p ∈ b.merkleProofs, verifyProof events b p = .ok true
  signature_ok : verifyHex publicPem b.root b.signature = .ok true
  anchor_ok : anchorOk b = true

theorem verifyHex_eq_true {publicPem messageHex signatureHex : String} :
    verifyHex publicPem messageHex signatureHex = .ok true ↔
      Attest.verifyHex publicPem messageHex signatureHex = .ok true := by
  rw [Attest.verifyHex_eq_ok]
  unfold verifyHex
  cases SignatureScheme.publicKind publicPem with
  | usable =>
    simp only [Except.bind_eq_ok, fromHex_eq_ok, Except.pure_eq, Except.ok.injEq, true_and]
    constructor
    · rintro ⟨s, hs, m, hm, hv⟩
      exact ⟨s, m, hs, hm, hv⟩
    · rintro ⟨s, m, hs, hm, hv⟩
      exact ⟨s, hs, m, hm, hv⟩
  | other => simp
  | invalid => simp

theorem checkSignature_eq_true {publicPem : String} {e : BundleEvent} :
    checkSignature publicPem e = .ok true ↔
      e.alg = .str algSha256Ed25519V1 ∧ verifyHex publicPem e.hash e.signature = .ok true := by
  simp only [checkSignature, Except.bind_eq_ok]
  constructor
  · rintro ⟨algOk, halg, hsig⟩
    cases algOk with
    | false => simp at hsig
    | true => exact ⟨isSupported_eq_true.mp halg, by simpa using hsig⟩
  · rintro ⟨halg, hsig⟩
    exact ⟨true, isSupported_eq_true.mpr halg, by simpa using hsig⟩

/-- The events verify when each does, in a chain. -/
theorem verifyEvents_eq_true {publicPem : String} : ∀ {prevHash : Option String}
    {es : List BundleEvent}, verifyEvents publicPem prevHash es = .ok true ↔
      (∀ e ∈ es, EventVerifies publicPem e) ∧
        HashChain.Linked BundleEvent.hash BundleEvent.prevHash prevHash es
  | _, [] => by simp [verifyEvents]
  | prevHash, e :: es => by
    rw [List.forall_mem_cons, HashChain.linked_cons]
    simp only [verifyEvents, Except.bind_eq_ok, Except.pure_eq, Except.ok.injEq,
      Bool.and_eq_true, beq_iff_eq]
    constructor
    · rintro ⟨sigOk, hsig, rest, hrest, ⟨⟨hhash, rfl⟩, hprev⟩, rfl⟩
      obtain ⟨halg, hsignature⟩ := checkSignature_eq_true.mp hsig
      obtain ⟨hes, hlinked⟩ := verifyEvents_eq_true.mp hrest
      exact ⟨⟨⟨hhash.symm, halg, hsignature⟩, hes⟩, hprev, hlinked⟩
    · rintro ⟨⟨he, hes⟩, hprev, hlinked⟩
      exact ⟨true, checkSignature_eq_true.mpr ⟨he.alg_eq, he.signature_ok⟩, true,
        verifyEvents_eq_true.mpr ⟨hes, hlinked⟩, ⟨⟨he.hash_eq.symm, rfl⟩, hprev⟩, rfl⟩

variable [AnchorVerifier]

theorem verifyBatch_eq_true {publicPem : String} {events : List BundleEvent} {b : BundleBatch} :
    verifyBatch publicPem events b = .ok true ↔ BatchVerifies publicPem events b := by
  simp only [verifyBatch, Except.bind_eq_ok, Except.pure_eq, Except.ok.injEq, Bool.and_eq_true]
  constructor
  · rintro ⟨proofs, hproofs, sigOk, hsig, ⟨hall, rfl⟩, hanchor⟩
    exact ⟨Except.all_mapM_eq_true.mp ⟨proofs, hproofs, hall⟩, hsig, hanchor⟩
  · rintro ⟨hproofs, hsig, hanchor⟩
    obtain ⟨rs, hrs, hall⟩ := Except.all_mapM_eq_true.mpr hproofs
    exact ⟨rs, hrs, true, hsig, ⟨hall, rfl⟩, hanchor⟩

/-- A bundle is accepted when its events verify in a chain and its batches verify. -/
theorem verifyBundle_eq_true {bundle : EvidenceBundle} : verifyBundle bundle = .ok true ↔
    ((∀ e ∈ bundle.events, EventVerifies bundle.publicKeyPem e) ∧
        HashChain.Linked BundleEvent.hash BundleEvent.prevHash none bundle.events) ∧
      ∀ b ∈ batchesOf bundle, BatchVerifies bundle.publicKeyPem bundle.events b := by
  rw [← verifyEvents_eq_true]
  simp only [← verifyBatch_eq_true, ← Except.all_mapM_eq_true]
  simp only [verifyBundle, Except.bind_eq_ok, Except.pure_eq, Except.ok.injEq, Bool.and_eq_true]
  constructor
  · rintro ⟨_, hevents, rs, hrs, rfl, hall⟩
    exact ⟨hevents, rs, hrs, hall⟩
  · rintro ⟨hevents, rs, hrs, hall⟩
    exact ⟨true, hevents, rs, hrs, rfl, hall⟩

end Verify

end Verifier

/-! ## Content -/

def BundleEvent.withContent (content : Option Dict) (e : BundleEvent) : BundleEvent :=
  { e with payload := content }

/-- The bundle without what its events contain. -/
def EvidenceBundle.withoutContent (bundle : EvidenceBundle) : EvidenceBundle :=
  { bundle with events := bundle.events.map (BundleEvent.withContent none) }

/-- The bundles differ in the contents of their events alone. -/
def EvidenceBundle.EditOf (bundle edited : EvidenceBundle) : Prop :=
  edited.withoutContent = bundle.withoutContent

/-- Every content shown has the hash of its event's envelope. -/
def EvidenceBundle.ContentBound (bundle : EvidenceBundle) : Prop :=
  ∀ e ∈ bundle.events, ∀ content, e.payload = some content → sha256Hex content = e.payloadHash

namespace Verifier

theorem eventById_withContent (events : List BundleEvent) (content : Option Dict) (id : String) :
    eventById (events.map (BundleEvent.withContent content)) id =
      (eventById events id).map (BundleEvent.withContent content) := by
  rw [eventById, ← List.map_reverse, List.find?_map]
  rfl

theorem leafHash_withContent (events : List BundleEvent) (content : Option Dict) (b : BundleBatch)
    (eid : String) :
    leafHash (events.map (BundleEvent.withContent content)) b eid = leafHash events b eid := by
  rw [leafHash, leafHash, eventById_withContent]
  cases eventById events eid <;> rfl

/-- Some content has another hash. -/
theorem exists_content_ne (hash : String) : ∃ content : Dict, sha256Hex content ≠ hash := by
  have hne : sha256Hex [] ≠ sha256Hex [("text", .str "forged")] := by decide +kernel
  by_cases h : sha256Hex [] = hash
  · exact ⟨_, fun h' => hne (h.trans h'.symm)⟩
  · exact ⟨_, h⟩

variable [SignatureScheme]

theorem verifyEvents_withContent (publicPem : String) (content : Option Dict) :
    ∀ (prevHash : Option String) (es : List BundleEvent),
      verifyEvents publicPem prevHash (es.map (BundleEvent.withContent content)) =
        verifyEvents publicPem prevHash es
  | _, [] => rfl
  | prevHash, e :: es => by
    rw [List.map_cons, verifyEvents, verifyEvents]
    have htail : (e.withContent content).hash = e.hash := rfl
    rw [htail, verifyEvents_withContent publicPem content (some e.hash) es]
    rfl

variable [AnchorVerifier]

theorem verifyBundle_withoutContent (bundle : EvidenceBundle) :
    verifyBundle bundle.withoutContent = verifyBundle bundle := by
  have hproof (b : BundleBatch) : verifyProof (bundle.events.map (BundleEvent.withContent none)) b =
      verifyProof bundle.events b := by
    funext p
    rw [verifyProof, verifyProof, leafHash_withContent]
  have hbatch : verifyBatch bundle.publicKeyPem (bundle.events.map (BundleEvent.withContent none)) =
      verifyBatch bundle.publicKeyPem bundle.events := by
    funext b
    rw [verifyBatch, verifyBatch, hproof]
  simp only [verifyBundle, EvidenceBundle.withoutContent, verifyEvents_withContent, hbatch]
  rfl

/-- The verifier does not tell edits apart. -/
theorem verifyBundle_congr {bundle edited : EvidenceBundle} (h : bundle.EditOf edited) :
    verifyBundle edited = verifyBundle bundle := by
  rw [← verifyBundle_withoutContent edited, h, verifyBundle_withoutContent]

/-- Of an accepted bundle, edits of the content are caught only where there is no event
to edit. -/
theorem contentBound_iff {bundle : EvidenceBundle} (h : verifyBundle bundle = .ok true) :
    (∀ edited, bundle.EditOf edited → verifyBundle edited = .ok true → edited.ContentBound) ↔
      bundle.events = [] := by
  constructor
  · intro hbound
    by_contra hne
    obtain ⟨e, es, hevents⟩ := List.exists_cons_of_ne_nil hne
    obtain ⟨content, hcontent⟩ := exists_content_ne e.payloadHash
    let edited : EvidenceBundle :=
      { bundle with events := bundle.events.map (BundleEvent.withContent (some content)) }
    have hedit : bundle.EditOf edited := by
      simp [EvidenceBundle.EditOf, EvidenceBundle.withoutContent, edited, BundleEvent.withContent]
    have haccepted : verifyBundle edited = .ok true := (verifyBundle_congr hedit).trans h
    refine hcontent (hbound edited hedit haccepted (e.withContent (some content)) ?_ content rfl)
    exact List.mem_map_of_mem (by rw [hevents]; exact List.mem_cons_self)
  · intro hnil edited hedit _ e he
    have hevents : edited.events.map (BundleEvent.withContent none) = [] := by
      have := congrArg EvidenceBundle.events hedit
      simpa [EvidenceBundle.withoutContent, hnil] using this
    rw [List.map_eq_nil_iff.mp hevents] at he
    cases he

end Verifier

/-! ## A forged bundle -/

/-- The event with its hash, signed with a private key. -/
def BundleEvent.signedWith [SignatureScheme] (sk : String) (e : BundleEvent) : BundleEvent :=
  { e with
    hash := sha256Hex (Verifier.buildEnvelope e)
    signature := Bytes.hex
      (SignatureScheme.sign sk (sha256 (canonicalBytes (Verifier.buildEnvelope e)))) }

theorem Verifier.eventVerifies_signedWith [SignatureScheme] (hideal : SignatureScheme.Ideal)
    {sk : String} (hk : SignatureScheme.privateKind sk = .usable) {e : BundleEvent}
    (halg : e.alg = .str algSha256Ed25519V1) :
    EventVerifies (SignatureScheme.publicPem sk) (e.signedWith sk) where
  hash_eq := rfl
  alg_eq := halg
  signature_ok := verifyHex_eq_true.mpr (verifyHex_sign hideal hk _)

/-- An event whose content was replaced after its hash was taken. -/
def sampleBundleEvent : BundleEvent where
  id := "00000000-0000-0000-0000-000000000002"
  traceId := "00000000-0000-0000-0000-000000000001"
  seq := 1
  type := "model_completion"
  payloadHash := sha256Hex [("text", .str "hello")]
  payload := some [("text", .str "forged")]
  payloadErased := false
  piiRedacted := []
  prevHash := none
  hash := ""
  signature := ""
  alg := .str algSha256Ed25519V1
  policyVersion := none
  createdAt := .str "2025-01-01T00:00:00+00:00"
  batchId := none

/-- A bundle of it, signed by the service. -/
def sampleBundle : EvidenceBundle where
  traceId := "00000000-0000-0000-0000-000000000001"
  publicKeyPem := "service"
  allReplayVerified := true
  events := [@BundleEvent.signedWith .transparent "service" sampleBundleEvent]
  batches := []
  batch := none

theorem verifyBundle_sampleBundle :
    @Verifier.verifyBundle .transparent .absent sampleBundle = .ok true := by
  rw [@Verifier.verifyBundle_eq_true .transparent .absent]
  refine ⟨⟨?_, rfl, trivial⟩, by simp [Verifier.batchesOf, sampleBundle]⟩
  intro e he
  rw [List.mem_singleton.mp he]
  exact @Verifier.eventVerifies_signedWith .transparent SignatureScheme.ideal_transparent "service"
    rfl sampleBundleEvent rfl

theorem contentBound_iff_sample : ¬ ∀ edited, sampleBundle.EditOf edited →
    @Verifier.verifyBundle .transparent .absent edited = .ok true → edited.ContentBound := by
  rw [@Verifier.contentBound_iff .transparent .absent sampleBundle verifyBundle_sampleBundle]
  exact List.cons_ne_nil _ _

/-- The verifier accepts the forged content. -/
theorem sampleBundle_forged :
    @Verifier.verifyBundle .transparent .absent sampleBundle = .ok true ∧
      ¬ sampleBundle.ContentBound := by
  refine ⟨verifyBundle_sampleBundle, ?_⟩
  intro hbound
  have h := hbound (@BundleEvent.signedWith .transparent "service" sampleBundleEvent)
    (List.mem_singleton.mpr rfl) [("text", .str "forged")] rfl
  have hne : sha256Hex [("text", .str "forged")] ≠ sha256Hex [("text", .str "hello")] := by
    decide +kernel
  exact hne h

end Attest
