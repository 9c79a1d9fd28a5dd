import Attest.Evidence
import Attest.Workflow

/-!
# What an export shows of other organisations

Batches are sealed over the events of all organisations, and the export of a trace holds
the ids and the hashes of every event of its batches (`batch_exported`), though the proofs
in it are those of the events of the trace alone. Beyond the events of its batches, an
export shows events of the organisation that asks alone, and it is the same in two states
that agree on the rows of the organisation and on what the batches of the trace are made of
(`exported_confined`).

So an export is confined to the organisation exactly if no batch of the trace is shared
(`exported_confined_iff`) : two states that agree on the rows of the organisation, and on the
roots, the times, the anchors and the proofs of its events, then have the same exports.
-/

set_option linter.unusedSectionVars false

namespace Attest

/-! ## The compliance summary -/

/-- `_count_event_types(events)`. -/
def countEventTypes (events : List Event) : List (String × Nat) :=
  events.foldl
    (fun counts e => setItem counts (e.type, (Verifier.lookup counts e.type).getD 0 + 1)) []

structure PolicyDecisionEntry where
  seq : Int
  tier : JVal
  allowed : JVal
  ruleId : JVal
  regulatoryRefs : JVal
  reasons : JVal

structure MitigationEntry where
  seq : Int
  mitigationIds : JVal

structure ErasureEntry where
  seq : Int
  targetSeq : JVal
  approverId : JVal

structure ApprovalActionEntry where
  seq : Int
  status : JVal
  approverId : JVal

structure ApprovalEntry where
  approvalId : String
  status : String
  approverId : Option String
  comment : Option String
  createdAt : Int

structure ComplianceSummary where
  orgId : String
  orgName : String
  orgRegion : Option String
  orgFailMode : Option String
  eventCount : Nat
  eventTypes : List (String × Nat)
  allReplayVerified : Bool
  workflowGate : WorkflowOut
  policyDecisions : List PolicyDecisionEntry
  approvalActions : List ApprovalActionEntry
  approvals : List ApprovalEntry
  mitigations : List MitigationEntry
  erasures : List ErasureEntry

/-- The entries for the events of a type whose content can be read. -/
def entriesOf {α : Type} (db : Db) (orgId type : String) (entry : Event → Dict → α)
    (events : List Event) : List α :=
  events.filterMap fun e =>
    if e.type = type then (readPayloadContent db orgId e.payloadHash).map (entry e) else none

/-- What `list_approvals_for_trace(db, org_id, trace_id, limit)` may return : the newest
rows, those of one time in any order. -/
def ApprovalPage (db : Db) (orgId : String) (traceId : Uuid) (limit : Nat)
    (page : List Approval) : Prop :=
  ∃ rows, List.Perm rows (db.approvalsOf orgId traceId) ∧
    rows.Pairwise (fun a b => b.createdAt ≤ a.createdAt) ∧ page = rows.take limit

/-- The limit of the query of the summary. -/
def summaryPage : Nat := 50

/-- `build_compliance_summary(db, org_id, trace_id)`, with the approvals its queries
returned, for the gate and for itself. -/
def buildComplianceSummary [SignatureScheme] (svc : SigningKeyPair) (db : Db) (orgId : String)
    (traceId : Uuid) (window page : List Approval) : Except PyError ComplianceSummary := do
  let events := db.eventsForTrace orgId traceId
  let replay ← replayTrace svc db orgId traceId
  let gate ← workflowGate db orgId traceId window
  let org := db.getOrgById orgId
  return {
    orgId := orgId
    orgName := (org.map Org.name).getD orgId
    orgRegion := org.map Org.region
    orgFailMode := org.map Org.failMode
    eventCount := events.length
    eventTypes := countEventTypes events
    allReplayVerified := replay.allVerified
    workflowGate := gate
    policyDecisions := entriesOf db orgId "policy_decision" (fun e content =>
      ⟨e.seq, content.get "tier", content.get "allowed", content.get "rule_id",
        (content.get "regulatory_refs").orElse (.arr []),
        (content.get "reasons").orElse (.arr [])⟩) events
    approvalActions := entriesOf db orgId "approval_action" (fun e content =>
      ⟨e.seq, content.get "status", content.get "approver_id"⟩) events
    approvals := page.map fun a => ⟨a.id.str, a.status, a.approverId, a.comment, a.createdAt⟩
    mitigations := entriesOf db orgId "mitigation" (fun e content =>
      ⟨e.seq, content.get "mitigation_ids"⟩) events
    erasures := entriesOf db orgId "erasure" (fun e content =>
      ⟨e.seq, content.get "target_seq", content.get "approver_id"⟩) events }

/-! ## The whole export -/

/-- The bundle with its manifest, its replay and its compliance summary. -/
structure EvidenceExport where
  bundle : EvidenceBundle
  orgName : String
  orgRegion : Option String
  orgFailMode : Option String
  eventCount : Nat
  batchCount : Nat
  replayEvents : List EventVerifyResult
  compliance : ComplianceSummary

/-- `build_evidence_bundle(db, org_id, trace_id)` as a whole, with what its queries
returned. -/
def buildEvidenceExport [SignatureScheme] (svc : SigningKeyPair) (db : Db) (orgId : String)
    (traceId : Uuid) (batches : List Batch) (window page : List Approval) :
    Except PyError EvidenceExport := do
  let bundle ← buildEvidenceBundle svc db orgId traceId batches
  let replay ← replayTrace svc db orgId traceId
  let compliance ← buildComplianceSummary svc db orgId traceId window page
  let org := db.getOrgById orgId
  return {
    bundle := bundle
    orgName := (org.map Org.name).getD orgId
    orgRegion := org.map Org.region
    orgFailMode := org.map Org.failMode
    eventCount := (db.eventsForTrace orgId traceId).length
    batchCount := bundle.batches.length
    replayEvents := replay.events
    compliance := compliance }

/-- The export of the trace may be `x`. -/
def Exported [SignatureScheme] (svc : SigningKeyPair) (db : Db) (orgId : String) (traceId : Uuid)
    (x : EvidenceExport) : Prop :=
  ∃ batches window page, BatchesForEvents db (db.eventsForTrace orgId traceId) batches ∧
    ApprovalPage db orgId traceId approvalWindow window ∧
      ApprovalPage db orgId traceId summaryPage page ∧
        buildEvidenceExport svc db orgId traceId batches window page = .ok x

/-- The ids of events in a batch of the bundle. -/
def BundleBatch.allEventIds (b : BundleBatch) : List String :=
  b.eventIds ++ b.leafHashes.map Prod.fst ++ b.merkleProofs.map Prod.fst

/-- The ids of events in the bundle. -/
def EvidenceBundle.allEventIds (bundle : EvidenceBundle) : List String :=
  bundle.events.map BundleEvent.id ++
    (bundle.batches ++ bundle.batch.toList).flatMap BundleBatch.allEventIds

/-- The hashes of events in the bundle. The siblings in its proofs are not among them. -/
def EvidenceBundle.allEventHashes (bundle : EvidenceBundle) : List String :=
  bundle.events.map BundleEvent.hash ++ bundle.events.filterMap BundleEvent.prevHash ++
    (bundle.batches ++ bundle.batch.toList).flatMap fun b => b.leafHashes.map Prod.snd

/-! ## The rows an export is made of -/

/-- What the export takes of a batch. -/
structure BatchView where
  id : Uuid
  root : String
  signature : String
  eventIds : List Uuid
  leafHashes : List (Option String)
  sealedAt : String
  anchor : Option BundleAnchor

def Db.viewBatch (db : Db) (b : Batch) : BatchView where
  id := b.id
  root := b.root
  signature := b.signature
  eventIds := b.eventIds
  leafHashes := b.eventIds.map fun id => (db.events.find? fun e => e.id = id).map Event.hash
  sealedAt := b.sealedAt
  anchor := (db.anchors.find? fun a => a.batchId = b.id).map fun a =>
    ⟨a.kind, a.token, a.anchoredAt⟩

/-- The batches of a trace. -/
def Db.batchesOfTrace (db : Db) (orgId : String) (traceId : Uuid) : List Batch :=
  db.batches.filter fun b =>
    (db.eventsForTrace orgId traceId).any fun e => e.batchId = some b.id

/-- The databases agree on the rows of the organisation. -/
structure AgreesOnRows (orgId : String) (db db' : Db) : Prop where
  orgs : db.orgs.filter (fun o => o.id = orgId) = db'.orgs.filter fun o => o.id = orgId
  traces : db.traces.filter (fun t => t.orgId = orgId) = db'.traces.filter fun t => t.orgId = orgId
  events : db.events.filter (fun e => e.orgId = orgId) = db'.events.filter fun e => e.orgId = orgId
  payloads : db.payloads.filter (fun p => p.orgId = orgId) =
    db'.payloads.filter fun p => p.orgId = orgId
  payloadKeys : db.payloadKeys.filter (fun k => k.orgId = orgId) =
    db'.payloadKeys.filter fun k => k.orgId = orgId
  approvals : db.approvals.filter (fun a => a.orgId = orgId) =
    db'.approvals.filter fun a => a.orgId = orgId

/-- The databases agree on the rows of the organisation, and on what the batches of the
trace are made of. -/
structure AgreesFor (orgId : String) (traceId : Uuid) (db db' : Db) : Prop
    extends AgreesOnRows orgId db db' where
  batches : (db.batchesOfTrace orgId traceId).map db.viewBatch =
    (db'.batchesOfTrace orgId traceId).map db'.viewBatch

namespace AgreesOnRows

variable {orgId : String} {db db' : Db}

theorem getOrgById (h : AgreesOnRows orgId db db') :
    db.getOrgById orgId = db'.getOrgById orgId := by
  have hfind := congrArg (fun rows => rows.find? fun _ => true) h.orgs
  simpa [List.find?_filter, Db.getOrgById] using hfind

theorem eventsForTrace (h : AgreesOnRows orgId db db') (t : Uuid) :
    db.eventsForTrace orgId t = db'.eventsForTrace orgId t := by
  have hrows := congrArg (fun rows => rows.filter fun e : Event => decide (e.traceId = t)) h.events
  simp only [List.filter_filter] at hrows
  simp only [Db.eventsForTrace, Db.traceRows, Bool.decide_and]
  simp only [Bool.and_comm] at hrows ⊢
  rw [hrows]

theorem getPayload (h : AgreesOnRows orgId db db') (payloadHash : String) :
    db.getPayload orgId payloadHash = db'.getPayload orgId payloadHash := by
  have hfind := congrArg
    (fun rows => rows.find? fun p : Payload => decide (p.payloadHash = payloadHash)) h.payloads
  simpa only [List.find?_filter, Db.getPayload, Bool.decide_and, Bool.decide_eq_true] using hfind

theorem getPayloadKey (h : AgreesOnRows orgId db db') (payloadHash : String) :
    db.getPayloadKey orgId payloadHash = db'.getPayloadKey orgId payloadHash := by
  have hfind := congrArg
    (fun rows => rows.find? fun k : PayloadKey => decide (k.payloadHash = payloadHash))
    h.payloadKeys
  simpa only [List.find?_filter, Db.getPayloadKey, Bool.decide_and,
    Bool.decide_eq_true] using hfind

theorem readPayloadContent (h : AgreesOnRows orgId db db') (payloadHash : String) :
    readPayloadContent db orgId payloadHash = Attest.readPayloadContent db' orgId payloadHash := by
  rw [Attest.readPayloadContent, Attest.readPayloadContent, h.getPayload, h.getPayloadKey]

theorem approvalsOf (h : AgreesOnRows orgId db db') (t : Uuid) :
    db.approvalsOf orgId t = db'.approvalsOf orgId t := by
  have hrows := congrArg (fun rows => rows.filter fun a : Approval => decide (a.traceId = t))
    h.approvals
  simp only [List.filter_filter] at hrows
  simp only [Db.approvalsOf, Bool.decide_and]
  simp only [Bool.and_comm] at hrows ⊢
  rw [hrows]

theorem approvalPage (h : AgreesOnRows orgId db db') {t : Uuid} {limit : Nat}
    {page : List Approval} (hpage : ApprovalPage db orgId t limit page) :
    ApprovalPage db' orgId t limit page := by
  obtain ⟨rows, hperm, hsorted, htake⟩ := hpage
  exact ⟨rows, h.approvalsOf t ▸ hperm, hsorted, htake⟩

theorem mem_traces (h : AgreesOnRows orgId db db') {t : Trace} (ht : t ∈ db.traces)
    (horg : t.orgId = orgId) : t ∈ db'.traces := by
  have hmem : t ∈ db.traces.filter fun t => t.orgId = orgId := by simp [ht, horg]
  rw [h.traces] at hmem
  exact (List.mem_filter.mp hmem).1

theorem serializeEvent (h : AgreesOnRows orgId db db') (e : Event) :
    serializeEvent db orgId e = Attest.serializeEvent db' orgId e := by
  rw [Attest.serializeEvent, Attest.serializeEvent, h.getPayload, h.readPayloadContent]

theorem entriesOf (h : AgreesOnRows orgId db db') {α : Type} (type : String)
    (entry : Event → Dict → α) (events : List Event) :
    entriesOf db orgId type entry events = Attest.entriesOf db' orgId type entry events := by
  simp only [Attest.entriesOf, h.readPayloadContent]

theorem summaryOf (h : AgreesOnRows orgId db db') : ∀ events : List Event,
    summaryOf db orgId events = Attest.summaryOf db' orgId events
  | [] => rfl
  | e :: es => by
    rw [Attest.summaryOf, Attest.summaryOf, h.readPayloadContent, summaryOf h es]

end AgreesOnRows

theorem AgreesFor.symm {orgId : String} {traceId : Uuid} {db db' : Db}
    (h : AgreesFor orgId traceId db db') : AgreesFor orgId traceId db' db :=
  ⟨⟨h.orgs.symm, h.traces.symm, h.events.symm, h.payloads.symm, h.payloadKeys.symm,
    h.approvals.symm⟩, h.batches.symm⟩

/-- The leaves of a batch, as they are found. -/
theorem batchLeafHashes_eq_mapM (db : Db) (ids : List Uuid) :
    batchLeafHashes db ids =
      (ids.map fun id => (db.events.find? fun e => e.id = id).map Event.hash).mapM fun hash =>
        match hash with
        | some hash => .ok hash
        | none => .error (.lookupError "no row was found when one was required") := by
  induction ids with
  | nil => rfl
  | cons id ids ih =>
    rw [batchLeafHashes] at ih ⊢
    rw [List.mapM_cons, List.map_cons, List.mapM_cons, ih]
    cases db.events.find? fun e => decide (e.id = id) <;> rfl

/-- A batch is exported from its view. -/
theorem serializeBatch_congr {db db' : Db} {b b' : Batch} (h : db.viewBatch b = db'.viewBatch b')
    (traceEventIds : List String) :
    serializeBatch db b traceEventIds = serializeBatch db' b' traceEventIds := by
  have hleaves : batchLeafHashes db b.eventIds = batchLeafHashes db' b'.eventIds := by
    rw [batchLeafHashes_eq_mapM, batchLeafHashes_eq_mapM]
    exact congrArg (fun v : BatchView => v.leafHashes.mapM _) h
  have hid : b.id = b'.id := congrArg BatchView.id h
  have hroot : b.root = b'.root := congrArg BatchView.root h
  have hsignature : b.signature = b'.signature := congrArg BatchView.signature h
  have hids : b.eventIds = b'.eventIds := congrArg BatchView.eventIds h
  have hsealed : b.sealedAt = b'.sealedAt := congrArg BatchView.sealedAt h
  have hanchor := congrArg BatchView.anchor h
  simp only [Db.viewBatch] at hanchor
  rw [serializeBatch, serializeBatch, hleaves, hroot, hsignature, hsealed, hanchor]
  rw [hids, hid]

/-! ## Batches that are not shared -/

/-- The batches of the trace list events of its organisation alone. -/
def Unshared (db : Db) (t : Trace) : Prop :=
  ∀ b ∈ db.batchesOfTrace t.orgId t.id, ∀ e ∈ db.events, e.id ∈ b.eventIds → e.orgId = t.orgId

/-- An own event in a batch : its place among the leaves, and the siblings of its proof. -/
structure OwnLeaf where
  id : Uuid
  index : Nat
  siblings : Except PyError (List String)

/-- What an organisation may know of a batch. -/
structure OwnBatchView where
  id : Uuid
  root : String
  signature : String
  sealedAt : String
  anchor : Option BundleAnchor
  leaves : List OwnLeaf

def Db.ownsEvent (db : Db) (orgId : String) (id : Uuid) : Bool :=
  db.events.any fun e => e.orgId = orgId ∧ e.id = id

def Db.viewOwn (db : Db) (orgId : String) (b : Batch) : OwnBatchView where
  id := b.id
  root := b.root
  signature := b.signature
  sealedAt := b.sealedAt
  anchor := (db.anchors.find? fun a => a.batchId = b.id).map fun a =>
    ⟨a.kind, a.token, a.anchoredAt⟩
  leaves := (b.eventIds.zipIdx.filter fun p => db.ownsEvent orgId p.1).map fun p =>
    ⟨p.1, p.2, batchLeafHashes db b.eventIds >>= fun leaves => merkleProof leaves p.2⟩

/-- The databases agree on the rows of the organisation, and on the batches of the trace as
far as they hold its events. -/
structure AgreesOwn (orgId : String) (traceId : Uuid) (db db' : Db) : Prop
    extends AgreesOnRows orgId db db' where
  batches : (db.batchesOfTrace orgId traceId).map (db.viewOwn orgId) =
    (db'.batchesOfTrace orgId traceId).map (db'.viewOwn orgId)

/-- An own event is found alike in two databases that have the same own events. -/
theorem find?_own {db db' : Db} {orgId : String}
    (hevents : db.events.filter (fun e => e.orgId = orgId) =
      db'.events.filter fun e => e.orgId = orgId)
    (hnodup : (db.events.map Event.id).Nodup) (hnodup' : (db'.events.map Event.id).Nodup)
    {e : Event} (he : e ∈ db.events) (horg : e.orgId = orgId) :
    (db.events.find? fun x => x.id = e.id) = db'.events.find? fun x => x.id = e.id := by
  have he' : e ∈ db'.events := by
    have hown : e ∈ db.events.filter fun e => e.orgId = orgId := by simp [he, horg]
    rw [hevents] at hown
    exact (List.mem_filter.mp hown).1
  rw [find?_of_nodup hnodup he, find?_of_nodup hnodup' he']

/-- A batch of own events shows the organisation all it is made of. -/
theorem viewBatch_of_viewOwn {db db' : Db} {orgId : String}
    (hevents : db.events.filter (fun e => e.orgId = orgId) =
      db'.events.filter fun e => e.orgId = orgId)
    (hnodup : (db.events.map Event.id).Nodup) (hnodup' : (db'.events.map Event.id).Nodup)
    {b b' : Batch} (hown : ∀ id ∈ b.eventIds, db.ownsEvent orgId id = true)
    (hown' : ∀ id ∈ b'.eventIds, db'.ownsEvent orgId id = true)
    (h : db.viewOwn orgId b = db'.viewOwn orgId b') : db.viewBatch b = db'.viewBatch b' := by
  have hplaces {ids : List Uuid} {p : Uuid → Bool} (hall : ∀ id ∈ ids, p id = true) :
      (ids.zipIdx.filter fun q => p q.1).map Prod.fst = ids := by
    rw [List.filter_eq_self.mpr fun q hq => hall _ (List.fst_mem_of_mem_zipIdx hq),
      List.zipIdx_map_fst]
  have hids : b.eventIds = b'.eventIds := by
    have hleaves := congrArg (fun v : OwnBatchView => v.leaves.map OwnLeaf.id) h
    simp only [Db.viewOwn, List.map_map] at hleaves
    rw [← hplaces hown, ← hplaces hown']
    exact hleaves
  have hhashes : (b.eventIds.map fun id => (db.events.find? fun e => e.id = id).map Event.hash) =
      b'.eventIds.map fun id => (db'.events.find? fun e => e.id = id).map Event.hash := by
    rw [← hids]
    refine List.map_congr_left fun id hid => ?_
    obtain ⟨e, he, hsame⟩ := List.any_eq_true.mp (hown id hid)
    obtain ⟨horg, rfl⟩ := of_decide_eq_true hsame
    rw [find?_own hevents hnodup hnodup' he horg]
  have hid : b.id = b'.id := congrArg OwnBatchView.id h
  have hroot : b.root = b'.root := congrArg OwnBatchView.root h
  have hsignature : b.signature = b'.signature := congrArg OwnBatchView.signature h
  have hsealed : b.sealedAt = b'.sealedAt := congrArg OwnBatchView.sealedAt h
  have hanchor := congrArg OwnBatchView.anchor h
  simp only [Db.viewOwn] at hanchor
  simp only [Db.viewBatch, BatchView.mk.injEq]
  exact ⟨hid, hroot, hsignature, hids, hhashes, hsealed, hanchor⟩

/-- An event that another organisation records changes nothing that is this one's. -/
theorem agreesOwn_of_recorded [KeyWrapping] [PyUnicode] {db db' : Db} {orgId : String}
    {traceId : Uuid} {args : RecordArgs} {fresh : Fresh} {e : Event}
    (h : Recorded db args fresh e db') (hother : args.orgId ≠ orgId)
    (hnew : ∀ b ∈ db.batches, e.id ∉ b.eventIds) : AgreesOwn orgId traceId db db' := by
  have horg : e.orgId ≠ orgId := by rwa [h.records.orgId_eq]
  obtain ⟨opened, rows, hopens, hrows, hdb'⟩ := h.tables
  have hevents : db'.events = db.events ++ [e] := by rw [hdb']
  have hbatches : db'.batches = db.batches := by rw [hdb']; rfl
  have hanchors : db'.anchors = db.anchors := by rw [hdb']; rfl
  have hagree : AgreesOnRows orgId db db' := by
    have hopened : opened.toList.filter (fun t => decide (t.orgId = orgId)) = [] := by
      refine List.filter_eq_nil_iff.mpr fun t ht => ?_
      rw [(hopens.new t (by simpa using ht)).2.1]
      simpa using hother
    rw [hdb']
    rcases sealPayload_eq_ok.mp hrows with ⟨rfl, -⟩ | ⟨-, -, rfl⟩
    · constructor <;> simp [Db.withRows, List.filter_append, hopened, horg]
    · constructor <;> simp [Db.withRows, contentRows, List.filter_append, hopened, horg, hother]
  refine ⟨hagree, ?_⟩
  have htrace : db'.batchesOfTrace orgId traceId = db.batchesOfTrace orgId traceId := by
    rw [Db.batchesOfTrace, Db.batchesOfTrace, ← hagree.eventsForTrace, hbatches]
  rw [htrace]
  refine List.map_congr_left fun b hb => ?_
  have hleaves : batchLeafHashes db' b.eventIds = batchLeafHashes db b.eventIds := by
    rw [batchLeafHashes_eq_mapM, batchLeafHashes_eq_mapM]
    refine congrArg (List.mapM _) (List.map_congr_left fun id hid => ?_)
    have hne : e.id ≠ id := fun h => hnew b (List.mem_filter.mp hb).1 (h ▸ hid)
    simp [hevents, List.find?_append, hne]
  have howns : db'.ownsEvent orgId = db.ownsEvent orgId := by
    funext id
    simp [Db.ownsEvent, hevents, List.any_append, horg]
  simp only [Db.viewOwn, hleaves, howns, hanchors]

/-! ## What an export holds -/

section Export

variable [SignatureScheme] {svc : SigningKeyPair}

/-- The report on a row that verifies. -/
def VerifiableEvent.verifiedResult (e : VerifiableEvent) : EventVerifyResult :=
  ⟨e.seq, e.type, true, true, true, true⟩

theorem verifySingleEvent_eq {e : VerifiableEvent} {publicPem : String} {expected : Option String}
    {r : EventVerifyResult} (h : verifySingleEvent e publicPem expected = .ok r)
    (hverified : r.verified = true) : r = e.verifiedResult := by
  simp only [verifySingleEvent, Except.bind_eq_ok, Except.pure_eq, Except.ok.injEq] at h
  obtain ⟨createdAt, -, signatureOk, -, rfl⟩ := h
  simp only [Bool.and_eq_true] at hverified
  obtain ⟨⟨hhash, hsignature⟩, hchain⟩ := hverified
  simp [VerifiableEvent.verifiedResult, hhash, hsignature, hchain]

/-- Rows that are all reported verified have the same report. -/
theorem verifyRows_eq_map {resolve : VerifiableEvent → Except PyError String} :
    ∀ {prevHash : Option String} {es : List VerifiableEvent} {rs : List EventVerifyResult},
      verifyRows resolve prevHash es = .ok rs → rs.all EventVerifyResult.verified = true →
        rs = es.map VerifiableEvent.verifiedResult
  | _, [], _, h, _ => by
    obtain rfl := Except.ok.inj h
    rfl
  | prevHash, e :: es, rs, h, hall => by
    simp only [verifyRows, Except.bind_eq_ok, Except.pure_eq, Except.ok.injEq] at h
    obtain ⟨pem, -, r, hr, rest, hrest, rfl⟩ := h
    rw [List.all_cons, Bool.and_eq_true] at hall
    rw [List.map_cons, verifySingleEvent_eq hr hall.1, verifyRows_eq_map hrest hall.2]

/-- The replay of a trace of a sound database is a function of its rows. -/
theorem Sound.replayTrace_eq {db : Db} (hideal : SignatureScheme.Ideal) (h : Sound svc db)
    {t : Trace} (ht : t ∈ db.traces) (hne : db.eventsForTrace t.orgId t.id ≠ []) :
    Attest.replayTrace svc db t.orgId t.id = .ok ⟨t.id.str, true,
      ((db.eventsForTrace t.orgId t.id).map Event.verifiable).map
        VerifiableEvent.verifiedResult⟩ := by
  obtain ⟨r, hr, hall, -, -⟩ := h.replayTrace hideal ht hne
  rw [hr]
  have haccess : ensureTraceAccess db t.orgId t.id = .ok () :=
    ensureTraceAccess_eq_ok.mpr ⟨t, h.getTraceById ht, rfl⟩
  simp only [Attest.replayTrace, haccess, Except.ok_bind', List.isEmpty_iff, hne, if_false,
    verifyEventChain, Except.bind_eq_ok, Except.pure_eq, Except.ok.injEq] at hr
  obtain ⟨rs, hrs, rfl⟩ := hr
  rw [← verifyRows_eq_map hrs hall, show rs.all EventVerifyResult.verified = true from hall]

variable {orgId : String} {traceId : Uuid} {db db' : Db}

theorem AgreesFor.buildEvidenceBundle (hideal : SignatureScheme.Ideal) (hsound : Sound svc db)
    (hsound' : Sound svc db') {t : Trace} (ht : t ∈ db.traces)
    (hagree : AgreesFor t.orgId t.id db db') {batches batches' : List Batch}
    (hbatches : List.Forall₂ (fun b b' => db.viewBatch b = db'.viewBatch b') batches batches') :
    Attest.buildEvidenceBundle svc db t.orgId t.id batches =
      Attest.buildEvidenceBundle svc db' t.orgId t.id batches' := by
  have ht' := hagree.mem_traces ht rfl
  have hevents := hagree.eventsForTrace t.id
  have haccess : ensureTraceAccess db t.orgId t.id = ensureTraceAccess db' t.orgId t.id := by
    rw [ensureTraceAccess, ensureTraceAccess, hsound.getTraceById ht, hsound'.getTraceById ht']
  have hserialized : Attest.serializeEvent db t.orgId = Attest.serializeEvent db' t.orgId :=
    funext hagree.serializeEvent
  have hdata (ids : List String) : batches.mapM (fun b => serializeBatch db b ids) =
      batches'.mapM fun b => serializeBatch db' b ids :=
    Except.mapM_congr_of_forall₂ (hbatches.imp fun _ _ h => serializeBatch_congr h ids)
  by_cases hne : db.eventsForTrace t.orgId t.id = []
  · simp [Attest.buildEvidenceBundle, haccess, ← hevents, hne]
  · have hne' : db'.eventsForTrace t.orgId t.id ≠ [] := by rwa [← hevents]
    have hreplay : replayTrace svc db t.orgId t.id = replayTrace svc db' t.orgId t.id := by
      rw [hsound.replayTrace_eq hideal ht hne, hsound'.replayTrace_eq hideal ht' hne', hevents]
    rw [Attest.buildEvidenceBundle, Attest.buildEvidenceBundle, haccess, hreplay, hserialized,
      hevents]
    simp only [hdata]

theorem AgreesFor.workflowGate (hsound : Sound svc db) (hsound' : Sound svc db') {t : Trace}
    (ht : t ∈ db.traces) (hagree : AgreesFor t.orgId t.id db db') (window : List Approval) :
    workflowGate db t.orgId t.id window = Attest.workflowGate db' t.orgId t.id window := by
  have haccess : ensureTraceAccess db t.orgId t.id = ensureTraceAccess db' t.orgId t.id := by
    rw [ensureTraceAccess, ensureTraceAccess, hsound.getTraceById ht,
      hsound'.getTraceById (hagree.mem_traces ht rfl)]
  have hpolicy : policySummaryFromEvents db t.orgId t.id =
      policySummaryFromEvents db' t.orgId t.id := by
    rw [policySummaryFromEvents, policySummaryFromEvents, hagree.eventsForTrace, hagree.summaryOf]
  rw [Attest.workflowGate, Attest.workflowGate, haccess, hpolicy]

theorem AgreesFor.buildEvidenceExport (hideal : SignatureScheme.Ideal) (hsound : Sound svc db)
    (hsound' : Sound svc db') {t : Trace} (ht : t ∈ db.traces)
    (hagree : AgreesFor t.orgId t.id db db') {batches batches' : List Batch}
    (hbatches : List.Forall₂ (fun b b' => db.viewBatch b = db'.viewBatch b') batches batches')
    (window page : List Approval) :
    Attest.buildEvidenceExport svc db t.orgId t.id batches window page =
      Attest.buildEvidenceExport svc db' t.orgId t.id batches' window page := by
  have hbundle := hagree.buildEvidenceBundle hideal hsound hsound' ht hbatches
  have hevents := hagree.eventsForTrace t.id
  by_cases hne : db.eventsForTrace t.orgId t.id = []
  · have hfails (d : Db) (bs : List Batch) (h : d.eventsForTrace t.orgId t.id = []) :
        ∃ e, Attest.buildEvidenceBundle svc d t.orgId t.id bs = .error e := by
      rw [Attest.buildEvidenceBundle]
      cases ensureTraceAccess d t.orgId t.id with
      | error e => exact ⟨e, rfl⟩
      | ok u => exact ⟨.traceNotFound ("trace not found: " ++ t.id.str), by simp [h]⟩
    obtain ⟨e, he⟩ := hfails db batches hne
    rw [Attest.buildEvidenceExport, Attest.buildEvidenceExport, ← hbundle, he]
    rfl
  · have ht' := hagree.mem_traces ht rfl
    have hne' : db'.eventsForTrace t.orgId t.id ≠ [] := by rwa [← hevents]
    have hreplay : replayTrace svc db t.orgId t.id = replayTrace svc db' t.orgId t.id := by
      rw [hsound.replayTrace_eq hideal ht hne, hsound'.replayTrace_eq hideal ht' hne', hevents]
    have hsummary : buildComplianceSummary svc db t.orgId t.id window page =
        buildComplianceSummary svc db' t.orgId t.id window page := by
      rw [buildComplianceSummary, buildComplianceSummary, hreplay, hevents, hagree.getOrgById,
        hagree.workflowGate hsound hsound' ht]
      simp only [hagree.entriesOf]
    rw [Attest.buildEvidenceExport, Attest.buildEvidenceExport, hbundle, hreplay, hsummary, hevents,
      hagree.getOrgById]

/-- In two states that agree, the trace has the same exports. -/
theorem AgreesFor.exported (hideal : SignatureScheme.Ideal) (hsound : Sound svc db)
    (hsound' : Sound svc db') {t : Trace} (ht : t ∈ db.traces)
    (hagree : AgreesFor t.orgId t.id db db') {x : EvidenceExport}
    (h : Exported svc db t.orgId t.id x) : Exported svc db' t.orgId t.id x := by
  obtain ⟨batches, window, page, hbatches, hwindow, hpage, hexport⟩ := h
  have hviews : List.Forall₂ (fun b b' => db.viewBatch b = db'.viewBatch b')
      (db.batchesOfTrace t.orgId t.id) (db'.batchesOfTrace t.orgId t.id) := by
    have hsame := hagree.batches
    rw [← List.forall₂_eq_eq_eq, List.forall₂_map_left_iff, List.forall₂_map_right_iff] at hsame
    exact hsame
  -- The second state may return the batches in the order of the first.
  obtain ⟨batches', hforall, hperm⟩ := List.perm_comp_forall₂ hbatches hviews
  rw [hagree.buildEvidenceExport hideal hsound hsound' ht hforall] at hexport
  exact ⟨batches', window, page, hperm, hagree.approvalPage hwindow, hagree.approvalPage hpage,
    hexport⟩

/-- In a sealed state a batch that is not shared lists own events. -/
theorem Unshared.owns {t : Trace} (h : Unshared db t) (hsealed : Sealed svc db) {b : Batch}
    (hb : b ∈ db.batchesOfTrace t.orgId t.id) {id : Uuid} (hid : id ∈ b.eventIds) :
    db.ownsEvent t.orgId id = true := by
  obtain ⟨leaves, -, hleaves, -⟩ := (hsealed.rooted b (List.mem_filter.mp hb).1).rooted
  obtain ⟨_, -, e, hfind, -⟩ := exists_of_forall₂ (batchLeafHashes_eq_ok.mp hleaves).flip hid
  obtain rfl : e.id = id := by simpa using List.find?_some hfind
  have he := List.mem_of_find?_eq_some hfind
  exact List.any_eq_true.mpr ⟨e, he, by simpa using h b hb e he hid⟩

/-- Where no batch is shared, agreeing on what is the organisation's is agreeing on all that
the export is made of. -/
theorem AgreesOwn.agreesFor {t : Trace}
    (hagree : AgreesOwn t.orgId t.id db db') (hsound : Sound svc db) (hsound' : Sound svc db')
    (hsealed : Sealed svc db) (hsealed' : Sealed svc db') (hfree : Unshared db t)
    (hfree' : Unshared db' t) : AgreesFor t.orgId t.id db db' := by
  refine ⟨hagree.toAgreesOnRows, ?_⟩
  have hviews := hagree.batches
  rw [← List.forall₂_eq_eq_eq, List.forall₂_map_left_iff, List.forall₂_map_right_iff] at hviews
  rw [← List.forall₂_eq_eq_eq, List.forall₂_map_left_iff, List.forall₂_map_right_iff,
    List.forall₂_iff_get]
  obtain ⟨hlength, hget⟩ := List.forall₂_iff_get.mp hviews
  refine ⟨hlength, fun i hi hi' => ?_⟩
  exact viewBatch_of_viewOwn hagree.events hsound.ids_nodup hsound'.ids_nodup
    (fun _ hid => hfree.owns hsealed (List.get_mem _ _) hid)
    (fun _ hid => hfree'.owns hsealed' (List.get_mem _ _) hid) (hget i hi hi')

/-! ## Whose events an export shows -/

/-- The event is of the organisation of the trace, or in a batch with one of the trace. -/
def Disclosed (db : Db) (t : Trace) (e : Event) : Prop :=
  e.orgId = t.orgId ∨ ∃ b ∈ db.batchesOfTrace t.orgId t.id, e.id ∈ b.eventIds

theorem mem_of_mem_soleBatch {y : BundleBatch} : ∀ {ys : List BundleBatch},
    y ∈ (soleBatch ys).toList → y ∈ ys
  | [_], h => by simpa [soleBatch] using h
  | [], h => by simp [soleBatch] at h
  | _ :: _ :: _, h => by simp [soleBatch] at h

theorem mem_of_mem_batches {bundle : EvidenceBundle} {ys : List BundleBatch}
    (hbatches : bundle.batches = ys) (hbatch : bundle.batch = soleBatch ys) {y : BundleBatch}
    (h : y ∈ bundle.batches ++ bundle.batch.toList) : y ∈ ys := by
  rw [hbatches, hbatch] at h
  exact (List.mem_append.mp h).elim id mem_of_mem_soleBatch

/-- A proof in a batch is of one of its events. -/
theorem mem_of_mem_merkleProofs {ids : List Uuid} {leafHashes traceEventIds : List String}
    {proofs : List (String × List String)}
    (h : merkleProofs ids leafHashes traceEventIds = .ok proofs) {p : String × List String}
    (hp : p ∈ proofs) : ∃ id ∈ ids, p.1 = id.str := by
  obtain ⟨qs, hqs, hdict⟩ := Except.bind_eq_ok.mp h
  obtain rfl := Except.ok.inj hdict
  obtain ⟨⟨id, i⟩, hmem, hmap⟩ := exists_of_forall₂ (Except.mapM_eq_ok.mp hqs)
    (mem_of_mem_dictOf hp)
  obtain ⟨proof, -, rfl⟩ := Except.map_eq_ok.mp hmap
  have hplace := List.mk_mem_zipIdx_iff_getElem?.mp (List.mem_filter.mp hmem).1
  exact ⟨id, List.mem_of_getElem? hplace, rfl⟩

/-- The ids and the hashes in an exported batch are those of its events. -/
theorem serializeBatch_shows {db : Db} {b : Batch} {traceEventIds : List String} {y : BundleBatch}
    (h : serializeBatch db b traceEventIds = .ok y) :
    (∀ id ∈ y.allEventIds, ∃ e ∈ db.events, e.id ∈ b.eventIds ∧ id = e.id.str) ∧
      ∀ hash ∈ y.leafHashes.map Prod.snd, ∃ e ∈ db.events, e.id ∈ b.eventIds ∧ hash = e.hash := by
  simp only [serializeBatch, Except.bind_eq_ok, Except.pure_eq, Except.ok.injEq] at h
  obtain ⟨leaves, hleaves, proofs, hproofs, rfl⟩ := h
  have hall := batchLeafHashes_eq_ok.mp hleaves
  have hid {id : Uuid} (hmem : id ∈ b.eventIds) :
      ∃ e ∈ db.events, e.id ∈ b.eventIds ∧ id.str = e.id.str := by
    obtain ⟨_, -, e, hfind, -⟩ := exists_of_forall₂ hall.flip hmem
    have hsame : e.id = id := by simpa using List.find?_some hfind
    exact ⟨e, List.mem_of_find?_eq_some hfind, by rwa [hsame], by rw [hsame]⟩
  constructor
  · intro id hmem
    rcases List.mem_append.mp hmem with hmem | hmem
    · have hlisted : id ∈ b.eventIds.map Uuid.str := by
        rcases List.mem_append.mp hmem with hmem | hmem
        · exact hmem
        · obtain ⟨p, hp, rfl⟩ := List.mem_map.mp hmem
          exact (List.of_mem_zip (mem_of_mem_dictOf hp)).1
      obtain ⟨u, hu, rfl⟩ := List.mem_map.mp hlisted
      exact hid hu
    · obtain ⟨p, hp, rfl⟩ := List.mem_map.mp hmem
      obtain ⟨u, hu, hpu⟩ := mem_of_mem_merkleProofs hproofs hp
      rw [hpu]
      exact hid hu
  · intro hash hmem
    obtain ⟨p, hp, rfl⟩ := List.mem_map.mp hmem
    obtain ⟨u, hu, e, hfind, hhash⟩ := exists_of_forall₂ hall
      (List.of_mem_zip (mem_of_mem_dictOf hp)).2
    have hsame : e.id = u := by simpa using List.find?_some hfind
    exact ⟨e, List.mem_of_find?_eq_some hfind, by rwa [hsame], hhash.symm⟩

/-- What an export is built of. -/
theorem buildEvidenceBundle_eq_ok {db : Db} {orgId : String} {traceId : Uuid}
    {batches : List Batch} {bundle : EvidenceBundle}
    (h : Attest.buildEvidenceBundle svc db orgId traceId batches = .ok bundle) :
    List.Forall₂ (fun e x => serializeEvent db orgId e = .ok x)
        (db.eventsForTrace orgId traceId) bundle.events ∧
      List.Forall₂ (fun b y => serializeBatch db b
          ((db.eventsForTrace orgId traceId).map fun e => e.id.str) = .ok y)
        batches bundle.batches ∧ bundle.batch = soleBatch bundle.batches := by
  simp only [Attest.buildEvidenceBundle, Except.bind_eq_ok] at h
  obtain ⟨_, -, h⟩ := h
  by_cases hne : db.eventsForTrace orgId traceId = []
  · simp [hne] at h
  · rw [if_neg (by simpa using hne)] at h
    simp only [Except.bind_eq_ok, Except.pure_eq, Except.ok.injEq] at h
    obtain ⟨r, -, xs, hxs, ys, hys, rfl⟩ := h
    exact ⟨Except.mapM_eq_ok.mp hxs, Except.mapM_eq_ok.mp hys, rfl⟩

/-- In a sound state, the ids in a bundle are of events disclosed with the trace, and so
are the hashes. -/
theorem Sound.bundle_shows {db : Db} (hsound : Sound svc db) {t : Trace} (ht : t ∈ db.traces)
    {batches : List Batch} (hbatches : BatchesForEvents db (db.eventsForTrace t.orgId t.id) batches)
    {bundle : EvidenceBundle}
    (h : Attest.buildEvidenceBundle svc db t.orgId t.id batches = .ok bundle) :
    (∀ id ∈ bundle.allEventIds, ∃ e ∈ db.events, Disclosed db t e ∧ id = e.id.str) ∧
      ∀ hash ∈ bundle.allEventHashes, ∃ e ∈ db.events, Disclosed db t e ∧ hash = e.hash := by
  obtain ⟨hevents, hbatches', hbatch⟩ := buildEvidenceBundle_eq_ok h
  have hown {e : Event} (he : e ∈ db.eventsForTrace t.orgId t.id) :
      e ∈ db.events ∧ Disclosed db t e := by
    rw [Db.eventsForTrace, List.mem_insertionSort] at he
    obtain ⟨hmem, horg, -⟩ := Db.mem_traceRows.mp he
    exact ⟨hmem, Or.inl horg⟩
  have hentry {x : BundleEvent} (hx : x ∈ bundle.events) :
      ∃ e ∈ db.eventsForTrace t.orgId t.id, x.id = e.id.str ∧ x.hash = e.hash ∧
        x.prevHash = e.prevHash := by
    obtain ⟨e, he, hser⟩ := exists_of_forall₂ hevents hx
    simp only [serializeEvent, Except.bind_eq_ok, Except.pure_eq, Except.ok.injEq] at hser
    obtain ⟨_, -, rfl⟩ := hser
    exact ⟨e, he, rfl, rfl, rfl⟩
  have hbatched {y : BundleBatch} (hy : y ∈ bundle.batches ++ bundle.batch.toList) :
      ∃ b ∈ db.batchesOfTrace t.orgId t.id, serializeBatch db b
        ((db.eventsForTrace t.orgId t.id).map fun e => e.id.str) = .ok y := by
    obtain ⟨b, hb, hser⟩ := exists_of_forall₂ hbatches' (mem_of_mem_batches rfl hbatch hy)
    exact ⟨b, hbatches.mem_iff.mp hb, hser⟩
  constructor
  · intro id hid
    rcases List.mem_append.mp hid with hid | hid
    · obtain ⟨x, hx, rfl⟩ := List.mem_map.mp hid
      obtain ⟨e, he, hxid, -⟩ := hentry hx
      exact ⟨e, (hown he).1, (hown he).2, hxid⟩
    · obtain ⟨y, hy, hin⟩ := List.mem_flatMap.mp hid
      obtain ⟨b, hb, hser⟩ := hbatched hy
      obtain ⟨e, he, hbe, hsame⟩ := (serializeBatch_shows hser).1 id hin
      exact ⟨e, he, Or.inr ⟨b, hb, hbe⟩, hsame⟩
  · intro hash hhash
    rcases List.mem_append.mp hhash with hhash | hhash
    · rcases List.mem_append.mp hhash with hhash | hhash
      · obtain ⟨x, hx, rfl⟩ := List.mem_map.mp hhash
        obtain ⟨e, he, -, hxhash, -⟩ := hentry hx
        exact ⟨e, (hown he).1, (hown he).2, hxhash⟩
      · obtain ⟨x, hx, hprev⟩ := List.mem_filterMap.mp hhash
        obtain ⟨e, he, -, -, hxprev⟩ := hentry hx
        -- A record names the hash of a record of its trace.
        have hchain := (hsound.chained t.id).linked
        rw [← hsound.eventsForTrace ht] at hchain
        rcases hchain.prev_mem he with hnone | ⟨e', he', hsome⟩
        · rw [hxprev, hnone] at hprev
          cases hprev
        · rw [hxprev, hsome] at hprev
          exact ⟨e', (hown he').1, (hown he').2, (Option.some.inj hprev).symm⟩
    · obtain ⟨y, hy, hin⟩ := List.mem_flatMap.mp hhash
      obtain ⟨b, hb, hser⟩ := hbatched hy
      obtain ⟨e, he, hbe, hsame⟩ := (serializeBatch_shows hser).2 hash hin
      exact ⟨e, he, Or.inr ⟨b, hb, hbe⟩, hsame⟩

/-- A batch of the trace is exported with the id of every event it lists. -/
theorem batch_exported {db : Db} {orgId : String} {traceId : Uuid} {batches : List Batch}
    {bundle : EvidenceBundle}
    (h : Attest.buildEvidenceBundle svc db orgId traceId batches = .ok bundle) {b : Batch}
    (hb : b ∈ batches) {id : Uuid} (hid : id ∈ b.eventIds) : id.str ∈ bundle.allEventIds := by
  obtain ⟨-, hbatches, -⟩ := buildEvidenceBundle_eq_ok h
  obtain ⟨y, hy, hser⟩ := exists_of_forall₂ hbatches.flip hb
  simp only [serializeBatch, Except.bind_eq_ok, Except.pure_eq, Except.ok.injEq] at hser
  obtain ⟨leaves, -, proofs, -, rfl⟩ := hser
  refine List.mem_append_right _ (List.mem_flatMap.mpr ⟨_, List.mem_append_left _ hy, ?_⟩)
  exact List.mem_append_left _ (List.mem_append_left _ (List.mem_map_of_mem hid))

/-- In a sound state every trace with events has an export. -/
theorem Sound.exists_exported {db : Db} (hideal : SignatureScheme.Ideal) (hsound : Sound svc db)
    (hsealed : Sealed svc db) {t : Trace} (ht : t ∈ db.traces)
    (hne : db.eventsForTrace t.orgId t.id ≠ []) {batches : List Batch}
    (hbatches : BatchesForEvents db (db.eventsForTrace t.orgId t.id) batches) :
    ∃ x, Exported svc db t.orgId t.id x ∧
      Attest.buildEvidenceBundle svc db t.orgId t.id batches = .ok x.bundle := by
  obtain ⟨bundle, hbundle, -⟩ :=
    @Sound.buildEvidenceBundle _ svc db .absent hideal hsound hsealed t ht hne batches hbatches
  have hpage (limit : Nat) : ∃ page, ApprovalPage db t.orgId t.id limit page :=
    ⟨_, (db.approvalsOf t.orgId t.id).insertionSort fun a b => b.createdAt ≤ a.createdAt,
      List.perm_insertionSort _ _, List.pairwise_insertionSort _ _, rfl⟩
  obtain ⟨window, hwindow⟩ := hpage approvalWindow
  obtain ⟨page, hpage⟩ := hpage summaryPage
  have haccess : ensureTraceAccess db t.orgId t.id = .ok () :=
    ensureTraceAccess_eq_ok.mpr ⟨t, hsound.getTraceById ht, rfl⟩
  have hreplay := hsound.replayTrace_eq hideal ht hne
  have hexport : ∃ x : EvidenceExport,
      Attest.buildEvidenceExport svc db t.orgId t.id batches window page = .ok x ∧
        x.bundle = bundle := by
    simp only [Attest.buildEvidenceExport, hbundle, hreplay, buildComplianceSummary,
      Attest.workflowGate, haccess, Except.ok_bind', Except.pure_eq, Except.ok.injEq,
      exists_eq_left']
  obtain ⟨x, hx, rfl⟩ := hexport
  exact ⟨x, ⟨batches, window, page, hbatches, hwindow, hpage, hx⟩, hbundle⟩

variable [KeyWrapping] [PyUnicode]

/-- An export of a trace shows ids and hashes of events of its organisation, and of the
events its batches hold. It is the same in every reachable state that agrees on the rows
of the organisation and on what those batches are made of. -/
theorem exported_confined (hideal : SignatureScheme.Ideal) {w : World}
    (h : (ledger svc).Reachable w) {t : Trace} (ht : t ∈ w.db.traces) :
    (∀ x, Exported svc w.db t.orgId t.id x →
      (∀ id ∈ x.bundle.allEventIds, ∃ e ∈ w.db.events, Disclosed w.db t e ∧ id = e.id.str) ∧
        ∀ hash ∈ x.bundle.allEventHashes,
          ∃ e ∈ w.db.events, Disclosed w.db t e ∧ hash = e.hash) ∧
      ∀ w', (ledger svc).Reachable w' → AgreesFor t.orgId t.id w.db w'.db →
        ∀ x, Exported svc w.db t.orgId t.id x ↔ Exported svc w'.db t.orgId t.id x := by
  have hsound := sound_of_reachable h
  constructor
  · rintro x ⟨batches, window, page, hbatches, -, -, hexport⟩
    obtain ⟨bundle, hbundle, hexport⟩ := Except.bind_eq_ok.mp hexport
    simp only [Except.bind_eq_ok, Except.pure_eq, Except.ok.injEq] at hexport
    obtain ⟨_, -, _, -, rfl⟩ := hexport
    exact hsound.bundle_shows ht hbatches hbundle
  · intro w' h' hagree x
    have hsound' := sound_of_reachable h'
    exact ⟨hagree.exported hideal hsound hsound' ht,
      hagree.symm.exported hideal hsound' hsound (hagree.mem_traces ht rfl)⟩

/-- Every event that an export of the trace shows is of its organisation. -/
def ShowsOnlyOwn (svc : SigningKeyPair) (db : Db) (t : Trace) : Prop :=
  ∀ x, Exported svc db t.orgId t.id x →
    (∀ id ∈ x.bundle.allEventIds, ∃ e ∈ db.events, e.orgId = t.orgId ∧ id = e.id.str) ∧
      ∀ hash ∈ x.bundle.allEventHashes, ∃ e ∈ db.events, e.orgId = t.orgId ∧ hash = e.hash

theorem Unshared.orgId_eq {db : Db} {t : Trace} (h : Unshared db t) {e : Event}
    (he : e ∈ db.events) (hshown : Disclosed db t e) : e.orgId = t.orgId := by
  rcases hshown with horg | ⟨b, hb, hid⟩
  · exact horg
  · exact h b hb e he hid

/-- The exports of a trace are confined exactly if its batches are not shared : an export
lists all that its batches list. -/
theorem showsOnlyOwn_iff (hideal : SignatureScheme.Ideal) {w : World}
    (h : (ledger svc).Reachable w) {t : Trace} (ht : t ∈ w.db.traces) :
    ShowsOnlyOwn svc w.db t ↔ Unshared w.db t := by
  have hsound := sound_of_reachable h
  constructor
  · intro hconfined b hb e he hid
    have hne : w.db.eventsForTrace t.orgId t.id ≠ [] := by
      obtain ⟨x, hx, -⟩ := List.any_eq_true.mp (List.mem_filter.mp hb).2
      exact List.ne_nil_of_mem hx
    obtain ⟨x, hx, hbundle⟩ := hsound.exists_exported hideal (sealed_of_reachable h) ht hne
      (List.Perm.refl _)
    obtain ⟨e', he', horg, hsame⟩ := (hconfined x hx).1 _ (batch_exported hbundle hb hid)
    obtain rfl : e = e' := List.inj_on_of_nodup_map hsound.ids_nodup he he'
      (Uuid.str_injective hsame)
    exact horg
  · intro hfree x hx
    obtain ⟨hids, hhashes⟩ := (exported_confined hideal h ht).1 x hx
    constructor
    · intro id hid
      obtain ⟨e, he, hshown, hsame⟩ := hids id hid
      exact ⟨e, he, hfree.orgId_eq he hshown, hsame⟩
    · intro hash hhash
      obtain ⟨e, he, hshown, hsame⟩ := hhashes hash hhash
      exact ⟨e, he, hfree.orgId_eq he hshown, hsame⟩

/-- Two reachable states that agree on what is an organisation's show, in the exports of a
trace of it, nothing of others and no difference between them, exactly if in both of them no
batch of the trace is shared. -/
theorem exported_confined_iff (hideal : SignatureScheme.Ideal) {w w' : World}
    (h : (ledger svc).Reachable w) (h' : (ledger svc).Reachable w') {t : Trace}
    (ht : t ∈ w.db.traces) (hagree : AgreesOwn t.orgId t.id w.db w'.db) :
    (ShowsOnlyOwn svc w.db t ∧ ShowsOnlyOwn svc w'.db t ∧
        ∀ x, Exported svc w.db t.orgId t.id x ↔ Exported svc w'.db t.orgId t.id x) ↔
      Unshared w.db t ∧ Unshared w'.db t := by
  have ht' := hagree.mem_traces ht rfl
  rw [showsOnlyOwn_iff hideal h ht, showsOnlyOwn_iff hideal h' ht']
  constructor
  · exact fun hclaim => ⟨hclaim.1, hclaim.2.1⟩
  · rintro ⟨hfree, hfree'⟩
    have hfor := hagree.agreesFor (sound_of_reachable h) (sound_of_reachable h')
      (sealed_of_reachable h) (sealed_of_reachable h') hfree hfree'
    exact ⟨hfree, hfree', (exported_confined hideal h ht).2 w' h' hfor⟩

end Export

/-! ## Two organisations, in one batch and not -/

def sampleOther : Org := { sampleOrg with id := "globex", name := "Globex" }

def sampleTwoOrgs : Db := { Db.empty with orgs := [sampleOrg, sampleOther] }

def sampleOtherArgs : RecordArgs :=
  { sampleArgs with orgId := "globex", traceId := Uuid.ofNat 3 }

def sampleOtherFresh : Fresh := ⟨"2025-01-01T00:00:00+00:00", Uuid.ofNat 4, []⟩

/-- An event of each, sealed together. -/
theorem exists_shared_batch : ∃ (w : World) (e f : Event) (b : Batch),
    (@ledger .transparent .lenient .ascii sampleKey).Reachable w ∧ w.db.events = [e, f] ∧
      e.orgId = "acme" ∧ f.orgId = "globex" ∧ w.db.batches = [b] ∧ e.batchId = some b.id ∧
        b.eventIds = [e.id, f.id] := by
  have h : (@recordEvent .transparent .lenient .ascii sampleKey sampleTwoOrgs sampleArgs sampleFresh
      >>= fun r₁ => @recordEvent .transparent .lenient .ascii sampleKey r₁.1 sampleOtherArgs
        sampleOtherFresh
      >>= fun r₂ => @sealBatch .transparent sampleKey r₂.1 r₂.1.events (Uuid.ofNat 5)
        "2025-01-01T00:00:00+00:00").succeeds = true := by
    decide +kernel
  simp only [Except.succeeds_bind] at h
  obtain ⟨⟨db₁, out₁⟩, hfirst, ⟨db₂, out₂⟩, hsecond, hseal⟩ := h
  obtain ⟨⟨db₃, result⟩, hseal⟩ := Except.succeeds_iff.mp hseal
  have hrun := (@run_recordEvent .transparent _ .lenient .ascii _ _ _ _ _ hfirst []).trans
    (@run_recordEvent .transparent _ .lenient .ascii _ _ _ _ _ hsecond [])
  have hreach : (@ledger .transparent .lenient .ascii sampleKey).Reachable ⟨db₂, []⟩ :=
    ⟨⟨sampleTwoOrgs, []⟩, ⟨rfl, rfl, rfl, rfl, rfl, rfl⟩, hrun⟩
  obtain ⟨e, _, _, _, he, ⟨-, htime⟩, -, hdb₁⟩ :=
    @recordEvent_eq_ok .transparent .lenient .ascii _ _ _ _ _ _ hfirst
  obtain ⟨f, _, _, _, hf, ⟨-, htime'⟩, -, hdb₂⟩ :=
    @recordEvent_eq_ok .transparent .lenient .ascii _ _ _ _ _ _ hsecond
  have hevents : db₂.events = [e, f] := by
    rw [hdb₂, hdb₁]
    rfl
  have hbatches : db₂.batches = [] := by
    rw [hdb₂, hdb₁]
    rfl
  have hfree : ∀ x ∈ db₂.events, x.batchId = none := by
    rw [hevents]
    simpa using ⟨@Event.Records.batchId_eq .ascii _ _ he, @Event.Records.batchId_eq .ascii _ _ hf⟩
  have hunbatched : UnbatchedEvents db₂ db₂.events := by
    refine ⟨?_, ?_⟩
    · rw [List.filter_eq_self.mpr fun x hx => by simpa using hfree x hx]
    · rw [hevents]
      simp [htime, htime', sampleFresh, sampleOtherFresh]
  have hreach' : (@ledger .transparent .lenient .ascii sampleKey).Reachable ⟨db₃, []⟩ :=
    hreach.step (@Step.sealBatch .transparent .lenient .ascii _ _ _ _ _ _ _ _ hunbatched hseal)
  rcases @sealBatch_eq_ok .transparent _ _ _ _ _ _ _ hseal with
    ⟨hnil, -⟩ | ⟨root, signature, -, -, -, -, hdb₃⟩
  · simp [hevents] at hnil
  refine ⟨⟨db₃, []⟩, e.assign [e.id, f.id] (Uuid.ofNat 5), f.assign [e.id, f.id] (Uuid.ofNat 5),
    ⟨Uuid.ofNat 5, soleOrg [e, f], root, signature, [e.id, f.id], "2025-01-01T00:00:00+00:00"⟩,
    hreach', ?_, ?_, ?_, ?_, ?_, ?_⟩
  · rw [hdb₃]
    simp [hevents]
  · exact (congrArg Event.orgId (Event.assign_eq _ _ e)).trans
      (@Event.Records.orgId_eq .ascii _ _ he)
  · exact (congrArg Event.orgId (Event.assign_eq _ _ f)).trans
      (@Event.Records.orgId_eq .ascii _ _ hf)
  · rw [hdb₃]
    simp [hevents, hbatches]
  · simp [Event.assign]
  · simp [Event.assign]

/-- The trace of the first, and its export. -/
theorem exists_shared_export : ∃ (w : World) (t : Trace) (x : EvidenceExport) (e f : Event),
    (@ledger .transparent .lenient .ascii sampleKey).Reachable w ∧ w.db.events = [e, f] ∧
      f.orgId ≠ t.orgId ∧ t ∈ w.db.traces ∧
        @Exported .transparent sampleKey w.db t.orgId t.id x ∧ f.id.str ∈ x.bundle.allEventIds := by
  obtain ⟨w, e, f, b, hreach, hevents, heorg, hforg, hbatches, hbatch, hids⟩ := exists_shared_batch
  have hsound := @sound_of_reachable .transparent sampleKey .lenient .ascii _ hreach
  have hsealed := @sealed_of_reachable .transparent sampleKey .lenient .ascii _ hreach
  have he : e ∈ w.db.events := by simp [hevents]
  obtain ⟨t, ht, htid, htorg⟩ := @Sound.traced .transparent _ _ hsound e he
  have hrow : e ∈ w.db.eventsForTrace t.orgId t.id := by
    rw [Db.eventsForTrace, List.mem_insertionSort, Db.mem_traceRows]
    exact ⟨he, htorg.symm, htid.symm⟩
  obtain ⟨x, hx, hbundle⟩ := @Sound.exists_exported .transparent sampleKey _
    SignatureScheme.ideal_transparent hsound hsealed t ht (List.ne_nil_of_mem hrow) _
    (List.Perm.refl _)
  refine ⟨w, t, x, e, f, hreach, hevents, ?_, ht, hx, ?_⟩
  · rw [htorg, heorg, hforg]
    decide
  · refine @batch_exported .transparent _ _ _ _ _ _ hbundle b ?_ _ (by simp [hids])
    rw [List.mem_filter, hbatches]
    exact ⟨List.mem_singleton.mpr rfl, List.any_eq_true.mpr ⟨e, hrow, by simpa using hbatch⟩⟩

/-- An event of one, sealed by itself, and after it an event of the other. -/
theorem exists_own_batch : ∃ (w w' : World) (e f : Event) (b : Batch),
    (@ledger .transparent .lenient .ascii sampleKey).Reachable w ∧
      (@ledger .transparent .lenient .ascii sampleKey).Reachable w' ∧ e.orgId = "acme" ∧
        w.db.events = [e] ∧ w'.db.events = [e, f] ∧ w.db.batches = [b] ∧ w'.db.batches = [b] ∧
          e.batchId = some b.id ∧ b.eventIds = [e.id] ∧ f.id ≠ e.id ∧
            ∀ traceId, AgreesOwn "acme" traceId w.db w'.db := by
  have h : (@recordEvent .transparent .lenient .ascii sampleKey sampleTwoOrgs sampleArgs sampleFresh
      >>= fun r₁ => @sealBatch .transparent sampleKey r₁.1 r₁.1.events (Uuid.ofNat 5)
        "2025-01-01T00:00:00+00:00"
      >>= fun r₂ => @recordEvent .transparent .lenient .ascii sampleKey r₂.1 sampleOtherArgs
        sampleOtherFresh).succeeds = true := by
    decide +kernel
  simp only [Except.succeeds_bind] at h
  obtain ⟨⟨db₁, out₁⟩, hfirst, ⟨db₂, result⟩, hseal, hsecond⟩ := h
  obtain ⟨⟨db₃, out₃⟩, hsecond⟩ := Except.succeeds_iff.mp hsecond
  have hrun := @run_recordEvent .transparent _ .lenient .ascii _ _ _ _ _ hfirst []
  have hreach₁ : (@ledger .transparent .lenient .ascii sampleKey).Reachable ⟨db₁, []⟩ :=
    ⟨⟨sampleTwoOrgs, []⟩, ⟨rfl, rfl, rfl, rfl, rfl, rfl⟩, hrun⟩
  obtain ⟨e, _, _, _, he, ⟨hid, -⟩, -, hdb₁⟩ :=
    @recordEvent_eq_ok .transparent .lenient .ascii _ _ _ _ _ _ hfirst
  have hevents : db₁.events = [e] := by
    rw [hdb₁]
    rfl
  have hunbatched : UnbatchedEvents db₁ db₁.events := by
    refine ⟨?_, ?_⟩
    · rw [hevents]
      simp [@Event.Records.batchId_eq .ascii _ _ he]
    · simp [hevents]
  have hreach₂ : (@ledger .transparent .lenient .ascii sampleKey).Reachable ⟨db₂, []⟩ :=
    hreach₁.step (@Step.sealBatch .transparent .lenient .ascii _ _ _ _ _ _ _ _ hunbatched hseal)
  obtain ⟨s₀, hinit, hrun₂⟩ := id hreach₂
  obtain ⟨f, hrecorded, -⟩ := @recordEvent_recorded .lenient .transparent .ascii _ _ _ _ _ _ hsecond
  rcases @sealBatch_eq_ok .transparent _ _ _ _ _ _ _ hseal with
    ⟨hnil, -⟩ | ⟨root, signature, -, -, -, -, hdb₂⟩
  · simp [hevents] at hnil
  have hbatches : db₂.batches =
      [⟨Uuid.ofNat 5, soleOrg [e], root, signature, [e.id], "2025-01-01T00:00:00+00:00"⟩] := by
    rw [hdb₂, hdb₁]
    rfl
  have hne : f.id ≠ e.id := by
    rw [@Recorded.id_eq .lenient .ascii _ _ _ _ _ hrecorded, hid]
    decide
  have hevents₂ : db₂.events = [e.assign [e.id] (Uuid.ofNat 5)] := by
    rw [hdb₂]
    simp [hevents]
  obtain ⟨ts, ps, ks, hdb₃⟩ := @Recorded.others .lenient .transparent .ascii _ _ _ _ _ hrecorded
  refine ⟨⟨db₂, []⟩, ⟨db₃, []⟩, e.assign [e.id] (Uuid.ofNat 5), f, _, hreach₂,
    ⟨s₀, hinit, hrun₂.trans (@run_recordEvent .transparent _ .lenient .ascii _ _ _ _ _ hsecond [])⟩,
    ?_, hevents₂, ?_, hbatches, ?_, ?_, ?_, ?_, ?_⟩
  · exact (congrArg Event.orgId (Event.assign_eq _ _ e)).trans
      (@Event.Records.orgId_eq .ascii _ _ he)
  · rw [hdb₃]
    simp [hevents₂]
  · rw [hdb₃]
    exact hbatches
  · simp [Event.assign]
  · simp [Event.assign]
  · simpa [Event.assign] using hne
  · intro traceId
    refine @agreesOwn_of_recorded .lenient .ascii _ _ "acme" traceId _ _ _ hrecorded ?_ ?_
    · decide
    · simp [hbatches, hne]

theorem exported_confined_iff_sample : ∃ (w w' : World) (t : Trace),
    w.db.batchesOfTrace t.orgId t.id ≠ [] ∧ w.db.events ≠ w'.db.events ∧
      @ShowsOnlyOwn .transparent sampleKey w.db t ∧ @ShowsOnlyOwn .transparent sampleKey w'.db t ∧
        ∀ x, @Exported .transparent sampleKey w.db t.orgId t.id x ↔
          @Exported .transparent sampleKey w'.db t.orgId t.id x := by
  obtain ⟨w, w', e, f, b, hreach, hreach', horg, hevents, hevents', hbatches, hbatches', hbatch,
    hids, hne, hagree⟩ := exists_own_batch
  have hsound := @sound_of_reachable .transparent sampleKey .lenient .ascii _ hreach
  obtain ⟨t, ht, htid, htorg⟩ := @Sound.traced .transparent _ _ hsound e (by simp [hevents])
  have htrace : t.orgId = "acme" := htorg.trans horg
  have hrow : e ∈ w.db.eventsForTrace t.orgId t.id := by
    rw [Db.eventsForTrace, List.mem_insertionSort, Db.mem_traceRows]
    exact ⟨by simp [hevents], htorg.symm, htid.symm⟩
  have hmem : b ∈ w.db.batchesOfTrace t.orgId t.id := by
    rw [Db.batchesOfTrace, List.mem_filter, hbatches]
    exact ⟨List.mem_singleton.mpr rfl, List.any_eq_true.mpr ⟨e, hrow, by simpa using hbatch⟩⟩
  have hfree (db : Db) (hdb : db.batches = [b])
      (hrows : ∀ x ∈ db.events, x.id = e.id → x.orgId = t.orgId) : Unshared db t := by
    intro b' hb' x hx hid
    obtain rfl : b' = b := by simpa [hdb] using (List.mem_filter.mp hb').1
    exact hrows x hx (by simpa [hids] using hid)
  have hiff := @exported_confined_iff .transparent sampleKey .lenient .ascii
    SignatureScheme.ideal_transparent w w' hreach hreach' t ht (htrace ▸ hagree t.id)
  refine ⟨w, w', t, List.ne_nil_of_mem hmem, by simp [hevents, hevents'], hiff.mpr ⟨?_, ?_⟩⟩
  · exact hfree w.db hbatches (by simp [hevents, htorg])
  · exact hfree w'.db hbatches' (by simp [hevents', htorg, hne])

/-- The export of one organisation's trace holds the id of the other's event. -/
theorem shared_batch_disclosed : ¬ ∀ (w : World) (t : Trace) (x : EvidenceExport),
    (@ledger .transparent .lenient .ascii sampleKey).Reachable w → t ∈ w.db.traces →
      @Exported .transparent sampleKey w.db t.orgId t.id x →
        ∀ id ∈ x.bundle.allEventIds, ∃ e ∈ w.db.events, e.orgId = t.orgId ∧ id = e.id.str := by
  intro hclaim
  obtain ⟨w, t, x, e, f, hreach, hevents, hother, ht, hx, hid⟩ := exists_shared_export
  obtain ⟨g, hg, horg, hsame⟩ := hclaim w t x hreach ht hx _ hid
  have hsound := @sound_of_reachable .transparent sampleKey .lenient .ascii _ hreach
  have hfg : f = g := List.inj_on_of_nodup_map (@Sound.ids_nodup .transparent _ _ hsound)
    (by simp [hevents]) hg (Uuid.str_injective hsame)
  exact hother (hfg ▸ horg)

end Attest
