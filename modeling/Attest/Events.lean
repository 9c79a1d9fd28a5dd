import Attest.Envelope
import Attest.OrgSigning
import Attest.PayloadStore
import Attest.Pii

/-!
# Recording an event

`recordEvent` appends one event to a trace : it opens the trace, reads its tip, signs
an envelope that names the tip's hash, stores the redacted content and inserts the
row. Its four phases are functions of their own (`openTrace`, `readTip`, `draftEvent`,
`Draft.insert`), since two writers may run theirs against different states of the
database.

What the clock and the random generators give a call is an argument (`Fresh`).
-/

namespace Attest

/-- The arguments of `record_event`. -/
structure RecordArgs where
  orgId : String
  traceId : Uuid
  seq : Int
  eventType : String
  payload : Dict
  policyVersion : Option String

/-- What the clock and the random generators give one `record_event`. -/
structure Fresh where
  /-- `now_utc_iso()`. -/
  now : String
  eventId : Uuid
  contentKey : Bytes

/-- What `record_event` returns. -/
structure EventOut where
  hash : String
  signature : String
  seq : Int
  prevHash : String
  eventId : String
deriving DecidableEq

/-! ## The phases -/

/-- `not event_type or not event_type.strip()`. -/
def checkEventType [PyUnicode] (eventType : String) : Except PyError Unit :=
  require (!PyText.isBlank eventType) (.invalidEventType "event type must be a non-empty string")

/-- The row `get_or_create_trace` adds, `none` where the trace is there. -/
def openTrace (db : Db) (orgId : String) (traceId : Uuid) (policyVersion : Option String) :
    Except PyError (Option Trace) :=
  match db.getTraceById traceId with
  | some t =>
    if t.orgId = orgId then .ok none
    else .error (.traceAccessDenied ("trace access denied: " ++ traceId.str))
  | none => .ok (some ⟨traceId, orgId, policyVersion⟩)

def insertOpened (db : Db) : Option Trace → Except PyError Db
  | none => .ok db
  | some t => db.insertTrace t

/-- `get_or_create_trace(db, org_id, trace_id, policy_version)`. -/
def getOrCreateTrace (db : Db) (orgId : String) (traceId : Uuid) (policyVersion : Option String) :
    Except PyError Db := do
  let opened ← openTrace db orgId traceId policyVersion
  insertOpened db opened

/-- `1 if last is None else last.seq + 1`. -/
def nextSeq : Option Event → Int
  | none => 1
  | some last => last.seq + 1

/-- The tip of the trace, where `seq` is the one after it. -/
def readTip (db : Db) (orgId : String) (traceId : Uuid) (seq : Int) :
    Except PyError (Option Event) :=
  let last := db.lastEventForTrace orgId traceId
  if seq = nextSeq last then .ok last
  else .error (.eventSequence ("out-of-order seq: expected " ++
    String.ofList (JVal.intText (nextSeq last)) ++ ", got " ++ String.ofList (JVal.intText seq)))

/-- An event ready to insert, with the content rows it adds. -/
structure Draft where
  event : Event
  content : Option (Payload × PayloadKey)

/-- The inserts of `record_event`, content first. -/
def Draft.insert (db : Db) (d : Draft) : Except PyError Db := do
  let db ← insertSealed db d.content
  db.insertEventRow d.event

/-- What `record_event` returns for the event it inserted. -/
def EventOut.ofEvent (e : Event) : EventOut where
  hash := e.hash
  signature := e.signature
  seq := e.seq
  prevHash := e.prevHash.getD ""
  eventId := e.id.str

theorem sealPayload_congr [KeyWrapping] {db db' : Db} (hp : db'.payloads = db.payloads)
    (ho : db'.orgs = db.orgs) (orgId payloadHash : String) (content : Dict) (labels : List String)
    (key : Bytes) : sealPayload db' orgId payloadHash content labels key =
      sealPayload db orgId payloadHash content labels key := by
  simp only [sealPayload, Db.getPayload, Db.getOrgById, hp, ho]

theorem openTrace_eq_ok {db : Db} {orgId : String} {traceId : Uuid} {pv : Option String}
    {opened : Option Trace} (h : openTrace db orgId traceId pv = .ok opened) :
    (opened = none ∧ ∃ t ∈ db.traces, t.id = traceId ∧ t.orgId = orgId) ∨
      (opened = some ⟨traceId, orgId, pv⟩ ∧ db.getTraceById traceId = none) := by
  unfold openTrace at h
  cases ht : db.getTraceById traceId with
  | none =>
    rw [ht] at h
    exact Or.inr ⟨(Except.ok.inj h).symm, rfl⟩
  | some t =>
    rw [ht] at h
    obtain ⟨hmem, hid⟩ := Db.mem_of_getTraceById ht
    by_cases horg : t.orgId = orgId
    · simp only [horg, if_true, Except.ok.injEq] at h
      exact Or.inl ⟨h.symm, t, hmem, hid, horg⟩
    · simp [horg] at h

/-- Opening a trace leaves the other tables. -/
theorem insertOpened_eq_ok {db db' : Db} {trace : Option Trace}
    (h : insertOpened db trace = .ok db') :
    ∃ ts, db' = { db with traces := ts } := by
  cases trace with
  | none =>
    obtain rfl : db = db' := by simpa [insertOpened] using h
    exact ⟨_, rfl⟩
  | some t => exact ⟨_, (Db.insertTrace_eq_ok.mp h).2⟩

theorem readTip_eq_ok {db : Db} {orgId : String} {traceId : Uuid} {seq : Int}
    {last : Option Event} :
    readTip db orgId traceId seq = .ok last ↔
      last = db.lastEventForTrace orgId traceId ∧ seq = nextSeq last := by
  unfold readTip
  by_cases hseq : seq = nextSeq (db.lastEventForTrace orgId traceId)
  · rw [if_pos hseq, Except.ok.injEq]
    constructor
    · rintro rfl
      exact ⟨rfl, hseq⟩
    · rintro ⟨rfl, -⟩
      rfl
  · rw [if_neg hseq]
    constructor
    · intro h
      cases h
    · rintro ⟨rfl, h⟩
      exact absurd h hseq

/-- Inserting a draft touches the events and the content tables alone. -/
theorem Draft.insert_eq_ok {db db' : Db} {d : Draft} (h : d.insert db = .ok db') :
    (∀ x ∈ db.events, x.id ≠ d.event.id) ∧
      (∀ x ∈ db.events, x.traceId = d.event.traceId → x.seq ≠ d.event.seq) ∧
        ∃ ps ks, db' = { db with payloads := ps, payloadKeys := ks,
                                 events := db.events ++ [d.event] } := by
  obtain ⟨db₁, hsealed, hevent⟩ := Except.bind_eq_ok.mp h
  obtain ⟨ps, ks, rfl⟩ := insertSealed_eq_ok hsealed
  obtain ⟨⟨-, -, hid, hseq, -, -⟩, rfl⟩ := Db.insertEventRow_eq_ok.mp hevent
  exact ⟨hid, hseq, ps, ks, rfl⟩

variable [SignatureScheme] [KeyWrapping] [PyUnicode]

/-- The event that follows `last`, signed. -/
def draftEvent (svc : SigningKeyPair) (db : Db) (args : RecordArgs) (last : Option Event)
    (fresh : Fresh) : Except PyError Draft := do
  let prevHash := last.map Event.hash
  let (redactedPayload, piiLabels) := redactPayload args.payload
  let payloadHash := sha256Hex redactedPayload
  let envelope := buildEnvelope args.traceId.str args.seq args.eventType payloadHash prevHash
    args.policyVersion (.str fresh.now) (.str defaultAlgorithm)
  let eventHash := sha256Hex envelope
  let (signature, signingKeyId) ← signEventForOrg svc db args.orgId eventHash
  let content ← sealPayload db args.orgId payloadHash redactedPayload piiLabels fresh.contentKey
  return {
    event := {
      id := fresh.eventId
      orgId := args.orgId
      traceId := args.traceId
      batchId := none
      seq := args.seq
      type := args.eventType
      payloadHash := payloadHash
      envelope := envelope
      prevHash := prevHash
      hash := eventHash
      signature := signature
      alg := defaultAlgorithm
      signingKeyId := signingKeyId
      policyVersion := args.policyVersion
      createdAt := fresh.now
      deferred := false
      occurredAt := none
      clientDeviceId := none
      clientSignature := none }
    content := content }

/-- `record_event(db, ..)`. -/
def recordEvent (svc : SigningKeyPair) (db : Db) (args : RecordArgs) (fresh : Fresh) :
    Except PyError (Db × EventOut) := do
  checkEventType args.eventType
  let db ← getOrCreateTrace db args.orgId args.traceId args.policyVersion
  let last ← readTip db args.orgId args.traceId args.seq
  let draft ← draftEvent svc db args last fresh
  let db ← draft.insert db
  return (db, EventOut.ofEvent draft.event)

/-! ## What a recorded event is -/

/-- The event's columns are what its envelope says, its hash is the envelope's, and a
key the table names signed it. -/
structure Event.Signed (svc : SigningKeyPair) (db : Db) (e : Event) : Prop where
  envelope_eq : e.envelope = buildEnvelope e.traceId.str e.seq e.type e.payloadHash e.prevHash
    e.policyVersion (.str e.createdAt) (.str defaultAlgorithm)
  hash_eq : e.hash = sha256Hex e.envelope
  alg_eq : e.alg = defaultAlgorithm
  signature_eq : ∃ pair, keyPairOf svc db e.signingKeyId pair ∧
    e.signature = Bytes.hex (SignatureScheme.sign pair.privatePem
      (sha256 (canonicalBytes e.envelope)))

/-- The draft follows `last` in its trace, signed and in no batch. -/
structure Draft.Follows (svc : SigningKeyPair) (db : Db) (args : RecordArgs) (last : Option Event)
    (d : Draft) : Prop where
  traceId_eq : d.event.traceId = args.traceId
  orgId_eq : d.event.orgId = args.orgId
  seq_eq : d.event.seq = args.seq
  prevHash_eq : d.event.prevHash = last.map Event.hash
  batchId_eq : d.event.batchId = none
  signed : d.event.Signed svc db

theorem draftEvent_follows {svc : SigningKeyPair} {db : Db} {args : RecordArgs}
    {last : Option Event} {fresh : Fresh} {d : Draft} (hkeys : ∀ k ∈ db.signingKeys, k.Managed)
    (h : draftEvent svc db args last fresh = .ok d) : d.Follows svc db args last := by
  simp only [draftEvent, Except.bind_eq_ok, Except.pure_eq, Except.ok.injEq] at h
  obtain ⟨⟨signature, signingKeyId⟩, hsign, content, hcontent, rfl⟩ := h
  obtain ⟨pair, hpair, hsignature⟩ := signEventForOrg_spec hkeys hsign
  exact ⟨rfl, rfl, rfl, rfl, rfl, ⟨rfl, rfl, rfl, pair, hpair, hsignature⟩⟩

/-- A draft reads the signing keys, the organisations and the stored content. -/
theorem draftEvent_congr {svc : SigningKeyPair} {db db' : Db}
    (hk : db'.signingKeys = db.signingKeys) (hp : db'.payloads = db.payloads)
    (ho : db'.orgs = db.orgs) (args : RecordArgs) (last : Option Event) (fresh : Fresh) :
    draftEvent svc db' args last fresh = draftEvent svc db args last fresh := by
  simp only [draftEvent, signEventForOrg, Db.activeSigningKey, hk, sealPayload_congr hp ho]

/-- The event holds what it was recorded with. -/
structure Event.Records (args : RecordArgs) (e : Event) : Prop where
  orgId_eq : e.orgId = args.orgId
  traceId_eq : e.traceId = args.traceId
  seq_eq : e.seq = args.seq
  type_eq : e.type = args.eventType
  payloadHash_eq : e.payloadHash = sha256Hex (redactPayload args.payload).1
  policyVersion_eq : e.policyVersion = args.policyVersion
  batchId_eq : e.batchId = none
  deferred_eq : e.deferred = false

theorem draftEvent_records {svc : SigningKeyPair} {db : Db} {args : RecordArgs}
    {last : Option Event} {fresh : Fresh} {d : Draft}
    (h : draftEvent svc db args last fresh = .ok d) :
    d.event.Records args ∧ d.event.id = fresh.eventId ∧ d.event.createdAt = fresh.now := by
  simp only [draftEvent, Except.bind_eq_ok, Except.pure_eq, Except.ok.injEq] at h
  obtain ⟨_, -, _, -, rfl⟩ := h
  exact ⟨⟨rfl, rfl, rfl, rfl, rfl, rfl, rfl, rfl⟩, rfl, rfl⟩

/-- What recording did : one event more, and rows of its trace and its content. -/
theorem recordEvent_eq_ok {svc : SigningKeyPair} {db db' : Db} {args : RecordArgs} {fresh : Fresh}
    {out : EventOut} (h : recordEvent svc db args fresh = .ok (db', out)) :
    ∃ e ts ps ks, e.Records args ∧ (e.id = fresh.eventId ∧ e.createdAt = fresh.now) ∧
      out = EventOut.ofEvent e ∧
      db' = { db with traces := ts, payloads := ps, payloadKeys := ks,
                      events := db.events ++ [e] } := by
  simp only [recordEvent, getOrCreateTrace, Except.bind_eq_ok, Except.pure_eq, Except.ok.injEq,
    Prod.mk.injEq] at h
  obtain ⟨_, -, _, ⟨_, -, hinsert⟩, _, -, d, hdraft, _, hcommit, rfl, rfl⟩ := h
  obtain ⟨ts, rfl⟩ := insertOpened_eq_ok hinsert
  obtain ⟨-, -, ps, ks, rfl⟩ := Draft.insert_eq_ok hcommit
  obtain ⟨hrecords, hid⟩ := draftEvent_records hdraft
  exact ⟨d.event, ts, ps, ks, hrecords, hid, rfl, rfl⟩

end Attest
