import Attest.Precheck
import Attest.Recording
import Attest.Lib.PyTime

/-!
# Consent-gated access

The service files a request for a set of records with a key pair of its own
(`createAccessRequest`). Officers of the organisation approve it, either with the
organisation's private key at hand (`approveAccessRequest`) or by posting keys that were
wrapped again on their side (`recordClientApproval`). It may be denied or revoked
(`resolveAccessRequest`), and while it is approved and not expired the service reads a
record of its scope (`readViaGrant`). Each of these appends one event to the trace of the
request.

Every call has one lemma that says what it did.
-/

set_option linter.unusedSectionVars false

namespace Attest

/-! ## Wrapping keys -/

/-- The library that wraps content keys, with what it reads a private PEM as and which
private key opens what was wrapped to which public key. -/
class KeyUnwrapping extends KeyWrapping where
  privateKind : String → PemKind
  opens : String → String → Bool

/-- A library whose private keys open what is wrapped to the same text. -/
@[reducible] def KeyUnwrapping.lenient : KeyUnwrapping where
  publicKind _ := .usable
  privateKind _ := .usable
  opens privatePem publicPem := privatePem == publicPem

/-- What `generate_wrapping_keypair()` returns. -/
structure WrappingKeyPair [KeyUnwrapping] where
  privatePem : String
  publicPem : String
  isPrivate : KeyUnwrapping.privateKind privatePem = .usable
  isPublic : KeyWrapping.publicKind publicPem = .usable
  isPair : KeyUnwrapping.opens privatePem publicPem = true

/-- `unwrap_key(private_pem, wrapped_key)`. -/
def unwrapKey [KeyUnwrapping] (privatePem : String) (wrapped : StoredKey) :
    Except PyError Bytes :=
  match KeyUnwrapping.privateKind privatePem with
  | .invalid => .error .valueError
  | .other => .error (.keyWrapping "expected an RSA private wrapping key")
  | .usable =>
    match wrapped with
    | .raw _ => .error (.keyWrapping "could not unwrap content key")
    | .wrapped publicPem key =>
      if KeyUnwrapping.opens privatePem publicPem then .ok key
      else .error (.keyWrapping "could not unwrap content key")

/-- `regrant_key(org_private_pem, wrapped_for_org, grantee_public_pem)`. -/
def regrantKey [KeyUnwrapping] (orgPrivatePem : String) (wrappedForOrg : StoredKey)
    (granteePublicPem : String) : Except PyError StoredKey := do
  let key ← unwrapKey orgPrivatePem wrappedForOrg
  wrapKey granteePublicPem key

theorem unwrapKey_eq_ok [KeyUnwrapping] {privatePem : String} {wrapped : StoredKey} {key : Bytes} :
    unwrapKey privatePem wrapped = .ok key ↔
      KeyUnwrapping.privateKind privatePem = .usable ∧
        ∃ pem, wrapped = .wrapped pem key ∧ KeyUnwrapping.opens privatePem pem = true := by
  unfold unwrapKey
  cases hkind : KeyUnwrapping.privateKind privatePem with
  | invalid => simp
  | other => simp
  | usable =>
    cases wrapped with
    | raw k => simp
    | wrapped pem k =>
      by_cases hopens : KeyUnwrapping.opens privatePem pem = true
      · simp [hopens]
      · simp [hopens]

/-- A key is wrapped again only by the private key it was wrapped for. -/
theorem regrantKey_eq_ok [KeyUnwrapping] {orgPrivatePem granteePublicPem : String}
    {wrapped regranted : StoredKey} (h : regrantKey orgPrivatePem wrapped granteePublicPem =
      .ok regranted) : ∃ pem key, wrapped = .wrapped pem key ∧
        KeyUnwrapping.opens orgPrivatePem pem = true ∧
          regranted = .wrapped granteePublicPem key := by
  obtain ⟨key, hunwrap, hwrap⟩ := Except.bind_eq_ok.mp h
  obtain ⟨-, pem, rfl, hopens⟩ := unwrapKey_eq_ok.mp hunwrap
  refine ⟨pem, key, rfl, hopens, ?_⟩
  unfold wrapKey at hwrap
  cases hkind : KeyWrapping.publicKind granteePublicPem <;> simp [hkind] at hwrap
  exact hwrap.symm

/-! ## Rows -/

namespace Db

variable (db : Db)

/-- `db.get(AccessRequest, request_id)`. -/
def getAccessRequest (requestId : Uuid) : Option AccessRequest :=
  db.accessRequests.find? fun r => r.id = requestId

/-- The approvers of a request. -/
def approversOf (requestId : Uuid) : List String :=
  (db.accessApprovals.filter fun a => a.requestId = requestId).map AccessApproval.approverId

/-- The records of a request. -/
def scopeOf (requestId : Uuid) : List AccessGrantKey :=
  db.accessGrantKeys.filter fun g => g.requestId = requestId

def insertAccessRequest (r : AccessRequest) : Except PyError Db := do
  require (textOk r.requestedBy && textOk r.reason) .dataError
  require (!db.accessRequests.any fun x => x.id = r.id) .integrityError
  require (db.hasOrg r.orgId) .integrityError
  return { db with accessRequests := db.accessRequests ++ [r] }

def insertAccessApproval (a : AccessApproval) : Except PyError Db := do
  require (textOk a.approverId) .dataError
  require (!db.accessApprovals.any fun x => x.requestId = a.requestId ∧
    x.approverId = a.approverId) .integrityError
  return { db with accessApprovals := db.accessApprovals ++ [a] }

def insertGrantKey (g : AccessGrantKey) : Except PyError Db := do
  require (textOk g.payloadHash) .dataError
  require (!db.accessGrantKeys.any fun x => x.requestId = g.requestId ∧
    x.payloadHash = g.payloadHash) .integrityError
  return { db with accessGrantKeys := db.accessGrantKeys ++ [g] }

/-- The row of a request written back. -/
def setAccessRequest (r : AccessRequest) : Db :=
  { db with accessRequests := db.accessRequests.map fun x => if x.id = r.id then r else x }

theorem insertAccessRequest_eq_ok {db db' : Db} {r : AccessRequest} :
    db.insertAccessRequest r = .ok db' ↔
      ((textOk r.requestedBy = true ∧ textOk r.reason = true) ∧
        (∀ x ∈ db.accessRequests, x.id ≠ r.id) ∧ db.hasOrg r.orgId = true) ∧
        db' = { db with accessRequests := db.accessRequests ++ [r] } := by
  simp only [insertAccessRequest, Except.bind_eq_ok, require_eq_ok, Except.pure_eq,
    Except.ok.injEq, exists_const, Bool.not_eq_true', List.any_eq_false, decide_eq_true_eq,
    Bool.and_eq_true]
  tauto

theorem insertAccessApproval_eq_ok {db db' : Db} {a : AccessApproval} :
    db.insertAccessApproval a = .ok db' ↔
      (textOk a.approverId = true ∧ ∀ x ∈ db.accessApprovals, x.requestId = a.requestId →
        x.approverId ≠ a.approverId) ∧
        db' = { db with accessApprovals := db.accessApprovals ++ [a] } := by
  simp only [insertAccessApproval, Except.bind_eq_ok, require_eq_ok, Except.pure_eq,
    Except.ok.injEq, exists_const, Bool.not_eq_true', List.any_eq_false, decide_eq_true_eq,
    not_and, ne_eq]
  tauto

theorem insertGrantKey_eq_ok {db db' : Db} {g : AccessGrantKey} :
    db.insertGrantKey g = .ok db' ↔
      (textOk g.payloadHash = true ∧ ∀ x ∈ db.accessGrantKeys, x.requestId = g.requestId →
        x.payloadHash ≠ g.payloadHash) ∧
        db' = { db with accessGrantKeys := db.accessGrantKeys ++ [g] } := by
  simp only [insertGrantKey, Except.bind_eq_ok, require_eq_ok, Except.pure_eq, Except.ok.injEq,
    exists_const, Bool.not_eq_true', List.any_eq_false, decide_eq_true_eq, not_and, ne_eq]
  tauto

theorem mem_of_getAccessRequest {db : Db} {requestId : Uuid} {r : AccessRequest}
    (h : db.getAccessRequest requestId = some r) : r ∈ db.accessRequests ∧ r.id = requestId :=
  ⟨List.mem_of_find?_eq_some h, by simpa using List.find?_some h⟩

end Db

/-- The rows of the records of a new request. -/
def insertScope (db : Db) (requestId : Uuid) : List String → Except PyError Db
  | [] => .ok db
  | payloadHash :: rest => do
    let db ← db.insertGrantKey ⟨requestId, payloadHash, none⟩
    insertScope db requestId rest

theorem insertScope_eq_ok {requestId : Uuid} : ∀ {hashes : List String} {db db' : Db},
    insertScope db requestId hashes = .ok db' →
      db' = { db with accessGrantKeys :=
        db.accessGrantKeys ++ hashes.map fun h => ⟨requestId, h, none⟩ }
  | [], db, db', h => by
    obtain rfl := Except.ok.inj h
    simp
  | payloadHash :: rest, db, db', h => by
    obtain ⟨db₁, hinsert, hrest⟩ := Except.bind_eq_ok.mp h
    obtain ⟨-, rfl⟩ := Db.insertGrantKey_eq_ok.mp hinsert
    rw [insertScope_eq_ok hrest]
    simp

/-! ## The trace of a request -/

/-- `key_fingerprint(pem)`. -/
def keyFingerprint (pem : String) : String :=
  Bytes.hex (sha256 (Bytes.utf8 pem))

/-- `_locked_next_seq(db, org_id, trace_id)`. -/
def lockedNextSeq (db : Db) (orgId : String) (traceId : Uuid) : Except PyError Int := do
  require (db.hasTrace traceId) .noResultFound
  return nextSeq (db.lastEventForTrace orgId traceId)

/-- The `record_event` of a consent event. -/
def consentArgs (request : AccessRequest) (traceId : Uuid) (seq : Int) (eventType : String)
    (payload : Dict) : RecordArgs where
  orgId := request.orgId
  traceId := traceId
  seq := seq
  eventType := eventType
  payload := ("request_id", .str request.id.str) :: payload
  policyVersion := none

section Calls

variable [SignatureScheme] [KeyUnwrapping] [PyUnicode]

/-- `record_consent_event(db, request, event_type, payload)`. -/
def recordConsentEvent (svc : SigningKeyPair) (db : Db) (request : AccessRequest)
    (eventType : String) (payload : Dict) (fresh : Fresh) : Except PyError Db :=
  match request.traceId with
  | none => .ok db
  | some traceId => do
    let seq ← lockedNextSeq db request.orgId traceId
    let (db, _) ← recordEvent svc db (consentArgs request traceId seq eventType payload) fresh
    return db

/-! ## Filing -/

structure AccessRequestArgs where
  orgId : String
  requestedBy : String
  payloadHashes : List String
  reason : String
  requiredApprovals : Int
  ttlSeconds : Int

/-- What the clock and the generators give a filing. -/
structure RequestFresh where
  now : Int
  id : Uuid
  pair : WrappingKeyPair
  traceId : Uuid
  event : Fresh

/-- The row of a new request. -/
def newRequest (args : AccessRequestArgs) (fresh : RequestFresh) : AccessRequest where
  id := fresh.id
  orgId := args.orgId
  requestedBy := args.requestedBy
  reason := args.reason
  status := "pending"
  requiredApprovals := max 1 args.requiredApprovals
  granteePublicPem := fresh.pair.publicPem
  granteePrivatePem := fresh.pair.privatePem
  traceId := none
  expiresAt := fresh.now + args.ttlSeconds * 1000000

/-- The row once its trace is open. -/
def filedRequest (args : AccessRequestArgs) (fresh : RequestFresh) : AccessRequest :=
  { newRequest args fresh with traceId := some fresh.traceId }

def sortedTexts (texts : List String) : JVal :=
  .arr ((texts.insertionSort (· ≤ ·)).map JVal.str)

/-- The payload of a filing. -/
def filingPayload (args : AccessRequestArgs) (request : AccessRequest) : Dict :=
  [("requested_by", .str args.requestedBy),
    ("reason", .str args.reason),
    ("scope", sortedTexts args.payloadHashes),
    ("required_approvals", .int request.requiredApprovals),
    ("expires_at", .str (PyTime.isoFormat request.expiresAt)),
    ("grantee_key_fingerprint", .str (keyFingerprint request.granteePublicPem))]

/-- `create_access_request(db, ..)`. -/
def createAccessRequest (svc : SigningKeyPair) (db : Db) (args : AccessRequestArgs)
    (fresh : RequestFresh) : Except PyError Db := do
  let request := newRequest args fresh
  require (PyTime.inRange request.expiresAt) .overflowError
  let db ← db.insertAccessRequest request
  let db ← insertScope db request.id args.payloadHashes
  let db ← getOrCreateTrace db args.orgId fresh.traceId none
  let request := filedRequest args fresh
  recordConsentEvent svc (db.setAccessRequest request) request "access_request"
    (filingPayload args request) fresh.event

/-! ## Approving -/

/-- The payload of an approval, once the request has its new status. -/
def approvalPayload (request : AccessRequest) (approverId : String) (approvals : Nat)
    (released : List String) : Dict :=
  [("approver_id", .str approverId),
    ("approvals", .int approvals),
    ("required_approvals", .int request.requiredApprovals),
    ("released", sortedTexts released),
    ("status_after", .str request.status)]

/-- The row of a record with its key wrapped again for the grantee, and its fingerprint
where it was. -/
def releaseKey (db : Db) (request : AccessRequest) (orgPrivatePem : String) (g : AccessGrantKey) :
    Except PyError (AccessGrantKey × Option String) :=
  if g.requestId = request.id then
    match db.getPayloadKey request.orgId g.payloadHash with
    | none => .ok (g, none)
    | some row =>
      if row.wrapAlg = none then .ok (g, none)
      else
        match regrantKey orgPrivatePem row.key request.granteePublicPem with
        | .ok key => .ok ({ g with wrappedKey := some (.key key) }, some g.payloadHash)
        | .error (.keyWrapping _) => .ok (g, none)
        | .error e => .error e
  else .ok (g, none)

/-- `_release_keys(db, request, org_private_pem)`. -/
def releaseKeys (db : Db) (request : AccessRequest) (orgPrivatePem : String) :
    Except PyError (Db × List String) := do
  let rows ← db.accessGrantKeys.mapM (releaseKey db request orgPrivatePem)
  return ({ db with accessGrantKeys := rows.map Prod.fst }, rows.filterMap Prod.snd)

structure ApproveArgs where
  requestId : Uuid
  approverId : String
  orgPrivatePem : String

/-- The grants and the status once an approval is counted. -/
def countApproval (db : Db) (request : AccessRequest) (orgPrivatePem : String) :
    Except PyError (Db × AccessRequest × List String) :=
  if request.requiredApprovals ≤ ((db.approversOf request.id).length : Int) then do
    let (db, released) ← releaseKeys db request orgPrivatePem
    let request := { request with status := "approved" }
    return (db.setAccessRequest request, request, released)
  else .ok (db, request, [])

/-- `approve_access_request(db, request_id, approver_id, org_private_pem)`. -/
def approveAccessRequest (svc : SigningKeyPair) (db : Db) (args : ApproveArgs) (fresh : Fresh) :
    Except PyError Db :=
  match db.getAccessRequest args.requestId with
  | none => .error (.accessReview ("access request not found: " ++ args.requestId.str))
  | some request =>
    if request.status ≠ "pending" then .ok db
    else if args.approverId ∈ db.approversOf args.requestId then .ok db
    else do
      let db ← db.insertAccessApproval ⟨args.requestId, args.approverId⟩
      let (db, request, released) ← countApproval db request args.orgPrivatePem
      recordConsentEvent svc db request "access_approval"
        (approvalPayload request args.approverId (db.approversOf args.requestId).length released)
        fresh

structure ClientApprovalArgs where
  requestId : Uuid
  approverId : String
  /-- A dictionary : no fingerprint twice. -/
  releasedKeys : List (String × ReleasedKey)

/-- The row of a record with the key a client posted for it. -/
def postKey (args : ClientApprovalArgs) (g : AccessGrantKey) : AccessGrantKey :=
  if g.requestId = args.requestId then
    match args.releasedKeys.lookup g.payloadHash with
    | some key => { g with wrappedKey := some key }
    | none => g
  else g

@[simp] theorem postKey_requestId (args : ClientApprovalArgs) (g : AccessGrantKey) :
    (postKey args g).requestId = g.requestId := by
  unfold postKey
  split
  · cases args.releasedKeys.lookup g.payloadHash <;> rfl
  · rfl

@[simp] theorem postKey_payloadHash (args : ClientApprovalArgs) (g : AccessGrantKey) :
    (postKey args g).payloadHash = g.payloadHash := by
  unfold postKey
  split
  · cases args.releasedKeys.lookup g.payloadHash <;> rfl
  · rfl

/-- The posted keys of records of the request. -/
def postedHashes (db : Db) (args : ClientApprovalArgs) : List String :=
  (args.releasedKeys.map Prod.fst).filter fun payloadHash =>
    (db.scopeOf args.requestId).any fun g => g.payloadHash = payloadHash

/-- The threshold is met and every record of the request has a key. -/
def quorumMet (db : Db) (request : AccessRequest) : Bool :=
  request.requiredApprovals ≤ ((db.approversOf request.id).length : Int) ∧
    (db.scopeOf request.id).all fun g => g.wrappedKey.isSome

/-- The request approved where the quorum is met. -/
def settleApproval (db : Db) (request : AccessRequest) : Db × AccessRequest :=
  if quorumMet db request then
    let request := { request with status := "approved" }
    (db.setAccessRequest request, request)
  else (db, request)

/-- `record_client_approval(db, request_id, approver_id, released_keys)`. -/
def recordClientApproval (svc : SigningKeyPair) (db : Db) (args : ClientApprovalArgs)
    (fresh : Fresh) : Except PyError Db :=
  match db.getAccessRequest args.requestId with
  | none => .error (.accessReview ("access request not found: " ++ args.requestId.str))
  | some request =>
    if request.status ≠ "pending" then .ok db
    else if args.approverId ∈ db.approversOf args.requestId then .ok db
    else do
      let db ← db.insertAccessApproval ⟨args.requestId, args.approverId⟩
      let released := postedHashes db args
      let db := { db with accessGrantKeys := db.accessGrantKeys.map (postKey args) }
      let (db, request) := settleApproval db request
      recordConsentEvent svc db request "access_approval"
        (approvalPayload request args.approverId (db.approversOf args.requestId).length released)
        fresh

/-! ## Resolving and reading -/

structure ResolveAccessArgs where
  requestId : Uuid
  status : String

/-- `resolve_access_request(db, request_id, status)`. -/
def resolveAccessRequest (svc : SigningKeyPair) (db : Db) (args : ResolveAccessArgs)
    (fresh : Fresh) : Except PyError Db := do
  require (args.status = "denied" ∨ args.status = "revoked")
    (.accessReview ("invalid resolution status: " ++ args.status))
  match db.getAccessRequest args.requestId with
  | none => .error (.accessReview ("access request not found: " ++ args.requestId.str))
  | some request =>
    if request.status = args.status then return db
    else
      let resolved := { request with status := args.status }
      recordConsentEvent svc (db.setAccessRequest resolved) resolved "access_resolution"
        [("status_before", .str request.status), ("status_after", .str args.status)] fresh

/-- `base64.b64decode(item.wrapped_key_b64)` and `unwrap_key` of it. -/
def unwrapReleased (privatePem : String) : ReleasedKey → Except PyError Bytes
  | .key wrapped => unwrapKey privatePem wrapped
  | .other true => unwrapKey privatePem (.raw [])
  | .other false => .error .valueError

/-- The content of a record of an open grant, `none` where it cannot be read. -/
def grantedContent (db : Db) (request : AccessRequest) (payloadHash : String)
    (released : ReleasedKey) :
    Except PyError (Option Dict) :=
  match unwrapReleased request.granteePrivatePem released with
  | .error (.keyWrapping _) => .ok none
  | .error e => .error e
  | .ok key =>
    match db.getPayload request.orgId payloadHash with
    | none => .ok none
    | some payload =>
      if payload.erasedAt.isSome then .ok none
      else .ok (decryptContent payload.encryptedBlob key
        (aad payload.encAlg request.orgId payloadHash))

/-- `read_via_grant(db, request_id, payload_hash)` at the time `now`. -/
def readViaGrant (svc : SigningKeyPair) (db : Db) (requestId : Uuid) (payloadHash : String)
    (now : Int) (fresh : Fresh) : Except PyError (Db × Option Dict) :=
  match db.getAccessRequest requestId with
  | none => .ok (db, none)
  | some request =>
    if request.status ≠ "approved" then .ok (db, none)
    else if request.expiresAt ≤ now then .ok (db, none)
    else
      match (db.scopeOf requestId).find? fun g => g.payloadHash = payloadHash with
      | none => .ok (db, none)
      | some item =>
        match item.wrappedKey with
        | none => .ok (db, none)
        | some released => do
          match ← grantedContent db request payloadHash released with
          | none => return (db, none)
          | some content => do
            let db ← recordConsentEvent svc db request "access_read"
              [("payload_hash", .str payloadHash), ("reader", .str "attest_admin")] fresh
            return (db, some content)

/-! ## What the calls did -/

variable {svc : SigningKeyPair} {db db' : Db} {fresh : Fresh}

/-- One event of the request's trace was recorded over `db`, where the request has a
trace. -/
def Noted (db : Db) (request : AccessRequest) (eventType : String) (fresh : Fresh) (db' : Db) :
    Prop :=
  (request.traceId = none ∧ db' = db) ∨ ∃ traceId seq payload e, request.traceId = some traceId ∧
    Recorded db (consentArgs request traceId seq eventType payload) fresh e db'

theorem recordConsentEvent_noted {request : AccessRequest} {eventType : String} {payload : Dict}
    (h : recordConsentEvent svc db request eventType payload fresh = .ok db') :
    Noted db request eventType fresh db' := by
  unfold recordConsentEvent at h
  cases htrace : request.traceId with
  | none =>
    rw [htrace] at h
    exact Or.inl ⟨htrace, (Except.ok.inj h).symm⟩
  | some traceId =>
    simp only [htrace, Except.bind_eq_ok, Except.pure_eq, Except.ok.injEq] at h
    obtain ⟨seq, -, ⟨db₁, out⟩, hrecord, rfl⟩ := h
    obtain ⟨e, he, -⟩ := recordEvent_recorded hrecord
    exact Or.inr ⟨traceId, seq, payload, e, htrace, he⟩

/-- What a filing did. -/
structure Filed (db : Db) (args : AccessRequestArgs) (fresh : RequestFresh) (db' : Db) : Prop where
  new : ∀ x ∈ db.accessRequests, x.id ≠ fresh.id
  org : db.hasOrg args.orgId = true
  noted : ∃ opened, Opens db args.orgId fresh.traceId opened ∧ Noted { db with
      traces := db.traces ++ opened.toList
      accessRequests := db.accessRequests ++ [filedRequest args fresh]
      accessGrantKeys := db.accessGrantKeys ++
        args.payloadHashes.map fun h => ⟨fresh.id, h, none⟩ }
    (filedRequest args fresh) "access_request" fresh.event db'

theorem createAccessRequest_filed {args : AccessRequestArgs} {fresh : RequestFresh}
    (h : createAccessRequest svc db args fresh = .ok db') : Filed db args fresh db' := by
  simp only [createAccessRequest, Except.bind_eq_ok] at h
  obtain ⟨_, -, db₁, hinsert, db₂, hscope, db₃, htrace, hrecord⟩ := h
  obtain ⟨⟨-, hnew, horg⟩, rfl⟩ := Db.insertAccessRequest_eq_ok.mp hinsert
  obtain rfl := insertScope_eq_ok hscope
  obtain ⟨opened, hopens, rfl⟩ := getOrCreateTrace_opens htrace
  have hset : (db.accessRequests ++ [newRequest args fresh]).map
      (fun x => if x.id = (filedRequest args fresh).id then filedRequest args fresh else x) =
        db.accessRequests ++ [filedRequest args fresh] := by
    have hold : db.accessRequests.map (fun x => if x.id = (filedRequest args fresh).id then
        filedRequest args fresh else x) = db.accessRequests :=
      (List.map_congr_left fun x hx => if_neg (hnew x hx)).trans (List.map_id' _)
    rw [List.map_append, hold, List.map_singleton]
    exact congrArg (fun r => db.accessRequests ++ [r]) (if_pos rfl)
  have hnoted := recordConsentEvent_noted hrecord
  simp only [Db.setAccessRequest, hset] at hnoted
  exact ⟨hnew, horg, opened, ⟨hopens.new, hopens.there⟩, hnoted⟩

theorem AccessRequest.withStatus_self (request : AccessRequest) {status : String}
    (h : request.status = status) : { request with status := status } = request := by
  rw [← h]

/-- What an approval did, that was of a pending request by a new approver : `rows` are the
grants after it, `status` the status. -/
structure Approves (db : Db) (requestId : Uuid) (approverId : String) (request : AccessRequest)
    (rows : List AccessGrantKey) (status : String) (fresh : Fresh) (db' : Db) : Prop where
  found : db.getAccessRequest requestId = some request
  pending : request.status = "pending"
  new : approverId ∉ db.approversOf requestId
  settled : ∃ requests, (status = "pending" ∧ requests = db.accessRequests ∨
      status = "approved" ∧
        request.requiredApprovals ≤ ((db.approversOf requestId).length : Int) + 1 ∧
          requests = (db.setAccessRequest { request with status := status }).accessRequests) ∧
    Noted { db with
        accessApprovals := db.accessApprovals ++ [⟨requestId, approverId⟩]
        accessGrantKeys := rows
        accessRequests := requests }
      { request with status := status } "access_approval" fresh db'

/-- A row of a release : as it was, or with the record's key wrapped for the grantee. -/
def ReleasedTo (db : Db) (request : AccessRequest) (orgPrivatePem : String)
    (g g' : AccessGrantKey) : Prop :=
  g' = g ∨ g.requestId = request.id ∧ ∃ row pem key,
    db.getPayloadKey request.orgId g.payloadHash = some row ∧ row.wrapAlg ≠ none ∧
      row.key = .wrapped pem key ∧ KeyUnwrapping.opens orgPrivatePem pem = true ∧
        g' = { g with wrappedKey := some (.key (.wrapped request.granteePublicPem key)) }

theorem releaseKey_releasedTo {request : AccessRequest} {orgPrivatePem : String}
    {g : AccessGrantKey} {r : AccessGrantKey × Option String}
    (h : releaseKey db request orgPrivatePem g = .ok r) :
    ReleasedTo db request orgPrivatePem g r.1 := by
  unfold releaseKey at h
  by_cases hid : g.requestId = request.id
  · rw [if_pos hid] at h
    cases hrow : db.getPayloadKey request.orgId g.payloadHash with
    | none =>
      rw [hrow] at h
      obtain rfl := Except.ok.inj h
      exact Or.inl rfl
    | some row =>
      by_cases hraw : row.wrapAlg = none
      · simp only [hrow, hraw, if_true] at h
        obtain rfl := Except.ok.inj h
        exact Or.inl rfl
      · simp only [hrow, hraw, if_false] at h
        split at h <;> rename_i hregrant
        · obtain rfl := Except.ok.inj h
          obtain ⟨pem, key, hkey, hopens, rfl⟩ := regrantKey_eq_ok hregrant
          exact Or.inr ⟨hid, row, pem, key, hrow, hraw, hkey, hopens, rfl⟩
        · obtain rfl := Except.ok.inj h
          exact Or.inl rfl
        · cases h
  · rw [if_neg hid] at h
    obtain rfl := Except.ok.inj h
    exact Or.inl rfl

theorem releaseKeys_eq_ok {request : AccessRequest} {orgPrivatePem : String}
    {released : List String} (h : releaseKeys db request orgPrivatePem = .ok (db', released)) :
    ∃ rows, List.Forall₂ (ReleasedTo db request orgPrivatePem) db.accessGrantKeys rows ∧
      db' = { db with accessGrantKeys := rows } := by
  simp only [releaseKeys, Except.bind_eq_ok, Except.pure_eq, Except.ok.injEq, Prod.mk.injEq] at h
  obtain ⟨rs, hrs, rfl, -⟩ := h
  refine ⟨_, ?_, rfl⟩
  rw [List.forall₂_map_right_iff]
  exact (Except.mapM_eq_ok.mp hrs).imp fun g r hr => releaseKey_releasedTo hr

/-- Whose key has been added to the approvals. -/
theorem Db.approversOf_append (db : Db) (requestId : Uuid) (approverId : String) :
    ({ db with accessApprovals := db.accessApprovals ++ [⟨requestId, approverId⟩] } :
      Db).approversOf requestId = db.approversOf requestId ++ [approverId] := by
  simp [approversOf]

/-- The spec of `approveAccessRequest`. -/
theorem approveAccessRequest_approves {args : ApproveArgs}
    (h : approveAccessRequest svc db args fresh = .ok db') : db' = db ∨
      ∃ request rows status,
        Approves db args.requestId args.approverId request rows status fresh db' ∧
          (status = "pending" ∧ rows = db.accessGrantKeys ∨ status = "approved" ∧
            List.Forall₂ (ReleasedTo db request args.orgPrivatePem) db.accessGrantKeys rows) := by
  unfold approveAccessRequest at h
  cases hfound : db.getAccessRequest args.requestId with
  | none => simp [hfound] at h
  | some request =>
    obtain ⟨-, hid⟩ := Db.mem_of_getAccessRequest hfound
    by_cases hpending : request.status = "pending"
    · by_cases hnew : args.approverId ∈ db.approversOf args.requestId
      · simp only [hfound, hpending, hnew, ne_eq, not_true_eq_false, if_false, if_true,
          Except.ok.injEq] at h
        exact Or.inl h.symm
      · simp only [hfound, hpending, hnew, ne_eq, not_true_eq_false, if_false,
          Except.bind_eq_ok] at h
        obtain ⟨db₁, hinsert, ⟨db₂, request₂, released⟩, hcount, hrecord⟩ := h
        obtain ⟨-, rfl⟩ := Db.insertAccessApproval_eq_ok.mp hinsert
        have hnoted := recordConsentEvent_noted hrecord
        have hcounted : ({ db with accessApprovals := db.accessApprovals ++
            [⟨args.requestId, args.approverId⟩] } : Db).approversOf request.id =
              db.approversOf args.requestId ++ [args.approverId] := by
          rw [hid, Db.approversOf_append]
        rw [countApproval, hcounted] at hcount
        right
        split at hcount <;> rename_i hquorum
        · simp only [Except.bind_eq_ok, Except.pure_eq, Except.ok.injEq, Prod.mk.injEq] at hcount
          obtain ⟨⟨db₃, _⟩, hrelease, rfl, rfl, -⟩ := hcount
          obtain ⟨rows, hrows, rfl⟩ := releaseKeys_eq_ok hrelease
          refine ⟨request, rows, "approved", ⟨hfound, hpending, hnew, _,
            Or.inr ⟨rfl, ?_, rfl⟩, hnoted⟩, Or.inr ⟨rfl, hrows⟩⟩
          simpa using hquorum
        · obtain ⟨rfl, hpair⟩ := Prod.mk.inj (Except.ok.inj hcount)
          obtain ⟨rfl, -⟩ := Prod.mk.inj hpair
          exact ⟨request, db.accessGrantKeys, "pending", ⟨hfound, hpending, hnew, _,
            Or.inl ⟨rfl, rfl⟩, (request.withStatus_self hpending).symm ▸ hnoted⟩,
            Or.inl ⟨rfl, rfl⟩⟩
    · simp only [hfound, hpending, ne_eq, not_false_eq_true, if_true, Except.ok.injEq] at h
      exact Or.inl h.symm

/-- The spec of `recordClientApproval`. -/
theorem recordClientApproval_approves {args : ClientApprovalArgs}
    (h : recordClientApproval svc db args fresh = .ok db') : db' = db ∨
      ∃ request status, Approves db args.requestId args.approverId request
          (db.accessGrantKeys.map (postKey args)) status fresh db' ∧
        (status = "pending" ∨ ∀ g ∈ db.accessGrantKeys, g.requestId = args.requestId →
          (postKey args g).wrappedKey.isSome = true) := by
  unfold recordClientApproval at h
  cases hfound : db.getAccessRequest args.requestId with
  | none => simp [hfound] at h
  | some request =>
    obtain ⟨-, hid⟩ := Db.mem_of_getAccessRequest hfound
    by_cases hpending : request.status = "pending"
    · by_cases hnew : args.approverId ∈ db.approversOf args.requestId
      · simp only [hfound, hpending, hnew, ne_eq, not_true_eq_false, if_false, if_true,
          Except.ok.injEq] at h
        exact Or.inl h.symm
      · simp only [hfound, hpending, hnew, ne_eq, not_true_eq_false, if_false,
          Except.bind_eq_ok] at h
        obtain ⟨db₁, hinsert, hrecord⟩ := h
        obtain ⟨-, rfl⟩ := Db.insertAccessApproval_eq_ok.mp hinsert
        right
        unfold settleApproval at hrecord
        split at hrecord <;> rename_i hquorum
        · have hnoted := recordConsentEvent_noted hrecord
          rw [quorumMet, decide_eq_true_eq, hid] at hquorum
          refine ⟨request, "approved", ⟨hfound, hpending, hnew, _, Or.inr ⟨rfl, ?_, rfl⟩, hnoted⟩,
            Or.inr fun g hg hgid => ?_⟩
          · have hcount := hquorum.1
            simp only [Db.approversOf, List.filter_append, List.map_append] at hcount
            simpa [Db.approversOf] using hcount
          · refine List.all_eq_true.mp hquorum.2 (postKey args g) (List.mem_filter.mpr ⟨?_, ?_⟩)
            · exact List.mem_map_of_mem hg
            · rw [postKey_requestId, hgid, decide_eq_true_eq]
        · have hnoted := recordConsentEvent_noted hrecord
          exact ⟨request, "pending", ⟨hfound, hpending, hnew, _, Or.inl ⟨rfl, rfl⟩,
            (request.withStatus_self hpending).symm ▸ hnoted⟩, Or.inl rfl⟩
    · simp only [hfound, hpending, ne_eq, not_false_eq_true, if_true, Except.ok.injEq] at h
      exact Or.inl h.symm

/-- The spec of `resolveAccessRequest`. -/
theorem resolveAccessRequest_eq_ok {args : ResolveAccessArgs}
    (h : resolveAccessRequest svc db args fresh = .ok db') :
    (args.status = "denied" ∨ args.status = "revoked") ∧ ∃ request,
      db.getAccessRequest args.requestId = some request ∧
        (request.status = args.status ∧ db' = db ∨
          Noted (db.setAccessRequest { request with status := args.status })
            { request with status := args.status } "access_resolution" fresh db') := by
  simp only [resolveAccessRequest, Except.bind_eq_ok, require_eq_ok, decide_eq_true_eq] at h
  obtain ⟨_, hstatus, h⟩ := h
  refine ⟨hstatus, ?_⟩
  cases hfound : db.getAccessRequest args.requestId with
  | none => simp [hfound] at h
  | some request =>
    refine ⟨request, rfl, ?_⟩
    by_cases hsame : request.status = args.status
    · simp only [hfound, hsame, if_true, Except.pure_eq, Except.ok.injEq] at h
      exact Or.inl ⟨hsame, h.symm⟩
    · simp only [hfound, hsame, if_false] at h
      exact Or.inr (recordConsentEvent_noted h)

/-- A read that returned content : the grant was open, and the read is on the trace. -/
structure Reads (db : Db) (requestId : Uuid) (payloadHash : String) (now : Int) (fresh : Fresh)
    (db' : Db) (content : Dict) (request : AccessRequest) : Prop where
  found : db.getAccessRequest requestId = some request
  approved : request.status = "approved"
  unexpired : now < request.expiresAt
  scope : ∃ g ∈ db.scopeOf requestId, g.payloadHash = payloadHash
  stored : ∃ p, db.getPayload request.orgId payloadHash = some p ∧ p.erasedAt = none ∧
    p.encryptedBlob.content = content
  noted : Noted db request "access_read" fresh db'

theorem grantedContent_eq_some {request : AccessRequest} {payloadHash : String}
    {released : ReleasedKey} {content : Dict}
    (h : grantedContent db request payloadHash released = .ok (some content)) :
    ∃ p, db.getPayload request.orgId payloadHash = some p ∧ p.erasedAt = none ∧
      p.encryptedBlob.content = content := by
  unfold grantedContent at h
  split at h
  · cases h
  · cases h
  · cases hpayload : db.getPayload request.orgId payloadHash with
    | none => simp [hpayload] at h
    | some p =>
      by_cases herased : p.erasedAt.isSome = true
      · simp [hpayload, herased] at h
      · simp only [hpayload, herased, Bool.false_eq_true, if_false, Except.ok.injEq,
          decryptContent] at h
        split at h
        · exact ⟨p, rfl, by simpa using herased, Option.some.inj h⟩
        · cases h

/-- The spec of `readViaGrant`. -/
theorem readViaGrant_eq_ok {requestId : Uuid} {payloadHash : String} {now : Int}
    {result : Option Dict} (h : readViaGrant svc db requestId payloadHash now fresh =
      .ok (db', result)) : result = none ∧ db' = db ∨ ∃ content request, result = some content ∧
        Reads db requestId payloadHash now fresh db' content request := by
  have hnone {d : Db} (h : (Except.ok (d, none) : Except PyError (Db × Option Dict)) =
      .ok (db', result)) : result = none ∧ db' = d := by
    obtain ⟨rfl, rfl⟩ := Prod.mk.inj (Except.ok.inj h)
    exact ⟨rfl, rfl⟩
  unfold readViaGrant at h
  cases hfound : db.getAccessRequest requestId with
  | none =>
    rw [hfound] at h
    exact Or.inl (hnone h)
  | some request =>
    simp only [hfound] at h
    split at h
    · exact Or.inl (hnone h)
    · rename_i happroved
      split at h
      · exact Or.inl (hnone h)
      · rename_i hexpired
        split at h
        · exact Or.inl (hnone h)
        · rename_i item hitem
          split at h
          · exact Or.inl (hnone h)
          · rename_i released hreleased
            obtain ⟨read, hread, h⟩ := Except.bind_eq_ok.mp h
            cases read with
            | none => exact Or.inl (hnone h)
            | some content =>
              simp only [Except.bind_eq_ok, Except.pure_eq, Except.ok.injEq, Prod.mk.injEq] at h
              obtain ⟨db₁, hrecord, rfl, rfl⟩ := h
              refine Or.inr ⟨content, request, rfl, hfound, by simpa using happroved, by omega,
                ⟨item, List.mem_of_find?_eq_some hitem, by simpa using List.find?_some hitem⟩,
                grantedContent_eq_some hread, recordConsentEvent_noted hrecord⟩

end Calls

end Attest
