import Mathlib.Data.List.Sort
import Attest.Crypto
import Attest.Lib.Uuid

/-!
# The tables

The rows of `db/models.py` with the columns the program reads, the database as its
tables in insertion order, and the queries and inserts the services are made of. An
insert checks what PostgreSQL checks : primary keys, the unique and foreign keys of
the table, and that no text holds a NUL. A failed transaction leaves no `Db` behind,
so the state before it is the state after it.

A datetime is named by its ISO text. AES-GCM is modelled by what it keeps together : a
sealed blob is the content, the key and the associated data it was made with, and
opens under the same two alone.
-/

namespace Attest

/-! ## Rows -/

structure Org where
  id : String
  name : String
  region : String
  failMode : String
  /-- `attest_managed` or `customer_key`. -/
  confidentialityMode : String
  wrappingPublicPem : Option String
deriving DecidableEq

structure Policy where
  id : Uuid
  orgId : String
  name : String
  version : String
  rules : Dict
  active : Bool
  /-- Microseconds, for the order of rows. -/
  createdAt : Int
deriving DecidableEq

structure Trace where
  id : Uuid
  orgId : String
  policyVersion : Option String
deriving DecidableEq

structure Event where
  id : Uuid
  orgId : String
  traceId : Uuid
  batchId : Option Uuid
  seq : Int
  type : String
  payloadHash : String
  envelope : Dict
  prevHash : Option String
  hash : String
  signature : String
  alg : String
  signingKeyId : Option Uuid
  policyVersion : Option String
  createdAt : String
  deferred : Bool
  occurredAt : Option String
  clientDeviceId : Option String
  clientSignature : Option String
deriving DecidableEq

structure Batch where
  id : Uuid
  orgId : Option String
  root : String
  signature : String
  eventIds : List Uuid
  sealedAt : String
deriving DecidableEq

structure Anchor where
  id : Uuid
  batchId : Uuid
  kind : String
  token : String
  anchoredAt : String
deriving DecidableEq

structure Approval where
  id : Uuid
  orgId : String
  traceId : Uuid
  eventId : Option Uuid
  status : String
  approverId : Option String
  approverKind : Option String
  comment : Option String
  /-- Microseconds, for the order of rows. -/
  createdAt : Int
deriving DecidableEq

/-- What AES-GCM makes of a content : it opens under this key and these associated
data alone. -/
structure SealedBlob where
  key : Bytes
  aad : Bytes
  content : Dict
deriving DecidableEq

/-- `key_b64` of a payload : the content key as it is, or wrapped to a public key. -/
inductive StoredKey where
  | raw (key : Bytes)
  | wrapped (publicPem : String) (key : Bytes)
deriving DecidableEq

structure Payload where
  orgId : String
  payloadHash : String
  encryptedBlob : SealedBlob
  encAlg : String
  piiLabels : List String
  erasedAt : Option String
deriving DecidableEq

structure PayloadKey where
  orgId : String
  payloadHash : String
  key : StoredKey
  wrapAlg : Option String
deriving DecidableEq

structure OrgSigningKey where
  keyId : Uuid
  orgId : String
  alg : String
  publicPem : String
  privatePem : Option String
  /-- `active` or `retired`. -/
  status : String
  createdAt : Int
deriving DecidableEq

structure RegulationPack where
  id : Uuid
  code : String
  jurisdiction : String
  instrument : String
  sourceUrl : Option String
  verificationStatus : String
  rules : JVal
  /-- Microseconds, for the order of rows. -/
  createdAt : Int
deriving DecidableEq

structure OrgRegulationPack where
  orgId : String
  packId : Uuid
  enforcement : String
  enabled : Bool
deriving DecidableEq

structure PolicyDecisionSummary where
  id : Uuid
  orgId : String
  traceId : Uuid
  seq : Int
  eventHash : String
  action : String
  tier : String
  policyTier : String
  allowed : Bool
  policyVersion : Option String
  findings : List JVal
  jurisdictions : List String
  remediation : Option Dict
  remediationOf : Option Int
  remediatedBySeq : Option Int
  status : Option String
  outputSeq : Option Int
  outputHash : Option String
deriving DecidableEq

structure SdkDevice where
  id : Uuid
  orgId : String
  deviceId : String
  publicPem : String
  revoked : Bool
  label : Option String
  lastSeenAt : Option String
deriving DecidableEq

structure OrgProfile where
  orgId : String
  jurisdictions : List String
  sectors : List String
  updatedAt : String
  updatedBy : Option String
deriving DecidableEq

structure ProfileChangeRequest where
  id : Uuid
  orgId : String
  requestedBy : String
  reason : String
  proposedJurisdictions : List String
  proposedSectors : List String
  removed : List String
  status : String
deriving DecidableEq

structure AccessRequest where
  id : Uuid
  orgId : String
  requestedBy : String
  reason : String
  status : String
  requiredApprovals : Int
  granteePublicPem : String
  granteePrivatePem : String
  traceId : Option Uuid
  /-- Microseconds. -/
  expiresAt : Int
deriving DecidableEq

structure AccessApproval where
  requestId : Uuid
  approverId : String
deriving DecidableEq

/-- `wrapped_key_b64` of a grant, which a client may post : the text of a content key,
or any other text, with whether `base64` decodes it. -/
inductive ReleasedKey where
  | key (k : StoredKey)
  | other (decodes : Bool)
deriving DecidableEq

structure AccessGrantKey where
  requestId : Uuid
  payloadHash : String
  wrappedKey : Option ReleasedKey
deriving DecidableEq

/-- The database. -/
structure Db where
  orgs : List Org
  policies : List Policy
  traces : List Trace
  events : List Event
  batches : List Batch
  anchors : List Anchor
  approvals : List Approval
  payloads : List Payload
  payloadKeys : List PayloadKey
  signingKeys : List OrgSigningKey
  packs : List RegulationPack
  orgPacks : List OrgRegulationPack
  summaries : List PolicyDecisionSummary
  devices : List SdkDevice
  profiles : List OrgProfile
  profileChanges : List ProfileChangeRequest
  accessRequests : List AccessRequest
  accessApprovals : List AccessApproval
  accessGrantKeys : List AccessGrantKey

namespace Db

def empty : Db where
  orgs := []
  policies := []
  traces := []
  events := []
  batches := []
  anchors := []
  approvals := []
  payloads := []
  payloadKeys := []
  signingKeys := []
  packs := []
  orgPacks := []
  summaries := []
  devices := []
  profiles := []
  profileChanges := []
  accessRequests := []
  accessApprovals := []
  accessGrantKeys := []

end Db

/-! ## Values a column takes -/

/-- PostgreSQL stores no text with a NUL. -/
def textOk (s : String) : Bool :=
  !(s.toList.contains (Char.ofNat 0))

def optTextOk : Option String → Bool
  | none => true
  | some s => textOk s

/-- `none` where the constraint holds. -/
def require (ok : Bool) (e : PyError) : Except PyError Unit :=
  if ok then .ok () else .error e

@[simp] theorem require_eq_ok {ok : Bool} {e : PyError} {u : Unit} :
    require ok e = .ok u ↔ ok = true := by
  cases ok <;> simp [require]

/-! ## Queries -/

/-- A key no two rows share finds its row. -/
theorem find?_of_nodup {α κ : Type} [DecidableEq κ] {key : α → κ} {rows : List α}
    (hnodup : (rows.map key).Nodup) {row : α} (hrow : row ∈ rows) :
    (rows.find? fun r => key r = key row) = some row := by
  obtain ⟨r, hr⟩ : ∃ r, (rows.find? fun r => key r = key row) = some r := by
    rw [← Option.isSome_iff_exists, List.find?_isSome]
    exact ⟨row, hrow, by simp⟩
  have hkey : key r = key row := by simpa using List.find?_some hr
  rw [hr, List.inj_on_of_nodup_map hnodup (List.mem_of_find?_eq_some hr) hrow hkey]

/-- The row with the greatest key, the first of several. -/
def latestBy {α : Type} (key : α → Int) : List α → Option α
  | [] => none
  | row :: rows =>
    match latestBy key rows with
    | none => some row
    | some other => if key row < key other then some other else some row

theorem mem_of_latestBy {α : Type} {key : α → Int} : ∀ {rows : List α} {row : α},
    latestBy key rows = some row → row ∈ rows
  | r :: rows, row, h => by
    unfold latestBy at h
    cases hrest : latestBy key rows with
    | none =>
      rw [hrest] at h
      obtain rfl : r = row := by simpa using h
      exact List.mem_cons_self
    | some other =>
      rw [hrest] at h
      have hother := mem_of_latestBy hrest
      by_cases hlt : key r < key other
      · obtain rfl : other = row := by simpa [hlt] using h
        exact List.mem_cons_of_mem _ hother
      · obtain rfl : r = row := by simpa [hlt] using h
        exact List.mem_cons_self

theorem latestBy_eq_none {α : Type} {key : α → Int} {rows : List α} :
    latestBy key rows = none ↔ rows = [] := by
  cases rows with
  | nil => simp [latestBy]
  | cons row rows =>
    cases h : latestBy key rows with
    | none => simp [latestBy, h]
    | some other =>
      by_cases hlt : key row < key other <;> simp [latestBy, h, hlt]

/-- The greatest key of the table. -/
theorem le_of_latestBy {α : Type} {key : α → Int} : ∀ {rows : List α} {row : α},
    latestBy key rows = some row → ∀ r ∈ rows, key r ≤ key row
  | r :: rows, row, h, r', hr' => by
    unfold latestBy at h
    cases hrest : latestBy key rows with
    | none =>
      rw [hrest] at h
      obtain rfl : r = row := by simpa using h
      rw [latestBy_eq_none.mp hrest] at hr'
      simp_all
    | some other =>
      rw [hrest] at h
      have ih := le_of_latestBy hrest
      by_cases hlt : key r < key other
      · obtain rfl : other = row := by simpa [hlt] using h
        rcases List.mem_cons.mp hr' with rfl | hr'
        · omega
        · exact ih r' hr'
      · obtain rfl : r = row := by simpa [hlt] using h
        rcases List.mem_cons.mp hr' with rfl | hr'
        · exact le_refl _
        · have := ih r' hr'
          omega

namespace Db

variable (db : Db)

/-- `get_org_by_id(db, org_id)`. -/
def getOrgById (orgId : String) : Option Org :=
  db.orgs.find? fun o => o.id = orgId

/-- `get_trace_by_id(db, trace_id)`. -/
def getTraceById (traceId : Uuid) : Option Trace :=
  db.traces.find? fun t => t.id = traceId

/-- The rows of a trace, as the query selects them. -/
def traceRows (orgId : String) (traceId : Uuid) : List Event :=
  db.events.filter fun e => e.orgId = orgId ∧ e.traceId = traceId

/-- `last_event_for_trace(db, org_id, trace_id)`. -/
def lastEventForTrace (orgId : String) (traceId : Uuid) : Option Event :=
  latestBy Event.seq (db.traceRows orgId traceId)

/-- `events_for_trace(db, org_id, trace_id)`. -/
def eventsForTrace (orgId : String) (traceId : Uuid) : List Event :=
  (db.traceRows orgId traceId).insertionSort fun a b => a.seq ≤ b.seq

/-- `get_payload(db, org_id, payload_hash)`. -/
def getPayload (orgId payloadHash : String) : Option Payload :=
  db.payloads.find? fun p => p.orgId = orgId ∧ p.payloadHash = payloadHash

def getPayloadKey (orgId payloadHash : String) : Option PayloadKey :=
  db.payloadKeys.find? fun k => k.orgId = orgId ∧ k.payloadHash = payloadHash

/-- `active_signing_key(db, org_id)`. -/
def activeSigningKey (orgId : String) : Option OrgSigningKey :=
  latestBy OrgSigningKey.createdAt
    (db.signingKeys.filter fun k => k.orgId = orgId ∧ k.status = "active")

/-- `db.get(OrgSigningKey, key_id)`. -/
def getSigningKey (keyId : Uuid) : Option OrgSigningKey :=
  db.signingKeys.find? fun k => k.keyId = keyId

/-- `get_active_policy(db, org_id)`. -/
def getActivePolicy (orgId : String) : Option Policy :=
  latestBy Policy.createdAt (db.policies.filter fun p => p.orgId = orgId ∧ p.active)

/-- `get_policy_by_version(db, org_id, version)`. -/
def getPolicyByVersion (orgId version : String) : Option Policy :=
  db.policies.find? fun p => p.orgId = orgId ∧ p.version = version

/-! ## Inserts -/

def hasOrg (orgId : String) : Bool :=
  db.orgs.any fun o => o.id = orgId

def hasTrace (traceId : Uuid) : Bool :=
  db.traces.any fun t => t.id = traceId

def insertTrace (t : Trace) : Except PyError Db := do
  require (optTextOk t.policyVersion) .dataError
  require (!db.hasTrace t.id) .integrityError
  require (db.hasOrg t.orgId) .integrityError
  return { db with traces := db.traces ++ [t] }

/-- `UNIQUE(trace_id, seq)` of events, with the other keys of the table. -/
def insertEventRow (e : Event) : Except PyError Db := do
  require (textOk e.type && optTextOk e.policyVersion) .dataError
  require (!db.events.any fun x => x.id = e.id) .integrityError
  require (!db.events.any fun x => x.traceId = e.traceId ∧ x.seq = e.seq) .integrityError
  require (db.hasOrg e.orgId) .integrityError
  require (db.hasTrace e.traceId) .integrityError
  return { db with events := db.events ++ [e] }

def insertPayload (p : Payload × PayloadKey) : Except PyError Db := do
  require (!db.payloads.any fun x => x.orgId = p.1.orgId ∧ x.payloadHash = p.1.payloadHash)
    .integrityError
  require (!db.payloadKeys.any fun x => x.orgId = p.2.orgId ∧ x.payloadHash = p.2.payloadHash)
    .integrityError
  require (db.hasOrg p.1.orgId) .integrityError
  return { db with payloads := db.payloads ++ [p.1], payloadKeys := db.payloadKeys ++ [p.2] }

/-- What an insert into `traces` did. -/
theorem insertTrace_eq_ok {db db' : Db} {t : Trace} : db.insertTrace t = .ok db' ↔
    (optTextOk t.policyVersion = true ∧ (∀ x ∈ db.traces, x.id ≠ t.id) ∧
      db.hasOrg t.orgId = true) ∧ db' = { db with traces := db.traces ++ [t] } := by
  simp only [insertTrace, Except.bind_eq_ok, require_eq_ok, Except.pure_eq, Except.ok.injEq,
    exists_const, hasTrace, Bool.not_eq_true', List.any_eq_false, decide_eq_true_eq]
  tauto

/-- What an insert into `events` did. -/
theorem insertEventRow_eq_ok {db db' : Db} {e : Event} : db.insertEventRow e = .ok db' ↔
    (textOk e.type = true ∧ optTextOk e.policyVersion = true ∧ (∀ x ∈ db.events, x.id ≠ e.id) ∧
      (∀ x ∈ db.events, x.traceId = e.traceId → x.seq ≠ e.seq) ∧ db.hasOrg e.orgId = true ∧
        db.hasTrace e.traceId = true) ∧ db' = { db with events := db.events ++ [e] } := by
  simp only [insertEventRow, Except.bind_eq_ok, require_eq_ok, Except.pure_eq, Except.ok.injEq,
    exists_const, Bool.not_eq_true', List.any_eq_false, decide_eq_true_eq, Bool.and_eq_true,
    not_and, ne_eq]
  tauto

/-- What an insert of a payload with its key did. -/
theorem insertPayload_eq_ok {db db' : Db} {p : Payload × PayloadKey} :
    db.insertPayload p = .ok db' ↔
      ((∀ x ∈ db.payloads, x.orgId = p.1.orgId → x.payloadHash ≠ p.1.payloadHash) ∧
        (∀ x ∈ db.payloadKeys, x.orgId = p.2.orgId → x.payloadHash ≠ p.2.payloadHash) ∧
          db.hasOrg p.1.orgId = true) ∧
        db' = { db with payloads := db.payloads ++ [p.1]
                        payloadKeys := db.payloadKeys ++ [p.2] } := by
  simp only [insertPayload, Except.bind_eq_ok, require_eq_ok, Except.pure_eq, Except.ok.injEq,
    exists_const, Bool.not_eq_true', List.any_eq_false, decide_eq_true_eq, not_and, ne_eq]
  tauto

theorem mem_of_getTraceById {db : Db} {traceId : Uuid} {t : Trace}
    (h : db.getTraceById traceId = some t) : t ∈ db.traces ∧ t.id = traceId :=
  ⟨List.mem_of_find?_eq_some h, by simpa using List.find?_some h⟩

theorem mem_of_activeSigningKey {db : Db} {orgId : String} {k : OrgSigningKey}
    (h : db.activeSigningKey orgId = some k) :
    k ∈ db.signingKeys ∧ k.orgId = orgId ∧ k.status = "active" := by
  simpa using mem_of_latestBy h

theorem mem_traceRows {db : Db} {orgId : String} {traceId : Uuid} {e : Event} :
    e ∈ db.traceRows orgId traceId ↔ e ∈ db.events ∧ e.orgId = orgId ∧ e.traceId = traceId := by
  simp [traceRows]

theorem mem_of_lastEventForTrace {db : Db} {orgId : String} {traceId : Uuid} {e : Event}
    (h : db.lastEventForTrace orgId traceId = some e) :
    e ∈ db.events ∧ e.orgId = orgId ∧ e.traceId = traceId :=
  mem_traceRows.mp (mem_of_latestBy h)

end Db

end Attest
