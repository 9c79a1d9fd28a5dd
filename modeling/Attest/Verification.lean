import Attest.Events
import Attest.Lib.HashChain

/-!
# Replaying a trace

`verifyEventChain` rebuilds the envelope of every row from its columns, compares the
fingerprint with the row's hash, checks the signature under the row's key, and follows
the hashes from row to row. `replayTrace` runs it over the rows of a trace, with the
organisation's key where the row names one and the service's otherwise.

A trace verifies as a whole exactly when every row does, under its own key and after
the row before it (`verifyRows_all_verified`, `verifyRows_of_linked`).
-/

namespace Attest

/-- What verification reads of a row. -/
structure VerifiableEvent where
  /-- `str(event.trace_id)`. -/
  traceId : String
  seq : Int
  type : String
  payloadHash : String
  prevHash : Option String
  policyVersion : Option String
  hash : String
  signature : String
  alg : String
  envelope : Dict
  signingKeyId : Option Uuid

/-- A row of the table. -/
def Event.verifiable (e : Event) : VerifiableEvent where
  traceId := e.traceId.str
  seq := e.seq
  type := e.type
  payloadHash := e.payloadHash
  prevHash := e.prevHash
  policyVersion := e.policyVersion
  hash := e.hash
  signature := e.signature
  alg := e.alg
  envelope := e.envelope
  signingKeyId := e.signingKeyId

structure EventVerifyResult where
  seq : Int
  type : String
  verified : Bool
  hashOk : Bool
  signatureOk : Bool
  chainOk : Bool
deriving DecidableEq

structure TraceReplayResult where
  traceId : String
  allVerified : Bool
  events : List EventVerifyResult
deriving DecidableEq

/-- `envelope["created_at"]`. -/
def VerifiableEvent.createdAt (e : VerifiableEvent) : Except PyError JVal :=
  match e.envelope.get? "created_at" with
  | some v => .ok v
  | none => .error (.keyError "created_at")

/-- `event.alg or event.envelope.get("alg") or ""`. -/
def VerifiableEvent.suite (e : VerifiableEvent) : JVal :=
  (JVal.str e.alg).orElse ((e.envelope.get "alg").orElse (.str ""))

/-- The envelope rebuilt from the columns. -/
def VerifiableEvent.rebuilt (e : VerifiableEvent) (createdAt : JVal) : Dict :=
  buildEnvelope e.traceId e.seq e.type e.payloadHash e.prevHash e.policyVersion createdAt e.suite

theorem createdAt_eq_ok {e : VerifiableEvent} {v : JVal} :
    e.createdAt = .ok v ↔ e.envelope.get? "created_at" = some v := by
  unfold VerifiableEvent.createdAt
  cases e.envelope.get? "created_at" <;> simp

section Verify

variable [SignatureScheme]

/-- The signature is one this build can check, and checks. -/
def checkSignature (e : VerifiableEvent) (publicPem : String) : Except PyError Bool := do
  let supported ← isSupported e.suite
  if supported then verifyHex publicPem e.hash e.signature else .ok false

/-- `verify_single_event(event, public_pem, expected_prev_hash)`. -/
def verifySingleEvent (e : VerifiableEvent) (publicPem : String)
    (expectedPrevHash : Option String) : Except PyError EventVerifyResult := do
  let createdAt ← e.createdAt
  let hashOk := sha256Hex (e.rebuilt createdAt) == e.hash
  let signatureOk ← checkSignature e publicPem
  let chainOk := e.prevHash == expectedPrevHash
  return {
    seq := e.seq
    type := e.type
    verified := hashOk && signatureOk && chainOk
    hashOk := hashOk
    signatureOk := signatureOk
    chainOk := chainOk }

/-- The rows from here on, after one that left `prevHash`. -/
def verifyRows (resolve : VerifiableEvent → Except PyError String) :
    Option String → List VerifiableEvent → Except PyError (List EventVerifyResult)
  | _, [] => .ok []
  | prevHash, e :: es => do
    let pem ← resolve e
    let result ← verifySingleEvent e pem prevHash
    let rest ← verifyRows resolve (some e.hash) es
    return result :: rest

/-- `verify_event_chain(trace_id, events, resolve_public_pem)`. -/
def verifyEventChain (traceId : String) (events : List VerifiableEvent)
    (resolve : VerifiableEvent → Except PyError String) : Except PyError TraceReplayResult := do
  let results ← verifyRows resolve none events
  return ⟨traceId, results.all EventVerifyResult.verified, results⟩

/-- `ensure_trace_access(db, org_id, trace_id)`. -/
def ensureTraceAccess (db : Db) (orgId : String) (traceId : Uuid) : Except PyError Unit :=
  match db.getTraceById traceId with
  | none => .error (.traceNotFound ("trace not found: " ++ traceId.str))
  | some t =>
    if t.orgId = orgId then .ok ()
    else .error (.traceAccessDenied ("trace access denied: " ++ traceId.str))

/-- The key a row verifies under : its organisation's, or the service's. -/
def resolveKey (svc : SigningKeyPair) (db : Db) (e : VerifiableEvent) : Except PyError String :=
  match e.signingKeyId with
  | some keyId => publicPemForKey db keyId
  | none => .ok svc.publicPem

/-- `replay_trace(db, org_id, trace_id)`. -/
def replayTrace (svc : SigningKeyPair) (db : Db) (orgId : String) (traceId : Uuid) :
    Except PyError TraceReplayResult := do
  ensureTraceAccess db orgId traceId
  let events := db.eventsForTrace orgId traceId
  if events.isEmpty then .error (.traceNotFound ("trace not found: " ++ traceId.str))
  else verifyEventChain traceId.str (events.map Event.verifiable) (resolveKey svc db)

/-! ## What a verified row says -/

/-- The row is what its columns hash to, and signed under `publicPem`. -/
structure RowVerifies (e : VerifiableEvent) (publicPem : String) : Prop where
  hash_eq : ∃ createdAt, e.envelope.get? "created_at" = some createdAt ∧
    e.hash = sha256Hex (e.rebuilt createdAt)
  suite_eq : e.suite = .str algSha256Ed25519V1
  signature_ok : verifyHex publicPem e.hash e.signature = .ok true

theorem checkSignature_eq_true {e : VerifiableEvent} {publicPem : String} :
    checkSignature e publicPem = .ok true ↔
      e.suite = .str algSha256Ed25519V1 ∧ verifyHex publicPem e.hash e.signature = .ok true := by
  simp only [checkSignature, Except.bind_eq_ok]
  constructor
  · rintro ⟨supported, hsupported, hsignature⟩
    cases supported with
    | false => simp at hsignature
    | true => exact ⟨isSupported_eq_true.mp hsupported, by simpa using hsignature⟩
  · rintro ⟨hsuite, hsignature⟩
    exact ⟨true, isSupported_eq_true.mpr hsuite, by simpa using hsignature⟩

/-- A row is reported verified when it verifies and names the hash before it. -/
theorem verifySingleEvent_verified {e : VerifiableEvent} {publicPem : String}
    {expected : Option String} {r : EventVerifyResult}
    (h : verifySingleEvent e publicPem expected = .ok r) :
    r.verified = true ↔ RowVerifies e publicPem ∧ e.prevHash = expected := by
  simp only [verifySingleEvent, Except.bind_eq_ok, createdAt_eq_ok, Except.pure_eq,
    Except.ok.injEq] at h
  obtain ⟨createdAt, hcreated, signatureOk, hsignature, rfl⟩ := h
  constructor
  · intro hv
    simp only [Bool.and_eq_true, beq_iff_eq] at hv
    obtain ⟨⟨hhash, rfl⟩, hprev⟩ := hv
    obtain ⟨hsuite, hsig⟩ := checkSignature_eq_true.mp hsignature
    exact ⟨⟨⟨createdAt, hcreated, hhash.symm⟩, hsuite, hsig⟩, hprev⟩
  · rintro ⟨⟨⟨createdAt', hcreated', hhash⟩, hsuite, hsig⟩, hprev⟩
    obtain rfl : createdAt = createdAt' := Option.some.inj (hcreated.symm.trans hcreated')
    rw [checkSignature_eq_true.mpr ⟨hsuite, hsig⟩] at hsignature
    obtain rfl : true = signatureOk := Except.ok.inj hsignature
    simp [hhash, hprev]

/-- A row that verifies is reported so. -/
theorem RowVerifies.verifySingleEvent {e : VerifiableEvent} {publicPem : String}
    (h : RowVerifies e publicPem) (expected : Option String) :
    ∃ r, verifySingleEvent e publicPem expected = .ok r ∧
      r.verified = (e.prevHash == expected) := by
  obtain ⟨createdAt, hcreated, hhash⟩ := h.hash_eq
  have hsignature := checkSignature_eq_true.mpr ⟨h.suite_eq, h.signature_ok⟩
  simp [Attest.verifySingleEvent, createdAt_eq_ok.mpr hcreated, hsignature, hhash]

/-- A trace verifies as a whole when each row verifies under its key, in a chain. -/
theorem verifyRows_all_verified {resolve : VerifiableEvent → Except PyError String} :
    ∀ {prevHash : Option String} {es : List VerifiableEvent} {rs : List EventVerifyResult},
      verifyRows resolve prevHash es = .ok rs → rs.all EventVerifyResult.verified = true →
        (∀ e ∈ es, ∃ pem, resolve e = .ok pem ∧ RowVerifies e pem) ∧
          HashChain.Linked VerifiableEvent.hash VerifiableEvent.prevHash prevHash es
  | _, [], _, _, _ => by simp
  | prevHash, e :: es, rs, h, hall => by
    simp only [verifyRows, Except.bind_eq_ok, Except.pure_eq, Except.ok.injEq] at h
    obtain ⟨pem, hpem, r, hr, rest, hrest, rfl⟩ := h
    rw [List.all_cons, Bool.and_eq_true] at hall
    obtain ⟨hrow, hprev⟩ := (verifySingleEvent_verified hr).mp hall.1
    obtain ⟨hrows, hlinked⟩ := verifyRows_all_verified hrest hall.2
    refine ⟨?_, hprev, hlinked⟩
    intro x hx
    rcases List.mem_cons.mp hx with rfl | hx
    · exact ⟨pem, hpem, hrow⟩
    · exact hrows x hx

/-- Rows that verify in a chain are all reported so. -/
theorem verifyRows_of_linked {resolve : VerifiableEvent → Except PyError String} :
    ∀ {prevHash : Option String} {es : List VerifiableEvent},
      (∀ e ∈ es, ∃ pem, resolve e = .ok pem ∧ RowVerifies e pem) →
        HashChain.Linked VerifiableEvent.hash VerifiableEvent.prevHash prevHash es →
          ∃ rs, verifyRows resolve prevHash es = .ok rs ∧
            rs.all EventVerifyResult.verified = true ∧ rs.length = es.length
  | _, [], _, _ => ⟨[], rfl, rfl, rfl⟩
  | prevHash, e :: es, hrows, hlinked => by
    obtain ⟨pem, hpem, hrow⟩ := hrows e (by simp)
    obtain ⟨r, hr, hverified⟩ := hrow.verifySingleEvent prevHash
    obtain ⟨rs, hrs, hall, hlength⟩ := verifyRows_of_linked
      (fun x hx => hrows x (List.mem_cons_of_mem e hx)) hlinked.2
    refine ⟨r :: rs, ?_, ?_, by simp [hlength]⟩
    · simp [verifyRows, hpem, hr, hrs]
    · rw [List.all_cons, hall, hverified, hlinked.1]
      simp

end Verify

theorem ensureTraceAccess_eq_ok {db : Db} {orgId : String} {traceId : Uuid} {u : Unit} :
    ensureTraceAccess db orgId traceId = .ok u ↔
      ∃ t, db.getTraceById traceId = some t ∧ t.orgId = orgId := by
  unfold ensureTraceAccess
  cases db.getTraceById traceId with
  | none => simp
  | some t => by_cases h : t.orgId = orgId <;> simp [h]

end Attest
