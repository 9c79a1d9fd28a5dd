import Attest.Recording
import Attest.Verification

/-!
# Erasure

To erase the content of an event its key row is deleted and the payload row marked
(`cryptoShredPayload`), and an event of the same trace says so (`eraseEventPayload`).
The row of the payload stays, so its fingerprint is not stored again.
-/

set_option linter.unusedSectionVars false

namespace Attest

/-! ## Shredding -/

/-- The key row deleted and the payload row marked. -/
def Db.shred (db : Db) (orgId payloadHash now : String) : Db :=
  { db with
    payloadKeys := db.payloadKeys.filter fun k => ¬(k.orgId = orgId ∧ k.payloadHash = payloadHash)
    payloads := db.payloads.map fun p =>
      if p.orgId = orgId ∧ p.payloadHash = payloadHash ∧ p.erasedAt = none then
        { p with erasedAt := some now }
      else p }

/-- `crypto_shred_payload(db, org_id, payload_hash)`, at the time `now`. -/
def cryptoShredPayload (db : Db) (orgId payloadHash now : String) : Db × Bool :=
  match db.getPayloadKey orgId payloadHash with
  | none => (db, false)
  | some _ => (db.shred orgId payloadHash now, true)

/-! ## Erasing the payload of an event -/

structure EraseArgs where
  orgId : String
  traceId : Uuid
  targetSeq : Int
  approverId : String
  reason : String

/-- What the clock and the generators give a call. -/
structure EraseFresh where
  /-- `now_utc_iso()` of the mark. -/
  erasedAt : String
  event : Fresh
  /-- Of the second `record_event`. -/
  again : Fresh

/-- What `erase_event_payload` returns. -/
structure EraseOut where
  traceId : Uuid
  erasureSeq : Int
  targetSeq : Int
  targetPayloadHash : String
  hash : String
  signature : String

/-- The event an erasure is for. -/
def EraseArgs.target (args : EraseArgs) (db : Db) : Option Event :=
  (db.eventsForTrace args.orgId args.traceId).find? fun e => e.seq = args.targetSeq

/-- The payload of an erasure. -/
def erasurePayload (args : EraseArgs) (target : Event) : Dict :=
  [("target_payload_hash", .str target.payloadHash),
    ("target_seq", .int args.targetSeq),
    ("approver_id", .str args.approverId),
    ("reason", .str args.reason)]

/-- The `record_event` of an erasure, after the tip of the trace. -/
def erasureArgs (db : Db) (args : EraseArgs) (target : Event) : RecordArgs where
  orgId := args.orgId
  traceId := args.traceId
  seq := nextSeq (db.eventsForTrace args.orgId args.traceId).getLast?
  eventType := "erasure"
  payload := erasurePayload args target
  policyVersion := target.policyVersion

section Erase

variable [SignatureScheme] [KeyWrapping] [PyUnicode]

/-- The event of an erasure, drafted again where the tip has moved. -/
def recordErasure (svc : SigningKeyPair) (db : Db) (args : EraseArgs) (target : Event)
    (fresh : EraseFresh) : Except PyError (Db × EventOut) :=
  match recordEvent svc db (erasureArgs db args target) fresh.event with
  | .error (.eventSequence _) => recordEvent svc db (erasureArgs db args target) fresh.again
  | r => r

/-- `erase_event_payload(db, ..)`. -/
def eraseEventPayload (svc : SigningKeyPair) (db : Db) (args : EraseArgs) (fresh : EraseFresh) :
    Except PyError (Db × EraseOut) := do
  let seq := String.ofList (JVal.intText args.targetSeq)
  ensureTraceAccess db args.orgId args.traceId
  match args.target db with
  | none => .error (.erasureTarget ("event seq " ++ seq ++ " not found on trace"))
  | some target =>
    match db.getPayload args.orgId target.payloadHash with
    | none => .error (.erasureTarget ("payload not found for seq " ++ seq))
    | some payload =>
      if payload.erasedAt.isSome then
        .error (.payloadAlreadyErased ("payload already erased for seq " ++ seq))
      else do
        let (db, shredded) := cryptoShredPayload db args.orgId target.payloadHash fresh.erasedAt
        require shredded (.erasureTarget ("payload key missing for seq " ++ seq))
        let (db, event) ← recordErasure svc db args target fresh
        return (db, {
          traceId := args.traceId
          erasureSeq := event.seq
          targetSeq := args.targetSeq
          targetPayloadHash := target.payloadHash
          hash := event.hash
          signature := event.signature })

/-- What an erasure did : the target's content is shredded, and one event says so. -/
structure Erased (db : Db) (args : EraseArgs) (fresh : EraseFresh) (target : Event)
    (db' : Db) : Prop where
  target_mem : target ∈ db.events ∧ target.orgId = args.orgId ∧ target.traceId = args.traceId ∧
    target.seq = args.targetSeq
  target_eq : args.target db = some target
  payload : ∃ p, db.getPayload args.orgId target.payloadHash = some p ∧ p.erasedAt = none
  key : ∃ k, db.getPayloadKey args.orgId target.payloadHash = some k
  recorded : ∃ f e, (f = fresh.event ∨ f = fresh.again) ∧
    Recorded (db.shred args.orgId target.payloadHash fresh.erasedAt) (erasureArgs db args target) f
      e db'

theorem recordErasure_recorded {svc : SigningKeyPair} {db db' : Db} {args : EraseArgs}
    {target : Event} {fresh : EraseFresh} {out : EventOut}
    (h : recordErasure svc db args target fresh = .ok (db', out)) :
    ∃ f e, (f = fresh.event ∨ f = fresh.again) ∧
      Recorded db (erasureArgs db args target) f e db' := by
  unfold recordErasure at h
  split at h
  · obtain ⟨e, he, -⟩ := recordEvent_recorded h
    exact ⟨_, e, Or.inr rfl, he⟩
  · obtain ⟨e, he, -⟩ := recordEvent_recorded h
    exact ⟨_, e, Or.inl rfl, he⟩

theorem EraseArgs.mem_of_target {args : EraseArgs} {db : Db} {target : Event}
    (h : args.target db = some target) : target ∈ db.events ∧ target.orgId = args.orgId ∧
      target.traceId = args.traceId ∧ target.seq = args.targetSeq := by
  have hmem := List.mem_of_find?_eq_some h
  rw [Db.eventsForTrace, List.mem_insertionSort, Db.mem_traceRows] at hmem
  exact ⟨hmem.1, hmem.2.1, hmem.2.2, by simpa using List.find?_some h⟩

/-- The spec of `eraseEventPayload`. -/
theorem eraseEventPayload_erased {svc : SigningKeyPair} {db db' : Db} {args : EraseArgs}
    {fresh : EraseFresh} {out : EraseOut}
    (h : eraseEventPayload svc db args fresh = .ok (db', out)) :
    ∃ target, Erased db args fresh target db' ∧ out.targetPayloadHash = target.payloadHash := by
  simp only [eraseEventPayload, Except.bind_eq_ok] at h
  obtain ⟨_, -, h⟩ := h
  cases htarget : args.target db with
  | none => simp [htarget] at h
  | some target =>
    cases hpayload : db.getPayload args.orgId target.payloadHash with
    | none => simp [htarget, hpayload] at h
    | some p =>
      by_cases herased : p.erasedAt.isSome = true
      · simp [htarget, hpayload, herased] at h
      · cases hkey : db.getPayloadKey args.orgId target.payloadHash with
        | none => simp [htarget, hpayload, herased, cryptoShredPayload, hkey, require] at h
        | some k =>
          simp only [htarget, hpayload, herased, cryptoShredPayload, hkey, Bool.false_eq_true,
            if_false, require, if_true, Except.ok_bind', Except.bind_eq_ok, Except.pure_eq,
            Except.ok.injEq, Prod.mk.injEq] at h
          obtain ⟨⟨db₁, event⟩, hrecord, rfl, rfl⟩ := h
          exact ⟨target, ⟨EraseArgs.mem_of_target htarget, htarget, ⟨p, hpayload, by
            simpa using herased⟩, ⟨k, hkey⟩, recordErasure_recorded hrecord⟩, rfl⟩

end Erase

end Attest
