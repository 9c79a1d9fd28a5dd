import Attest.Remediation
import Attest.Workflow

/-!
# Mitigations

`recordMitigation` applies the mitigations a caller names to a content and records what
changed as a `mitigation` event of the trace. Names that are not known are skipped, and
a call that names no known one is refused.
-/

namespace Attest

section Mitigate

variable [PyUnicode]

/-- `_diff_keys(before, after)`. -/
def diffKeys (before after : Dict) : List String :=
  sortedSet ((before.map Prod.fst ++ after.map Prod.fst).filter fun key =>
    !(Dict.get before key).pyEq (Dict.get after key))

structure MitigationArgs where
  orgId : String
  traceId : Uuid
  seq : Int
  mitigationIds : List String
  sourcePayload : Dict
  policyDecisionSeq : Option Int
  policyVersion : Option String

structure MitigationOut where
  traceId : Uuid
  seq : Int
  hash : String
  mitigationIds : List String
  mitigatedPayload : Dict

/-- The payload of a mitigation. -/
def mitigationPayload (args : MitigationArgs) (mitigated : Dict) (applied : List String) : Dict :=
  [("mitigation_ids", .arr (applied.map JVal.str)),
    ("policy_decision_seq", match args.policyDecisionSeq with
      | some seq => .int seq
      | none => .null),
    ("mitigated_fields", .arr ((diffKeys args.sourcePayload mitigated).map JVal.str)),
    ("mitigated_payload", .obj mitigated)]

variable [SignatureScheme] [KeyWrapping]

/-- `record_mitigation(db, ..)`. -/
def recordMitigation (svc : SigningKeyPair) (db : Db) (args : MitigationArgs) (fresh : Fresh) :
    Except PyError (Db × MitigationOut) := do
  ensureTraceAccess db args.orgId args.traceId
  let (mitigated, applied) := applyMitigationIds args.sourcePayload args.mitigationIds
  require (!applied.isEmpty) (.invalid "no valid mitigation_ids provided")
  let (db, event) ← recordEvent svc db {
    orgId := args.orgId
    traceId := args.traceId
    seq := args.seq
    eventType := "mitigation"
    payload := mitigationPayload args mitigated applied
    policyVersion := args.policyVersion } fresh
  return (db, {
    traceId := args.traceId
    seq := event.seq
    hash := event.hash
    mitigationIds := applied
    mitigatedPayload := mitigated })

end Mitigate

end Attest
