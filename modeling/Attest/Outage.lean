import Attest.DeviceQueue
import Attest.LocalPolicy

/-!
# Outages

Where the service is out of reach `gate` judges the output by the cached bundle and queues it
(`gateOutage`). The bundle is evaluated before the record is appended, so an output whose
evaluation raises is lost : the record is queued exactly where the bundle can be read
(`leaves_no_hole_iff`). Texts are of Unicode scalar values here. One that cannot be encoded is
lost as well, since it is hashed before it is queued.
-/

set_option linter.unusedSectionVars false

namespace Attest

/-! ## The call -/

/-- What `gate` is called with. Its `policy_version` is not used in an outage. -/
structure ClientGate where
  action : String
  output : Dict
  trace : Option String
  remediates : Option Int
  onError : String

/-- What `gate` answers while the service is out of reach. -/
inductive OutageAnswer where
  /-- The exception of the request, raised. -/
  | raised
  /-- `GateResult.unreachable(..)`. -/
  | unreachable (traceId : String)
  /-- `GateResult.from_offline(..)`. -/
  | offline (verdict : OfflineVerdict) (traceId : String)

section Outage

variable [SignatureScheme] [PyUnicode] [RecordSealing QueuedRecord]

/-- `_gate_offline(action, output, trace)`, where the strings are of Unicode scalar values : a
lone surrogate in the output or the action makes the hash raise, before the record is appended. -/
def judgeOffline (bundle : OfflineBundle) (device : DeviceKey) (dir : StateDir) (call : ClientGate)
    (occurredAt : String) (nonce : Bytes) : Except PyError (StateDir × OutageAnswer) := do
  let verdict ← bundle.evaluate call.action call.output
  let (dir, _) ← gateOffline device dir {
    action := call.action
    output := call.output
    trace := call.trace
    occurredAt := occurredAt
    localStatus := verdict.status.name } nonce
  return (dir, .offline verdict (call.trace.getD ""))

/-- `gate(..)` from where its request has raised, for want of an answer. -/
def gateOutage (offlineEnabled : Bool) (bundle : OfflineBundle) (device : DeviceKey)
    (dir : StateDir) (call : ClientGate) (occurredAt : String) (nonce : Bytes) :
    Except PyError (StateDir × OutageAnswer) :=
  if call.onError = "raise" then .ok (dir, .raised)
  else if call.remediates.isSome then .ok (dir, .unreachable (call.trace.getD ""))
  else if offlineEnabled then judgeOffline bundle device dir call occurredAt nonce
  else .ok (dir, .unreachable (call.trace.getD ""))

/-! ## What an outage leaves -/

/-- The call returns a result, and the queue has one more record, of the output. -/
def LeavesNoHole (bundle : OfflineBundle) (device : DeviceKey) (dir : StateDir) (call : ClientGate)
    (occurredAt : String) (nonce : Bytes) : Prop :=
  ∃ dir' verdict traceId pending, ∃ r : QueuedRecord,
    gateOutage true bundle device dir call occurredAt nonce =
      .ok (dir', .offline verdict traceId) ∧
    OfflineStore.readAll dir.file = .ok pending ∧
    OfflineStore.readAll dir'.file = .ok (pending ++ [r]) ∧
    r.action = call.action ∧ r.output = call.output ∧ r.traceId = call.trace

/-- Nothing is queued where the evaluation of the bundle raises. -/
theorem evaluates_of_leavesNoHole {bundle : OfflineBundle} {device : DeviceKey} {dir : StateDir}
    {call : ClientGate} {occurredAt : String} {nonce : Bytes} (hremediates : call.remediates = none)
    (hflag : call.onError = "flag")
    (h : LeavesNoHole bundle device dir call occurredAt nonce) :
    (bundle.evaluate call.action call.output).succeeds = true := by
  obtain ⟨dir', verdict, traceId, pending, r, hgate, -⟩ := h
  have hraise : call.onError ≠ "raise" := by
    rw [hflag]
    decide
  rw [gateOutage, if_neg hraise, hremediates] at hgate
  simp only [Option.isSome_none, Bool.false_eq_true, if_false, if_true, judgeOffline,
    Except.bind_eq_ok] at hgate
  obtain ⟨verdict', hverdict, -⟩ := hgate
  exact Except.succeeds_iff.mpr ⟨verdict', hverdict⟩

variable [LawfulSealing QueuedRecord]

/-- Whatever a device queued and handed over before, an outage leaves no hole exactly where the
cached bundle is empty or can be read for the output. -/
theorem leaves_no_hole_iff (device : DeviceKey) (steps : List DeviceStep) (bundle : OfflineBundle)
    (call : ClientGate) (hremediates : call.remediates = none) (hflag : call.onError = "flag")
    (occurredAt : String) (nonce : Bytes) :
    LeavesNoHole bundle device (newDevice.run device steps).dir call occurredAt nonce ↔
      (bundle.isEmpty = false → bundle.Reads call.action call.output) := by
  rw [← OfflineBundle.evaluate_succeeds]
  refine ⟨evaluates_of_leavesNoHole hremediates hflag, fun h => ?_⟩
  obtain ⟨verdict, hverdict⟩ := Except.succeeds_iff.mp h
  obtain ⟨pending, hkept⟩ := (queueKept_new device).run steps
  obtain ⟨r, next, -, hqueue, -, -, -, hkept'⟩ := hkept.queueOffline {
    action := call.action
    output := call.output
    trace := call.trace
    occurredAt := occurredAt
    localStatus := verdict.status.name } nonce
  obtain ⟨haction, houtput, htrace⟩ := queueOffline_fields hqueue
  have hraise : call.onError ≠ "raise" := by
    rw [hflag]
    decide
  obtain ⟨dir, hdir⟩ : ∃ dir, dir = (newDevice.run device steps).dir := ⟨_, rfl⟩
  rw [← hdir] at hkept hkept' hqueue ⊢
  refine ⟨rememberHead { dir with file := OfflineStore.append dir.file nonce r } r, verdict,
    call.trace.getD "", pending, r, ?_, hkept.lines.readAll, hkept'.lines.readAll, haction, houtput,
    htrace⟩
  rw [gateOutage, if_neg hraise, hremediates]
  simp only [Option.isSome_none, Bool.false_eq_true, if_false, if_true, judgeOffline, hverdict,
    Except.ok_bind', gateOffline, hqueue, Except.pure_eq]

end Outage

/-! ## A rule whose tier is misspelt -/

section Samples

open Sample OfflineStore.Sample

namespace Sample

/-- A policy with a tier that there is not. -/
def misspeltBundle : OfflineBundle where
  policyVersion := some "1"
  policyRules := [("rules", .arr [.obj [("tier", .str "critical")]])]
  packs := []
  failMode := "deny_on_error"

def clientGate : ClientGate where
  action := "model_completion"
  output := [("text", .str "hello")]
  trace := none
  remediates := none
  onError := "flag"

end Sample

theorem leaves_no_hole_iff_sample :
    LeavesNoHole misspeltBundle deviceKey (newDevice.run deviceKey gateSteps).dir clientGate
      "2025-01-01T00:00:00+00:00" [] ↔
      (misspeltBundle.isEmpty = false → misspeltBundle.Reads "model_completion"
        [("text", .str "hello")]) :=
  leaves_no_hole_iff deviceKey gateSteps misspeltBundle clientGate rfl rfl _ []

theorem misspelt_tier_loses : ¬ LeavesNoHole misspeltBundle deviceKey
    (newDevice.run deviceKey gateSteps).dir clientGate "2025-01-01T00:00:00+00:00" [] := by
  intro h
  have hevaluates := evaluates_of_leavesNoHole rfl rfl h
  revert hevaluates
  decide +kernel

end Samples

end Attest
