import Attest.Ledger
import Attest.Precheck

/-!
# The output gate

`runGate` judges an output, records the decision and the output after it, and returns a
verdict. Without an active policy the output is recorded all the same.

What blocks is the organisation's own policy and, in one case, more than that : a flag of
its own is turned into a gate when a built-in layer has raised the tier to red
(`allowed_iff`).
-/

set_option linter.unusedSectionVars false

namespace Attest

structure GateArgs where
  org : Org
  action : String
  output : Dict
  traceId : Option Uuid
  policyVersion : Option String
  remediates : Option Int

/-- What a call is given from outside. -/
structure GateFresh where
  /-- The trace of a call that names none. -/
  traceId : Uuid
  precheck : PrecheckFresh
  output : Fresh

structure GateOut where
  traceId : Uuid
  status : Status
  allowed : Bool
  tier : Option RiskTier
  reasons : List String
  findings : List PackFinding
  jurisdictions : List String
  policyVersion : Option String
  decisionSeq : Option Int
  outputSeq : Int
  outputHash : String
  signature : String
  approvalId : Option Uuid
  suggestedFix : Option RemediationPlan
  remediationOf : Option Int

/-- The trace of a call. -/
def gateTrace (args : GateArgs) (fresh : GateFresh) : Uuid :=
  args.traceId.getD fresh.traceId

def unevaluatedReason : String :=
  "No active policy for this organisation, so the output was recorded " ++
  "but not evaluated. Publish a policy from the Compliance screen to " ++
  "start checking outputs."

/-- `_validate_remediates(db, org_id, trace_id, remediates)`. -/
def validateRemediates (db : Db) (orgId : String) (traceId : Option Uuid) (remediates : Int) :
    Except PyError PolicyDecisionSummary := do
  let seq := String.ofList (JVal.intText remediates)
  match traceId with
  | none => .error (.remediationRef ("remediates requires trace_id: the fix must be recorded " ++
      "in the same trace as the flagged decision it cures"))
  | some traceId =>
    match ← oneOrNone (db.summariesOf orgId traceId remediates) with
    | none => .error (.remediationRef
        ("remediates=" ++ seq ++ " does not name a decision in this trace"))
    | some summary =>
      if summary.status = some Status.flagged.name ∨ summary.status = some Status.blocked.name then
        return summary
      else .error (.remediationRef ("decision seq " ++ seq ++ " is '" ++
        summary.status.getD "None" ++ "', not flagged or blocked — there is nothing to remediate"))

/-- The decision a call says it cures. -/
def remediatedSummary (db : Db) (args : GateArgs) :
    Except PyError (Option PolicyDecisionSummary) :=
  match args.remediates with
  | some seq => (validateRemediates db args.org.id args.traceId seq).map some
  | none => .ok none

/-- The verdict stamped onto the index row of its decision. -/
def Db.stampSummary (db : Db) (id : Uuid) (status : Status) (event : EventOut) : Db :=
  { db with summaries := db.summaries.map fun s =>
      if s.id = id then
        { s with
          status := some status.name
          outputSeq := some event.seq
          outputHash := some event.hash }
      else s }

/-- The index row of a decision that a compliant output has cured. -/
def Db.closeSummary (db : Db) (id : Uuid) (seq : Int) : Db :=
  { db with summaries := db.summaries.map fun s =>
      if s.id = id then { s with remediatedBySeq := some seq } else s }

section Call

variable [SignatureScheme] [KeyWrapping] [PyUnicode]

/-- `_next_seq(db, org_id, trace_id)`. -/
def Db.nextSeqOf (db : Db) (orgId : String) (traceId : Uuid) : Int :=
  nextSeq (db.lastEventForTrace orgId traceId)

/-- The decision of a call, `none` where there is no policy : `NoActivePolicyError` is
raised for that alone, before anything is written. -/
def decideOutput (svc : SigningKeyPair) (db : Db) (args : GateArgs) (fresh : GateFresh) :
    Except PyError (Db × Option DecisionOut) :=
  let traceId := gateTrace args fresh
  match selectPolicy db args.org.id args.policyVersion with
  | none => .ok (db, none)
  | some _ => (runPrecheck svc db {
      org := args.org
      traceId := traceId
      seq := db.nextSeqOf args.org.id traceId
      action := args.action
      remediationOf := args.remediates
      payload := args.output
      policyVersion := args.policyVersion } fresh.precheck).map fun r => (r.1, some r.2)

/-- The `record_event` of the output. -/
def recordOutput (svc : SigningKeyPair) (db : Db) (args : GateArgs) (traceId : Uuid)
    (policyVersion : Option String) (fresh : Fresh) : Except PyError (Db × EventOut) :=
  recordEvent svc db {
    orgId := args.org.id
    traceId := traceId
    seq := db.nextSeqOf args.org.id traceId
    eventType := args.action
    payload := args.output
    policyVersion := policyVersion } fresh

/-- The answer without a decision. -/
def unevaluatedOut (args : GateArgs) (traceId : Uuid) (event : EventOut) : GateOut where
  traceId := traceId
  status := .unevaluated
  allowed := true
  tier := none
  reasons := [unevaluatedReason]
  findings := []
  jurisdictions := []
  policyVersion := none
  decisionSeq := none
  outputSeq := event.seq
  outputHash := event.hash
  signature := event.signature
  approvalId := none
  suggestedFix := none
  remediationOf := args.remediates

/-- The answer with a decision. -/
def judgedOut (args : GateArgs) (decision : DecisionOut) (status : Status) (event : EventOut) :
    GateOut where
  traceId := decision.traceId
  status := status
  allowed := decision.allowed
  tier := some decision.tier
  reasons := decision.reasons
  findings := decision.findings
  jurisdictions := decision.jurisdictions
  policyVersion := some decision.policyVersion
  decisionSeq := some decision.seq
  outputSeq := event.seq
  outputHash := event.hash
  signature := event.signature
  approvalId := decision.approvalId
  suggestedFix := decision.remediationPlan
  remediationOf := args.remediates

/-- The verdict of a decision. -/
def DecisionOut.status (d : DecisionOut) : Status :=
  deriveStatus d.allowed d.tier d.findings

/-- The index rows once the output is recorded. -/
def settleSummaries (db : Db) (args : GateArgs) (remediated : Option PolicyDecisionSummary)
    (decision : DecisionOut) (event : EventOut) : Except PyError Db := do
  let summary ← oneOrNone (db.summariesOf args.org.id decision.traceId decision.seq)
  let db := match summary with
    | some s => db.stampSummary s.id decision.status event
    | none => db
  return match remediated with
    | some s => if decision.status = .compliant then db.closeSummary s.id decision.seq else db
    | none => db

/-- `run_gate(db, ..)`. -/
def runGate (svc : SigningKeyPair) (db : Db) (args : GateArgs) (fresh : GateFresh) :
    Except PyError (Db × GateOut) := do
  let remediated ← remediatedSummary db args
  let traceId := gateTrace args fresh
  let db ← getOrCreateTrace db args.org.id traceId args.policyVersion
  let (db, decision) ← decideOutput svc db args fresh
  match decision with
  | none => do
    let (db, event) ← recordOutput svc db args traceId args.policyVersion fresh.output
    return (db, unevaluatedOut args traceId event)
  | some decision => do
    let version := if decision.policyVersion = "" then args.policyVersion
      else some decision.policyVersion
    let (db, event) ← recordOutput svc db args traceId version fresh.output
    let db ← settleSummaries db args remediated decision event
    return (db, judgedOut args decision decision.status event)

end Call

/-! ## What the calls report -/

theorem selectPolicy_congr {db db' : Db} (h : db'.policies = db.policies) (orgId : String)
    (pv : Option String) : selectPolicy db' orgId pv = selectPolicy db orgId pv := by
  simp only [selectPolicy, Db.getPolicyByVersion, Db.getActivePolicy, h]

section Reports

variable [SignatureScheme] [KeyWrapping] [PyUnicode] {svc : SigningKeyPair}

/-- A concluded precheck allows what the evaluation allowed. -/
theorem concludePrecheck_allowed {db db' : Db} {args : PrecheckArgs} {policy : Policy}
    {features : FeatureVector} {output : PolicyOutput} {fresh : PrecheckFresh} {d : DecisionOut}
    (h : concludePrecheck svc db args policy features output fresh = .ok (db', d)) :
    d.allowed = output.allowed := by
  simp only [concludePrecheck, Except.bind_eq_ok, Except.pure_eq, Except.ok.injEq,
    Prod.mk.injEq] at h
  obtain ⟨_, -, _, -, ⟨_, _⟩, -, _, -, _, -, -, rfl⟩ := h
  rfl

variable {db : Db} {org : Org} {action : String} {payload : Dict} {policyVersion : Option String}
  {policy : Policy} {features : FeatureVector} {output : PolicyOutput}

/-- A precheck allows what the evaluation of the selected policy allowed. -/
theorem runPrecheck_allowed {db' : Db} {args : PrecheckArgs} {fresh : PrecheckFresh}
    {d : DecisionOut} (h : runPrecheck svc db args fresh = .ok (db', d))
    (hpolicy : selectPolicy db args.org.id args.policyVersion = some policy)
    (hfeatures : extractFeatures args.action args.payload = .ok features)
    (houtput : evaluatePolicyInput (policyInput args.org args.action args.payload policy.version
      features) policy.rules = .ok output) : d.allowed = output.allowed := by
  simp only [runPrecheck, hpolicy, hfeatures, Except.ok_bind', houtput] at h
  obtain ⟨_, -, hconclude⟩ := Except.bind_eq_ok.mp h
  exact concludePrecheck_allowed hconclude

/-- So does the gate. -/
theorem runGate_allowed {db' : Db} {args : GateArgs} {fresh : GateFresh} {out : GateOut}
    (h : runGate svc db args fresh = .ok (db', out))
    (hpolicy : selectPolicy db args.org.id args.policyVersion = some policy)
    (hfeatures : extractFeatures args.action args.output = .ok features)
    (houtput : evaluatePolicyInput (policyInput args.org args.action args.output policy.version
      features) policy.rules = .ok output) : out.allowed = output.allowed := by
  simp only [runGate, Except.bind_eq_ok] at h
  obtain ⟨remediated, -, db₁, hopen, ⟨db₂, decision⟩, hdecide, h⟩ := h
  obtain ⟨ts, rfl⟩ := getOrCreateTrace_eq_ok hopen
  have hpolicy' : selectPolicy { db with traces := ts } args.org.id args.policyVersion =
      some policy := (selectPolicy_congr rfl _ _).trans hpolicy
  rw [decideOutput, hpolicy'] at hdecide
  obtain ⟨⟨db₃, d⟩, hprecheck, hpair⟩ := Except.map_eq_ok.mp hdecide
  obtain ⟨rfl, rfl⟩ := Prod.mk.inj hpair
  have hallowed := runPrecheck_allowed hprecheck hpolicy' hfeatures houtput
  simp only [Except.bind_eq_ok, Except.pure_eq, Except.ok.injEq, Prod.mk.injEq] at h
  obtain ⟨⟨_, _⟩, -, _, -, -, rfl⟩ := h
  exact hallowed

/-- What is allowed is the verdict of the organisation's own policy : of the evaluator, as
if no layer had reported anything, and of every precheck and gate call, whatever packs
the organisation has. -/
structure OwnPolicyDecides (svc : SigningKeyPair) (db : Db) (org : Org) (action : String)
    (payload : Dict) (policyVersion : Option String) (policy : Policy) (features : FeatureVector)
    (output : PolicyOutput) (hit : Option RuleHit) : Prop where
  evaluated : output.allowed = customerVerdict org.failMode hit
  unlayered : ∀ bare, evaluateOver [] (policyInput org action payload policy.version features)
    policy.rules = .ok bare → output.allowed = bare.allowed
  prechecked : ∀ traceId seq remediationOf fresh db' d,
    runPrecheck svc db ⟨org, traceId, seq, action, remediationOf, payload, policyVersion⟩ fresh =
      .ok (db', d) → d.allowed = customerVerdict org.failMode hit
  gated : ∀ traceId remediates fresh db' out,
    runGate svc db ⟨org, action, payload, traceId, policyVersion, remediates⟩ fresh =
      .ok (db', out) → out.allowed = customerVerdict org.failMode hit

/-- The organisation's own policy decides, but for a flag of its own that a layer has
raised to red. -/
theorem allowed_iff {hit : Option RuleHit}
    (hpolicy : selectPolicy db org.id policyVersion = some policy)
    (hfeatures : extractFeatures action payload = .ok features)
    (houtput : evaluatePolicyInput (policyInput org action payload policy.version features)
      policy.rules = .ok output)
    (hhit : firstMatchingRule serverHintKeys action payload features policy.rules = .ok hit) :
    OwnPolicyDecides svc db org action payload policyVersion policy features output hit ↔
      ¬LayerGates features org.failMode hit := by
  have hover (layers : List LayerResult) : evaluateOver layers (policyInput org action payload
      policy.version features) policy.rules = .ok (joinOutput layers org.failMode hit) := by
    refine evaluateOver_of_hit ?_ layers
    exact hhit
  have hjoin : output = joinOutput (runDeterministicLayers features) org.failMode hit :=
    Except.ok.inj (houtput.symm.trans (hover _))
  rw [← joinOutput_allowed_iff, ← hjoin]
  constructor
  · exact OwnPolicyDecides.evaluated
  · intro hallowed
    refine ⟨hallowed, ?_, ?_, ?_⟩
    · intro bare hbare
      obtain rfl := Except.ok.inj (hbare.symm.trans (hover []))
      rw [hallowed, joinOutput_nil_allowed]
    · intro traceId seq remediationOf fresh db' d h
      rw [← hallowed]
      exact runPrecheck_allowed h hpolicy hfeatures houtput
    · intro traceId remediates fresh db' out h
      rw [← hallowed]
      exact runGate_allowed h hpolicy hfeatures houtput

/-- What a gate call did : one output event after the decision it came with, if any. -/
structure Gated (db : Db) (args : GateArgs) (fresh : GateFresh) (db' : Db) (out : GateOut) :
    Prop where
  rows : ∃ decided ts ps ks ss e, (e.type = args.action ∧ e.orgId = args.org.id ∧
      e.traceId = gateTrace args fresh ∧ e.id = fresh.output.eventId ∧
        e.payloadHash = sha256Hex (redactPayload args.output).1 ∧ e.seq = out.outputSeq) ∧
    (∀ x ∈ decided, x.type = "policy_decision" ∧ x.orgId = args.org.id ∧
      x.traceId = gateTrace args fresh ∧ x.id = fresh.precheck.event.eventId) ∧
    db' = { db with traces := ts, payloads := ps, payloadKeys := ks, summaries := ss,
                    events := db.events ++ decided ++ [e],
                    approvals := db.approvals ++
                      if out.tier.any RiskTier.requiresApproval then
                        [openedApproval ⟨args.org, gateTrace args fresh, 0, args.action,
                          args.remediates, args.output, args.policyVersion⟩ fresh.precheck]
                      else [] }
  traceId_eq : out.traceId = gateTrace args fresh
  approvalId_eq : out.approvalId =
    if out.tier.any RiskTier.requiresApproval then some fresh.precheck.approval.id else none

/-- The verdict stamped on the index rows leaves the other tables. -/
theorem settleSummaries_eq_ok {db db' : Db} {args : GateArgs}
    {remediated : Option PolicyDecisionSummary} {decision : DecisionOut} {event : EventOut}
    (h : settleSummaries db args remediated decision event = .ok db') :
    ∃ ss, db' = { db with summaries := ss } := by
  obtain ⟨summary, -, hdb⟩ := Except.bind_eq_ok.mp h
  obtain rfl := Except.ok.inj hdb
  cases summary <;> cases remediated with
  | none => exact ⟨_, rfl⟩
  | some s => by_cases hstatus : decision.status = .compliant <;> simp only [hstatus] <;>
      exact ⟨_, rfl⟩

/-- The spec of `runGate`. -/
theorem runGate_eq_ok {db db' : Db} {args : GateArgs} {fresh : GateFresh} {out : GateOut}
    (h : runGate svc db args fresh = .ok (db', out)) : Gated db args fresh db' out := by
  simp only [runGate, Except.bind_eq_ok] at h
  obtain ⟨remediated, -, db₁, hopen, ⟨db₂, decision⟩, hdecide, h⟩ := h
  obtain ⟨ts, rfl⟩ := getOrCreateTrace_eq_ok hopen
  unfold decideOutput at hdecide
  cases hpolicy : selectPolicy { db with traces := ts } args.org.id args.policyVersion with
  | none =>
    rw [hpolicy] at hdecide
    obtain ⟨rfl, rfl⟩ := Prod.mk.inj (Except.ok.inj hdecide)
    simp only [Except.bind_eq_ok, Except.pure_eq, Except.ok.injEq, Prod.mk.injEq] at h
    obtain ⟨⟨db₃, event⟩, hrecord, rfl, rfl⟩ := h
    obtain ⟨e, ts', ps, ks, hrecords, ⟨hid, -⟩, rfl, rfl⟩ := recordEvent_eq_ok hrecord
    refine ⟨⟨[], ts', ps, ks, db.summaries, e, ⟨hrecords.type_eq, hrecords.orgId_eq,
      hrecords.traceId_eq, hid, hrecords.payloadHash_eq, rfl⟩, by simp, ?_⟩, rfl, rfl⟩
    simp [unevaluatedOut]
  | some policy =>
    rw [hpolicy] at hdecide
    obtain ⟨⟨db₃, d⟩, hprecheck, hpair⟩ := Except.map_eq_ok.mp hdecide
    obtain ⟨rfl, rfl⟩ := Prod.mk.inj hpair
    obtain ⟨⟨e₁, ts₁, ps₁, ks₁, ss₁, he₁, rfl⟩, htrace, happroval⟩ := runPrecheck_eq_ok hprecheck
    simp only [Except.bind_eq_ok, Except.pure_eq, Except.ok.injEq, Prod.mk.injEq] at h
    obtain ⟨⟨db₄, event⟩, hrecord, db₅, hsettle, rfl, rfl⟩ := h
    obtain ⟨e, ts', ps, ks, hrecords, ⟨hid, -⟩, rfl, rfl⟩ := recordEvent_eq_ok hrecord
    obtain ⟨ss, rfl⟩ := settleSummaries_eq_ok hsettle
    refine ⟨⟨[e₁], ts', ps, ks, ss, e, ⟨hrecords.type_eq, hrecords.orgId_eq, hrecords.traceId_eq,
      hid, hrecords.payloadHash_eq, rfl⟩, ?_, ?_⟩, htrace, ?_⟩
    · rintro x hx
      obtain rfl := List.mem_singleton.mp hx
      exact ⟨he₁.1, he₁.2.1, he₁.2.2.1, he₁.2.2.2.2⟩
    · rfl
    · exact happroval

/-- The precheck of a gate call. -/
def gatePrecheck (db : Db) (args : GateArgs) (fresh : GateFresh) : PrecheckArgs where
  org := args.org
  traceId := gateTrace args fresh
  seq := db.nextSeqOf args.org.id (gateTrace args fresh)
  action := args.action
  remediationOf := args.remediates
  payload := args.output
  policyVersion := args.policyVersion

theorem decideOutput_eq_ok {db db' : Db} {args : GateArgs} {fresh : GateFresh}
    {decision : Option DecisionOut} (h : decideOutput svc db args fresh = .ok (db', decision)) :
    (decision = none ∧ db' = db) ∨ ∃ d, decision = some d ∧
      runPrecheck svc db (gatePrecheck db args fresh) fresh.precheck = .ok (db', d) := by
  unfold decideOutput at h
  split at h
  · obtain ⟨rfl, rfl⟩ := Prod.mk.inj (Except.ok.inj h)
    exact Or.inl ⟨rfl, rfl⟩
  · obtain ⟨⟨db₁, d⟩, hprecheck, hpair⟩ := Except.map_eq_ok.mp h
    obtain ⟨rfl, rfl⟩ := Prod.mk.inj hpair
    exact Or.inr ⟨d, rfl, hprecheck⟩

/-- `e` is the event a precheck recorded over `db`. -/
def PrecheckWrites (svc : SigningKeyPair) (db : Db) (args : PrecheckArgs) (fresh : PrecheckFresh)
    (e : Event) : Prop :=
  ∃ db' d, runPrecheck svc db args fresh = .ok (db', d) ∧ db'.events = db.events ++ [e]

/-- The events of a gate call : what its precheck recorded once the trace was open, if
there was one, and the output `e`. -/
structure GateWrites (svc : SigningKeyPair) (db : Db) (args : GateArgs) (fresh : GateFresh)
    (db' : Db) (out : GateOut) (decided : List Event) (e : Event) : Prop where
  events_eq : db'.events = db.events ++ decided ++ [e]
  decided_of : ∃ db₁, getOrCreateTrace db args.org.id (gateTrace args fresh) args.policyVersion =
    .ok db₁ ∧ ∀ x ∈ decided, PrecheckWrites svc db₁ (gatePrecheck db₁ args fresh) fresh.precheck x
  type_eq : e.type = args.action
  orgId_eq : e.orgId = args.org.id
  traceId_eq : e.traceId = out.traceId
  seq_eq : e.seq = out.outputSeq
  payloadHash_eq : e.payloadHash = sha256Hex (redactPayload args.output).1
  new : ∀ x ∈ db.events ++ decided, x.id ≠ e.id

theorem recordEvent_new {db db' : Db} {args : RecordArgs} {fresh : Fresh} {out : EventOut}
    {e : Event} (h : recordEvent svc db args fresh = .ok (db', out))
    (he : db'.events = db.events ++ [e]) : ∀ x ∈ db.events, x.id ≠ e.id := by
  obtain ⟨trace, last, d, -, -, -, -, hcommit⟩ := recordEvent_stages h
  obtain ⟨db₁, hopen, hinsert⟩ := Except.bind_eq_ok.mp hcommit
  obtain ⟨ts, rfl⟩ := insertOpened_eq_ok hopen
  obtain ⟨hnew, -, ps, ks, rfl⟩ := Draft.insert_eq_ok hinsert
  obtain rfl : d.event = e := by simpa using he
  exact hnew

/-- The output of a gate call, over the events there were. -/
theorem recordOutput_eq_ok {db db' : Db} {args : GateArgs} {traceId : Uuid}
    {policyVersion : Option String} {fresh : Fresh} {event : EventOut}
    (h : recordOutput svc db args traceId policyVersion fresh = .ok (db', event)) :
    ∃ e, db'.events = db.events ++ [e] ∧ (e.type = args.action ∧ e.orgId = args.org.id ∧
      e.traceId = traceId ∧ e.payloadHash = sha256Hex (redactPayload args.output).1) ∧
        e.seq = event.seq ∧ ∀ x ∈ db.events, x.id ≠ e.id := by
  have hnew := fun e => recordEvent_new (e := e) h
  obtain ⟨e, ts, ps, ks, hrecords, -, rfl, rfl⟩ := recordEvent_eq_ok h
  exact ⟨e, rfl, ⟨hrecords.type_eq, hrecords.orgId_eq, hrecords.traceId_eq,
    hrecords.payloadHash_eq⟩, rfl, hnew e rfl⟩

theorem runGate_writes {db db' : Db} {args : GateArgs} {fresh : GateFresh} {out : GateOut}
    (h : runGate svc db args fresh = .ok (db', out)) :
    ∃ decided e, GateWrites svc db args fresh db' out decided e := by
  have hgated := runGate_eq_ok h
  simp only [runGate, Except.bind_eq_ok] at h
  obtain ⟨remediated, -, db₁, hopen, ⟨db₂, decision⟩, hdecide, h⟩ := h
  obtain ⟨ts, hdb₁⟩ := getOrCreateTrace_eq_ok hopen
  have hevents : db₁.events = db.events := by rw [hdb₁]
  rcases decideOutput_eq_ok hdecide with ⟨rfl, rfl⟩ | ⟨d, rfl, hprecheck⟩
  · simp only [Except.bind_eq_ok, Except.pure_eq, Except.ok.injEq, Prod.mk.injEq] at h
    obtain ⟨⟨db₃, event⟩, hrecord, rfl, rfl⟩ := h
    obtain ⟨e, he, ⟨htype, horg, htrace, hhash⟩, hseq, hnew⟩ := recordOutput_eq_ok hrecord
    refine ⟨[], e, ?_, ⟨db₂, hopen, by simp⟩, htype, horg, ?_, hseq, hhash, ?_⟩
    · rw [he, hevents, List.append_nil]
    · rw [htrace, hgated.traceId_eq]
    · rwa [List.append_nil, ← hevents]
  · obtain ⟨⟨x, ts', ps, ks, ss, -, hdb₂⟩, -⟩ := runPrecheck_eq_ok hprecheck
    have hdecided : db₂.events = db₁.events ++ [x] := by rw [hdb₂]
    simp only [Except.bind_eq_ok, Except.pure_eq, Except.ok.injEq, Prod.mk.injEq] at h
    obtain ⟨⟨db₃, event⟩, hrecord, db₄, hsettle, rfl, rfl⟩ := h
    obtain ⟨e, he, ⟨htype, horg, htrace, hhash⟩, hseq, hnew⟩ := recordOutput_eq_ok hrecord
    obtain ⟨ss', rfl⟩ := settleSummaries_eq_ok hsettle
    refine ⟨[x], e, ?_, ⟨db₁, hopen, ?_⟩, htype, horg, ?_, hseq, hhash, ?_⟩
    · rw [he, hdecided, hevents]
    · rintro y hy
      obtain rfl := List.mem_singleton.mp hy
      exact ⟨db₂, d, hprecheck, hdecided⟩
    · rw [htrace, hgated.traceId_eq]
    · rwa [hdecided, hevents] at hnew

end Reports

/-! ## A flag on a transfer -/

/-- A policy that flags every transfer. -/
def samplePolicy : Policy where
  id := Uuid.ofNat 11
  orgId := "acme"
  name := "transfers"
  version := "1"
  rules := [("rules", .arr [.obj [("id", .str "transfer"), ("tier", .str "yellow"),
    ("decision", .str "flag"), ("match", .obj [("action", .str "transfer")])]])]
  active := true
  createdAt := 0

def samplePoliced : Db := { sampleBlank with policies := [samplePolicy] }

/-- A transfer abroad with no basis given. -/
def sampleTransfer : Dict := [("cross_border", .bool true)]

def sampleTransferFeatures : FeatureVector where
  action := "transfer"
  citationCount := .int 0
  hasPii := false
  piiLabels := []
  crossBorder := true
  lawfulBasisPresent := false
  prohibitedPhrases := []
  amountAed := none

def sampleFlag : RuleHit where
  tier := .yellow
  decision := .flag
  reason := "Rule matched: transfer"
  ruleId := "transfer"
  regulatoryRefs := []

theorem extractFeatures_sampleTransfer :
    @extractFeatures .ascii "transfer" sampleTransfer = .ok sampleTransferFeatures := by
  decide +kernel

theorem firstMatchingRule_sampleTransfer :
    @firstMatchingRule .ascii serverHintKeys "transfer" sampleTransfer sampleTransferFeatures
      samplePolicy.rules = .ok (some sampleFlag) := by
  decide +kernel

theorem evaluateOver_sampleTransfer (layers : List LayerResult) :
    @evaluateOver .ascii layers (policyInput sampleOrg "transfer" sampleTransfer "1"
      sampleTransferFeatures) samplePolicy.rules =
      .ok (joinOutput layers "deny_on_error" (some sampleFlag)) :=
  @evaluateOver_of_hit .ascii (policyInput sampleOrg "transfer" sampleTransfer "1"
    sampleTransferFeatures) samplePolicy.rules (some sampleFlag) firstMatchingRule_sampleTransfer
    layers

/-- A layer refuses a transfer that the policy flags : without the layers it is allowed. -/
theorem flagged_transfer_refused : ∃ features output bare,
    @extractFeatures .ascii "transfer" sampleTransfer = .ok features ∧
      @evaluatePolicyInput .ascii (policyInput sampleOrg "transfer" sampleTransfer "1" features)
        samplePolicy.rules = .ok output ∧
      @evaluateOver .ascii [] (policyInput sampleOrg "transfer" sampleTransfer "1" features)
        samplePolicy.rules = .ok bare ∧ output.allowed = false ∧ bare.allowed = true := by
  exact ⟨_, _, _, extractFeatures_sampleTransfer, evaluateOver_sampleTransfer _,
    evaluateOver_sampleTransfer _, by decide +kernel, by decide +kernel⟩

theorem allowed_iff_sample : ∃ output : PolicyOutput, output.allowed = false ∧
    ¬@OwnPolicyDecides .transparent .lenient .ascii sampleKey samplePoliced sampleOrg "transfer"
      sampleTransfer none samplePolicy sampleTransferFeatures output (some sampleFlag) := by
  have h := @allowed_iff .transparent .lenient .ascii sampleKey samplePoliced sampleOrg "transfer"
    sampleTransfer none samplePolicy sampleTransferFeatures _ (some sampleFlag) rfl
    extractFeatures_sampleTransfer (evaluateOver_sampleTransfer _) firstMatchingRule_sampleTransfer
  refine ⟨_, by decide +kernel, fun hdecides => h.mp hdecides ?_⟩
  exact ⟨rfl, nofun, ⟨rfl, rfl⟩, by decide⟩

end Attest
