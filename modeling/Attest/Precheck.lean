import Attest.Events
import Attest.Remediation

/-!
# Prechecks

`runPrecheck` judges an output before it is used : the organisation's own policy decides
what is allowed, its packs add findings, and the decision is recorded as an event of the
trace, with an approval to be given where the tier asks for one. Where evaluation is
refused the organisation's fail mode decides between a denial and a flag.

What the clock, the random generators and the model behind the rewrites give a call is an
argument (`PrecheckFresh`).
-/

set_option linter.unusedSectionVars false

namespace Attest

/-! ## Rows a decision adds -/

/-- The rows of a unique key : none or one. -/
def oneOrNone {α : Type} : List α → Except PyError (Option α)
  | [] => .ok none
  | [row] => .ok (some row)
  | _ => .error .multipleResultsFound

theorem mem_of_oneOrNone {α : Type} {rows : List α} {row : α}
    (h : oneOrNone rows = .ok (some row)) : row ∈ rows := by
  match rows, h with
  | [_], h =>
    obtain rfl := Option.some.inj (Except.ok.inj h)
    exact List.mem_singleton_self _

theorem eq_of_oneOrNone {α : Type} {rows : List α} {found : Option α} {row : α}
    (h : oneOrNone rows = .ok found) (hrow : row ∈ rows) : found = some row := by
  match rows, h with
  | [_], h =>
    obtain rfl := List.mem_singleton.mp hrow
    exact (Except.ok.inj h).symm

namespace Db

def insertApproval (db : Db) (a : Approval) : Except PyError Db := do
  require (!db.approvals.any fun x => x.id = a.id) .integrityError
  require (db.hasOrg a.orgId) .integrityError
  require (db.hasTrace a.traceId) .integrityError
  require (a.eventId.all fun id => db.events.any fun e => e.id = id) .integrityError
  return { db with approvals := db.approvals ++ [a] }

def insertSummary (db : Db) (s : PolicyDecisionSummary) : Except PyError Db := do
  require (textOk s.action && optTextOk s.policyVersion) .dataError
  require (!db.summaries.any fun x => x.id = s.id) .integrityError
  require (db.hasOrg s.orgId) .integrityError
  return { db with summaries := db.summaries ++ [s] }

/-- The index row of a decision. -/
def summariesOf (db : Db) (orgId : String) (traceId : Uuid) (seq : Int) :
    List PolicyDecisionSummary :=
  db.summaries.filter fun s => s.orgId = orgId ∧ s.traceId = traceId ∧ s.seq = seq

theorem insertApproval_eq_ok {db db' : Db} {a : Approval} : db.insertApproval a = .ok db' ↔
    ((∀ x ∈ db.approvals, x.id ≠ a.id) ∧ db.hasOrg a.orgId = true ∧
      db.hasTrace a.traceId = true ∧
        (a.eventId.all fun id => db.events.any fun e => e.id = id) = true) ∧
      db' = { db with approvals := db.approvals ++ [a] } := by
  simp only [insertApproval, Except.bind_eq_ok, require_eq_ok, Except.pure_eq, Except.ok.injEq,
    exists_const, Bool.not_eq_true', List.any_eq_false, decide_eq_true_eq]
  tauto

theorem insertSummary_eq_ok {db db' : Db} {s : PolicyDecisionSummary} :
    db.insertSummary s = .ok db' ↔
      (textOk s.action = true ∧ optTextOk s.policyVersion = true ∧
        (∀ x ∈ db.summaries, x.id ≠ s.id) ∧ db.hasOrg s.orgId = true) ∧
        db' = { db with summaries := db.summaries ++ [s] } := by
  simp only [insertSummary, Except.bind_eq_ok, require_eq_ok, Except.pure_eq, Except.ok.injEq,
    exists_const, Bool.not_eq_true', List.any_eq_false, decide_eq_true_eq, Bool.and_eq_true]
  tauto

end Db

/-- What the clock and the generators give a new approval. -/
structure ApprovalFresh where
  id : Uuid
  createdAt : Int

/-- `create_approval(db, org_id, trace_id, event_id)`. -/
def createApproval (db : Db) (orgId : String) (traceId : Uuid) (eventId : Option Uuid)
    (fresh : ApprovalFresh) : Except PyError Db :=
  db.insertApproval {
    id := fresh.id
    orgId := orgId
    traceId := traceId
    eventId := eventId
    status := "pending"
    approverId := none
    approverKind := none
    comment := none
    createdAt := fresh.createdAt }

/-! ## The call -/

/-- `tier_allows_action(tier, fail_mode, allowed)`. -/
def tierAllowsAction (_tier : RiskTier) (_failMode : String) (allowed : Bool) : Bool :=
  allowed

/-- `tier in TIERS_REQUIRING_APPROVAL`. -/
def RiskTier.requiresApproval : RiskTier → Bool
  | .orange | .red => true
  | _ => false

/-- The arguments of `run_precheck`. -/
structure PrecheckArgs where
  org : Org
  traceId : Uuid
  seq : Int
  action : String
  remediationOf : Option Int
  payload : Dict
  policyVersion : Option String

/-- What a call is given from outside. -/
structure PrecheckFresh where
  event : Fresh
  summaryId : Uuid
  approval : ApprovalFresh
  /-- What `draft_rewrite` returns at each attempt, at most `REWRITE_MAX_ATTEMPTS` of them. -/
  drafts : List (Option RewriteDraft)

/-- What `run_precheck` returns. A key that a fail-closed answer lacks has the default it
is read with. -/
structure DecisionOut where
  traceId : Uuid
  tier : RiskTier
  policyTier : Option RiskTier
  decision : PolicyDecision
  allowed : Bool
  reasons : List String
  policyVersion : String
  seq : Int
  hash : String
  approvalId : Option Uuid
  ruleId : Option String
  regulatoryRefs : List String
  riskScore : Int
  layerResults : List LayerResult
  mitigations : List String
  jurisdictions : List String
  findings : List PackFinding
  remediationPlan : Option RemediationPlan
  remediationOf : Option Int

/-- `if policy_version:` of an optional text. -/
def givenText : Option String → Option String
  | some s => if s = "" then none else some s
  | none => none

/-- The policy a call is judged by. -/
def selectPolicy (db : Db) (orgId : String) (policyVersion : Option String) : Option Policy :=
  match givenText policyVersion with
  | some version => db.getPolicyByVersion orgId version
  | none => db.getActivePolicy orgId

/-- The output of an evaluation that was refused, in the fail mode `allow_with_flag`. -/
def refusedOutput (detail : String) : PolicyOutput where
  tier := .yellow
  decision := .flag
  allowed := true
  reasons := ["policy evaluation error (allow_with_flag): " ++ detail]
  ruleId := none
  regulatoryRefs := []
  riskScore := 35
  layerResults := []
  mitigations := []

/-- The payload of a decision that was made without an evaluation. -/
def failClosedPayload (org : Org) (action policyVersion detail : String) : Dict :=
  [("action", .str action),
    ("tier", .str RiskTier.red.name),
    ("decision", .str PolicyDecision.deny.name),
    ("allowed", .bool false),
    ("reasons", .arr [.str detail]),
    ("policy_version", .str policyVersion),
    ("fail_mode", .str org.failMode),
    ("engine_error", .bool true),
    ("risk_score", .int 90)]

/-- The payload of a decision. -/
def decisionPayload (args : PrecheckArgs) (policyVersion : String) (output : PolicyOutput)
    (features : FeatureVector) (findings : List PackFinding)
    (remediation : Option RemediationPlan) : Dict :=
  [("action", .str args.action),
    ("tier", .str (combinedTier output.tier findings).name),
    ("policy_tier", .str output.tier.name),
    ("decision", .str output.decision.name),
    ("allowed", .bool (tierAllowsAction output.tier args.org.failMode output.allowed)),
    ("reasons", .arr (output.reasons.map JVal.str)),
    ("policy_version", .str policyVersion),
    ("fail_mode", .str args.org.failMode),
    ("rule_id", optStr output.ruleId),
    ("regulatory_refs", .arr (output.regulatoryRefs.map JVal.str)),
    ("risk_score", .int output.riskScore),
    ("features", .obj features.toDict),
    ("layer_results", .arr (output.layerResults.map fun l => .obj l.toDict)),
    ("mitigations", .arr (output.mitigations.map JVal.str)),
    ("jurisdictions", .arr ((jurisdictionsTouched findings).map JVal.str)),
    ("regulatory_findings", .arr (findings.map fun f => .obj f.toDict))] ++
    (match remediation with
      | some p => [("remediation", .obj (chainSummary p))]
      | none => []) ++
    match args.remediationOf with
    | some seq => [("remediation_of", .int seq)]
    | none => []

section Call

variable [PyUnicode]

/-- The input of the evaluation of a payload. -/
def policyInput (org : Org) (action : String) (payload : Dict) (policyVersion : String)
    (features : FeatureVector) : PolicyInput where
  orgId := org.id
  action := action
  payload := payload
  failMode := org.failMode
  policyVersion := policyVersion
  features := features

/-- `_unrecorded_status(db, org, action, payload, policy)`, `none` for `"error"`. -/
def unrecordedStatus (db : Db) (org : Org) (action : String) (payload : Dict) (policy : Policy) :
    Except PyError (Option Status) := do
  let features ← extractFeatures action payload
  match evaluatePolicyInput (policyInput org action payload policy.version features)
      policy.rules with
  | .error (.policyEngine _) => return none
  | .error e => .error e
  | .ok output => do
    let findings ← evaluatePacks action payload features db org.id
    let allowed := tierAllowsAction output.tier org.failMode output.allowed
    return some (deriveStatus allowed (combinedTier output.tier findings) findings)

/-- The rewriting loop, over the drafts that come. -/
def rewriteLoop (db : Db) (org : Org) (action : String) (policy : Policy) (p : RemediationPlan) :
    List (Option RewriteDraft) → Except PyError RemediationPlan
  | [] => .ok p
  | none :: _ => .ok p
  | some draft :: drafts => do
    let status ← unrecordedStatus db org action draft.output policy
    if status = some .compliant then return attachRewrite p draft
    else rewriteLoop db org action policy p drafts

/-- The plan of a decision, with a rewrite where one is asked for and passes. -/
def remediate (db : Db) (args : PrecheckArgs) (policy : Policy) (output : PolicyOutput)
    (features : FeatureVector) (findings : List PackFinding) (drafts : List (Option RewriteDraft)) :
    Except PyError (Option RemediationPlan) :=
  let allowed := tierAllowsAction output.tier args.org.failMode output.allowed
  let status := deriveStatus allowed (combinedTier output.tier findings) findings
  let planned :=
    if status = .flagged ∨ status = .blocked then
      plan args.payload features findings output.reasons (!allowed)
    else none
  match planned with
  | none => .ok none
  | some p =>
    if status = .flagged ∧ p.unresolved ≠ [] then
      (rewriteLoop db args.org args.action policy p drafts).map some
    else .ok (some p)

variable [SignatureScheme] [KeyWrapping]

/-- The `record_event` of a decision. -/
def recordDecision (svc : SigningKeyPair) (db : Db) (args : PrecheckArgs) (policyVersion : String)
    (payload : Dict) (fresh : Fresh) : Except PyError (Db × EventOut) :=
  recordEvent svc db {
    orgId := args.org.id
    traceId := args.traceId
    seq := args.seq
    eventType := "policy_decision"
    payload := payload
    policyVersion := some policyVersion } fresh

/-- `_fail_closed_response(..)`. -/
def failClosedResponse (svc : SigningKeyPair) (db : Db) (args : PrecheckArgs)
    (policyVersion detail : String) (fresh : PrecheckFresh) :
    Except PyError (Db × DecisionOut) := do
  let db ← getOrCreateTrace db args.org.id args.traceId (some policyVersion)
  let (db, event) ← recordDecision svc db args policyVersion
    (failClosedPayload args.org args.action policyVersion detail) fresh.event
  let db ← createApproval db args.org.id args.traceId (some fresh.event.eventId) fresh.approval
  return (db, {
    traceId := args.traceId
    tier := .red
    policyTier := none
    decision := .deny
    allowed := false
    reasons := [detail]
    policyVersion := policyVersion
    seq := event.seq
    hash := event.hash
    approvalId := some fresh.approval.id
    ruleId := none
    regulatoryRefs := []
    riskScore := 90
    layerResults := []
    mitigations := []
    jurisdictions := []
    findings := []
    remediationPlan := none
    remediationOf := none })

/-- The index row of a decision that was evaluated. -/
def decisionSummary (args : PrecheckArgs) (policyVersion : String) (output : PolicyOutput)
    (findings : List PackFinding) (remediation : Option RemediationPlan) (event : EventOut)
    (id : Uuid) : PolicyDecisionSummary where
  id := id
  orgId := args.org.id
  traceId := args.traceId
  seq := event.seq
  eventHash := event.hash
  action := args.action
  tier := (combinedTier output.tier findings).name
  policyTier := output.tier.name
  allowed := tierAllowsAction output.tier args.org.failMode output.allowed
  policyVersion := some policyVersion
  findings := findings.map fun f => .obj f.toDict
  jurisdictions := jurisdictionsTouched findings
  remediation := remediation.map chainSummary
  remediationOf := args.remediationOf
  remediatedBySeq := none
  status := none
  outputSeq := none
  outputHash := none

/-- The approval a decision of this tier asks for. -/
def openApproval (db : Db) (args : PrecheckArgs) (tier : RiskTier) (fresh : PrecheckFresh) :
    Except PyError Db :=
  if tier.requiresApproval then
    createApproval db args.org.id args.traceId (some fresh.event.eventId) fresh.approval
  else .ok db

/-- What follows the evaluation : packs, plan, decision, index row, approval. -/
def concludePrecheck (svc : SigningKeyPair) (db : Db) (args : PrecheckArgs) (policy : Policy)
    (features : FeatureVector) (output : PolicyOutput) (fresh : PrecheckFresh) :
    Except PyError (Db × DecisionOut) := do
  let findings ← evaluatePacks args.action args.payload features db args.org.id
  let effectiveTier := combinedTier output.tier findings
  let remediation ← remediate db args policy output features findings fresh.drafts
  let (db, event) ← recordDecision svc db args policy.version
    (decisionPayload args policy.version output features findings remediation) fresh.event
  let db ← db.insertSummary
    (decisionSummary args policy.version output findings remediation event fresh.summaryId)
  let db ← openApproval db args effectiveTier fresh
  return (db, {
    traceId := args.traceId
    tier := effectiveTier
    policyTier := some output.tier
    decision := output.decision
    allowed := tierAllowsAction output.tier args.org.failMode output.allowed
    reasons := output.reasons
    policyVersion := policy.version
    seq := event.seq
    hash := event.hash
    approvalId := if effectiveTier.requiresApproval then some fresh.approval.id else none
    ruleId := output.ruleId
    regulatoryRefs := output.regulatoryRefs
    riskScore := output.riskScore
    layerResults := output.layerResults
    mitigations := output.mitigations
    jurisdictions := jurisdictionsTouched findings
    findings := findings
    remediationPlan := remediation
    remediationOf := args.remediationOf })

/-- `run_precheck(db, ..)`. -/
def runPrecheck (svc : SigningKeyPair) (db : Db) (args : PrecheckArgs) (fresh : PrecheckFresh) :
    Except PyError (Db × DecisionOut) := do
  match selectPolicy db args.org.id args.policyVersion with
  | none => .error (.noActivePolicy "no active policy for org")
  | some policy => do
    let db ← getOrCreateTrace db args.org.id args.traceId (some policy.version)
    let features ← extractFeatures args.action args.payload
    match evaluatePolicyInput
        (policyInput args.org args.action args.payload policy.version features) policy.rules with
    | .error (.policyEngine detail) =>
      if args.org.failMode = "deny_on_error" then
        failClosedResponse svc db args policy.version detail fresh
      else concludePrecheck svc db args policy features (refusedOutput detail) fresh
    | .error e => .error e
    | .ok output => concludePrecheck svc db args policy features output fresh

end Call

/-! ## What a precheck does -/

/-- Opening a trace leaves the other tables. -/
theorem getOrCreateTrace_eq_ok {db db' : Db} {orgId : String} {traceId : Uuid} {pv : Option String}
    (h : getOrCreateTrace db orgId traceId pv = .ok db') :
    ∃ ts, db' = { db with traces := ts } := by
  obtain ⟨_, -, hinsert⟩ := Except.bind_eq_ok.mp h
  exact insertOpened_eq_ok hinsert

/-- The approval a decision opened. -/
def openedApproval (args : PrecheckArgs) (fresh : PrecheckFresh) : Approval where
  id := fresh.approval.id
  orgId := args.org.id
  traceId := args.traceId
  eventId := some fresh.event.eventId
  status := "pending"
  approverId := none
  approverKind := none
  comment := none
  createdAt := fresh.approval.createdAt

/-- A precheck that returned added its decision to the trace, and an approval where the
tier asks for one. -/
structure Prechecked (db : Db) (args : PrecheckArgs) (fresh : PrecheckFresh) (db' : Db)
    (d : DecisionOut) : Prop where
  rows : ∃ e ts ps ks ss, (e.type = "policy_decision" ∧ e.orgId = args.org.id ∧
      e.traceId = args.traceId ∧ e.seq = args.seq ∧ e.id = fresh.event.eventId) ∧
    db' = { db with traces := ts, payloads := ps, payloadKeys := ks, summaries := ss,
                    events := db.events ++ [e],
                    approvals := db.approvals ++
                      if d.tier.requiresApproval then [openedApproval args fresh] else [] }
  traceId_eq : d.traceId = args.traceId
  approvalId_eq : d.approvalId = if d.tier.requiresApproval then some fresh.approval.id else none

section Spec

variable [SignatureScheme] [KeyWrapping] [PyUnicode] {svc : SigningKeyPair} {db db' : Db}
  {args : PrecheckArgs} {fresh : PrecheckFresh} {d : DecisionOut}

theorem createApproval_eq_ok {seq : Option Uuid} (hseq : seq = some fresh.event.eventId)
    (h : createApproval db args.org.id args.traceId seq fresh.approval = .ok db') :
    db' = { db with approvals := db.approvals ++ [openedApproval args fresh] } := by
  subst hseq
  exact (Db.insertApproval_eq_ok.mp h).2

theorem openApproval_eq_ok {tier : RiskTier} (h : openApproval db args tier fresh = .ok db') :
    db' = { db with approvals := db.approvals ++
      if tier.requiresApproval then [openedApproval args fresh] else [] } := by
  unfold openApproval at h
  by_cases htier : tier.requiresApproval = true
  · rw [if_pos htier] at h ⊢
    exact createApproval_eq_ok rfl h
  · rw [if_neg htier] at h ⊢
    rw [List.append_nil]
    exact (Except.ok.inj h).symm

theorem concludePrecheck_eq_ok {policy : Policy} {features : FeatureVector} {output : PolicyOutput}
    (h : concludePrecheck svc db args policy features output fresh = .ok (db', d)) :
    Prechecked db args fresh db' d := by
  simp only [concludePrecheck, Except.bind_eq_ok, Except.pure_eq, Except.ok.injEq,
    Prod.mk.injEq] at h
  obtain ⟨findings, -, plan, -, ⟨db₁, event⟩, hrecord, db₂, hsummary, db₃, hopen, rfl, rfl⟩ := h
  obtain ⟨e, ts, ps, ks, hrecords, ⟨hid, -⟩, -, rfl⟩ := recordEvent_eq_ok hrecord
  obtain ⟨-, rfl⟩ := Db.insertSummary_eq_ok.mp hsummary
  have hdb := openApproval_eq_ok hopen
  exact ⟨⟨e, ts, ps, ks, _, ⟨hrecords.type_eq, hrecords.orgId_eq, hrecords.traceId_eq,
    hrecords.seq_eq, hid⟩, hdb⟩, rfl, rfl⟩

theorem failClosedResponse_eq_ok {policyVersion detail : String}
    (h : failClosedResponse svc db args policyVersion detail fresh = .ok (db', d)) :
    Prechecked db args fresh db' d := by
  simp only [failClosedResponse, Except.bind_eq_ok, Except.pure_eq, Except.ok.injEq,
    Prod.mk.injEq] at h
  obtain ⟨db₁, htrace, ⟨db₂, event⟩, hrecord, db₃, happroval, rfl, rfl⟩ := h
  obtain ⟨ts, rfl⟩ := getOrCreateTrace_eq_ok htrace
  obtain ⟨e, ts', ps, ks, hrecords, ⟨hid, -⟩, -, rfl⟩ := recordEvent_eq_ok hrecord
  have hdb := createApproval_eq_ok rfl happroval
  exact ⟨⟨e, ts', ps, ks, _, ⟨hrecords.type_eq, hrecords.orgId_eq, hrecords.traceId_eq,
    hrecords.seq_eq, hid⟩, hdb⟩, rfl, rfl⟩

/-- Opening the trace first makes no difference to the rows. -/
theorem Prechecked.of_trace {ts : List Trace}
    (h : Prechecked { db with traces := ts } args fresh db' d) :
    Prechecked db args fresh db' d := by
  obtain ⟨⟨e, ts', ps, ks, ss, he, hdb⟩, htrace, happroval⟩ := h
  exact ⟨⟨e, ts', ps, ks, ss, he, hdb⟩, htrace, happroval⟩

/-- The spec of `runPrecheck`. -/
theorem runPrecheck_eq_ok (h : runPrecheck svc db args fresh = .ok (db', d)) :
    Prechecked db args fresh db' d := by
  unfold runPrecheck at h
  split at h
  · cases h
  · simp only [Except.bind_eq_ok] at h
    obtain ⟨db₁, htrace, features, -, h⟩ := h
    obtain ⟨ts, rfl⟩ := getOrCreateTrace_eq_ok htrace
    have hdone : Prechecked { db with traces := ts } args fresh db' d := by
      split at h
      · split at h
        · exact failClosedResponse_eq_ok h
        · exact concludePrecheck_eq_ok h
      · cases h
      · exact concludePrecheck_eq_ok h
    exact hdone.of_trace

end Spec

end Attest
