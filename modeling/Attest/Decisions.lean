import Attest.DecisionIndex

/-!
# What a call decides

A precheck that returned either failed closed, where the policy could not be evaluated
and the organisation asks for a denial then, or concluded from an output of the policy
(`runPrecheck_cases`). A gate call adds the output to that, and settles the rows of the
decision index : it stamps the row of its own decision and closes the row that a
compliant output has cured (`runGate_cases`, `runGate_effect`).
-/

set_option linter.unusedSectionVars false

namespace Attest

/-! ## How a precheck ends -/

section Decided

variable [PyUnicode]

/-- The policy was evaluated, or refused where the fail mode lets a call pass. -/
inductive Concludes (args : PrecheckArgs) (policy : Policy) (features : FeatureVector) :
    PolicyOutput → Prop
  | evaluated {output : PolicyOutput} : evaluatePolicyInput (policyInput args.org args.action
      args.payload policy.version features) policy.rules = .ok output →
        Concludes args policy features output
  | refused {detail : String} : evaluatePolicyInput (policyInput args.org args.action
      args.payload policy.version features) policy.rules = .error (.policyEngine detail) →
        args.org.failMode ≠ "deny_on_error" → Concludes args policy features (refusedOutput detail)

/-- Evaluation was refused, and the fail mode asks for a denial. -/
structure FailsClosed (args : PrecheckArgs) (policy : Policy) (features : FeatureVector)
    (detail : String) : Prop where
  refused : evaluatePolicyInput (policyInput args.org args.action args.payload policy.version
    features) policy.rules = .error (.policyEngine detail)
  mode : args.org.failMode = "deny_on_error"

/-- The arguments of the `record_event` of a decision. -/
def decisionRecord (args : PrecheckArgs) (policyVersion : String) (payload : Dict) :
    RecordArgs where
  orgId := args.org.id
  traceId := args.traceId
  seq := args.seq
  eventType := "policy_decision"
  payload := payload
  policyVersion := some policyVersion

/-- The approvals a decision opens. -/
def approvalsOpened (args : PrecheckArgs) (fresh : PrecheckFresh) (tier : RiskTier) :
    List Approval :=
  if tier.requiresApproval then [openedApproval args fresh] else []

/-- The rows a precheck added : its event `e`, the index rows `added`, its approval. -/
structure PrecheckAdds (db : Db) (args : PrecheckArgs) (fresh : PrecheckFresh) (db' : Db)
    (d : DecisionOut) (payload : Dict) (e : Event) (added : List PolicyDecisionSummary) : Prop where
  records : e.Records (decisionRecord args d.policyVersion payload)
  id_eq : e.id = fresh.event.eventId
  seq_eq : d.seq = e.seq
  hash_eq : d.hash = e.hash
  next : args.seq = nextSeq (db.lastEventForTrace args.org.id args.traceId)
  rows : ∃ ts ps ks, db' = { db with
    traces := ts, payloads := ps, payloadKeys := ks, events := db.events ++ [e],
    summaries := db.summaries ++ added,
    approvals := db.approvals ++ approvalsOpened args fresh d.tier }

/-- A precheck that failed closed : a red denial, and no index row. -/
structure FailedClosed (db : Db) (args : PrecheckArgs) (policy : Policy) (features : FeatureVector)
    (fresh : PrecheckFresh) (db' : Db) (d : DecisionOut) : Prop where
  out_eq : ∃ detail seq hash, FailsClosed args policy features detail ∧ d = {
    traceId := args.traceId
    tier := .red
    policyTier := none
    decision := .deny
    allowed := false
    reasons := [detail]
    policyVersion := policy.version
    seq := seq
    hash := hash
    approvalId := some fresh.approval.id
    ruleId := none
    regulatoryRefs := []
    riskScore := 90
    layerResults := []
    mitigations := []
    jurisdictions := []
    findings := []
    remediationPlan := none
    remediationOf := none }
  adds : ∃ detail e, PrecheckAdds db args fresh db' d
    (failClosedPayload args.org args.action policy.version detail) e []

/-- The answer of a precheck that concluded from `output`. -/
structure ConcludedFrom (args : PrecheckArgs) (policy : Policy) (output : PolicyOutput)
    (d : DecisionOut) : Prop where
  traceId_eq : d.traceId = args.traceId
  tier_eq : d.tier = combinedTier output.tier d.findings
  policyTier_eq : d.policyTier = some output.tier
  decision_eq : d.decision = output.decision
  allowed_eq : d.allowed = output.allowed
  reasons_eq : d.reasons = output.reasons
  ruleId_eq : d.ruleId = output.ruleId
  policyVersion_eq : d.policyVersion = policy.version
  remediationOf_eq : d.remediationOf = args.remediationOf
  jurisdictions_eq : d.jurisdictions = jurisdictionsTouched d.findings

/-- A precheck that concluded : the packs and the plan behind its answer, and its index
row. -/
structure Concluded (db : Db) (args : PrecheckArgs) (policy : Policy) (features : FeatureVector)
    (output : PolicyOutput) (fresh : PrecheckFresh) (db' : Db) (d : DecisionOut) : Prop where
  answer : ConcludedFrom args policy output d
  findings_eq : evaluatePacks args.action args.payload features db args.org.id = .ok d.findings
  plan_eq : remediate db args policy output features d.findings fresh.drafts =
    .ok d.remediationPlan
  id_new : ∀ s ∈ db.summaries, s.id ≠ fresh.summaryId
  adds : ∃ e event, (event.seq = d.seq ∧ event.hash = d.hash) ∧ PrecheckAdds db args fresh db' d
    (decisionPayload args policy.version output features d.findings d.remediationPlan) e
    [decisionSummary args policy.version output d.findings d.remediationPlan event fresh.summaryId]

/-- Drafts are judged without the traces. -/
theorem rewriteLoop_traces (db : Db) (ts : List Trace) (org : Org) (action : String)
    (policy : Policy) (p : RemediationPlan) : ∀ drafts : List (Option RewriteDraft),
    rewriteLoop { db with traces := ts } org action policy p drafts =
      rewriteLoop db org action policy p drafts
  | [] => rfl
  | none :: _ => rfl
  | some draft :: drafts => by
    have hstatus : unrecordedStatus { db with traces := ts } org action draft.output policy =
        unrecordedStatus db org action draft.output policy := rfl
    simp only [rewriteLoop, hstatus, rewriteLoop_traces db ts org action policy p drafts]

theorem remediate_traces (db : Db) (ts : List Trace) (args : PrecheckArgs) (policy : Policy)
    (output : PolicyOutput) (features : FeatureVector) (findings : List PackFinding)
    (drafts : List (Option RewriteDraft)) :
    remediate { db with traces := ts } args policy output features findings drafts =
      remediate db args policy output features findings drafts := by
  simp only [remediate, rewriteLoop_traces]

variable [SignatureScheme] [KeyWrapping] {svc : SigningKeyPair} {db db' : Db}
  {args : PrecheckArgs} {fresh : PrecheckFresh} {d : DecisionOut}

theorem recordDecision_eq_ok {policyVersion : String} {payload : Dict} {out : EventOut}
    (h : recordDecision svc db args policyVersion payload fresh.event = .ok (db', out)) :
    ∃ e ts ps ks, e.Records (decisionRecord args policyVersion payload) ∧
      e.id = fresh.event.eventId ∧ (out.seq = e.seq ∧ out.hash = e.hash) ∧
      args.seq = nextSeq (db.lastEventForTrace args.org.id args.traceId) ∧
      db' = { db with traces := ts, payloads := ps, payloadKeys := ks,
                      events := db.events ++ [e] } := by
  obtain ⟨_, last, _, -, -, htip, -, -⟩ := recordEvent_stages h
  obtain ⟨rfl, hnext⟩ := readTip_eq_ok.mp htip
  obtain ⟨e, ts, ps, ks, hrecords, ⟨hid, -⟩, rfl, hdb⟩ := recordEvent_eq_ok h
  exact ⟨e, ts, ps, ks, hrecords, hid, ⟨rfl, rfl⟩, hnext, hdb⟩

theorem failClosedResponse_cases {policy : Policy} {features : FeatureVector} {detail : String}
    (hfails : FailsClosed args policy features detail)
    (h : failClosedResponse svc db args policy.version detail fresh = .ok (db', d)) :
    FailedClosed db args policy features fresh db' d := by
  simp only [failClosedResponse, Except.bind_eq_ok, Except.pure_eq, Except.ok.injEq,
    Prod.mk.injEq] at h
  obtain ⟨db₁, htrace, ⟨db₂, event⟩, hrecord, db₃, happroval, rfl, rfl⟩ := h
  obtain ⟨ts, rfl⟩ := getOrCreateTrace_eq_ok htrace
  obtain ⟨e, ts', ps, ks, hrecords, hid, ⟨hseq, hhash⟩, hnext, rfl⟩ := recordDecision_eq_ok hrecord
  have hdb := createApproval_eq_ok rfl happroval
  refine ⟨⟨detail, _, _, hfails, rfl⟩, detail, e, hrecords, hid, hseq, hhash, hnext,
    ts', ps, ks, ?_⟩
  rw [hdb, List.append_nil]
  rfl

theorem concludePrecheck_cases {policy : Policy} {features : FeatureVector} {output : PolicyOutput}
    (h : concludePrecheck svc db args policy features output fresh = .ok (db', d)) :
    Concluded db args policy features output fresh db' d := by
  simp only [concludePrecheck, Except.bind_eq_ok, Except.pure_eq, Except.ok.injEq,
    Prod.mk.injEq] at h
  obtain ⟨findings, hfindings, plan, hplan, ⟨db₁, event⟩, hrecord, db₂, hsummary, db₃, hopen, rfl,
    rfl⟩ := h
  obtain ⟨e, ts, ps, ks, hrecords, hid, ⟨hseq, hhash⟩, hnext, rfl⟩ := recordDecision_eq_ok hrecord
  obtain ⟨⟨-, -, hnew, -⟩, rfl⟩ := Db.insertSummary_eq_ok.mp hsummary
  have hdb := openApproval_eq_ok hopen
  refine ⟨⟨rfl, rfl, rfl, rfl, rfl, rfl, rfl, rfl, rfl, rfl⟩, hfindings, hplan, hnew, e, event,
    ⟨rfl, rfl⟩, hrecords, hid, hseq, hhash, hnext, ts, ps, ks, ?_⟩
  rw [hdb]
  rfl

/-- Opening the trace first makes no difference to the answer. -/
theorem Concluded.of_trace {ts : List Trace} {policy : Policy} {features : FeatureVector}
    {output : PolicyOutput}
    (h : Concluded { db with traces := ts } args policy features output fresh db' d) :
    Concluded db args policy features output fresh db' d := by
  obtain ⟨hanswer, hfindings, hplan, hnew, e, event, hevent, hadds⟩ := h
  rw [remediate_traces] at hplan
  exact ⟨hanswer, hfindings, hplan, hnew, e, event, hevent, hadds.records, hadds.id_eq,
    hadds.seq_eq, hadds.hash_eq, hadds.next, hadds.rows⟩

/-- A precheck that returned failed closed or concluded. -/
theorem runPrecheck_cases (h : runPrecheck svc db args fresh = .ok (db', d)) :
    ∃ policy features, selectPolicy db args.org.id args.policyVersion = some policy ∧
      extractFeatures args.action args.payload = .ok features ∧
      (FailedClosed db args policy features fresh db' d ∨
        ∃ output, Concludes args policy features output ∧
          Concluded db args policy features output fresh db' d) := by
  cases hpolicy : selectPolicy db args.org.id args.policyVersion with
  | none => simp [runPrecheck, hpolicy] at h
  | some policy =>
    simp only [runPrecheck, hpolicy, Except.bind_eq_ok] at h
    obtain ⟨db₁, htrace, features, hfeatures, h⟩ := h
    obtain ⟨ts, rfl⟩ := getOrCreateTrace_eq_ok htrace
    refine ⟨policy, features, rfl, hfeatures, ?_⟩
    split at h <;> rename_i heval
    · split at h <;> rename_i hmode
      · obtain ⟨hout, detail, e, hadds⟩ := failClosedResponse_cases ⟨heval, hmode⟩ h
        exact Or.inl ⟨hout, detail, e, hadds.records, hadds.id_eq, hadds.seq_eq, hadds.hash_eq,
          hadds.next, hadds.rows⟩
      · exact Or.inr ⟨_, .refused heval hmode, (concludePrecheck_cases h).of_trace⟩
    · cases h
    · exact Or.inr ⟨_, .evaluated heval, (concludePrecheck_cases h).of_trace⟩

/-- A precheck of an output that the policy could judge concludes from what it said. -/
theorem runPrecheck_evaluated {policy : Policy} {features : FeatureVector} {output : PolicyOutput}
    (h : runPrecheck svc db args fresh = .ok (db', d))
    (hpolicy : selectPolicy db args.org.id args.policyVersion = some policy)
    (hfeatures : extractFeatures args.action args.payload = .ok features)
    (houtput : evaluatePolicyInput (policyInput args.org args.action args.payload policy.version
      features) policy.rules = .ok output) :
    Concluded db args policy features output fresh db' d := by
  obtain ⟨policy', features', hpolicy', hfeatures', hend⟩ := runPrecheck_cases h
  obtain rfl : policy = policy' := Option.some.inj (hpolicy.symm.trans hpolicy')
  obtain rfl : features = features' := Except.ok.inj (hfeatures.symm.trans hfeatures')
  rcases hend with ⟨⟨detail, _, _, hfails, -⟩, -⟩ | ⟨output', hconcludes, hconcluded⟩
  · cases houtput.symm.trans hfails.refused
  · cases hconcludes with
    | evaluated houtput' =>
      obtain rfl : output = output' := Except.ok.inj (houtput.symm.trans houtput')
      exact hconcluded
    | refused hrefused _ => cases houtput.symm.trans hrefused

end Decided

/-! ## How a gate call ends -/

/-- What `_validate_remediates` asks of the row a call says it cures. -/
structure Curable (db : Db) (args : GateArgs) (fresh : GateFresh) (r : PolicyDecisionSummary) :
    Prop where
  mem : r ∈ db.summaries
  orgId_eq : r.orgId = args.org.id
  traceId_eq : r.traceId = gateTrace args fresh
  seq_eq : args.remediates = some r.seq
  status : r.status = some Status.flagged.name ∨ r.status = some Status.blocked.name

theorem remediatedSummary_eq_ok {db : Db} {args : GateArgs} (fresh : GateFresh)
    {remediated : Option PolicyDecisionSummary} (h : remediatedSummary db args = .ok remediated) :
    (args.remediates = none ∧ remediated = none) ∨
      ∃ r, remediated = some r ∧ Curable db args fresh r := by
  unfold remediatedSummary at h
  cases hseq : args.remediates with
  | none =>
    rw [hseq] at h
    exact Or.inl ⟨rfl, (Except.ok.inj h).symm⟩
  | some seq =>
    rw [hseq] at h
    obtain ⟨r, hr, rfl⟩ := Except.map_eq_ok.mp h
    refine Or.inr ⟨r, rfl, ?_⟩
    cases htrace : args.traceId with
    | none => simp [validateRemediates, htrace] at hr
    | some traceId =>
      simp only [validateRemediates, htrace, Except.bind_eq_ok] at hr
      obtain ⟨found, hfound, hr⟩ := hr
      cases found with
      | none => cases hr
      | some s =>
        by_cases hstatus : s.status = some Status.flagged.name ∨ s.status = some Status.blocked.name
        · simp only [hstatus, if_true, Except.pure_eq, Except.ok.injEq] at hr
          subst hr
          have hmem := mem_of_oneOrNone hfound
          simp only [Db.summariesOf, List.mem_filter, decide_eq_true_eq] at hmem
          obtain ⟨hmem, horg, htrace', hs⟩ := hmem
          exact ⟨hmem, horg, by rw [htrace', gateTrace, htrace]; rfl, by rw [hseq, hs], hstatus⟩
        · simp [hstatus] at hr

section Gates

variable [SignatureScheme] [KeyWrapping] [PyUnicode] {svc : SigningKeyPair}

/-- A gate call with a decision, stage by stage. -/
structure GateStages (svc : SigningKeyPair) (db : Db) (args : GateArgs) (fresh : GateFresh)
    (db' : Db) (out : GateOut) (remediated : Option PolicyDecisionSummary) (db₁ db₂ db₃ : Db)
    (d : DecisionOut) (event : EventOut) : Prop where
  remediated_eq : remediatedSummary db args = .ok remediated
  opened : ∃ ts, db₁ = { db with traces := ts }
  prechecked : runPrecheck svc db₁ (gatePrecheck db₁ args fresh) fresh.precheck = .ok (db₂, d)
  recorded : ∃ version, recordOutput svc db₂ args (gateTrace args fresh) version fresh.output =
    .ok (db₃, event)
  settled : settleSummaries db₃ args remediated d event = .ok db'
  out_eq : out = judgedOut args d d.status event

/-- A gate call without a policy : the output is recorded, and nothing is decided. -/
structure Unevaluated (svc : SigningKeyPair) (db : Db) (args : GateArgs) (fresh : GateFresh)
    (db' : Db) (out : GateOut) : Prop where
  policy : selectPolicy db args.org.id args.policyVersion = none
  out_eq : ∃ event, out = unevaluatedOut args (gateTrace args fresh) event
  rows : ∃ e ts ps ks, (e.type = args.action ∧ e.orgId = args.org.id ∧
      e.traceId = gateTrace args fresh) ∧
    db' = { db with traces := ts, payloads := ps, payloadKeys := ks, events := db.events ++ [e] }

/-- A gate call that returned decided, or had no policy. -/
theorem runGate_cases {db db' : Db} {args : GateArgs} {fresh : GateFresh} {out : GateOut}
    (h : runGate svc db args fresh = .ok (db', out)) :
    Unevaluated svc db args fresh db' out ∨ ∃ remediated db₁ db₂ db₃ d event,
      GateStages svc db args fresh db' out remediated db₁ db₂ db₃ d event := by
  simp only [runGate, Except.bind_eq_ok] at h
  obtain ⟨remediated, hremediated, db₁, hopen, ⟨db₂, decision⟩, hdecide, h⟩ := h
  obtain ⟨ts, rfl⟩ := getOrCreateTrace_eq_ok hopen
  rcases decideOutput_eq_ok hdecide with ⟨rfl, rfl⟩ | ⟨d, rfl, hprecheck⟩
  · simp only [Except.bind_eq_ok, Except.pure_eq, Except.ok.injEq, Prod.mk.injEq] at h
    obtain ⟨⟨db₃, event⟩, hrecord, rfl, rfl⟩ := h
    obtain ⟨e, ts', ps, ks, hrecords, -, -, rfl⟩ := recordEvent_eq_ok hrecord
    refine Or.inl ⟨?_, ⟨event, rfl⟩, e, ts', ps, ks, ⟨hrecords.type_eq, hrecords.orgId_eq,
      hrecords.traceId_eq⟩, rfl⟩
    unfold decideOutput at hdecide
    split at hdecide
    · assumption
    · obtain ⟨_, -, hpair⟩ := Except.map_eq_ok.mp hdecide
      cases (Prod.mk.inj hpair).2
  · simp only [Except.bind_eq_ok, Except.pure_eq, Except.ok.injEq, Prod.mk.injEq] at h
    obtain ⟨⟨db₃, event⟩, hrecord, db₄, hsettle, rfl, rfl⟩ := h
    exact Or.inr ⟨remediated, _, db₂, db₃, d, event, hremediated, ⟨ts, rfl⟩, hprecheck,
      ⟨_, hrecord⟩, hsettle, rfl⟩

/-! ## What becomes of the index -/

/-- The rows of the index after a settled call : the row of the decision is stamped, and
the one it cured closed. -/
theorem settleSummaries_concluded {db db' : Db} {args : GateArgs}
    {before : List PolicyDecisionSummary} {row : PolicyDecisionSummary}
    {remediated : Option PolicyDecisionSummary} {d : DecisionOut} {event : EventOut}
    (hrows : db.summaries = before ++ [row]) (hnew : ∀ s ∈ before, s.id ≠ row.id)
    (hkey : row.orgId = args.org.id ∧ row.traceId = d.traceId ∧ row.seq = d.seq)
    (hremediated : ∀ r, remediated = some r → r ∈ before)
    (h : settleSummaries db args remediated d event = .ok db') :
    db'.summaries = before.map (PolicyDecisionSummary.closedBy remediated d) ++
      [row.stamped d.status event] := by
  obtain ⟨found, hfound, hdb⟩ := Except.bind_eq_ok.mp h
  have hmem : row ∈ db.summariesOf args.org.id d.traceId d.seq := by
    simp [Db.summariesOf, hrows, hkey]
  obtain rfl := eq_of_oneOrNone hfound hmem
  have hstamp : (db.stampSummary row.id d.status event).summaries =
      before ++ [row.stamped d.status event] := by
    simp only [Db.stampSummary, hrows, List.map_append, List.map_cons, List.map_nil, if_true]
    congr 1
    refine (List.map_congr_left fun s hs => ?_).trans (List.map_id before)
    exact if_neg (hnew s hs)
  obtain rfl := Except.ok.inj hdb
  cases remediated with
  | none =>
    simp only [hstamp]
    congr 1
    exact (List.map_id before).symm
  | some r =>
    have hr : row.id ≠ r.id := fun hid => hnew r (hremediated r rfl) hid.symm
    by_cases hstatus : d.status = .compliant
    · have hclosed : before.map (PolicyDecisionSummary.closedBy (some r) d) = before.map fun s =>
          if s.id = r.id then { s with remediatedBySeq := some d.seq } else s := by
        refine List.map_congr_left fun s _ => ?_
        simp only [PolicyDecisionSummary.closedBy, hstatus, true_and]
      have hrow : (row.stamped d.status event).id ≠ r.id := hr
      simp only [if_pos hstatus, Db.closeSummary, hstamp, List.map_append, List.map_cons,
        List.map_nil, if_neg hrow, hclosed]
    · simp only [hstatus, if_false, hstamp]
      congr 1
      refine (List.map_id before).symm.trans (List.map_congr_left fun s _ => ?_)
      simp [PolicyDecisionSummary.closedBy, hstatus]

/-- Where no row stands for the decision, and it is not compliant, nothing is settled. -/
theorem settleSummaries_missing {db db' : Db} {args : GateArgs}
    {remediated : Option PolicyDecisionSummary} {d : DecisionOut} {event : EventOut}
    (hmissing : db.summariesOf args.org.id d.traceId d.seq = [])
    (hstatus : d.status ≠ .compliant)
    (h : settleSummaries db args remediated d event = .ok db') : db' = db := by
  obtain ⟨found, hfound, hdb⟩ := Except.bind_eq_ok.mp h
  rw [hmissing] at hfound
  obtain rfl := Except.ok.inj hfound
  obtain rfl := Except.ok.inj hdb
  cases remediated with
  | none => rfl
  | some r => simp only [hstatus, if_false]

/-- The two events of a gate call with a decision : the decision and the output. -/
structure GateEvents (db : Db) (args : GateArgs) (fresh : GateFresh) (db' : Db) (out : GateOut)
    (d : DecisionOut) (payload : Dict) (e e' : Event) : Prop where
  events_eq : db'.events = db.events ++ [e, e']
  decision : e.Records (decisionRecord (gatePrecheck db args fresh) d.policyVersion payload)
  decided : d.seq = e.seq ∧ d.hash = e.hash
  output : e'.type = args.action ∧ e'.orgId = args.org.id ∧ e'.traceId = gateTrace args fresh
  returned : out.outputSeq = e'.seq ∧ out.outputHash = e'.hash
  next : d.seq = db.nextSeqOf args.org.id (gateTrace args fresh)

/-- A gate call whose precheck failed closed. -/
structure GateFailedClosed (db : Db) (args : GateArgs) (fresh : GateFresh) (db' : Db)
    (out : GateOut) (policy : Policy) (features : FeatureVector) (d : DecisionOut) : Prop where
  policy_eq : selectPolicy db args.org.id args.policyVersion = some policy
  features_eq : extractFeatures args.action args.output = .ok features
  fails : ∃ detail, FailsClosed (gatePrecheck db args fresh) policy features detail
  events : ∃ detail e e', GateEvents db args fresh db' out d
    (failClosedPayload args.org args.action policy.version detail) e e'
  summaries_eq : db'.summaries = db.summaries
  approvals_eq : db'.approvals = db.approvals ++
    [openedApproval (gatePrecheck db args fresh) fresh.precheck]
  denied : d.tier = .red ∧ d.allowed = false
  out_eq : ∃ event, out = judgedOut args d .blocked event

/-- A gate call whose precheck concluded from `output`, with the row of its decision. -/
structure GateConcluded (db : Db) (args : GateArgs) (fresh : GateFresh) (db' : Db) (out : GateOut)
    (policy : Policy) (features : FeatureVector) (output : PolicyOutput)
    (remediated : Option PolicyDecisionSummary) (d : DecisionOut) (row : PolicyDecisionSummary)
    (event : EventOut) : Prop where
  policy_eq : selectPolicy db args.org.id args.policyVersion = some policy
  features_eq : extractFeatures args.action args.output = .ok features
  concludes : Concludes (gatePrecheck db args fresh) policy features output
  answer : ConcludedFrom (gatePrecheck db args fresh) policy output d
  findings_eq : evaluatePacks args.action args.output features db args.org.id = .ok d.findings
  plan_eq : remediate db (gatePrecheck db args fresh) policy output features d.findings
    fresh.precheck.drafts = .ok d.remediationPlan
  cures : (args.remediates = none ∧ remediated = none) ∨
    ∃ r, remediated = some r ∧ Curable db args fresh r
  events : ∃ e e', GateEvents db args fresh db' out d
    (decisionPayload (gatePrecheck db args fresh) policy.version output features d.findings
      d.remediationPlan) e e'
  row_eq : ∃ told : EventOut, (told.seq = d.seq ∧ told.hash = d.hash) ∧
    row = decisionSummary (gatePrecheck db args fresh) policy.version output d.findings
      d.remediationPlan told fresh.precheck.summaryId
  row_new : ∀ s ∈ db.summaries, s.id ≠ row.id
  summaries_eq : db'.summaries = db.summaries.map (PolicyDecisionSummary.closedBy remediated d) ++
    [row.stamped d.status event]
  approvals_eq : db'.approvals = db.approvals ++
    approvalsOpened (gatePrecheck db args fresh) fresh.precheck d.tier
  out_eq : out = judgedOut args d d.status event

/-- What a gate call did, from a database whose index is in order. -/
theorem runGate_effect {db db' : Db} {args : GateArgs} {fresh : GateFresh} {out : GateOut}
    (hindex : IndexOk db) (h : runGate svc db args fresh = .ok (db', out)) :
    Unevaluated svc db args fresh db' out ∨
      (∃ policy features d, GateFailedClosed db args fresh db' out policy features d) ∨
        ∃ policy features output remediated d row event,
          GateConcluded db args fresh db' out policy features output remediated d row event := by
  rcases runGate_cases h with hnone | ⟨remediated, _, db₂, db₃, d, event, hremediated, ⟨ts, rfl⟩,
    hprecheck, ⟨version, hrecord⟩, hsettle, hout⟩
  · exact Or.inl hnone
  obtain ⟨policy, features, hpolicy, hfeatures, hend⟩ := runPrecheck_cases hprecheck
  obtain ⟨e', ts', ps', ks', houtput, -, hevent, hdb₃⟩ := recordEvent_eq_ok hrecord
  rcases hend with ⟨⟨detail, seq, hash, hfails, hd⟩, detail', e, hadds⟩ | ⟨output, hconcludes,
    hanswer, hfindings, hplan, hnew, e, told, htold, hadds⟩
  · obtain ⟨ts₂, ps₂, ks₂, rfl⟩ := hadds.rows
    have hstatus : d.status = .blocked := by rw [hd]; rfl
    have hmissing : db₃.summariesOf args.org.id d.traceId d.seq = [] := by
      have hnext : d.seq = nextSeq (db.lastEventForTrace args.org.id (gateTrace args fresh)) := by
        rw [hadds.seq_eq, hadds.records.seq_eq]
        exact hadds.next
      have htrace : d.traceId = gateTrace args fresh := by rw [hd]; rfl
      rw [htrace, hnext, ← hindex.summariesOf_next, Db.summariesOf, Db.summariesOf, hdb₃,
        List.append_nil]
    have hdb' := settleSummaries_missing hmissing (by rw [hstatus]; decide) hsettle
    subst hdb' hdb₃
    refine Or.inr (Or.inl ⟨policy, features, d, hpolicy, hfeatures, ⟨detail, hfails⟩,
      ⟨detail', e, e', ?_, ?_, ⟨hadds.seq_eq, hadds.hash_eq⟩, ⟨houtput.type_eq, houtput.orgId_eq,
        houtput.traceId_eq⟩, ?_, ?_⟩, ?_, ?_, ?_, event, ?_⟩)
    · simp
    · exact hadds.records
    · rw [hout, hevent]
      exact ⟨rfl, rfl⟩
    · rw [hadds.seq_eq, hadds.records.seq_eq]
      rfl
    · simp
    · rw [hd]
      rfl
    · rw [hd]
      exact ⟨rfl, rfl⟩
    · rw [hout, hstatus]
  · obtain ⟨ts₂, ps₂, ks₂, rfl⟩ := hadds.rows
    have hcures := remediatedSummary_eq_ok fresh hremediated
    have hmem : ∀ r, remediated = some r → r ∈ db.summaries := by
      rintro r rfl
      rcases hcures with ⟨-, hnone⟩ | ⟨r', hr', hcurable⟩
      · cases hnone
      · obtain rfl := Option.some.inj hr'
        exact hcurable.mem
    have hrows : db₃.summaries = db.summaries ++ [decisionSummary (gatePrecheck db args fresh)
        policy.version output d.findings d.remediationPlan told fresh.precheck.summaryId] := by
      rw [hdb₃]
      rfl
    have hsummaries := settleSummaries_concluded hrows hnew
      ⟨rfl, hanswer.traceId_eq.symm, htold.1⟩ hmem hsettle
    obtain ⟨ss, hss⟩ := settleSummaries_eq_ok hsettle
    subst hss hdb₃
    refine Or.inr (Or.inr ⟨policy, features, output, remediated, d, _, event, hpolicy, hfeatures,
      hconcludes, hanswer, hfindings, ?_, hcures, ⟨e, e', ?_, ?_, ⟨hadds.seq_eq, hadds.hash_eq⟩,
        ⟨houtput.type_eq, houtput.orgId_eq, houtput.traceId_eq⟩, ?_, ?_⟩, ⟨told, htold, rfl⟩, hnew,
      hsummaries, rfl, hout⟩)
    · rw [remediate_traces] at hplan
      exact hplan
    · simp
    · exact hadds.records
    · rw [hout, hevent]
      exact ⟨rfl, rfl⟩
    · rw [hadds.seq_eq, hadds.records.seq_eq]
      rfl

end Gates

/-! ## What each call adds to the index -/

section Adds

variable [SignatureScheme] [KeyWrapping] [PyUnicode] {db db' : Db}

theorem FailedClosed.grows {args : PrecheckArgs} {policy : Policy} {features : FeatureVector}
    {fresh : PrecheckFresh} {d : DecisionOut}
    (h : FailedClosed db args policy features fresh db' d) :
    ∃ es, IndexGrows db db' id [] es := by
  obtain ⟨_, e, hadds⟩ := h.adds
  obtain ⟨ts, ps, ks, rfl⟩ := hadds.rows
  exact ⟨[e], .of_summaries_eq rfl (List.append_nil _)⟩

theorem Concluded.grows {args : PrecheckArgs} {policy : Policy} {features : FeatureVector}
    {output : PolicyOutput} {fresh : PrecheckFresh} {d : DecisionOut}
    (h : Concluded db args policy features output fresh db' d) :
    ∃ (told : EventOut) (e : Event), (told.seq = d.seq ∧ told.hash = d.hash) ∧
      PrecheckAdds db args fresh db' d
        (decisionPayload args policy.version output features d.findings d.remediationPlan) e
        [decisionSummary args policy.version output d.findings d.remediationPlan told
          fresh.summaryId] ∧
      IndexGrows db db' id [decisionSummary args policy.version output d.findings
        d.remediationPlan told fresh.summaryId] [e] := by
  obtain ⟨e, told, htold, hadds⟩ := h.adds
  refine ⟨told, e, htold, hadds, ?_⟩
  have hseq : told.seq = args.seq := by rw [htold.1, hadds.seq_eq, hadds.records.seq_eq]; rfl
  have hnext := hadds.next
  have hrecords := hadds.records
  obtain ⟨ts, ps, ks, rfl⟩ := hadds.rows
  refine ⟨rfl, by rw [List.map_id], fun _ => rfl, le_refl 1, ?_⟩
  intro row hrow
  obtain rfl := List.mem_singleton.mp hrow
  exact ⟨h.id_new, hseq.trans hnext, e, List.mem_singleton_self e, hrecords.orgId_eq,
    hrecords.traceId_eq, hrecords.seq_eq.trans hseq.symm⟩

theorem GateConcluded.grows {args : GateArgs} {fresh : GateFresh} {out : GateOut} {policy : Policy}
    {features : FeatureVector} {output : PolicyOutput} {remediated : Option PolicyDecisionSummary}
    {d : DecisionOut} {row : PolicyDecisionSummary} {event : EventOut}
    (h : GateConcluded db args fresh db' out policy features output remediated d row event) :
    ∃ e e', GateEvents db args fresh db' out d (decisionPayload (gatePrecheck db args fresh)
        policy.version output features d.findings d.remediationPlan) e e' ∧
      IndexGrows db db' (PolicyDecisionSummary.closedBy remediated d)
        [row.stamped d.status event] [e, e'] := by
  obtain ⟨e, e', hevents⟩ := h.events
  obtain ⟨told, htold, hrow⟩ := h.row_eq
  have hseq : row.seq = d.seq := by rw [hrow, ← htold.1]; rfl
  have horg : row.orgId = args.org.id := by rw [hrow]; rfl
  have htrace : row.traceId = gateTrace args fresh := by rw [hrow]; rfl
  refine ⟨e, e', hevents, hevents.events_eq, h.summaries_eq, closedBy_same remediated d, le_refl 1,
    ?_⟩
  intro row' hrow'
  obtain rfl := List.mem_singleton.mp hrow'
  refine ⟨h.row_new, ?_, e, List.mem_cons_self, ?_, ?_, ?_⟩
  · show row.seq = nextSeq (db.lastEventForTrace row.orgId row.traceId)
    rw [hseq, horg, htrace]
    exact hevents.next
  · exact hevents.decision.orgId_eq.trans horg.symm
  · exact hevents.decision.traceId_eq.trans htrace.symm
  · exact hevents.decided.1.symm.trans hseq.symm

theorem runPrecheck_grows {svc : SigningKeyPair} {args : PrecheckArgs} {fresh : PrecheckFresh}
    {d : DecisionOut} (h : runPrecheck svc db args fresh = .ok (db', d)) :
    ∃ added es, IndexGrows db db' id added es := by
  obtain ⟨policy, features, -, -, hend⟩ := runPrecheck_cases h
  rcases hend with hfailed | ⟨output, -, hconcluded⟩
  · exact ⟨[], hfailed.grows⟩
  · obtain ⟨told, e, -, -, hgrows⟩ := hconcluded.grows
    exact ⟨_, _, hgrows⟩

theorem runGate_grows {svc : SigningKeyPair} {args : GateArgs} {fresh : GateFresh} {out : GateOut}
    (hok : IndexOk db) (h : runGate svc db args fresh = .ok (db', out)) :
    ∃ relink added es, IndexGrows db db' relink added es := by
  rcases runGate_effect hok h with hnone | ⟨policy, features, d, hfailed⟩ |
    ⟨policy, features, output, remediated, d, row, event, hconcluded⟩
  · obtain ⟨e, ts, ps, ks, -, rfl⟩ := hnone.rows
    exact ⟨id, [], [e], .of_summaries_eq rfl rfl⟩
  · obtain ⟨_, e, e', hevents⟩ := hfailed.events
    exact ⟨id, [], _, .of_summaries_eq hevents.events_eq hfailed.summaries_eq⟩
  · obtain ⟨e, e', -, hgrows⟩ := hconcluded.grows
    exact ⟨_, _, _, hgrows⟩

end Adds

end Attest
