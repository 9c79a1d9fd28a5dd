import Attest.Gate
import Attest.Recording

/-!
# Approvals and the workflow gate

A risky decision opens an approval, which a person resolves (`resolveApproval`), and
`workflowGate` says whether the trace may go on. The gate reads the newest twenty
approvals of the trace, in one of the orders the query may return them
(`RecentApprovals`), and the trace's latest decision where none of them settles it.

A pending approval blocks unless it lies behind the twenty and what the gate does read
lets the trace pass (`pendingBlocks_iff`).
-/

set_option linter.unusedSectionVars false

namespace Attest

/-! ## The gate -/

/-- `list_approvals(db, org_id, trace_id)`, before it is ordered and cut. -/
def Db.approvalsOf (db : Db) (orgId : String) (traceId : Uuid) : List Approval :=
  db.approvals.filter fun a => a.orgId = orgId ∧ a.traceId = traceId

/-- The limit of the query of the gate. -/
def approvalWindow : Nat := 20

/-- What `list_approvals_for_trace(db, org_id, trace_id, limit=20)` may return : the newest
rows, those of one time in any order. -/
def RecentApprovals (db : Db) (orgId : String) (traceId : Uuid) (window : List Approval) : Prop :=
  ∃ rows, List.Perm rows (db.approvalsOf orgId traceId) ∧
    rows.Pairwise (fun a b => b.createdAt ≤ a.createdAt) ∧ window = rows.take approvalWindow

/-- `_policy_summary_from_events(..)` of a decision. -/
structure PolicySummary where
  tier : JVal
  allowed : JVal
  reasons : JVal
  seq : Int

/-- `_policy_summary_from_events(db, org_id, trace_id)` over the events, newest first :
the latest decision that can be read. -/
def summaryOf (db : Db) (orgId : String) : List Event → Option PolicySummary
  | [] => none
  | e :: es =>
    if e.type = "policy_decision" then
      match readPayloadContent db orgId e.payloadHash with
      | some content => some ⟨content.get "tier", content.get "allowed",
          (content.get "reasons").orElse (.arr []), e.seq⟩
      | none => summaryOf db orgId es
    else summaryOf db orgId es

def policySummaryFromEvents (db : Db) (orgId : String) (traceId : Uuid) : Option PolicySummary :=
  summaryOf db orgId (db.eventsForTrace orgId traceId).reverse

/-- A summary of a trace is of a decision that was read. -/
theorem summaryOf_eq_some {db : Db} {orgId : String} {p : PolicySummary} : ∀ {es : List Event},
    summaryOf db orgId es = some p → ∃ e ∈ es, ∃ content,
      readPayloadContent db orgId e.payloadHash = some content ∧ p.tier = content.get "tier"
  | e :: es, h => by
    unfold summaryOf at h
    have hlater (h : summaryOf db orgId es = some p) : ∃ x ∈ e :: es, ∃ content,
        readPayloadContent db orgId x.payloadHash = some content ∧
          p.tier = content.get "tier" := by
      obtain ⟨x, hx, hread⟩ := summaryOf_eq_some h
      exact ⟨x, List.mem_cons_of_mem _ hx, hread⟩
    split at h
    · split at h <;> rename_i hread
      · obtain rfl := Option.some.inj h
        exact ⟨e, List.mem_cons_self, _, hread, rfl⟩
      · exact hlater h
    · exact hlater h

inductive WorkflowStatus where
  | proceed
  | blockedPendingApproval
  | blockedDenied
  | blockedNotAllowed
deriving DecidableEq

structure WorkflowOut where
  traceId : Uuid
  workflowStatus : WorkflowStatus
  resumeAllowed : Bool
  approvalId : Option Uuid
  approvalStatus : Option String
  approverId : Option String
  policyTier : JVal
  policyReasons : JVal
  message : String

def Approval.isPending (a : Approval) : Bool :=
  a.status = "pending"

def Approval.isResolved (a : Approval) : Bool :=
  a.status = "approved" ∨ a.status = "denied"

/-- `policy.get("tier")` and `policy.get("reasons", [])`. -/
def summaryTier (policy : Option PolicySummary) : JVal :=
  match policy with
  | some p => p.tier
  | none => .null

def summaryReasons (policy : Option PolicySummary) : JVal :=
  match policy with
  | some p => p.reasons
  | none => .arr []

/-- `policy.get("tier") == "red" and policy.get("allowed") is False`. -/
def PolicySummary.isRedDenied (p : PolicySummary) : Bool :=
  p.tier = .str RiskTier.red.name && p.allowed = .bool false

/-- The answer for a pending approval. -/
def pendingOut (traceId : Uuid) (pending : Approval) (policy : Option PolicySummary) :
    WorkflowOut where
  traceId := traceId
  workflowStatus := .blockedPendingApproval
  resumeAllowed := false
  approvalId := some pending.id
  approvalStatus := some "pending"
  approverId := none
  policyTier := summaryTier policy
  policyReasons := summaryReasons policy
  message := "Human approval required before this workflow may continue."

/-- The answer for the latest approval that was resolved. -/
def resolvedOut (traceId : Uuid) (resolved : Approval) : WorkflowOut :=
  if resolved.status = "denied" then
    { traceId := traceId
      workflowStatus := .blockedDenied
      resumeAllowed := false
      approvalId := some resolved.id
      approvalStatus := some "denied"
      approverId := resolved.approverId
      policyTier := .null
      policyReasons := .null
      message := "Workflow aborted — approval was denied." }
  else
    { traceId := traceId
      workflowStatus := .proceed
      resumeAllowed := true
      approvalId := some resolved.id
      approvalStatus := some "approved"
      approverId := resolved.approverId
      policyTier := .null
      policyReasons := .null
      message := "Human approval granted — workflow may continue." }

/-- The answer where no approval settles it. -/
def ungatedOut (traceId : Uuid) (policy : Option PolicySummary) : WorkflowOut :=
  if policy.any PolicySummary.isRedDenied then
    { traceId := traceId
      workflowStatus := .blockedNotAllowed
      resumeAllowed := false
      approvalId := none
      approvalStatus := none
      approverId := none
      policyTier := .str RiskTier.red.name
      policyReasons := summaryReasons policy
      message := "RED policy decision blocks this action until approved." }
  else
    { traceId := traceId
      workflowStatus := .proceed
      resumeAllowed := true
      approvalId := none
      approvalStatus := none
      approverId := none
      policyTier := summaryTier policy
      policyReasons := summaryReasons policy
      message := "No approval gate — workflow may continue." }

/-- `workflow_gate(db, org_id, trace_id)`, with the approvals its query returned. -/
def workflowGate (db : Db) (orgId : String) (traceId : Uuid) (window : List Approval) :
    Except PyError WorkflowOut := do
  ensureTraceAccess db orgId traceId
  return match window.find? Approval.isPending with
    | some pending => pendingOut traceId pending (policySummaryFromEvents db orgId traceId)
    | none =>
      match window.find? Approval.isResolved with
      | some resolved => resolvedOut traceId resolved
      | none => ungatedOut traceId (policySummaryFromEvents db orgId traceId)

/-! ## Pending approvals -/

/-- What the gate reads holds the trace back without a pending approval : the newest one
that was resolved is a denial, or none was resolved and the latest decision is a red
denial. -/
def heldBack (db : Db) (orgId : String) (traceId : Uuid) (window : List Approval) : Bool :=
  match window.find? Approval.isResolved with
  | some resolved => resolved.status = "denied"
  | none => (policySummaryFromEvents db orgId traceId).any PolicySummary.isRedDenied

/-- The gate lets a trace go on where no pending approval is read and nothing else holds
it back. -/
theorem workflowGate_resumes {db : Db} {orgId : String} {traceId : Uuid} {window : List Approval}
    {out : WorkflowOut} (h : workflowGate db orgId traceId window = .ok out) :
    out.resumeAllowed = true ↔
      (∀ a ∈ window, a.status ≠ "pending") ∧ heldBack db orgId traceId window = false := by
  obtain ⟨_, -, hout⟩ := Except.bind_eq_ok.mp h
  obtain rfl := Except.ok.inj hout
  cases hpending : window.find? Approval.isPending with
  | some pending =>
    have hmem := List.mem_of_find?_eq_some hpending
    have hstatus : pending.status = "pending" := by
      simpa [Approval.isPending] using List.find?_some hpending
    simp only [pendingOut, Bool.false_eq_true, false_iff, not_and]
    exact fun hnone => absurd hstatus (hnone pending hmem)
  | none =>
    have hnone : ∀ a ∈ window, a.status ≠ "pending" := by
      simpa [Approval.isPending] using hpending
    rw [and_iff_right hnone, heldBack]
    cases window.find? Approval.isResolved with
    | some resolved => by_cases hdenied : resolved.status = "denied" <;> simp [resolvedOut, hdenied]
    | none =>
      by_cases hred : (policySummaryFromEvents db orgId traceId).any PolicySummary.isRedDenied
      · simp [ungatedOut, hred]
      · simp [ungatedOut, hred]

/-- The gate blocks where a pending approval is read, or something else holds the trace
back. -/
theorem workflowGate_blocks {db : Db} {orgId : String} {traceId : Uuid} {window : List Approval}
    (haccess : ensureTraceAccess db orgId traceId = .ok ()) :
    (∃ out, workflowGate db orgId traceId window = .ok out ∧ out.resumeAllowed = false) ↔
      (∃ a ∈ window, a.status = "pending") ∨ heldBack db orgId traceId window = true := by
  obtain ⟨out, hout⟩ : ∃ out, workflowGate db orgId traceId window = .ok out :=
    ⟨_, by rw [workflowGate, haccess]; rfl⟩
  have hblocked : out.resumeAllowed = false ↔
      (∃ a ∈ window, a.status = "pending") ∨ heldBack db orgId traceId window = true := by
    rw [← Bool.not_eq_true, workflowGate_resumes hout, not_and_or, Bool.not_eq_false]
    simp only [ne_eq, not_forall, not_not, exists_prop]
  rw [← hblocked, hout]
  simp

/-- A trace with a pending approval may not go on, whichever rows the query returns. -/
def PendingBlocks (db : Db) (orgId : String) (traceId : Uuid) : Prop :=
  (∃ a ∈ db.approvalsOf orgId traceId, a.status = "pending") →
    ∀ window, RecentApprovals db orgId traceId window →
      ∃ out, workflowGate db orgId traceId window = .ok out ∧ out.resumeAllowed = false

/-- A pending approval blocks its trace exactly where one is among the newest twenty, or
what the gate reads holds the trace back all the same. -/
theorem pendingBlocks_iff {db : Db} {orgId : String} {traceId : Uuid}
    (haccess : ensureTraceAccess db orgId traceId = .ok ()) :
    PendingBlocks db orgId traceId ↔
      ((∃ a ∈ db.approvalsOf orgId traceId, a.status = "pending") →
        ∀ window, RecentApprovals db orgId traceId window →
          (∃ a ∈ window, a.status = "pending") ∨ heldBack db orgId traceId window = true) :=
  imp_congr_right fun _ => forall_congr' fun _ => imp_congr_right fun _ =>
    workflowGate_blocks haccess

/-- With no more approvals than the gate reads, a pending one blocks. -/
theorem pendingBlocks_of_le {db : Db} {orgId : String} {traceId : Uuid}
    (haccess : ensureTraceAccess db orgId traceId = .ok ())
    (hle : (db.approvalsOf orgId traceId).length ≤ approvalWindow) :
    PendingBlocks db orgId traceId := by
  rintro ⟨a, ha, hpending⟩ window ⟨rows, hperm, -, rfl⟩
  rw [workflowGate_blocks haccess]
  rw [List.take_of_length_le (hperm.length_eq.trans_le hle)]
  exact Or.inl ⟨a, hperm.mem_iff.mpr ha, hpending⟩

/-! ## Resolving -/

structure ResolveArgs where
  orgId : String
  approvalId : Uuid
  status : String
  approverId : String
  approverKind : String
  approverUserId : Option String
  approverDisplay : Option String
  comment : Option String

structure ResolveOut where
  approvalId : Uuid
  traceId : Uuid
  status : String
  eventSeq : Int
  eventHash : String
  resumeAllowed : Bool
  workflowStatus : WorkflowStatus

/-- `get_approval(db, org_id, approval_id)`. -/
def Db.getApproval (db : Db) (orgId : String) (approvalId : Uuid) : Option Approval :=
  db.approvals.find? fun a => a.orgId = orgId ∧ a.id = approvalId

/-- The row of an approval once it is resolved. -/
def ResolveArgs.resolve (args : ResolveArgs) (id : Uuid) (a : Approval) : Approval :=
  if a.id = id then
    { a with status := args.status, approverId := some args.approverId,
             approverKind := some args.approverKind, comment := args.comment }
  else a

namespace ResolveArgs

variable (args : ResolveArgs) (id : Uuid) (a : Approval)

@[simp] theorem resolve_id : (args.resolve id a).id = a.id := by
  unfold resolve
  split <;> rfl

@[simp] theorem resolve_orgId : (args.resolve id a).orgId = a.orgId := by
  unfold resolve
  split <;> rfl

@[simp] theorem resolve_traceId : (args.resolve id a).traceId = a.traceId := by
  unfold resolve
  split <;> rfl

@[simp] theorem resolve_createdAt : (args.resolve id a).createdAt = a.createdAt := by
  unfold resolve
  split <;> rfl

theorem resolve_status :
    (args.resolve id a).status = if a.id = id then args.status else a.status := by
  unfold resolve
  split <;> rfl

end ResolveArgs

/-- `resolve_approval(db, approval, ..)` of the repository. -/
def Db.updateApproval (db : Db) (args : ResolveArgs) (id : Uuid) : Except PyError Db := do
  require (textOk args.approverId && textOk args.approverKind && optTextOk args.comment) .dataError
  return { db with approvals := db.approvals.map (args.resolve id) }

/-- The payload of a resolution. -/
def resolutionPayload (args : ResolveArgs) : Dict :=
  [("approval_id", .str args.approvalId.str),
    ("status", .str args.status),
    ("approver_id", .str args.approverId),
    ("approver_kind", .str args.approverKind),
    ("comment", .str (args.comment.getD ""))] ++
    (match args.approverUserId with
      | some id => [("approver_user_id", .str id)]
      | none => []) ++
    match args.approverDisplay with
    | some display => [("approver_display", .str display)]
    | none => []

section Resolve

variable [SignatureScheme] [KeyWrapping] [PyUnicode]

/-- `resolve_approval(db, ..)`, with the approvals the query of its gate returns. -/
def resolveApproval (svc : SigningKeyPair) (db : Db) (args : ResolveArgs) (fresh : Fresh)
    (window : List Approval) : Except PyError (Db × ResolveOut) := do
  require (args.status = "approved" ∨ args.status = "denied") .valueError
  match db.getApproval args.orgId args.approvalId with
  | none => .error (.approvalNotFound ("approval not found: " ++ args.approvalId.str))
  | some approval =>
    if approval.status = "pending" then do
      let db ← db.updateApproval args approval.id
      let (db, event) ← recordEvent svc db {
        orgId := args.orgId
        traceId := approval.traceId
        seq := nextSeq (db.eventsForTrace args.orgId approval.traceId).getLast?
        eventType := "approval_action"
        payload := resolutionPayload args
        policyVersion := none } fresh
      let gate ← workflowGate db args.orgId approval.traceId window
      return (db, {
        approvalId := args.approvalId
        traceId := approval.traceId
        status := args.status
        eventSeq := event.seq
        eventHash := event.hash
        resumeAllowed := args.status = "approved"
        workflowStatus := gate.workflowStatus })
    else .error (.approvalAlreadyResolved ("approval already " ++ approval.status))

/-- A resolution touches its own approval, which was pending. -/
theorem resolveApproval_eq_ok {svc : SigningKeyPair} {db db' : Db} {args : ResolveArgs}
    {fresh : Fresh} {window : List Approval} {out : ResolveOut}
    (h : resolveApproval svc db args fresh window = .ok (db', out)) :
    (args.status = "approved" ∨ args.status = "denied") ∧
      ∃ a ∈ db.approvals, a.status = "pending" ∧ a.id = args.approvalId ∧
        db'.approvals = db.approvals.map fun x => if x.id = a.id then
          { x with status := args.status, approverId := some args.approverId,
                   approverKind := some args.approverKind, comment := args.comment } else x := by
  simp only [resolveApproval, Except.bind_eq_ok, require_eq_ok, decide_eq_true_eq] at h
  obtain ⟨_, hstatus, h⟩ := h
  refine ⟨hstatus, ?_⟩
  cases hget : db.getApproval args.orgId args.approvalId with
  | none => simp [hget] at h
  | some a =>
    have hid : a.orgId = args.orgId ∧ a.id = args.approvalId := by
      simpa using List.find?_some hget
    by_cases hpending : a.status = "pending"
    · simp only [hget, hpending, if_true, Except.bind_eq_ok, Except.pure_eq, Except.ok.injEq,
        Prod.mk.injEq] at h
      obtain ⟨db₁, hupdate, ⟨db₂, event⟩, hrecord, gate, -, rfl, -⟩ := h
      obtain ⟨_, -, hdb⟩ := Except.bind_eq_ok.mp hupdate
      obtain rfl := Except.ok.inj hdb
      obtain ⟨e, ts, ps, ks, -, -, -, rfl⟩ := recordEvent_eq_ok hrecord
      exact ⟨a, List.mem_of_find?_eq_some hget, hpending, hid.2, rfl⟩
    · simp [hget, hpending] at h

/-! ## The calls on a trace -/

/-- The tier of a decision and whether it allows the action, once the policy is
evaluated. -/
def concludedVerdict (db : Db) (org : Org) (action : String) (payload : Dict)
    (features : FeatureVector) (output : PolicyOutput) : Except PyError (RiskTier × Bool) := do
  let findings ← evaluatePacks action payload features db org.id
  return (combinedTier output.tier findings,
    tierAllowsAction output.tier org.failMode output.allowed)

/-- The tier of the decision on a payload and whether it allows the action, from the
policy, the packs and the fail mode alone. -/
def verdictOn (db : Db) (org : Org) (action : String) (payload : Dict)
    (policyVersion : Option String) : Except PyError (RiskTier × Bool) :=
  match selectPolicy db org.id policyVersion with
  | none => .error (.noActivePolicy "no active policy for org")
  | some policy => do
    let features ← extractFeatures action payload
    match evaluatePolicyInput (policyInput org action payload policy.version features)
        policy.rules with
    | .error (.policyEngine detail) =>
      if org.failMode = "deny_on_error" then return (.red, false)
      else concludedVerdict db org action payload features (refusedOutput detail)
    | .error e => .error e
    | .ok output => concludedVerdict db org action payload features output

theorem verdictOn_congr {db db' : Db} (hpolicies : db'.policies = db.policies)
    (hpacks : db'.packs = db.packs) (horgPacks : db'.orgPacks = db.orgPacks) (org : Org)
    (action : String) (payload : Dict) (policyVersion : Option String) :
    verdictOn db' org action payload policyVersion =
      verdictOn db org action payload policyVersion := by
  simp only [verdictOn, concludedVerdict, evaluatePacks, activePacksForOrg, hpacks, horgPacks,
    selectPolicy_congr hpolicies]

theorem concludePrecheck_verdict {svc : SigningKeyPair} {db db' : Db} {args : PrecheckArgs}
    {policy : Policy} {features : FeatureVector} {output : PolicyOutput} {fresh : PrecheckFresh}
    {d : DecisionOut} (h : concludePrecheck svc db args policy features output fresh = .ok (db', d))
      :
    concludedVerdict db args.org args.action args.payload features output =
      .ok (d.tier, d.allowed) := by
  simp only [concludePrecheck, Except.bind_eq_ok, Except.pure_eq, Except.ok.injEq,
    Prod.mk.injEq] at h
  obtain ⟨findings, hfindings, _, -, ⟨_, _⟩, -, _, -, _, -, -, rfl⟩ := h
  rw [concludedVerdict, hfindings]
  rfl

/-- A precheck reports the verdict. -/
theorem runPrecheck_verdict {svc : SigningKeyPair} {db db' : Db} {args : PrecheckArgs}
    {fresh : PrecheckFresh} {d : DecisionOut} (h : runPrecheck svc db args fresh = .ok (db', d)) :
    verdictOn db args.org args.action args.payload args.policyVersion =
      .ok (d.tier, d.allowed) := by
  cases hpolicy : selectPolicy db args.org.id args.policyVersion with
  | none => simp [runPrecheck, hpolicy] at h
  | some policy =>
    simp only [runPrecheck, hpolicy, Except.bind_eq_ok] at h
    obtain ⟨db₁, htrace, features, hfeatures, h⟩ := h
    obtain ⟨ts, rfl⟩ := getOrCreateTrace_eq_ok htrace
    split at h <;> rename_i heval
    · split at h <;> rename_i hmode
      · simp only [failClosedResponse, Except.bind_eq_ok, Except.pure_eq, Except.ok.injEq,
          Prod.mk.injEq] at h
        obtain ⟨_, -, ⟨_, _⟩, -, _, -, -, rfl⟩ := h
        simp only [verdictOn, hpolicy, hfeatures, Except.ok_bind', heval, if_pos hmode,
          Except.pure_eq]
      · have hverdict := concludePrecheck_verdict h
        simp only [verdictOn, hpolicy, hfeatures, Except.ok_bind', heval, if_neg hmode]
        exact hverdict
    · cases h
    · have hverdict := concludePrecheck_verdict h
      simp only [verdictOn, hpolicy, hfeatures, Except.ok_bind', heval]
      exact hverdict

/-- So does the gate, where a policy judges the output. -/
theorem runGate_verdict {svc : SigningKeyPair} {db db' : Db} {args : GateArgs} {fresh : GateFresh}
    {out : GateOut} {tier : RiskTier} (h : runGate svc db args fresh = .ok (db', out))
    (htier : out.tier = some tier) :
    verdictOn db args.org args.action args.output args.policyVersion =
      .ok (tier, out.allowed) := by
  simp only [runGate, Except.bind_eq_ok] at h
  obtain ⟨remediated, -, db₁, hopen, ⟨db₂, decision⟩, hdecide, h⟩ := h
  obtain ⟨ts, rfl⟩ := getOrCreateTrace_eq_ok hopen
  cases decision with
  | none =>
    simp only [Except.bind_eq_ok, Except.pure_eq, Except.ok.injEq, Prod.mk.injEq] at h
    obtain ⟨_, -, -, rfl⟩ := h
    cases htier
  | some d =>
    simp only [Except.bind_eq_ok, Except.pure_eq, Except.ok.injEq, Prod.mk.injEq] at h
    obtain ⟨_, -, _, -, -, rfl⟩ := h
    obtain rfl := Option.some.inj htier
    cases hpolicy : selectPolicy { db with traces := ts } args.org.id args.policyVersion with
    | none => simp [decideOutput, hpolicy] at hdecide
    | some policy =>
      rw [decideOutput, hpolicy] at hdecide
      obtain ⟨⟨db₃, d'⟩, hprecheck, hpair⟩ := Except.map_eq_ok.mp hdecide
      obtain ⟨rfl, hd⟩ := Prod.mk.inj hpair
      obtain rfl := Option.some.inj hd
      exact runPrecheck_verdict hprecheck

/-- A denial of the payload has a tier that asks for an approval. -/
def DenialAsks (db : Db) (org : Org) (action : String) (payload : Dict)
    (policyVersion : Option String) : Prop :=
  ∀ tier, verdictOn db org action payload policyVersion = .ok (tier, false) →
    tier.requiresApproval = true

theorem DenialAsks.asks {db : Db} {org : Org} {action : String} {payload : Dict}
    {policyVersion : Option String} (h : DenialAsks db org action payload policyVersion)
    {tier : RiskTier} {allowed : Bool}
    (hverdict : verdictOn db org action payload policyVersion = .ok (tier, allowed))
    (hdenied : allowed = false) : tier.requiresApproval = true := by
  subst hdenied
  exact h tier hverdict

/-- A decision of the trace, as the call that made it reported it. -/
structure Decision where
  tier : RiskTier
  allowed : Bool
  approvalId : Option Uuid

/-- The database, and the decisions made on the trace so far, newest first. -/
structure Trail where
  db : Db
  decisions : List Decision

/-- The clock of a new approval is past every approval of the trace. -/
def ClockAhead (db : Db) (orgId : String) (traceId : Uuid) (fresh : ApprovalFresh) : Prop :=
  ∀ a ∈ db.approvalsOf orgId traceId, a.createdAt < fresh.createdAt

/-- What is asked of the calls that judge a payload. -/
abbrev Guard :=
  Db → Org → String → Dict → Option String → Prop

/-- One call on the trace, where those that judge a payload meet `guard`. -/
inductive TrailStep (svc : SigningKeyPair) (orgId : String) (traceId : Uuid) (guard : Guard) :
    Trail → Trail → Prop where
  | gate {db db' : Db} {decisions : List Decision} {args : GateArgs} {fresh : GateFresh}
      {out : GateOut} {tier : RiskTier} : args.org.id = orgId → args.traceId = some traceId →
      ClockAhead db orgId traceId fresh.precheck.approval →
      guard db args.org args.action args.output args.policyVersion →
      runGate svc db args fresh = .ok (db', out) → out.tier = some tier →
        TrailStep svc orgId traceId guard ⟨db, decisions⟩
          ⟨db', ⟨tier, out.allowed, out.approvalId⟩ :: decisions⟩
  | unevaluated {db db' : Db} {decisions : List Decision} {args : GateArgs} {fresh : GateFresh}
      {out : GateOut} : args.org.id = orgId → args.traceId = some traceId →
      runGate svc db args fresh = .ok (db', out) → out.tier = none →
        TrailStep svc orgId traceId guard ⟨db, decisions⟩ ⟨db', decisions⟩
  | precheck {db db' : Db} {decisions : List Decision} {args : PrecheckArgs}
      {fresh : PrecheckFresh} {d : DecisionOut} : args.org.id = orgId → args.traceId = traceId →
      ClockAhead db orgId traceId fresh.approval →
      guard db args.org args.action args.payload args.policyVersion →
      runPrecheck svc db args fresh = .ok (db', d) →
        TrailStep svc orgId traceId guard ⟨db, decisions⟩
          ⟨db', ⟨d.tier, d.allowed, d.approvalId⟩ :: decisions⟩
  | resolve {db db' : Db} {decisions : List Decision} {args : ResolveArgs} {fresh : Fresh}
      {window : List Approval} {out : ResolveOut} :
      resolveApproval svc db args fresh window = .ok (db', out) →
        TrailStep svc orgId traceId guard ⟨db, decisions⟩ ⟨db', decisions⟩

/-- A trace from its first call on. -/
def trail (svc : SigningKeyPair) (orgId : String) (traceId : Uuid) (guard : Guard) :
    TransitionSystem Trail where
  init w := w.decisions = [] ∧ w.db.approvalsOf orgId traceId = []
  step := TrailStep svc orgId traceId guard

/-- A newest approval of the trace, in one of the three statuses. -/
structure IsNewest (db : Db) (orgId : String) (traceId : Uuid) (a : Approval) : Prop where
  mem : a ∈ db.approvalsOf orgId traceId
  status : a.status = "pending" ∨ a.status = "approved" ∨ a.status = "denied"
  newest : ∀ b ∈ db.approvalsOf orgId traceId, b = a ∨ b.createdAt < a.createdAt

/-- The approval of the latest decision, where it has one, is the newest of the trace. -/
def TrailOk (orgId : String) (traceId : Uuid) (w : Trail) : Prop :=
  ∀ d, w.decisions.head? = some d → d.approvalId.isSome = d.tier.requiresApproval ∧
    ∀ id, d.approvalId = some id → ∃ a, a.id = id ∧ IsNewest w.db orgId traceId a

theorem IsNewest.congr {db db' : Db} {orgId : String} {traceId : Uuid} {a : Approval}
    (h : IsNewest db orgId traceId a) (happrovals : db'.approvals = db.approvals) :
    IsNewest db' orgId traceId a := by
  have hof : db'.approvalsOf orgId traceId = db.approvalsOf orgId traceId := by
    rw [Db.approvalsOf, happrovals, Db.approvalsOf]
  exact ⟨hof ▸ h.mem, h.status, hof ▸ h.newest⟩

/-- The newest approval comes first in what the query returns. -/
theorem IsNewest.head {db : Db} {orgId : String} {traceId : Uuid} {a : Approval}
    (h : IsNewest db orgId traceId a) {window : List Approval}
    (hwindow : RecentApprovals db orgId traceId window) : ∃ rest, window = a :: rest := by
  obtain ⟨rows, hperm, hsorted, rfl⟩ := hwindow
  have hmem : a ∈ rows := hperm.mem_iff.mpr h.mem
  cases rows with
  | nil => cases hmem
  | cons r rows =>
    obtain rfl : r = a := by
      rcases h.newest r (hperm.mem_iff.mp List.mem_cons_self) with heq | hlt
      · exact heq
      · rcases List.mem_cons.mp hmem with heq | hin
        · exact heq.symm
        · have := List.rel_of_pairwise_cons hsorted hin
          omega
    exact ⟨rows.take 19, rfl⟩

/-- Where the newest approval is of a decision, the gate lets the trace go on only if it
was approved. -/
theorem IsNewest.approved {db : Db} {orgId : String} {traceId : Uuid} {a : Approval}
    (h : IsNewest db orgId traceId a) {window : List Approval}
    (hwindow : RecentApprovals db orgId traceId window) {out : WorkflowOut}
    (hout : workflowGate db orgId traceId window = .ok out) (hresumes : out.resumeAllowed = true) :
    a.status = "approved" := by
  obtain ⟨rest, rfl⟩ := h.head hwindow
  obtain ⟨hnone, hheld⟩ := (workflowGate_resumes hout).mp hresumes
  rcases h.status with hpending | happroved | hdenied
  · exact absurd hpending (hnone a List.mem_cons_self)
  · exact happroved
  · simp [heldBack, Approval.isResolved, hdenied] at hheld

/-- A new approval with the clock ahead is the newest. -/
theorem isNewest_of_append {db db' : Db} {orgId : String} {traceId : Uuid} {a : Approval}
    (hahead : ∀ b ∈ db.approvalsOf orgId traceId, b.createdAt < a.createdAt)
    (horg : a.orgId = orgId) (htrace : a.traceId = traceId) (hpending : a.status = "pending")
    (happrovals : db'.approvals = db.approvals ++ [a]) : IsNewest db' orgId traceId a := by
  have hof : db'.approvalsOf orgId traceId = db.approvalsOf orgId traceId ++ [a] := by
    simp [Db.approvalsOf, happrovals, horg, htrace]
  refine ⟨by simp [hof], Or.inl hpending, ?_⟩
  intro b hb
  rw [hof, List.mem_append, List.mem_singleton] at hb
  rcases hb with hb | rfl
  · exact Or.inr (hahead b hb)
  · exact Or.inl rfl

/-- A resolution keeps the newest approval the newest. -/
theorem IsNewest.resolved {db db' : Db} {orgId : String} {traceId : Uuid} {a : Approval}
    (h : IsNewest db orgId traceId a) {f : Approval → Approval}
    (hid : ∀ b, (f b).id = b.id) (horg : ∀ b, (f b).orgId = b.orgId)
    (htrace : ∀ b, (f b).traceId = b.traceId) (hcreated : ∀ b, (f b).createdAt = b.createdAt)
    (hstatus : ∀ b, f b = b ∨ (f b).status = "approved" ∨ (f b).status = "denied")
    (happrovals : db'.approvals = db.approvals.map f) :
    (f a).id = a.id ∧ IsNewest db' orgId traceId (f a) := by
  have hof : db'.approvalsOf orgId traceId = (db.approvalsOf orgId traceId).map f := by
    simp [Db.approvalsOf, happrovals, List.filter_map, Function.comp_def, horg, htrace]
  refine ⟨hid a, ?_, ?_, ?_⟩
  · rw [hof]
    exact List.mem_map_of_mem h.mem
  · rcases hstatus a with heq | hstatus
    · rw [heq]
      exact h.status
    · exact Or.inr hstatus
  · intro b hb
    rw [hof] at hb
    obtain ⟨c, hc, rfl⟩ := List.mem_map.mp hb
    rw [hcreated, hcreated]
    exact (h.newest c hc).imp (congrArg f) id

variable {svc : SigningKeyPair} {orgId : String} {traceId : Uuid} {guard : Guard}

/-- A decision that opens its approval with the clock ahead. -/
theorem trailOk_of_decision {db db' : Db} {decisions : List Decision} (args : PrecheckArgs)
    {fresh : PrecheckFresh} {d : Decision} (horg : args.org.id = orgId)
    (htrace : args.traceId = traceId) (hahead : ClockAhead db orgId traceId fresh.approval)
    (happrovals : db'.approvals = db.approvals ++
      if d.tier.requiresApproval then [openedApproval args fresh] else [])
    (hid : d.approvalId = if d.tier.requiresApproval then some fresh.approval.id else none) :
    TrailOk orgId traceId ⟨db', d :: decisions⟩ := by
  intro d' hd'
  obtain rfl : d = d' := by simpa using hd'
  rw [hid]
  by_cases htier : d.tier.requiresApproval = true
  · rw [if_pos htier] at happrovals ⊢
    refine ⟨by simp [htier], fun id h => ?_⟩
    obtain rfl : fresh.approval.id = id := by simpa using h
    exact ⟨openedApproval args fresh, rfl, isNewest_of_append hahead horg htrace rfl happrovals⟩
  · rw [if_neg htier]
    exact ⟨by simpa using htier, by simp⟩

/-- Every call keeps the approval of the latest decision the newest. -/
theorem TrailOk.step {w w' : Trail} (h : TrailOk orgId traceId w)
    (hstep : TrailStep svc orgId traceId guard w w') : TrailOk orgId traceId w' := by
  cases hstep with
  | @gate db db' decisions args fresh out tier horg htrace hahead _ hgate htier =>
    obtain ⟨⟨_, _, _, _, _, _, -, -, hdb⟩, -, hid⟩ := runGate_eq_ok hgate
    rw [htier] at hid
    refine trailOk_of_decision ⟨args.org, gateTrace args fresh, 0, args.action, args.remediates,
      args.output, args.policyVersion⟩ horg ?_ hahead ?_ hid
    · simp [gateTrace, htrace]
    · rw [hdb, htier]
      rfl
  | unevaluated horg htrace hgate htier =>
    obtain ⟨⟨_, _, _, _, _, _, -, -, hdb⟩, -, -⟩ := runGate_eq_ok hgate
    intro d hd
    obtain ⟨htier', hall⟩ := h d hd
    refine ⟨htier', fun id hid => ?_⟩
    obtain ⟨a, ha, hnewest⟩ := hall id hid
    refine ⟨a, ha, hnewest.congr ?_⟩
    rw [hdb, htier]
    simp
  | @precheck db db' decisions args fresh d horg htrace hahead _ hprecheck =>
    obtain ⟨⟨_, _, _, _, _, -, hdb⟩, -, hid⟩ := runPrecheck_eq_ok hprecheck
    exact trailOk_of_decision args horg htrace hahead (by rw [hdb]) hid
  | resolve hresolve =>
    obtain ⟨hstatus, a, -, -, -, happrovals⟩ := resolveApproval_eq_ok hresolve
    intro d hd
    obtain ⟨htier', hall⟩ := h d hd
    refine ⟨htier', fun id hid => ?_⟩
    obtain ⟨b, rfl, hnewest⟩ := hall id hid
    refine ⟨_, hnewest.resolved ?_ ?_ ?_ ?_ ?_ happrovals⟩
    · intro c; split <;> rfl
    · intro c; split <;> rfl
    · intro c; split <;> rfl
    · intro c; split <;> rfl
    · intro c
      split
      · exact Or.inr hstatus
      · exact Or.inl rfl

theorem trailOk_of_reachable {w : Trail} (h : (trail svc orgId traceId guard).Reachable w) :
    TrailOk orgId traceId w := by
  refine TransitionSystem.invariant (P := TrailOk orgId traceId) ?_ ?_ h
  · rintro w ⟨hnone, -⟩ d hd
    simp [hnone] at hd
  · exact fun _ _ hw hstep => hw.step hstep

/-- The gate lets the trace go on only where its latest decision allowed the action, or
the approval opened for that decision was approved. -/
def DenialsHold (orgId : String) (traceId : Uuid) (w : Trail) : Prop :=
  ∀ d, w.decisions.head? = some d → ∀ window out, RecentApprovals w.db orgId traceId window →
    workflowGate w.db orgId traceId window = .ok out → out.resumeAllowed = true →
      d.allowed = true ∨ ∃ a ∈ w.db.approvals, d.approvalId = some a.id ∧ a.status = "approved"

/-- A decision is what the guard lets through. -/
theorem denialsAsk_of_reachable {w : Trail} (h : (trail svc orgId traceId DenialAsks).Reachable w) :
    ∀ d ∈ w.decisions, d.allowed = false → d.tier.requiresApproval = true := by
  refine TransitionSystem.invariant (P := fun w => ∀ d ∈ w.decisions, d.allowed = false →
    d.tier.requiresApproval = true) ?_ ?_ h
  · rintro w ⟨hnone, -⟩ d hd
    simp [hnone] at hd
  · intro w w' ih hstep
    cases hstep with
    | gate _ _ _ hguard hgate htier =>
      refine List.forall_mem_cons.mpr ⟨?_, ih⟩
      exact hguard.asks (runGate_verdict hgate htier)
    | unevaluated _ _ _ _ => exact ih
    | precheck _ _ _ hguard hprecheck =>
      refine List.forall_mem_cons.mpr ⟨?_, ih⟩
      exact hguard.asks (runPrecheck_verdict hprecheck)
    | resolve _ => exact ih

/-- In a run whose denials all ask for an approval, no denied action is let through. -/
theorem denials_hold {w : Trail} (h : (trail svc orgId traceId DenialAsks).Reachable w) :
    DenialsHold orgId traceId w := by
  intro d hd window out hwindow hout hresumes
  obtain ⟨hsome, hnewest⟩ := trailOk_of_reachable h d hd
  cases hallowed : d.allowed with
  | true => exact Or.inl rfl
  | false =>
    right
    rw [denialsAsk_of_reachable h d (List.mem_of_mem_head? hd) hallowed,
      Option.isSome_iff_exists] at hsome
    obtain ⟨id, hid⟩ := hsome
    obtain ⟨a, rfl, hnew⟩ := hnewest id hid
    have hmem : a ∈ w.db.approvals := (List.mem_filter.mp hnew.mem).1
    exact ⟨a, hmem, hid, hnew.approved hwindow hout hresumes⟩

end Resolve

/-! ## A pending approval behind twenty -/

/-- The approval of the `n`-th decision of a trace : the first is pending, the later ones
are approved. -/
def sampleApproval (n : Nat) : Approval where
  id := Uuid.ofNat (100 + n)
  orgId := "acme"
  traceId := Uuid.ofNat 1
  eventId := none
  status := if n = 0 then "pending" else "approved"
  approverId := if n = 0 then none else some "officer"
  approverKind := none
  comment := none
  createdAt := n

/-- A trace with `n` approvals. -/
def sampleApproved (n : Nat) : Db :=
  { sampleBlank with traces := [⟨Uuid.ofNat 1, "acme", none⟩]
                     approvals := (List.range n).map sampleApproval }

theorem ensureTraceAccess_sampleApproved (n : Nat) :
    ensureTraceAccess (sampleApproved n) "acme" (Uuid.ofNat 1) = .ok () := by
  rw [ensureTraceAccess_eq_ok]
  exact ⟨⟨Uuid.ofNat 1, "acme", none⟩, by simp [sampleApproved, Db.getTraceById], rfl⟩

theorem approvalsOf_sampleApproved (n : Nat) :
    (sampleApproved n).approvalsOf "acme" (Uuid.ofNat 1) = (List.range n).map sampleApproval := by
  refine List.filter_eq_self.mpr fun a ha => ?_
  obtain ⟨k, -, rfl⟩ := List.mem_map.mp ha
  simp [sampleApproval]

/-- Twenty approvals later the trace goes on, with its first approval still pending. -/
theorem pending_behind_twenty : ¬PendingBlocks (sampleApproved 21) "acme" (Uuid.ofNat 1) := by
  intro h
  have hrecent : RecentApprovals (sampleApproved 21) "acme" (Uuid.ofNat 1)
      (((List.range 21).map sampleApproval).reverse.take approvalWindow) := by
    refine ⟨_, ?_, ?_, rfl⟩
    · rw [approvalsOf_sampleApproved]
      exact List.reverse_perm _
    · decide
  have hpending : ∃ a ∈ (sampleApproved 21).approvalsOf "acme" (Uuid.ofNat 1),
      a.status = "pending" := by
    rw [approvalsOf_sampleApproved]
    exact ⟨sampleApproval 0, by decide, rfl⟩
  obtain ⟨out, hout, hblocked⟩ := h hpending _ hrecent
  have hresumes := (workflowGate_resumes hout).mpr (by decide +kernel)
  rw [hblocked] at hresumes
  cases hresumes

/-- Nineteen approvals later it waits for the first. -/
theorem pendingBlocks_iff_sample : PendingBlocks (sampleApproved 20) "acme" (Uuid.ofNat 1) := by
  rw [pendingBlocks_iff (ensureTraceAccess_sampleApproved 20)]
  rintro - window ⟨rows, hperm, -, rfl⟩
  rw [approvalsOf_sampleApproved] at hperm
  have hall : rows.take approvalWindow = rows :=
    List.take_of_length_le (hperm.length_eq.trans (by simp [approvalWindow])).le
  refine Or.inl ⟨sampleApproval 0, ?_, rfl⟩
  rw [hall, hperm.mem_iff]
  exact List.mem_map_of_mem (List.mem_range.mpr (by decide))

/-! ## Two denials -/

/-- A policy that denies notes. -/
def sampleDenyPolicy : Policy :=
  { samplePolicy with rules := [("rules", .arr [.obj [("id", .str "note"), ("tier", .str "green"),
      ("decision", .str "deny"), ("match", .obj [("action", .str "note")])]])] }

def samplePrecheckFresh : PrecheckFresh where
  event := sampleFresh
  summaryId := Uuid.ofNat 3
  approval := ⟨Uuid.ofNat 4, 0⟩
  drafts := []

def samplePrecheckArgs (action : String) (payload : Dict) : PrecheckArgs where
  org := sampleOrg
  traceId := Uuid.ofNat 1
  seq := 1
  action := action
  remediationOf := none
  payload := payload
  policyVersion := none

section Judged

variable [SignatureScheme] [KeyWrapping] [PyUnicode]

/-- What a precheck works out before it records. -/
def sampleJudgement (policy : Policy) (action : String) (payload : Dict) : Except PyError Unit := do
  let features ← extractFeatures action payload
  let output ← evaluatePolicyInput
    (policyInput sampleOrg action payload policy.version features) policy.rules
  let findings ← evaluatePacks action payload features
    { sampleBlank with policies := [policy] } "acme"
  let _ ← remediate { sampleBlank with policies := [policy] } (samplePrecheckArgs action payload)
    policy output features findings []
  return ()

/-- The database once the trace of the precheck is open. -/
def sampleOpened (policy : Policy) : Db :=
  { sampleBlank with policies := [policy]
                     traces := [⟨Uuid.ofNat 1, "acme", some policy.version⟩] }

/-- The call that records a decision. -/
def sampleDecision (policy : Policy) (payload : Dict) : RecordArgs where
  orgId := "acme"
  traceId := Uuid.ofNat 1
  seq := 1
  eventType := "policy_decision"
  payload := payload
  policyVersion := some policy.version

theorem recordable_sampleDecision {policy : Policy} (hversion : textOk policy.version = true)
    (payload : Dict) :
    Recordable (sampleOpened policy) (sampleDecision policy payload) sampleFresh where
  named := by simp [sampleDecision, PyText.isBlank, PyText.isSpace, PyText.isAscii]
  texts := ⟨show textOk "policy_decision" = true by decide, hversion⟩
  org := rfl
  trace := by
    intro t ht
    obtain ⟨hmem, -⟩ := Db.mem_of_getTraceById ht
    obtain rfl := List.mem_singleton.mp hmem
    rfl
  next := rfl
  id := by simp [sampleOpened, sampleBlank, Db.empty]
  free := by simp [sampleOpened, sampleBlank, Db.empty]
  keys := by simp [sampleOpened, sampleBlank, Db.empty]
  content := by
    right
    intro pem hpem
    cases hpem
  keyed := by simp [sampleOpened, sampleBlank, Db.empty]

/-- The events of a trace that is open already leave the traces. -/
theorem Recorded.traces_sampleOpened {policy : Policy} {payload : Dict} {e : Event} {db' : Db}
    (hr : Recorded (sampleOpened policy) (sampleDecision policy payload) sampleFresh e db') :
    db'.traces = (sampleOpened policy).traces := by
  obtain ⟨-, -, opened, rows, hopens, -, rfl⟩ := hr
  cases opened with
  | none => simp
  | some t =>
    obtain ⟨-, -, hnew⟩ := hopens.new t rfl
    exact absurd rfl (hnew ⟨Uuid.ofNat 1, "acme", some policy.version⟩ List.mem_cons_self)

/-- The tier of a decision that is read back. -/
theorem get_tier_decisionPayload (args : PrecheckArgs) (policyVersion : String)
    (output : PolicyOutput) (features : FeatureVector) (findings : List PackFinding)
    (plan : Option RemediationPlan) :
    Dict.get (redactPayload (decisionPayload args policyVersion output features findings plan)).1
      "tier" = .str (redactText (combinedTier output.tier findings).name).1 := by
  simp [decisionPayload, redactPayload, redactItems, redactValue, Dict.get, Dict.getD, Dict.get?]

/-- A precheck on a new trace goes through, and its tier is read back as it was redacted. -/
theorem exists_precheck_sample (svc : SigningKeyPair) {policy : Policy} {action : String}
    {payload : Dict}
    (hselect : selectPolicy { sampleBlank with policies := [policy] } "acme" none = some policy)
    (hversion : textOk policy.version = true) (haction : textOk action = true)
    (hjudged : (sampleJudgement policy action payload).succeeds = true) : ∃ db d,
      runPrecheck svc { sampleBlank with policies := [policy] }
        (samplePrecheckArgs action payload) samplePrecheckFresh = .ok (db, d) ∧
      ensureTraceAccess db "acme" (Uuid.ofNat 1) = .ok () ∧
      ∀ orgId payloadHash content, readPayloadContent db orgId payloadHash = some content →
        content.get "tier" = .str (redactText d.tier.name).1 := by
  obtain ⟨features, hfeatures, hjudged⟩ := Except.succeeds_bind.mp hjudged
  obtain ⟨output, houtput, hjudged⟩ := Except.succeeds_bind.mp hjudged
  obtain ⟨findings, hfindings, hjudged⟩ := Except.succeeds_bind.mp hjudged
  obtain ⟨plan, hplan, -⟩ := Except.succeeds_bind.mp hjudged
  have htrace : getOrCreateTrace { sampleBlank with policies := [policy] } "acme" (Uuid.ofNat 1)
      (some policy.version) = .ok (sampleOpened policy) :=
    Db.insertTrace_eq_ok.mpr ⟨⟨hversion, nofun, rfl⟩, rfl⟩
  obtain ⟨db₁, event, hrecord⟩ := recordEvent_succeeds svc (recordable_sampleDecision
    hversion (decisionPayload (samplePrecheckArgs action payload) policy.version output features
      findings plan))
  obtain ⟨e, hr, -⟩ := recordEvent_recorded hrecord
  have htraces := hr.traces_sampleOpened
  obtain ⟨ts, ps, ks, hdb₁⟩ := hr.others
  have hsummary : ∃ ss, db₁.insertSummary (decisionSummary (samplePrecheckArgs action payload)
      policy.version output findings plan event samplePrecheckFresh.summaryId) =
        .ok { db₁ with summaries := ss } := by
    subst hdb₁
    have hnew (x : PolicyDecisionSummary) (hx : x ∈ (sampleOpened policy).summaries) : False := by
      cases hx
    exact ⟨_, Db.insertSummary_eq_ok.mpr
      ⟨⟨haction, hversion, fun x hx => (hnew x hx).elim, rfl⟩, rfl⟩⟩
  obtain ⟨ss, hsummary⟩ := hsummary
  have hopen : ∃ as, openApproval { db₁ with summaries := ss } (samplePrecheckArgs action payload)
      (combinedTier output.tier findings) samplePrecheckFresh =
        .ok { db₁ with summaries := ss, approvals := as } := by
    unfold openApproval
    split
    · refine ⟨_, Db.insertApproval_eq_ok.mpr ⟨⟨?_, ?_, ?_, ?_⟩, rfl⟩⟩
      · rw [hdb₁]
        exact nofun
      · rw [hdb₁]
        rfl
      · simp [Db.hasTrace, htraces, sampleOpened, samplePrecheckArgs]
      · have hid : e.id = sampleFresh.eventId := hr.id_eq
        simp [hdb₁, hid, samplePrecheckFresh]
    · exact ⟨_, rfl⟩
  obtain ⟨as, hopen⟩ := hopen
  have hfindings' : evaluatePacks (samplePrecheckArgs action payload).action
      (samplePrecheckArgs action payload).payload features (sampleOpened policy)
      (samplePrecheckArgs action payload).org.id = .ok findings := hfindings
  have hplan' : remediate (sampleOpened policy) (samplePrecheckArgs action payload) policy output
      features findings samplePrecheckFresh.drafts = .ok plan := hplan
  have hrecord' : recordDecision svc (sampleOpened policy) (samplePrecheckArgs action payload)
      policy.version (decisionPayload (samplePrecheckArgs action payload) policy.version output
        features findings plan) samplePrecheckFresh.event = .ok (db₁, event) := hrecord
  have hconclude : ∃ d, concludePrecheck svc (sampleOpened policy)
      (samplePrecheckArgs action payload) policy features output samplePrecheckFresh =
        .ok ({ db₁ with summaries := ss, approvals := as }, d) ∧
          d.tier = combinedTier output.tier findings := by
    simp only [concludePrecheck, hfindings', Except.ok_bind', hplan', hrecord', hsummary,
      hopen]
    exact ⟨_, rfl, rfl⟩
  obtain ⟨d, hconclude, hd⟩ := hconclude
  refine ⟨{ db₁ with summaries := ss, approvals := as }, d, ?_, ?_, ?_⟩
  · have hselect' : selectPolicy { sampleBlank with policies := [policy] }
        (samplePrecheckArgs action payload).org.id
        (samplePrecheckArgs action payload).policyVersion = some policy := hselect
    have htrace' : getOrCreateTrace { sampleBlank with policies := [policy] }
        (samplePrecheckArgs action payload).org.id (samplePrecheckArgs action payload).traceId
        (some policy.version) = .ok (sampleOpened policy) := htrace
    have hfeatures' : extractFeatures (samplePrecheckArgs action payload).action
        (samplePrecheckArgs action payload).payload = .ok features := hfeatures
    have houtput' : evaluatePolicyInput (policyInput (samplePrecheckArgs action payload).org
        (samplePrecheckArgs action payload).action (samplePrecheckArgs action payload).payload
        policy.version features) policy.rules = .ok output := houtput
    simp only [runPrecheck, hselect', htrace', Except.ok_bind', hfeatures', houtput', hconclude]
  · rw [ensureTraceAccess_eq_ok]
    exact ⟨⟨Uuid.ofNat 1, "acme", some policy.version⟩, by simp [Db.getTraceById, htraces,
      sampleOpened], rfl⟩
  · intro orgId payloadHash content hread
    obtain ⟨p, k, hp, -, -, -, -, rfl, -⟩ := readPayloadContent_eq_some hread
    rcases hr.content with ⟨hsome, -⟩ | ⟨-, rows, hrows, hpayloads, -⟩
    · cases hsome
    · have hmem : p ∈ db₁.payloads := (Db.mem_of_getPayload hp).1
      rw [hpayloads] at hmem
      obtain rfl := List.mem_singleton.mp hmem
      rw [hrows, hd]
      exact get_tier_decisionPayload _ _ _ _ _ _

end Judged

/-- One precheck on a new trace. -/
theorem reachable_precheck {policy : Policy} {guard : Guard} {action : String} {payload : Dict}
    {db : Db} {d : DecisionOut}
    (hguard : guard { sampleBlank with policies := [policy] } sampleOrg action payload none)
    (h : @runPrecheck .ascii .transparent .lenient sampleKey
      { sampleBlank with policies := [policy] } (samplePrecheckArgs action payload)
      samplePrecheckFresh = .ok (db, d)) :
    (@trail .transparent .lenient .ascii sampleKey "acme" (Uuid.ofNat 1) guard).Reachable
      ⟨db, [⟨d.tier, d.allowed, d.approvalId⟩]⟩ :=
  ⟨⟨{ sampleBlank with policies := [policy] }, []⟩, ⟨rfl, rfl⟩, .single
    (@TrailStep.precheck .transparent .lenient .ascii _ _ _ _ _ _ _ _ _ _ rfl rfl nofun hguard h)⟩

/-- A note that the policy denies below orange is let through : no approval is opened for
it, and the gate holds back red denials alone. -/
theorem denied_note_resumes : ¬ ∀ w : Trail,
    (@trail .transparent .lenient .ascii sampleKey "acme" (Uuid.ofNat 1)
      fun _ _ _ _ _ => True).Reachable w → DenialsHold "acme" (Uuid.ofNat 1) w := by
  intro hclaim
  obtain ⟨db, d, hprecheck, haccess, htier⟩ := @exists_precheck_sample .transparent .lenient .ascii
    sampleKey sampleDenyPolicy "note" [] rfl (by decide) (by decide) (by decide +kernel)
  have hverdict : @verdictOn .ascii { sampleBlank with policies := [sampleDenyPolicy] } sampleOrg
      "note" [] none = .ok (.yellow, false) := by
    decide +kernel
  obtain ⟨hyellow, hdenied⟩ := Prod.mk.inj (Except.ok.inj
    ((@runPrecheck_verdict .transparent .lenient .ascii _ _ _ _ _ _ hprecheck).symm.trans hverdict))
  have hprechecked := @runPrecheck_eq_ok .transparent .lenient .ascii _ _ _ _ _ _ hprecheck
  have happrovals : db.approvals = [] := by
    obtain ⟨_, _, _, _, _, -, hdb⟩ := hprechecked.rows
    rw [hdb, hyellow]
    rfl
  have hid : d.approvalId = none := by
    rw [hprechecked.approvalId_eq, hyellow]
    rfl
  have hrecent : RecentApprovals db "acme" (Uuid.ofNat 1) [] :=
    ⟨[], by simp [Db.approvalsOf, happrovals], List.Pairwise.nil, rfl⟩
  obtain ⟨out, hout⟩ : ∃ out, workflowGate db "acme" (Uuid.ofNat 1) [] = .ok out :=
    ⟨_, by rw [workflowGate, haccess]; rfl⟩
  have hresumes : out.resumeAllowed = true := by
    refine (workflowGate_resumes hout).mpr ⟨nofun, ?_⟩
    show (policySummaryFromEvents db "acme" (Uuid.ofNat 1)).any PolicySummary.isRedDenied = false
    cases hsummary : policySummaryFromEvents db "acme" (Uuid.ofNat 1) with
    | none => rfl
    | some p =>
      obtain ⟨e, -, content, hread, hp⟩ := summaryOf_eq_some hsummary
      have hred : (@redactText .ascii RiskTier.yellow.name).1 ≠ RiskTier.red.name := by
        decide +kernel
      rw [htier _ _ _ hread, hyellow] at hp
      simp [PolicySummary.isRedDenied, hp, hred]
  have hreach : (@trail .transparent .lenient .ascii sampleKey "acme" (Uuid.ofNat 1)
      fun _ _ _ _ _ => True).Reachable ⟨db, [⟨d.tier, d.allowed, d.approvalId⟩]⟩ :=
    reachable_precheck trivial hprecheck
  rcases hclaim _ hreach _ rfl [] out hrecent hout hresumes with hallowed | ⟨a, ha, -⟩
  · exact absurd (hdenied.symm.trans hallowed) (by decide)
  · rw [happrovals] at ha
    cases ha

end Attest
