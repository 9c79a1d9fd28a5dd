import Attest.Desk

/-!
# The officer work queue

`buildWorkqueue` shows the pending approvals of an organisation, oldest first, and its
flagged decisions that no compliant output has cured, fifty of each at most.

A decision that waits for a person is in one of the two lists as long as every denial has
a tier that asks for an approval (`queue_covers`) : a denial below orange opens no
approval and is no flag, so it is in neither.
-/

set_option linter.unusedSectionVars false

namespace Attest

/-! ## The queue -/

/-- `OPEN_ITEMS_LIMIT`. -/
def openItemsLimit : Nat := 50

/-- An entry of `pending_approvals`. -/
structure ApprovalItem where
  approvalId : Uuid
  traceId : Uuid
  createdAt : Int
  action : Option String
  tier : Option String
  decisionStatus : Option String

/-- An entry of `open_flags`. -/
structure FlagItem where
  traceId : Uuid
  seq : Int
  action : String
  tier : String
  status : Option String
  remediation : Option Dict
  findingsCount : Nat

structure Workqueue where
  pendingApprovals : List ApprovalItem
  openFlags : List FlagItem
  rewriteConfirmations : List FlagItem
  approvalsCount : Nat
  openFlagsCount : Nat
  rewriteConfirmationsCount : Nat
  total : Nat

/-- `_decision_context(db, org_id, trace_id)`. -/
def decisionContext (db : Db) (orgId : String) (traceId : Uuid) : Option PolicyDecisionSummary :=
  latestBy PolicyDecisionSummary.seq
    (db.summaries.filter fun s => s.orgId = orgId ∧ s.traceId = traceId)

/-- `_flag_row(d)`. -/
def flagRow (d : PolicyDecisionSummary) : FlagItem where
  traceId := d.traceId
  seq := d.seq
  action := d.action
  tier := d.tier
  status := d.status
  remediation := d.remediation
  findingsCount := d.findings.length

def approvalItem (db : Db) (orgId : String) (a : Approval) : ApprovalItem :=
  let ctx := decisionContext db orgId a.traceId
  { approvalId := a.id
    traceId := a.traceId
    createdAt := a.createdAt
    action := ctx.map PolicyDecisionSummary.action
    tier := ctx.map PolicyDecisionSummary.tier
    decisionStatus := ctx.bind PolicyDecisionSummary.status }

/-- The flag has a rewrite that changed what the output is. -/
def FlagItem.isRewriteConfirmation (f : FlagItem) : Bool :=
  let remediation := f.remediation.getD []
  (remediation.get "has_rewrite").truthy && (remediation.get "rewrite_reclassified").truthy

/-- The rows of the query for pending approvals, before they are ordered and cut. -/
def Db.pendingApprovals (db : Db) (orgId : String) : List Approval :=
  db.approvals.filter fun a => a.orgId = orgId ∧ a.status = "pending"

/-- The rows of the query for open flags, before they are ordered and cut. -/
def Db.openFlags (db : Db) (orgId : String) : List PolicyDecisionSummary :=
  db.summaries.filter fun s => s.orgId = orgId ∧ s.status = some Status.flagged.name ∧
    s.remediatedBySeq = none ∧ s.remediationOf = none

/-- What the query for pending approvals may return : the oldest, those of one time in any
order. -/
def OldestApprovals (db : Db) (orgId : String) (rows : List Approval) : Prop :=
  ∃ ordered, List.Perm ordered (db.pendingApprovals orgId) ∧
    ordered.Pairwise (fun a b => a.createdAt ≤ b.createdAt) ∧ rows = ordered.take openItemsLimit

/-- What the query for open flags may return : they come by the time of their rows, which
the database sets. -/
def NewestFlags (db : Db) (orgId : String) (rows : List PolicyDecisionSummary) : Prop :=
  ∃ ordered, List.Perm ordered (db.openFlags orgId) ∧ rows = ordered.take openItemsLimit

/-- `build_workqueue(db, org_id)`, with the rows its queries returned. -/
def buildWorkqueue (db : Db) (orgId : String) (approvals : List Approval)
    (flags : List PolicyDecisionSummary) : Workqueue :=
  let approvalItems := approvals.map (approvalItem db orgId)
  let flagItems := flags.map flagRow
  let rewriteItems := flagItems.filter FlagItem.isRewriteConfirmation
  { pendingApprovals := approvalItems
    openFlags := flagItems
    rewriteConfirmations := rewriteItems
    approvalsCount := approvalItems.length
    openFlagsCount := flagItems.length
    rewriteConfirmationsCount := rewriteItems.length
    total := approvalItems.length + flagItems.length }

/-- The decision of a gate call is shown : as an open flag, or by an approval on its
trace. -/
def Workqueue.Shows (q : Workqueue) (out : GateOut) : Prop :=
  (∃ f ∈ q.openFlags, f.traceId = out.traceId ∧ some f.seq = out.decisionSeq) ∨
    ∃ a ∈ q.pendingApprovals, a.traceId = out.traceId

/-- A decision that waits for a person : flagged or blocked, no attempt at a remediation,
not cured, and without a resolved approval of its own. -/
structure NeedsHuman (db : Db) (args : GateArgs) (out : GateOut) : Prop where
  status : out.status = .flagged ∨ out.status = .blocked
  original : args.remediates = none
  uncured : ∀ s ∈ db.summaries, s.orgId = args.org.id → s.traceId = out.traceId →
    some s.seq = out.decisionSeq → s.remediatedBySeq = none
  unresolved : ∀ a ∈ db.approvals, some a.id = out.approvalId → a.status = "pending"

/-- Every decision of the organisation that waits for a person is in the queue, as long as
the queue holds all its items. -/
def QueueCovers (w : Desk) (orgId : String) : Prop :=
  (w.db.pendingApprovals orgId).length ≤ openItemsLimit →
  (w.db.openFlags orgId).length ≤ openItemsLimit →
  ∀ approvals flags, OldestApprovals w.db orgId approvals → NewestFlags w.db orgId flags →
    ∀ c ∈ w.gated, c.1.org.id = orgId → NeedsHuman w.db c.1 c.2 →
      (buildWorkqueue w.db orgId approvals flags).Shows c.2

theorem mem_of_oldestApprovals {db : Db} {orgId : String} {rows : List Approval} {a : Approval}
    (h : OldestApprovals db orgId rows)
    (hlength : (db.pendingApprovals orgId).length ≤ openItemsLimit)
    (ha : a ∈ db.pendingApprovals orgId) : a ∈ rows := by
  obtain ⟨ordered, hperm, -, rfl⟩ := h
  rw [List.take_of_length_le (hperm.length_eq.trans_le hlength)]
  exact hperm.mem_iff.mpr ha

theorem mem_of_newestFlags {db : Db} {orgId : String} {rows : List PolicyDecisionSummary}
    {s : PolicyDecisionSummary} (h : NewestFlags db orgId rows)
    (hlength : (db.openFlags orgId).length ≤ openItemsLimit) (hs : s ∈ db.openFlags orgId) :
    s ∈ rows := by
  obtain ⟨ordered, hperm, rfl⟩ := h
  rw [List.take_of_length_le (hperm.length_eq.trans_le hlength)]
  exact hperm.mem_iff.mpr hs

/-! ## What a decision leaves for the queue -/

/-- Only a denial is blocked. -/
theorem deriveStatus_eq_blocked {α : Type} {allowed : Bool} {tier : RiskTier} {findings : List α} :
    deriveStatus allowed tier findings = .blocked ↔ allowed = false := by
  cases allowed with
  | false => simp [deriveStatus]
  | true => by_cases hflag : (tier.isFlagging || !findings.isEmpty) = true <;>
      simp [deriveStatus, hflag]

/-- The decision opened an approval on its trace. -/
def HasApproval (db : Db) (args : GateArgs) (out : GateOut) : Prop :=
  ∃ a ∈ db.approvals, some a.id = out.approvalId ∧ a.orgId = args.org.id ∧ a.traceId = out.traceId

/-- The decision has a flagged row of its own. -/
def HasFlag (db : Db) (args : GateArgs) (out : GateOut) : Prop :=
  ∃ s ∈ db.summaries, (s.orgId = args.org.id ∧ s.traceId = out.traceId ∧
    some s.seq = out.decisionSeq) ∧ s.status = some Status.flagged.name ∧ s.remediationOf = none

/-- Every decision that was flagged or blocked left an approval or a flag. -/
def Kept (w : Desk) : Prop :=
  ∀ c ∈ w.gated, c.2.status = .flagged ∨ c.2.status = .blocked → c.1.remediates = none →
    HasApproval w.db c.1 c.2 ∨ HasFlag w.db c.1 c.2

/-- What was left shows a decision that still waits. -/
theorem Kept.covers {w : Desk} (h : Kept w) (orgId : String) : QueueCovers w orgId := by
  intro happrovals hflags approvals flags holdest hnewest c hc horg hneeds
  subst horg
  rcases h c hc hneeds.status hneeds.original with ⟨a, ha, hid, haorg, htrace⟩ |
    ⟨s, hs, ⟨hsorg, htrace, hseq⟩, hstatus, hof⟩
  · have hpending : a ∈ w.db.pendingApprovals c.1.org.id := by
      simp [Db.pendingApprovals, ha, haorg, hneeds.unresolved a ha hid]
    exact Or.inr ⟨_, List.mem_map_of_mem (mem_of_oldestApprovals holdest happrovals hpending),
      htrace⟩
  · have hopen : s ∈ w.db.openFlags c.1.org.id := by
      simp [Db.openFlags, hs, hsorg, hstatus, hof, hneeds.uncured s hs hsorg htrace hseq]
    exact Or.inl ⟨_, List.mem_map_of_mem (mem_of_newestFlags hnewest hflags hopen), htrace, hseq⟩

section Runs

variable [SignatureScheme] [KeyWrapping] [PyUnicode] {svc : SigningKeyPair} {db db' : Db}

/-- Approvals are added, and those there were keep their trace. -/
def ApprovalsKept (db db' : Db) : Prop :=
  ∀ a ∈ db.approvals, ∃ a' ∈ db'.approvals, a'.id = a.id ∧ a'.orgId = a.orgId ∧
    a'.traceId = a.traceId

theorem ApprovalsKept.of_append {added : List Approval}
    (h : db'.approvals = db.approvals ++ added) : ApprovalsKept db db' :=
  fun a ha => ⟨a, by rw [h]; exact List.mem_append_left _ ha, rfl, rfl, rfl⟩

theorem HasApproval.kept {args : GateArgs} {out : GateOut} (h : HasApproval db args out)
    (hkept : ApprovalsKept db db') : HasApproval db' args out := by
  obtain ⟨a, ha, hid, horg, htrace⟩ := h
  obtain ⟨a', ha', hid', horg', htrace'⟩ := hkept a ha
  exact ⟨a', ha', by rw [hid']; exact hid, horg'.trans horg, htrace'.trans htrace⟩

theorem HasFlag.grows {args : GateArgs} {out : GateOut}
    {relink : PolicyDecisionSummary → PolicyDecisionSummary} {added : List PolicyDecisionSummary}
    {es : List Event} (h : HasFlag db args out) (hgrows : IndexGrows db db' relink added es) :
    HasFlag db' args out := by
  obtain ⟨s, hs, hrow⟩ := h
  refine ⟨relink s, ?_, ?_⟩
  · rw [hgrows.summaries_eq]
    exact List.mem_append_left _ (List.mem_map_of_mem hs)
  · rw [hgrows.same s]
    exact hrow

theorem Kept.grows {w w' : Desk} {relink : PolicyDecisionSummary → PolicyDecisionSummary}
    {added : List PolicyDecisionSummary} {es : List Event} (h : Kept w)
    (hkept : ApprovalsKept w.db w'.db) (hgrows : IndexGrows w.db w'.db relink added es)
    (hgated : ∀ c ∈ w'.gated, c ∈ w.gated ∨
      (c.2.status = .flagged ∨ c.2.status = .blocked → c.1.remediates = none →
        HasApproval w'.db c.1 c.2 ∨ HasFlag w'.db c.1 c.2)) : Kept w' := by
  intro c hc hstatus horiginal
  rcases hgated c hc with hold | hnew
  · rcases h c hold hstatus horiginal with happroval | hflag
    · exact Or.inl (happroval.kept hkept)
    · exact Or.inr (hflag.grows hgrows)
  · exact hnew hstatus horiginal

/-- A gate call whose tier asks for an approval opens one. -/
theorem Gated.hasApproval {args : GateArgs} {fresh : GateFresh} {out : GateOut}
    (h : Gated db args fresh db' out) (htier : out.tier.any RiskTier.requiresApproval = true) :
    HasApproval db' args out := by
  obtain ⟨decided, ts, ps, ks, ss, e, -, -, rfl⟩ := h.rows
  refine ⟨_, List.mem_append_right _ (by rw [if_pos htier]; exact List.mem_singleton_self _), ?_,
    rfl, h.traceId_eq.symm⟩
  rw [h.approvalId_eq, if_pos htier]
  rfl

/-- A denial of a first output has a tier that asks for an approval. -/
def QueueAsks (db : Db) : DeskOp → Prop
  | .gate args _ => args.remediates = none →
      DenialAsks db args.org args.action args.output args.policyVersion
  | .precheck .. => True
  | .resolve .. => True

/-- A gate call that meets the condition leaves an approval or a flag. -/
theorem runGate_leaves {args : GateArgs} {fresh : GateFresh} {out : GateOut} (hok : IndexOk db)
    (h : runGate svc db args fresh = .ok (db', out))
    (hasks : DenialAsks db args.org args.action args.output args.policyVersion)
    (hstatus : out.status = .flagged ∨ out.status = .blocked) (horiginal : args.remediates = none) :
    HasApproval db' args out ∨ HasFlag db' args out := by
  have hgated := runGate_eq_ok h
  by_cases htier : out.tier.any RiskTier.requiresApproval = true
  · exact Or.inl (hgated.hasApproval htier)
  rcases runGate_effect hok h with hnone | ⟨policy, features, d, hfailed⟩ |
    ⟨policy, features, output, remediated, d, row, event, hconcluded⟩
  · obtain ⟨event, hout⟩ := hnone.out_eq
    rw [hout] at hstatus
    simp [unevaluatedOut] at hstatus
  · obtain ⟨event, hout⟩ := hfailed.out_eq
    have hred : out.tier = some d.tier := by rw [hout]; rfl
    rw [hred, hfailed.denied.1] at htier
    exact absurd rfl htier
  · have hdtier : out.tier = some d.tier := by rw [hconcluded.out_eq]; rfl
    have hallowed : out.allowed = d.allowed := by rw [hconcluded.out_eq]; rfl
    have hflagged : out.status = .flagged := by
      refine hstatus.resolve_right fun hblocked => htier ?_
      have hdenied : out.allowed = false := by
        rw [hconcluded.out_eq] at hblocked ⊢
        exact deriveStatus_eq_blocked.mp hblocked
      rw [hdtier]
      exact hasks.asks (runGate_verdict h hdtier) hdenied
    obtain ⟨told, htold, hrow⟩ := hconcluded.row_eq
    refine Or.inr ⟨row.stamped d.status event, ?_, ⟨?_, ?_, ?_⟩, ?_, ?_⟩
    · rw [hconcluded.summaries_eq]
      exact List.mem_append_right _ (List.mem_singleton_self _)
    · rw [hrow]
      rfl
    · rw [hrow, hgated.traceId_eq]
      rfl
    · rw [hrow, hconcluded.out_eq]
      exact congrArg some htold.1
    · rw [hconcluded.out_eq] at hflagged
      exact congrArg (fun s : Status => some s.name) hflagged
    · rw [hrow]
      exact horiginal

theorem kept_step {w w' : Desk} (hok : IndexOk w.db) (h : Kept w)
    (hstep : DeskStep svc QueueAsks w w') : Kept w' := by
  cases hstep with
  | @gate args fresh db' out hallowed hgate =>
    have happrovals : ApprovalsKept w.db db' := by
      obtain ⟨_, _, _, _, _, _, -, -, hdb⟩ := (runGate_eq_ok hgate).rows
      exact .of_append (by rw [hdb])
    have hleaves : ∀ c ∈ (args, out) :: w.gated, c ∈ w.gated ∨
        (c.2.status = .flagged ∨ c.2.status = .blocked → c.1.remediates = none →
          HasApproval db' c.1 c.2 ∨ HasFlag db' c.1 c.2) := by
      intro c hc
      rcases List.mem_cons.mp hc with rfl | hc
      · exact Or.inr fun hstatus horiginal =>
          runGate_leaves hok hgate (hallowed horiginal) hstatus horiginal
      · exact Or.inl hc
    obtain ⟨relink, added, es, hgrows⟩ := runGate_grows hok hgate
    exact h.grows happrovals hgrows hleaves
  | @precheck args fresh db' d _ hprecheck =>
    obtain ⟨_, _, _, _, _, -, hdb⟩ := (runPrecheck_eq_ok hprecheck).rows
    obtain ⟨added, es, hgrows⟩ := runPrecheck_grows hprecheck
    exact h.grows (.of_append (by rw [hdb])) hgrows fun c hc => Or.inl hc
  | @resolve args fresh window db' out _ hresolve =>
    obtain ⟨-, a, -, -, -, hdb⟩ := resolveApproval_eq_ok hresolve
    obtain ⟨e, -, hgrows⟩ := resolveApproval_grows hresolve
    refine h.grows ?_ hgrows fun c hc => Or.inl hc
    intro x hx
    refine ⟨_, by rw [hdb]; exact List.mem_map_of_mem hx, ?_⟩
    split <;> exact ⟨rfl, rfl, rfl⟩
  | configure => exact h

/-- Nothing that needs a person drops out of the queue, in every run in which each
denial of a first output has a tier that asks for an approval. -/
theorem queue_covers {w : Desk} (h : (desk svc QueueAsks).Reachable w) (orgId : String) :
    QueueCovers w orgId := by
  have hkept : Kept w := by
    refine TransitionSystem.invariant_of (P := Kept) ?_ ?_ h
    · rintro w ⟨hgated, -⟩
      rw [Kept, hgated]
      exact List.forall_mem_nil _
    · exact fun w w' hreach hw hstep => kept_step (deskOk_of_reachable hreach).index hw hstep
  exact hkept.covers orgId

end Runs

/-! ## Sample queues -/

section Samples

open Sample

theorem queue_covers_sample : ∃ w : Desk, w.gated ≠ [] ∧ QueueCovers w "acme" := by
  obtain ⟨db', out, hgate⟩ := exists_gate_sampleTransfer
  have hverdict : verdictOn (sampleWith samplePolicy) sampleOrg "transfer" sampleTransfer none =
      .ok (.red, false) := by
    decide +kernel
  have hasks : QueueAsks (sampleWith samplePolicy)
      (.gate (sampleGateArgs "transfer" sampleTransfer) sampleGateFresh) := by
    intro _ tier htier
    obtain ⟨rfl, -⟩ := Prod.mk.inj (Except.ok.inj (hverdict.symm.trans htier))
    rfl
  have hreach : (desk sampleKey QueueAsks).Reachable _ := reachable_gate_sample hasks hgate
  exact ⟨_, List.cons_ne_nil _ _, queue_covers hreach "acme"⟩

/-- A note that the policy denies below orange is blocked, and in neither list. -/
theorem denied_note_unqueued : ¬∀ w : Desk, (desk sampleKey anyDeskOp).Reachable w →
    ∀ orgId, QueueCovers w orgId := by
  intro hclaim
  have hverdict : verdictOn (sampleWith sampleDenyPolicy) sampleOrg "note" [] none =
      .ok (.yellow, false) := by
    decide +kernel
  obtain ⟨db', out, hgate⟩ := exists_gate_sample sampleKey rfl (by decide) (by decide)
    (Judges.of_verdict rfl hverdict)
  have hcovers := hclaim _ (reachable_gate_sample trivial hgate) "acme"
  rcases runGate_effect (indexOk_sampleWith _) hgate with hnone | ⟨policy, features, d, hfailed⟩ |
    ⟨policy, features, output, remediated, d, row, event, hconcluded⟩
  · cases show some sampleDenyPolicy = none from hnone.policy
  · obtain ⟨event, hout⟩ := hfailed.out_eq
    have htier : out.tier = some d.tier := by rw [hout]; rfl
    have hred : d.tier = .yellow :=
      (Prod.mk.inj (Except.ok.inj ((runGate_verdict hgate htier).symm.trans hverdict))).1
    rw [hfailed.denied.1] at hred
    cases hred
  have htier : out.tier = some d.tier := by rw [hconcluded.out_eq]; rfl
  obtain ⟨hyellow, hdenied⟩ := Prod.mk.inj (Except.ok.inj
    ((runGate_verdict hgate htier).symm.trans hverdict))
  have hblocked : d.status = .blocked := by
    rw [hconcluded.out_eq] at hdenied
    exact deriveStatus_eq_blocked.mpr hdenied
  have happrovals : db'.approvals = [] := by
    rw [hconcluded.approvals_eq, approvalsOpened, hyellow]
    rfl
  have hsummaries : db'.summaries = [row.stamped d.status event] := hconcluded.summaries_eq
  obtain ⟨told, -, hrow⟩ := hconcluded.row_eq
  have hpending : db'.pendingApprovals "acme" = [] := by
    rw [Db.pendingApprovals, happrovals]
    rfl
  have hopen : db'.openFlags "acme" = [] := by
    rw [Db.openFlags, hsummaries, hblocked]
    simp [PolicyDecisionSummary.stamped, Status.name]
  have hneeds : NeedsHuman db' (sampleGateArgs "note" []) out := by
    refine ⟨Or.inr ?_, rfl, ?_, ?_⟩
    · rw [hconcluded.out_eq]
      exact hblocked
    · intro s hs _ _ _
      rw [hsummaries] at hs
      rw [List.mem_singleton.mp hs, hrow]
      rfl
    · rw [happrovals]
      exact List.forall_mem_nil _
  have hshows := hcovers (by rw [hpending]; decide) (by rw [hopen]; decide) [] []
    ⟨[], by rw [hpending], List.Pairwise.nil, rfl⟩ ⟨[], by rw [hopen], rfl⟩ _
    (List.mem_singleton_self _) rfl hneeds
  rcases hshows with ⟨f, hf, -⟩ | ⟨a, ha, -⟩
  · cases hf
  · cases ha

end Samples

end Attest
