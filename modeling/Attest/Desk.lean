import Attest.Returning
import Attest.Workflow

/-!
# The decision index over runs

The officer's desk is the database with the calls that judge outputs and resolve
approvals, for any organisations, while policies and packs change in between.

Remediation links are truthful in every reachable state (`links_truthful`). The index
tells of every decision as long as no call fails closed (`index_complete`) : the answer
for a policy that could not be evaluated is an event without a row.
-/

set_option linter.unusedSectionVars false

namespace Attest

/-! ## Runs -/

/-- A call on decisions, with its arguments and what it is given from outside. -/
inductive DeskOp where
  | gate (args : GateArgs) (fresh : GateFresh)
  | precheck (args : PrecheckArgs) (fresh : PrecheckFresh)
  | resolve (args : ResolveArgs) (fresh : Fresh) (window : List Approval)

/-- The database, and what the gate calls and prechecks so far returned, newest first. -/
structure Desk where
  db : Db
  gated : List (GateArgs × GateOut)
  prechecked : List (PrecheckArgs × DecisionOut)

section Runs

variable [SignatureScheme] [KeyWrapping] [PyUnicode] {svc : SigningKeyPair}
  {allowed : Db → DeskOp → Prop}

/-- One call that returns, among those `allowed`, or a change of policies and packs. -/
inductive DeskStep (svc : SigningKeyPair) (allowed : Db → DeskOp → Prop) : Desk → Desk → Prop where
  | gate {w : Desk} {args : GateArgs} {fresh : GateFresh} {db' : Db} {out : GateOut} :
      allowed w.db (.gate args fresh) → runGate svc w.db args fresh = .ok (db', out) →
        DeskStep svc allowed w { w with db := db', gated := (args, out) :: w.gated }
  | precheck {w : Desk} {args : PrecheckArgs} {fresh : PrecheckFresh} {db' : Db}
      {d : DecisionOut} : allowed w.db (.precheck args fresh) →
      runPrecheck svc w.db args fresh = .ok (db', d) →
        DeskStep svc allowed w { w with db := db', prechecked := (args, d) :: w.prechecked }
  | resolve {w : Desk} {args : ResolveArgs} {fresh : Fresh} {window : List Approval} {db' : Db}
      {out : ResolveOut} : allowed w.db (.resolve args fresh window) →
      resolveApproval svc w.db args fresh window = .ok (db', out) →
        DeskStep svc allowed w { w with db := db' }
  | configure {w : Desk} {policies : List Policy} {packs : List RegulationPack}
      {orgPacks : List OrgRegulationPack} : DeskStep svc allowed w { w with
        db := { w.db with policies := policies, packs := packs, orgPacks := orgPacks } }

/-- The desk from a database on in which nothing was decided yet. -/
def desk (svc : SigningKeyPair) (allowed : Db → DeskOp → Prop) : TransitionSystem Desk where
  init w := w.gated = [] ∧ w.prechecked = [] ∧ w.db.events = [] ∧ w.db.summaries = [] ∧
    w.db.approvals = []
  step := DeskStep svc allowed

/-- Any call on decisions. -/
def anyDeskOp (_ : Db) (_ : DeskOp) : Prop := True

/-! ## Resolutions -/

variable {db db' : Db}

theorem resolveApproval_grows {args : ResolveArgs} {fresh : Fresh} {window : List Approval}
    {out : ResolveOut} (h : resolveApproval svc db args fresh window = .ok (db', out)) :
    ∃ e, e.type = "approval_action" ∧ IndexGrows db db' id [] [e] := by
  simp only [resolveApproval, Except.bind_eq_ok, require_eq_ok, decide_eq_true_eq] at h
  obtain ⟨_, -, h⟩ := h
  cases hget : db.getApproval args.orgId args.approvalId with
  | none => simp [hget] at h
  | some a =>
    by_cases hpending : a.status = "pending"
    · simp only [hget, hpending, if_true, Except.bind_eq_ok, Except.pure_eq, Except.ok.injEq,
        Prod.mk.injEq] at h
      obtain ⟨db₁, hupdate, ⟨db₂, event⟩, hrecord, gate, -, rfl, -⟩ := h
      obtain ⟨_, -, hdb⟩ := Except.bind_eq_ok.mp hupdate
      obtain rfl := Except.ok.inj hdb
      obtain ⟨e, ts, ps, ks, hrecords, -, -, rfl⟩ := recordEvent_eq_ok hrecord
      exact ⟨e, hrecords.type_eq, .of_summaries_eq rfl rfl⟩
    · simp [hget, hpending] at h

/-! ## Remediation links -/

/-- The decision of row `s` was cured by the one numbered `k`. -/
structure CuredBy (db : Db) (s : PolicyDecisionSummary) (k : Int) : Prop where
  status : s.status = some Status.flagged.name ∨ s.status = some Status.blocked.name
  cure : ∃ c ∈ db.summaries, (c.orgId = s.orgId ∧ c.traceId = s.traceId) ∧ c.seq = k ∧ s.seq < k ∧
    c.status = some Status.compliant.name ∧ c.remediationOf = some s.seq

/-- Every link of the index leads to the decision that cured its row. -/
def LinksTruthful (db : Db) : Prop :=
  ∀ s ∈ db.summaries, ∀ k, s.remediatedBySeq = some k → CuredBy db s k

theorem CuredBy.grows {relink : PolicyDecisionSummary → PolicyDecisionSummary}
    {added : List PolicyDecisionSummary} {es : List Event} {s : PolicyDecisionSummary} {k : Int}
    (hgrows : IndexGrows db db' relink added es) (h : CuredBy db s k) :
    CuredBy db' (relink s) k := by
  obtain ⟨hstatus, c, hc, hkey, hseq, hlt, hcompliant, hof⟩ := h
  have hs := hgrows.same s
  have hrelinked := hgrows.same c
  refine ⟨?_, relink c, ?_, ?_, ?_, ?_, ?_, ?_⟩
  · rw [hs]
    exact hstatus
  · rw [hgrows.summaries_eq]
    exact List.mem_append_left _ (List.mem_map_of_mem hc)
  · rw [hrelinked, hs]
    exact hkey
  · rw [hrelinked]
    exact hseq
  · rw [hs]
    exact hlt
  · rw [hrelinked]
    exact hcompliant
  · rw [hrelinked, hs]
    exact hof

/-- Links stay truthful where a call adds no linked row, and links no row but to its
cure. -/
theorem LinksTruthful.grows {relink : PolicyDecisionSummary → PolicyDecisionSummary}
    {added : List PolicyDecisionSummary} {es : List Event} (h : LinksTruthful db)
    (hgrows : IndexGrows db db' relink added es)
    (hadded : ∀ row ∈ added, row.remediatedBySeq = none)
    (hrelinked : ∀ s ∈ db.summaries, (relink s).remediatedBySeq = s.remediatedBySeq ∨
      ∀ k, (relink s).remediatedBySeq = some k → CuredBy db' (relink s) k) :
    LinksTruthful db' := by
  intro s hs k hk
  rw [hgrows.summaries_eq] at hs
  rcases List.mem_append.mp hs with hs | hs
  · obtain ⟨s, hmem, rfl⟩ := List.mem_map.mp hs
    rcases hrelinked s hmem with hsame | hcured
    · exact (h s hmem k (hsame.symm.trans hk)).grows hgrows
    · exact hcured k hk
  · rw [hadded s hs] at hk
    cases hk

/-- A compliant decision links the row it cured, and no other. -/
theorem GateConcluded.linksTruthful {args : GateArgs} {fresh : GateFresh} {out : GateOut}
    {policy : Policy} {features : FeatureVector} {output : PolicyOutput}
    {remediated : Option PolicyDecisionSummary} {d : DecisionOut} {row : PolicyDecisionSummary}
    {event : EventOut} (hok : IndexOk db) (hlinks : LinksTruthful db)
    (h : GateConcluded db args fresh db' out policy features output remediated d row event) :
    LinksTruthful db' := by
  obtain ⟨e, e', hevents, hgrows⟩ := h.grows
  obtain ⟨told, htold, hrow⟩ := h.row_eq
  refine hlinks.grows hgrows ?_ ?_
  · intro x hx
    obtain rfl := List.mem_singleton.mp hx
    rw [hrow]
    rfl
  · intro s hs
    rcases h.cures with ⟨-, rfl⟩ | ⟨r, rfl, hcurable⟩
    · exact Or.inl rfl
    · by_cases hcured : d.status = .compliant ∧ s.id = r.id
      · right
        intro k hk
        obtain rfl : s = r := List.inj_on_of_nodup_map hok.ids hs hcurable.mem hcured.2
        have hclosed : s.closedBy (some s) d = { s with remediatedBySeq := some d.seq } :=
          if_pos hcured
        rw [hclosed] at hk ⊢
        obtain rfl : d.seq = k := Option.some.inj hk
        have hlt := hok.lt_next hs
        rw [hcurable.orgId_eq, hcurable.traceId_eq] at hlt
        refine ⟨hcurable.status, row.stamped d.status event, ?_, ⟨?_, ?_⟩, ?_, ?_, ?_, ?_⟩
        · rw [hgrows.summaries_eq]
          exact List.mem_append_right _ (List.mem_singleton_self _)
        · rw [hrow]
          exact hcurable.orgId_eq.symm
        · rw [hrow]
          exact hcurable.traceId_eq.symm
        · rw [hrow, ← htold.1]
          rfl
        · rw [hevents.next]
          exact hlt
        · rw [hcured.1]
          rfl
        · rw [hrow, ← hcurable.seq_eq]
          rfl
      · left
        simp only [PolicyDecisionSummary.closedBy, if_neg hcured]

/-- A step keeps the index in order and the links truthful. -/
structure DeskOk (db : Db) : Prop where
  index : IndexOk db
  links : LinksTruthful db

theorem DeskOk.grows_same {es : List Event} (h : DeskOk db) (hgrows : IndexGrows db db' id [] es) :
    DeskOk db' :=
  ⟨hgrows.indexOk h.index, h.links.grows hgrows (List.forall_mem_nil _) fun _ _ => Or.inl rfl⟩

theorem DeskOk.gate {args : GateArgs} {fresh : GateFresh} {out : GateOut} (h : DeskOk db)
    (hgate : runGate svc db args fresh = .ok (db', out)) : DeskOk db' := by
  rcases runGate_effect h.index hgate with hnone | ⟨policy, features, d, hfailed⟩ |
    ⟨policy, features, output, remediated, d, row, event, hconcluded⟩
  · obtain ⟨e, ts, ps, ks, -, rfl⟩ := hnone.rows
    exact h.grows_same (.of_summaries_eq rfl rfl)
  · obtain ⟨_, e, e', hevents⟩ := hfailed.events
    exact h.grows_same (.of_summaries_eq hevents.events_eq hfailed.summaries_eq)
  · obtain ⟨e, e', -, hgrows⟩ := hconcluded.grows
    exact ⟨hgrows.indexOk h.index, hconcluded.linksTruthful h.index h.links⟩

theorem DeskOk.precheck {args : PrecheckArgs} {fresh : PrecheckFresh} {d : DecisionOut}
    (h : DeskOk db) (hprecheck : runPrecheck svc db args fresh = .ok (db', d)) : DeskOk db' := by
  obtain ⟨policy, features, -, -, hend⟩ := runPrecheck_cases hprecheck
  rcases hend with hfailed | ⟨output, -, hconcluded⟩
  · obtain ⟨es, hgrows⟩ := hfailed.grows
    exact h.grows_same hgrows
  · obtain ⟨told, e, -, -, hgrows⟩ := hconcluded.grows
    refine ⟨hgrows.indexOk h.index, h.links.grows hgrows ?_ fun _ _ => Or.inl rfl⟩
    intro row hrow
    obtain rfl := List.mem_singleton.mp hrow
    rfl

theorem deskOk_step {w w' : Desk} (h : DeskOk w.db) (hstep : DeskStep svc allowed w w') :
    DeskOk w'.db := by
  cases hstep with
  | gate _ hgate => exact h.gate hgate
  | precheck _ hprecheck => exact h.precheck hprecheck
  | resolve _ hresolve =>
    obtain ⟨e, -, hgrows⟩ := resolveApproval_grows hresolve
    exact h.grows_same hgrows
  | configure => exact ⟨⟨h.index.ids, h.index.keys, h.index.told⟩,
      fun s hs k hk => ⟨(h.links s hs k hk).status, (h.links s hs k hk).cure⟩⟩

theorem deskOk_of_reachable {w : Desk} (h : (desk svc allowed).Reachable w) : DeskOk w.db := by
  refine TransitionSystem.invariant (P := fun w : Desk => DeskOk w.db) ?_ (fun _ _ => deskOk_step) h
  rintro w ⟨-, -, -, hsummaries, -⟩
  refine ⟨⟨?_, ?_, ?_⟩, ?_⟩
  · rw [hsummaries]
    exact List.nodup_nil
  · rw [hsummaries]
    exact List.nodup_nil
  · rw [hsummaries]
    exact List.forall_mem_nil _
  · intro s hs
    rw [hsummaries] at hs
    cases hs

/-- The links of `db` are those of `db'`, and rows that were added have none. -/
def SameLinks (db db' : Db) : Prop :=
  ∃ added : List PolicyDecisionSummary, (∀ s ∈ added, s.remediatedBySeq = none) ∧
    db'.summaries.map (fun s => (s.id, s.remediatedBySeq)) =
      (db.summaries ++ added).map fun s => (s.id, s.remediatedBySeq)

theorem SameLinks.of_summaries_eq (h : db'.summaries = db.summaries) : SameLinks db db' :=
  ⟨[], List.forall_mem_nil _, by rw [h, List.append_nil]⟩

/-- A gate call that is not compliant links nothing. -/
theorem runGate_sameLinks {args : GateArgs} {fresh : GateFresh} {out : GateOut}
    (hok : IndexOk db) (h : runGate svc db args fresh = .ok (db', out))
    (hstatus : out.status ≠ .compliant) : SameLinks db db' := by
  rcases runGate_effect hok h with hnone | ⟨policy, features, d, hfailed⟩ |
    ⟨policy, features, output, remediated, d, row, event, hconcluded⟩
  · obtain ⟨e, ts, ps, ks, -, rfl⟩ := hnone.rows
    exact .of_summaries_eq rfl
  · exact .of_summaries_eq hfailed.summaries_eq
  · obtain ⟨told, -, hrow⟩ := hconcluded.row_eq
    have hd : d.status ≠ .compliant := by
      rw [hconcluded.out_eq] at hstatus
      exact hstatus
    refine ⟨[row.stamped d.status event], ?_, ?_⟩
    · intro s hs
      obtain rfl := List.mem_singleton.mp hs
      rw [hrow]
      rfl
    · rw [hconcluded.summaries_eq, List.map_append, List.map_append, List.map_map]
      congr 1
      refine List.map_congr_left fun s _ => ?_
      cases remediated with
      | none => rfl
      | some r => simp [PolicyDecisionSummary.closedBy, hd]

/-- Remediation links are truthful. In every reachable state a row that is linked to
`k` was flagged or blocked, and a later compliant decision of its trace, numbered `k`,
says that it cures it. A gate call that is not compliant changes no link. -/
theorem links_truthful {w : Desk} (h : (desk svc allowed).Reachable w) :
    LinksTruthful w.db ∧ ∀ args fresh db' out, runGate svc w.db args fresh = .ok (db', out) →
      out.status ≠ .compliant → SameLinks w.db db' := by
  have hok := deskOk_of_reachable h
  exact ⟨hok.links, fun args fresh db' out hgate => runGate_sameLinks hok.index hgate⟩

/-! ## Completeness of the index -/

/-- The policy selected for a payload cannot be evaluated, and the organisation asks for a
denial then. -/
def RefusesClosed (db : Db) (org : Org) (action : String) (payload : Dict)
    (policyVersion : Option String) : Prop :=
  org.failMode = "deny_on_error" ∧ ∃ policy features detail,
    selectPolicy db org.id policyVersion = some policy ∧
    extractFeatures action payload = .ok features ∧
    evaluatePolicyInput (policyInput org action payload policy.version features) policy.rules =
      .error (.policyEngine detail)

/-- The call does not fail closed, and records no output under the type of decisions. -/
def Indexable (db : Db) : DeskOp → Prop
  | .gate args _ => args.action ≠ "policy_decision" ∧
      ¬RefusesClosed db args.org args.action args.output args.policyVersion
  | .precheck args _ =>
      ¬RefusesClosed db args.org args.action args.payload args.policyVersion
  | .resolve .. => True

/-- The row tells of the decision that the event sealed. -/
structure PolicyDecisionSummary.TellsOf (s : PolicyDecisionSummary) (e : Event) : Prop where
  hash_eq : s.eventHash = e.hash
  payload : ∃ payload : Dict, e.payloadHash = sha256Hex (redactPayload payload).1 ∧
    payload.get "tier" = .str s.tier ∧ payload.get "allowed" = .bool s.allowed

/-- The event of a decision has exactly one row, which tells of it. -/
def Indexed (db : Db) (e : Event) : Prop :=
  ∃ s, db.summariesOf e.orgId e.traceId e.seq = [s] ∧ s.TellsOf e

/-- The decision of a gate call has exactly one row, which says what the caller was told. -/
def Answered (db : Db) (args : GateArgs) (out : GateOut) : Prop :=
  ∀ seq, out.decisionSeq = some seq → ∃ s, db.summariesOf args.org.id out.traceId seq = [s] ∧
    some s.tier = out.tier.map RiskTier.name ∧ s.allowed = out.allowed ∧
    s.status = some out.status.name ∧ s.outputSeq = some out.outputSeq ∧
      s.outputHash = some out.outputHash

/-- The index tells of every decision, as it was sealed and as it was told. -/
structure IndexComplete (w : Desk) : Prop where
  indexed : ∀ e ∈ w.db.events, e.type = "policy_decision" → Indexed w.db e
  answered : ∀ c ∈ w.gated, Answered w.db c.1 c.2

theorem mem_of_summariesOf {orgId : String} {traceId : Uuid} {seq : Int}
    {s : PolicyDecisionSummary} (h : db.summariesOf orgId traceId seq = [s]) :
    s ∈ db.summaries ∧ s.orgId = orgId ∧ s.traceId = traceId ∧ s.seq = seq := by
  have hs : s ∈ db.summariesOf orgId traceId seq := by rw [h]; exact List.mem_singleton_self s
  simpa [Db.summariesOf] using hs

theorem summariesOf_relinked {relink : PolicyDecisionSummary → PolicyDecisionSummary}
    {added : List PolicyDecisionSummary} {es : List Event}
    (hgrows : IndexGrows db db' relink added es) (hok : IndexOk db) {orgId : String}
    {traceId : Uuid} {seq : Int} {s : PolicyDecisionSummary}
    (h : db.summariesOf orgId traceId seq = [s]) :
    db'.summariesOf orgId traceId seq = [relink s] := by
  obtain ⟨hs, rfl, rfl, rfl⟩ := mem_of_summariesOf h
  rw [hgrows.summariesOf_eq hok hs, h, List.map_singleton]

/-- What the index told of before, it tells of still. -/
theorem Indexed.grows {relink : PolicyDecisionSummary → PolicyDecisionSummary}
    {added : List PolicyDecisionSummary} {es : List Event}
    (hgrows : IndexGrows db db' relink added es) (hok : IndexOk db) {e : Event}
    (h : Indexed db e) : Indexed db' e := by
  obtain ⟨s, hs, htells⟩ := h
  refine ⟨relink s, summariesOf_relinked hgrows hok hs, ?_, ?_⟩
  · rw [hgrows.same s]
    exact htells.hash_eq
  · rw [hgrows.same s]
    exact htells.payload

theorem Answered.grows {relink : PolicyDecisionSummary → PolicyDecisionSummary}
    {added : List PolicyDecisionSummary} {es : List Event}
    (hgrows : IndexGrows db db' relink added es) (hok : IndexOk db) {args : GateArgs}
    {out : GateOut} (h : Answered db args out) : Answered db' args out := by
  intro seq hseq
  obtain ⟨s, hs, htold⟩ := h seq hseq
  refine ⟨relink s, summariesOf_relinked hgrows hok hs, ?_⟩
  rw [hgrows.same s]
  exact htold

/-- A call that adds no event of a decision leaves the index complete. -/
theorem IndexComplete.grows {w w' : Desk} {relink : PolicyDecisionSummary → PolicyDecisionSummary}
    {added : List PolicyDecisionSummary} {es : List Event} (h : IndexComplete w)
    (hgrows : IndexGrows w.db w'.db relink added es) (hok : IndexOk w.db)
    (hes : ∀ e ∈ es, e.type = "policy_decision" → Indexed w'.db e)
    (hgated : ∀ c ∈ w'.gated, c ∈ w.gated ∨ Answered w'.db c.1 c.2) : IndexComplete w' := by
  refine ⟨?_, ?_⟩
  · intro e he htype
    rw [hgrows.events_eq] at he
    rcases List.mem_append.mp he with he | he
    · exact (h.indexed e he htype).grows hgrows hok
    · exact hes e he htype
  · intro c hc
    rcases hgated c hc with hc | hanswered
    · exact (h.answered c hc).grows hgrows hok
    · exact hanswered

/-- The decision a precheck concluded has its row. -/
theorem Concluded.indexed {args : PrecheckArgs} {policy : Policy} {features : FeatureVector}
    {output : PolicyOutput} {fresh : PrecheckFresh} {d : DecisionOut} (hok : IndexOk db)
    (h : Concluded db args policy features output fresh db' d) :
    ∃ e row, IndexGrows db db' id [row] [e] ∧ Indexed db' e := by
  obtain ⟨told, e, htold, hadds, hgrows⟩ := h.grows
  have horg : e.orgId = args.org.id := hadds.records.orgId_eq
  have htrace : e.traceId = args.traceId := hadds.records.traceId_eq
  have hseq : e.seq = told.seq := hadds.seq_eq.symm.trans htold.1.symm
  have hkey : db'.summariesOf e.orgId e.traceId e.seq = [decisionSummary args policy.version output
      d.findings d.remediationPlan told fresh.summaryId] := by
    rw [horg, htrace, hseq]
    exact hgrows.summariesOf_new hok rfl
  exact ⟨e, _, hgrows, _, hkey, htold.2.trans hadds.hash_eq, _, hadds.records.payloadHash_eq, rfl,
    rfl⟩

/-- So has the decision of a gate call, which says what the caller was told. -/
theorem GateConcluded.indexed {args : GateArgs} {fresh : GateFresh} {out : GateOut}
    {policy : Policy} {features : FeatureVector} {output : PolicyOutput}
    {remediated : Option PolicyDecisionSummary} {d : DecisionOut} {row : PolicyDecisionSummary}
    {event : EventOut} (hok : IndexOk db)
    (h : GateConcluded db args fresh db' out policy features output remediated d row event) :
    ∃ e e' relink added, IndexGrows db db' relink added [e, e'] ∧ Indexed db' e ∧
      e'.type = args.action ∧ Answered db' args out := by
  obtain ⟨e, e', hevents, hgrows⟩ := h.grows
  obtain ⟨told, htold, hrow⟩ := h.row_eq
  have hnew := hgrows.summariesOf_new hok rfl
  have hseq : told.seq = e.seq := htold.1.trans hevents.decided.1
  have htells : (row.stamped d.status event).TellsOf e := by
    rw [hrow]
    exact ⟨htold.2.trans hevents.decided.2, _, hevents.decision.payloadHash_eq, rfl, rfl⟩
  refine ⟨e, e', _, _, hgrows, ⟨row.stamped d.status event, ?_, htells⟩, hevents.output.1, ?_⟩
  · have horg : e.orgId = row.orgId := by rw [hrow]; exact hevents.decision.orgId_eq
    have htrace : e.traceId = row.traceId := by rw [hrow]; exact hevents.decision.traceId_eq
    have hseq' : e.seq = row.seq := by rw [hrow]; exact hseq.symm
    rw [horg, htrace, hseq']
    exact hnew
  · intro seq hdecision
    rw [h.out_eq] at hdecision ⊢
    obtain rfl : d.seq = seq := Option.some.inj hdecision
    refine ⟨row.stamped d.status event, ?_, ?_, ?_, rfl, rfl, rfl⟩
    · have horg : row.orgId = args.org.id := by rw [hrow]; rfl
      have htrace : (judgedOut args d d.status event).traceId = row.traceId := by
        rw [hrow]
        exact h.answer.traceId_eq
      have hseq' : row.seq = d.seq := by rw [hrow]; exact htold.1
      rw [← horg, htrace, ← hseq']
      exact hnew
    · rw [hrow]
      exact congrArg (fun t : RiskTier => some t.name) h.answer.tier_eq.symm
    · rw [hrow]
      exact h.answer.allowed_eq.symm

theorem FailsClosed.refusesClosed {args : PrecheckArgs} {policy : Policy}
    {features : FeatureVector} {detail : String} (h : FailsClosed args policy features detail)
    (hpolicy : selectPolicy db args.org.id args.policyVersion = some policy)
    (hfeatures : extractFeatures args.action args.payload = .ok features) :
    RefusesClosed db args.org args.action args.payload args.policyVersion :=
  ⟨h.mode, policy, features, detail, hpolicy, hfeatures, h.refused⟩

theorem indexComplete_step {w w' : Desk} (hok : DeskOk w.db) (h : IndexComplete w)
    (hstep : DeskStep svc Indexable w w') : IndexComplete w' := by
  cases hstep with
  | @gate args fresh db' out hallowed hgate =>
    rcases runGate_effect hok.index hgate with hnone | ⟨policy, features, d, hfailed⟩ |
      ⟨policy, features, output, remediated, d, row, event, hconcluded⟩
    · obtain ⟨e, ts, ps, ks, ⟨htype, -⟩, hdb⟩ := hnone.rows
      obtain ⟨event, hout⟩ := hnone.out_eq
      have hgrows : IndexGrows w.db db' id [] [e] := .of_summaries_eq (by rw [hdb]) (by rw [hdb])
      refine h.grows hgrows hok.index ?_ ?_
      · intro x hx hdecision
        obtain rfl := List.mem_singleton.mp hx
        exact absurd (htype.symm.trans hdecision) hallowed.1
      · intro c hc
        rcases List.mem_cons.mp hc with rfl | hc
        · right
          intro seq hseq
          rw [hout] at hseq
          cases hseq
        · exact Or.inl hc
    · obtain ⟨detail, hfails⟩ := hfailed.fails
      exact absurd (hfails.refusesClosed hfailed.policy_eq hfailed.features_eq) hallowed.2
    · obtain ⟨e, e', relink, added, hgrows, hindexed, htype, hanswered⟩ :=
        hconcluded.indexed hok.index
      refine h.grows hgrows hok.index ?_ ?_
      · intro x hx hdecision
        rcases List.mem_cons.mp hx with rfl | hx
        · exact hindexed
        · obtain rfl := List.mem_singleton.mp hx
          exact absurd (htype.symm.trans hdecision) hallowed.1
      · intro c hc
        rcases List.mem_cons.mp hc with rfl | hc
        · exact Or.inr hanswered
        · exact Or.inl hc
  | @precheck args fresh db' d hallowed hprecheck =>
    obtain ⟨policy, features, hpolicy, hfeatures, hend⟩ := runPrecheck_cases hprecheck
    rcases hend with hfailed | ⟨output, -, hconcluded⟩
    · obtain ⟨detail, _, _, hfails, -⟩ := hfailed.out_eq
      exact absurd (hfails.refusesClosed hpolicy hfeatures) hallowed
    · obtain ⟨e, row, hgrows, hindexed⟩ := hconcluded.indexed hok.index
      refine h.grows hgrows hok.index ?_ fun c hc => Or.inl hc
      intro x hx _
      obtain rfl := List.mem_singleton.mp hx
      exact hindexed
  | resolve _ hresolve =>
    obtain ⟨e, htype, hgrows⟩ := resolveApproval_grows hresolve
    refine h.grows hgrows hok.index ?_ fun c hc => Or.inl hc
    intro x hx hdecision
    obtain rfl := List.mem_singleton.mp hx
    rw [htype] at hdecision
    simp at hdecision
  | configure => exact ⟨h.indexed, h.answered⟩

/-- The decision index is complete. In every run in which no call fails closed, and
none records an output under the type of decisions, every decision has exactly one row,
with the hash, the tier and the verdict it was sealed with, and the row of a gate call
says what its caller was told. -/
theorem index_complete {w : Desk} (h : (desk svc Indexable).Reachable w) : IndexComplete w := by
  refine TransitionSystem.invariant_of (P := IndexComplete) ?_ ?_ h
  · rintro w ⟨hgated, -, hevents, -⟩
    refine ⟨?_, ?_⟩
    · rw [hevents]
      exact List.forall_mem_nil _
    · rw [hgated]
      exact List.forall_mem_nil _
  · exact fun w w' hreach hw hstep => indexComplete_step (deskOk_of_reachable hreach) hw hstep

end Runs

/-! ## Sample runs -/

/-- An output on which there is a verdict can be judged. -/
theorem Judges.of_verdict [KeyUnwrapping] [SignatureScheme] [PyUnicode] {db : Db}
    {args : PrecheckArgs} {policy : Policy} {verdict : RiskTier × Bool}
    (hpolicy : selectPolicy db args.org.id args.policyVersion = some policy)
    (h : verdictOn db args.org args.action args.payload args.policyVersion = .ok verdict) :
    Judges db args policy [] := by
  simp only [verdictOn, hpolicy, Except.bind_eq_ok] at h
  obtain ⟨features, hfeatures, h⟩ := h
  have hconcludes {output : PolicyOutput} (houtput : Concludes args policy features output)
      (h : concludedVerdict db args.org args.action args.payload features output = .ok verdict) :
      Judges db args policy [] := by
    simp only [concludedVerdict, Except.bind_eq_ok] at h
    obtain ⟨findings, hfindings, -⟩ := h
    obtain ⟨plan, hplan⟩ := remediate_nil db args policy output features findings
    exact .concludes hfeatures houtput hfindings hplan
  split at h <;> rename_i heval
  · split at h <;> rename_i hmode
    · exact .failsClosed hfeatures ⟨heval, hmode⟩
    · exact hconcludes (.refused heval hmode) h
  · cases h
  · exact hconcludes (.evaluated heval) h

/-- A policy whose rules are no list : evaluating it is refused. -/
def sampleBrokenPolicy : Policy :=
  { samplePolicy with rules := [("rules", .str "none")] }

section Samples

open Sample

/-- One gate call on a desk with a policy. -/
theorem reachable_gate_sample {allowed : Db → DeskOp → Prop} {policy : Policy} {action : String}
    {payload : Dict} {db' : Db} {out : GateOut}
    (hallowed : allowed (sampleWith policy) (.gate (sampleGateArgs action payload) sampleGateFresh))
    (h : runGate sampleKey (sampleWith policy) (sampleGateArgs action payload) sampleGateFresh =
      .ok (db', out)) : (desk sampleKey allowed).Reachable
        ⟨db', [(sampleGateArgs action payload, out)], []⟩ :=
  ⟨⟨sampleWith policy, [], []⟩, ⟨rfl, rfl, rfl, rfl, rfl⟩, .single (.gate hallowed h)⟩

theorem judges_sampleTransfer : Judges (sampleWith samplePolicy)
    (gatePrecheck (sampleWith samplePolicy) (sampleGateArgs "transfer" sampleTransfer)
      sampleGateFresh) samplePolicy [] := by
  obtain ⟨plan, hplan⟩ := remediate_nil (sampleWith samplePolicy)
    (gatePrecheck (sampleWith samplePolicy) (sampleGateArgs "transfer" sampleTransfer)
      sampleGateFresh) samplePolicy _ sampleTransferFeatures []
  exact .concludes extractFeatures_sampleTransfer (.evaluated (evaluateOver_sampleTransfer _)) rfl
    hplan

theorem exists_gate_sampleTransfer : ∃ db' out, runGate sampleKey (sampleWith samplePolicy)
    (sampleGateArgs "transfer" sampleTransfer) sampleGateFresh = .ok (db', out) :=
  exists_gate_sample sampleKey rfl (by decide) (by decide) judges_sampleTransfer

/-- The transfer that is refused, on the trace it opens. -/
def sampleRefusedArgs : GateArgs :=
  { sampleGateArgs "transfer" sampleTransfer with traceId := some (Uuid.ofNat 1) }

/-- A note on the same trace, with the decision it says it cures. -/
def sampleCureArgs (seq : Int) : GateArgs :=
  { sampleGateArgs "note" sampleCited with
    traceId := some (Uuid.ofNat 1)
    remediates := some seq }

def sampleCureFresh : GateFresh where
  traceId := Uuid.ofNat 21
  precheck := {
    event := sampleFreshOf 22
    summaryId := Uuid.ofNat 23
    approval := ⟨Uuid.ofNat 24, 1⟩
    drafts := [] }
  output := sampleFreshOf 25

/-- What the refused transfer leaves. -/
structure SampleRefused (db : Db) (out : GateOut) (row : PolicyDecisionSummary) : Prop where
  call : runGate sampleKey (sampleWith samplePolicy) sampleRefusedArgs sampleGateFresh =
    .ok (db, out)
  stocked : db.Stocked
  index : IndexOk db
  grows : GrowsFor "acme" (sampleWith samplePolicy) db
  told : out.tier = some .red ∧ out.allowed = false
  rows : db.summaries = [row]
  row_key : row.orgId = "acme" ∧ row.traceId = Uuid.ofNat 1 ∧ row.id = Uuid.ofNat 3
  status : row.status = some Status.blocked.name
  events : ∀ x ∈ db.events, x.id = Uuid.ofNat 2 ∨ x.id = Uuid.ofNat 5
  approvals : ∀ a ∈ db.approvals, a.id = Uuid.ofNat 4 ∧ a.createdAt = 0

theorem exists_refused_sample : ∃ db out row, SampleRefused db out row := by
  have hstocked := stocked_sampleWith samplePolicy
  have hindex := indexOk_sampleWith samplePolicy
  have hpolicy : selectPolicy (sampleWith samplePolicy) "acme" none = some samplePolicy := rfl
  have hverdict : verdictOn (sampleWith samplePolicy) sampleOrg "transfer" sampleTransfer none =
      .ok (.red, false) := by decide +kernel
  have hjudges : Judges (sampleWith samplePolicy)
      (gatePrecheck (sampleWith samplePolicy) sampleRefusedArgs sampleGateFresh) samplePolicy [] :=
    .of_verdict hpolicy hverdict
  obtain ⟨payload, hdecides⟩ := judges_iff_decides.mp hjudges
  have hfits : GateFits (sampleWith samplePolicy) sampleRefusedArgs sampleGateFresh :=
    fits_sampleWith rfl rfl rfl ⟨show PyText.isBlank "transfer" = false by decide,
      show textOk "transfer" = true by decide⟩
  obtain ⟨db, out, hgate, hleft⟩ := hfits.toGateStands.runGate_returns hstocked hindex sampleKey
    hpolicy (by decide) hdecides (Or.inr hfits.wraps) (Or.inr hfits.wraps)
  obtain ⟨hgrows, -⟩ := runGate_takes hstocked.traces hgate
  obtain ⟨relink, added, es, hindexed⟩ := runGate_grows hindex hgate
  obtain ⟨decided, ts, ps, ks, ss, e, ⟨-, -, -, hid, -⟩, hdecided, hrows⟩ :=
    (runGate_eq_ok hgate).rows
  have hevents : ∀ x ∈ db.events, x.id = Uuid.ofNat 2 ∨ x.id = Uuid.ofNat 5 := by
    intro x hx
    rw [hrows] at hx
    rcases List.mem_append.mp hx with hx | hx
    · exact Or.inl (hdecided x hx).2.2.2
    · exact Or.inr (List.mem_singleton.mp hx ▸ hid)
  have happrovals : ∀ a ∈ db.approvals, a.id = Uuid.ofNat 4 ∧ a.createdAt = 0 := by
    intro a ha
    rw [hrows] at ha
    rcases List.mem_append.mp ha with ha | ha
    · cases ha
    split at ha
    · rw [List.mem_singleton.mp ha]
      exact ⟨rfl, rfl⟩
    · cases ha
  rcases runGate_effect hindex hgate with hnone | ⟨policy, features, d, hfailed⟩ |
    ⟨policy, features, output, remediated, d, row, event, hconcluded⟩
  · cases hnone.policy.symm.trans hpolicy
  · obtain rfl := Option.some.inj (hfailed.policy_eq.symm.trans hpolicy)
    obtain rfl := Except.ok.inj (hfailed.features_eq.symm.trans extractFeatures_sampleTransfer)
    obtain ⟨detail, hfails⟩ := hfailed.fails
    cases (evaluateOver_sampleTransfer _).symm.trans hfails.refused
  · have htier : out.tier = some d.tier := by rw [hconcluded.out_eq]; rfl
    have htold := Prod.mk.inj (Except.ok.inj (hverdict.symm.trans (runGate_verdict hgate htier)))
    have hblocked : d.status = .blocked := by
      have hallowed : d.allowed = false := by
        rw [htold.2, hconcluded.out_eq]
        rfl
      rw [DecisionOut.status, deriveStatus, hallowed]
      rfl
    obtain ⟨told, -, hrow⟩ := hconcluded.row_eq
    exact ⟨db, out, row.stamped d.status event, hgate, hleft, hindexed.indexOk hindex, hgrows,
      ⟨htier.trans (congrArg some htold.1.symm), htold.2.symm⟩, hconcluded.summaries_eq,
      hrow ▸ ⟨rfl, rfl, rfl⟩, hblocked ▸ rfl, hevents, happrovals⟩

/-- The note is taken on what the transfer left, and compliant. -/
theorem SampleRefused.cured {db : Db} {out : GateOut} {row : PolicyDecisionSummary}
    (h : SampleRefused db out row) : ∃ db' out', runGate sampleKey db (sampleCureArgs row.seq)
      sampleCureFresh = .ok (db', out') ∧ out'.tier = some .green ∧ out'.allowed = true ∧
        ∃ k, db'.summaries.head? = some { row with remediatedBySeq := some k } := by
  have hpolicy : selectPolicy (sampleWith samplePolicy) "acme" none = some samplePolicy := rfl
  have hselect : selectPolicy db "acme" none = some samplePolicy := by
    rw [selectPolicy_congr h.grows.policies]
    exact hpolicy
  have hverdict : verdictOn (sampleWith samplePolicy) sampleOrg "note" sampleCited none =
      .ok (.green, true) := by decide +kernel
  have hjudges : Judges (sampleWith samplePolicy)
      (gatePrecheck db (sampleCureArgs row.seq) sampleCureFresh) samplePolicy [] :=
    .of_verdict hpolicy hverdict
  obtain ⟨payload, hdecides⟩ := judges_iff_decides.mp hjudges
  have hdecides' : Decides db (gatePrecheck db (sampleCureArgs row.seq) sampleCureFresh)
      samplePolicy [] payload := hdecides.elsewhere h.grows.packs h.grows.orgPacks rfl
  have hwraps : ∀ pem, db.wrapsTo "acme" = some pem → KeyWrapping.publicKind pem = .usable := by
    intro pem hpem
    rw [h.grows.wrapsTo] at hpem
    cases hpem
  have hfound : db.summariesOf "acme" (Uuid.ofNat 1) row.seq = [row] := by
    simp [Db.summariesOf, h.rows, h.row_key]
  have hcured : remediatedSummary db (sampleCureArgs row.seq) = .ok (some row) := by
    have hstatus : row.status = some Status.flagged.name ∨ row.status = some Status.blocked.name :=
      Or.inr h.status
    have hvalid : validateRemediates db "acme" (some (Uuid.ofNat 1)) row.seq = .ok row := by
      simp only [validateRemediates, hfound, oneOrNone, Except.ok_bind', if_pos hstatus]
      rfl
    exact congrArg (Except.map some) hvalid
  have hstands : GateStands db (sampleCureArgs row.seq) sampleCureFresh := {
    org := by
      rw [Db.hasOrg, h.grows.orgs]
      rfl
    trace := h.grows.owns_iff.mpr (List.forall_mem_nil _)
    named := show PyText.isBlank "note" = false by decide
    texts := ⟨show textOk "note" = true by decide, rfl⟩
    remediated := ⟨_, hcured⟩
    event := by
      intro x hx
      rcases h.events x hx with hid | hid <;> rw [hid] <;> decide
    output := by
      intro x hx
      rcases h.events x hx with hid | hid <;> rw [hid] <;> decide
    distinct := by decide
    summary := by
      intro s hs
      rw [h.rows] at hs
      rw [List.mem_singleton.mp hs, h.row_key.2.2]
      decide
    approval := by
      intro a ha
      rw [(h.approvals a ha).1]
      decide }
  obtain ⟨db', out', hgate, -⟩ := hstands.runGate_returns h.stocked h.index sampleKey hselect
    (by decide) hdecides' (Or.inr hwraps) (Or.inr hwraps)
  have hverdict' {tier : RiskTier} (htier : out'.tier = some tier) :
      RiskTier.green = tier ∧ true = out'.allowed := by
    have htold := runGate_verdict hgate htier
    have hsame : verdictOn db sampleOrg "note" sampleCited none =
        verdictOn (sampleWith samplePolicy) sampleOrg "note" sampleCited none :=
      verdictOn_congr h.grows.policies h.grows.packs h.grows.orgPacks _ _ _ _
    exact Prod.mk.inj (Except.ok.inj ((hsame.trans hverdict).symm.trans htold))
  rcases runGate_effect h.index hgate with hnone | ⟨policy, features, d, hfailed⟩ |
    ⟨policy, features, output, remediated, d, row', event, hconcluded⟩
  · cases hnone.policy.symm.trans hselect
  · obtain ⟨event, hout⟩ := hfailed.out_eq
    have htier : out'.tier = some d.tier := by rw [hout]; rfl
    have htold := (hverdict' htier).1
    rw [hfailed.denied.1] at htold
    cases htold
  · have htier : out'.tier = some d.tier := by rw [hconcluded.out_eq]; rfl
    obtain ⟨hgreen, hallowed⟩ := hverdict' htier
    have hcompliant : d.status = .compliant := by
      have hnone : d.findings = [] := by
        have hempty : activePacksForOrg db "acme" = [] := by
          rw [activePacksForOrg, h.grows.orgPacks]
          rfl
        have hfindings := hconcluded.findings_eq
        rw [show (sampleCureArgs row.seq).org.id = "acme" from rfl, evaluatePacks,
          hempty] at hfindings
        exact (Except.ok.inj hfindings).symm
      have hpermits : d.allowed = true := by
        rw [hallowed, hconcluded.out_eq]
        rfl
      rw [DecisionOut.status, deriveStatus, hpermits, hnone, ← hgreen]
      rfl
    have hsame : remediated = some row := by
      rcases hconcluded.cures with ⟨hnone, -⟩ | ⟨r, rfl, hcurable⟩
      · cases hnone
      · have hmem := hcurable.mem
        rw [h.rows] at hmem
        exact congrArg some (List.mem_singleton.mp hmem)
    refine ⟨db', out', hgate, htier.trans (congrArg some hgreen.symm), hallowed.symm, d.seq, ?_⟩
    rw [hconcluded.summaries_eq, h.rows, hsame]
    simp [PolicyDecisionSummary.closedBy, hcompliant]

/-- A refused transfer, and the compliant note that cures it : the row of the one is linked to
the decision on the other. -/
theorem links_truthful_sample : ∃ w : Desk, w.gated.length = 2 ∧
    (∃ s ∈ w.db.summaries, s.remediatedBySeq ≠ none) ∧ LinksTruthful w.db := by
  obtain ⟨db, out, row, hrefused⟩ := exists_refused_sample
  obtain ⟨db', out', hgate, -, -, k, hlinked⟩ := hrefused.cured
  have hinit : (desk sampleKey anyDeskOp).Reachable ⟨sampleWith samplePolicy, [], []⟩ :=
    .init ⟨rfl, rfl, rfl, rfl, rfl⟩
  have hreach : (desk sampleKey anyDeskOp).Reachable
      ⟨db', [(sampleCureArgs row.seq, out'), (sampleRefusedArgs, out)], []⟩ :=
    (hinit.step (.gate trivial hrefused.call)).step (.gate trivial hgate)
  exact ⟨_, rfl, ⟨_, List.mem_of_head? hlinked, Option.some_ne_none k⟩, (links_truthful hreach).1⟩

/-- A transfer that is denied at red waits for its approval, and the note after it does not. -/
theorem denials_hold_sample : ∃ w : Trail, w.decisions.length = 2 ∧
    (∃ d ∈ w.decisions, d.allowed = false) ∧ DenialsHold "acme" (Uuid.ofNat 1) w := by
  obtain ⟨db, out, row, hrefused⟩ := exists_refused_sample
  obtain ⟨db', out', hgate, hgreen, hallowed, -⟩ := hrefused.cured
  have hinit : (trail sampleKey "acme" (Uuid.ofNat 1) DenialAsks).Reachable
      ⟨sampleWith samplePolicy, []⟩ := .init ⟨rfl, rfl⟩
  have hfirst : DenialAsks (sampleWith samplePolicy) sampleOrg "transfer" sampleTransfer none := by
    intro tier htier
    have htold := runGate_verdict hrefused.call hrefused.told.1
    obtain ⟨rfl, -⟩ := Prod.mk.inj (Except.ok.inj (htold.symm.trans htier))
    rfl
  have hsecond : DenialAsks db sampleOrg "note" sampleCited none := by
    intro tier htier
    have htold := runGate_verdict hgate hgreen
    rw [hallowed] at htold
    cases htold.symm.trans htier
  have hclock : ClockAhead db "acme" (Uuid.ofNat 1) sampleCureFresh.precheck.approval := by
    intro a ha
    rw [(hrefused.approvals a (List.mem_of_mem_filter ha)).2]
    decide
  have hreach : (trail sampleKey "acme" (Uuid.ofNat 1) DenialAsks).Reachable
      ⟨db', [⟨.green, out'.allowed, out'.approvalId⟩, ⟨.red, out.allowed, out.approvalId⟩]⟩ :=
    (hinit.step (.gate rfl rfl (List.forall_mem_nil _) hfirst hrefused.call hrefused.told.1)).step
      (.gate rfl rfl hclock hsecond hgate hgreen)
  exact ⟨_, rfl, ⟨_, List.mem_cons_of_mem _ (List.mem_singleton_self _), hrefused.told.2⟩,
    denials_hold hreach⟩

theorem index_complete_sample : ∃ w : Desk, w.gated ≠ [] ∧ IndexComplete w := by
  obtain ⟨db', out, hgate⟩ := exists_gate_sampleTransfer
  have hallowed : Indexable (sampleWith samplePolicy)
      (.gate (sampleGateArgs "transfer" sampleTransfer) sampleGateFresh) := by
    refine ⟨by simp [sampleGateArgs], ?_⟩
    rintro ⟨-, policy, features, detail, hpolicy, hfeatures, hrefused⟩
    obtain rfl : samplePolicy = policy := Option.some.inj hpolicy
    obtain rfl := Except.ok.inj (extractFeatures_sampleTransfer.symm.trans hfeatures)
    cases (evaluateOver_sampleTransfer _).symm.trans hrefused
  have hreach : (desk sampleKey Indexable).Reachable _ := reachable_gate_sample hallowed hgate
  exact ⟨_, List.cons_ne_nil _ _, index_complete hreach⟩

/-- A policy that cannot be evaluated, a denial, and no row that tells of it. -/
theorem failed_closed_unindexed : ¬∀ w : Desk,
    (desk sampleKey anyDeskOp).Reachable w → IndexComplete w := by
  intro hclaim
  have hrefused (input : PolicyInput) : evaluatePolicyInput input sampleBrokenPolicy.rules =
      .error (.policyEngine "policy.rules must be a list") := rfl
  have hjudges : Judges (sampleWith sampleBrokenPolicy)
    (gatePrecheck (sampleWith sampleBrokenPolicy)
      (sampleGateArgs "transfer" sampleTransfer) sampleGateFresh) sampleBrokenPolicy [] :=
    .failsClosed extractFeatures_sampleTransfer ⟨hrefused _, rfl⟩
  obtain ⟨db', out, hgate⟩ := exists_gate_sample sampleKey rfl (by decide) (by decide) hjudges
  have hcomplete := hclaim _ (reachable_gate_sample trivial hgate)
  rcases runGate_effect (indexOk_sampleWith _) hgate with hnone | ⟨policy, features, d, hfailed⟩ |
    ⟨policy, features, output, remediated, d, row, event, hconcluded⟩
  · cases show some sampleBrokenPolicy = none from hnone.policy
  · obtain ⟨_, e, e', hevents⟩ := hfailed.events
    have he : e ∈ db'.events := by
      rw [hevents.events_eq]
      exact List.mem_append_right _ List.mem_cons_self
    obtain ⟨s, hs, -⟩ := hcomplete.indexed e he hevents.decision.type_eq
    have hmem : s ∈ db'.summaries := (mem_of_summariesOf hs).1
    rw [hfailed.summaries_eq] at hmem
    cases hmem
  · obtain rfl : sampleBrokenPolicy = policy := Option.some.inj hconcluded.policy_eq
    cases hconcluded.concludes with
    | evaluated houtput => cases (hrefused _).symm.trans houtput
    | refused _ hmode => exact hmode rfl

end Samples

end Attest
