import Attest.Vault
import Attest.Workflow
import Mathlib.Data.List.Perm.Basic

/-!
# What a resolution answers

`resolveApproval` says whether the trace may go on from the approval it resolved alone,
`workflowGate` from the newest twenty approvals of the trace. `oneAnswer_iff` is when the
gate, asked right after a resolution, says the same.
-/

set_option linter.unusedSectionVars false

namespace Attest

/-- An approval is in one of the statuses the code writes. -/
def Approval.StatusKnown (a : Approval) : Prop :=
  a.status = "pending" ∨ a.status = "approved" ∨ a.status = "denied"

/-- The query of the gate returns the rows it did before, with the one that was resolved. -/
theorem recentApprovals_settle {db db' : Db} {orgId : String} {traceId id : Uuid}
    {args : ResolveArgs}
    (h : db'.approvals = db.approvals.map (args.resolve id)) (window : List Approval) :
    RecentApprovals db' orgId traceId window ↔
      ∃ before, RecentApprovals db orgId traceId before ∧
        window = before.map (args.resolve id) := by
  have hof :
      db'.approvalsOf orgId traceId = (db.approvalsOf orgId traceId).map (args.resolve id) := by
    simp [Db.approvalsOf, h, List.filter_map, Function.comp_def]
  unfold RecentApprovals
  rw [hof]
  constructor
  · rintro ⟨rows, hperm, hsorted, rfl⟩
    obtain ⟨rows₀, hperm₀, rfl⟩ : ∃ rows₀, List.Perm rows₀ (db.approvalsOf orgId traceId) ∧
        rows = rows₀.map (args.resolve id) := by
      have hcomp := congrFun (congrFun (List.eq_map_comp_perm (args.resolve id)) rows)
        (db.approvalsOf orgId traceId)
      obtain ⟨rows₀, hrows, hperm₀⟩ := hcomp.mpr hperm
      exact ⟨rows₀, hperm₀, hrows⟩
    refine ⟨_, ⟨rows₀, hperm₀, ?_, rfl⟩, List.map_take.symm⟩
    rw [List.pairwise_map] at hsorted
    simpa using hsorted
  · rintro ⟨_, ⟨rows, hperm, hsorted, rfl⟩, rfl⟩
    refine ⟨rows.map (args.resolve id), hperm.map _, ?_, List.map_take⟩
    rw [List.pairwise_map]
    simpa using hsorted

/-- What the gate says of a trace once an approval of it is resolved. -/
theorem workflowGate_settle {db : Db} {orgId : String} {traceId id : Uuid} {args : ResolveArgs}
    {before : List Approval} {gate : WorkflowOut}
    (hargs : args.status = "approved" ∨ args.status = "denied")
    (hknown : ∀ b ∈ before, b.StatusKnown) {newest : Approval}
    (hnewest : before.head? = some newest)
    (h : workflowGate db orgId traceId (before.map (args.resolve id)) = .ok gate) :
    gate.resumeAllowed = true ↔
      (∀ b ∈ before, b.id ≠ id → b.status ≠ "pending") ∧
        (args.resolve id newest).status = "approved" := by
  have hnot : args.status ≠ "pending" := by
    rcases hargs with hargs | hargs <;> rw [hargs] <;> decide
  rw [workflowGate_resumes h]
  have hpending : (∀ a ∈ before.map (args.resolve id), a.status ≠ "pending") ↔
      ∀ b ∈ before, b.id ≠ id → b.status ≠ "pending" := by
    rw [List.forall_mem_map]
    refine forall₂_congr fun b _ => ?_
    rw [ResolveArgs.resolve_status]
    by_cases hid : b.id = id
    · simp [hid, hnot]
    · simp [hid]
  rw [hpending]
  refine and_congr_right fun hnone => ?_
  obtain ⟨rest, rfl⟩ : ∃ rest, before = newest :: rest := by
    cases before with
    | nil => cases hnewest
    | cons b rest =>
      obtain rfl := Option.some.inj hnewest
      exact ⟨rest, rfl⟩
  have hsettled : (args.resolve id newest).status = "approved" ∨
      (args.resolve id newest).status = "denied" := by
    rw [ResolveArgs.resolve_status]
    by_cases hid : newest.id = id
    · rw [if_pos hid]
      exact hargs
    · rw [if_neg hid]
      exact (hknown newest List.mem_cons_self).resolve_left (hnone newest List.mem_cons_self hid)
  have hfind : ((newest :: rest).map (args.resolve id)).find? Approval.isResolved =
      some (args.resolve id newest) := by
    rw [List.map_cons, List.find?_cons_of_pos]
    simpa [Approval.isResolved] using hsettled
  rw [heldBack, hfind]
  rcases hsettled with hsettled | hsettled <;> simp [hsettled]

section Resolve

variable [SignatureScheme] [KeyWrapping] [PyUnicode]

/-- The gate, asked after the resolution, answers as the resolution did, whichever rows its
query returns. -/
def OneAnswer (db' : Db) (orgId : String) (out : ResolveOut) : Prop :=
  ∀ window, RecentApprovals db' orgId out.traceId window →
    ∃ gate, workflowGate db' orgId out.traceId window = .ok gate ∧
      gate.resumeAllowed = out.resumeAllowed

/-- The approval to resolve decides for its trace. An approval : no other of the newest
twenty is pending, and the newest is this one or approved. A denial : another of the newest
twenty is pending, or the newest is this one or denied. -/
def DecidesAlone (db : Db) (args : ResolveArgs) : Prop :=
  ∀ a, db.getApproval args.orgId args.approvalId = some a →
    ∀ window, RecentApprovals db args.orgId a.traceId window →
      if args.status = "approved" then
        (∀ b ∈ window, b.id ≠ a.id → b.status ≠ "pending") ∧
          ∀ newest, window.head? = some newest → newest.id = a.id ∨ newest.status = "approved"
      else
        (∃ b ∈ window, b.id ≠ a.id ∧ b.status = "pending") ∨
          ∀ newest, window.head? = some newest → newest.id = a.id ∨ newest.status = "denied"

/-- A resolution and its answer. -/
theorem resolveApproval_out {svc : SigningKeyPair} {db db' : Db} {args : ResolveArgs}
    {fresh : Fresh} {window : List Approval} {out : ResolveOut}
    (h : resolveApproval svc db args fresh window = .ok (db', out)) :
    ∃ a, db.getApproval args.orgId args.approvalId = some a ∧
      db'.approvals = db.approvals.map (args.resolve a.id) ∧
      out.traceId = a.traceId ∧ out.resumeAllowed = decide (args.status = "approved") ∧
      ensureTraceAccess db' args.orgId a.traceId = .ok () := by
  simp only [resolveApproval, Except.bind_eq_ok] at h
  obtain ⟨_, -, h⟩ := h
  cases hget : db.getApproval args.orgId args.approvalId with
  | none => simp [hget] at h
  | some a =>
    by_cases hpending : a.status = "pending"
    · simp only [hget, hpending, if_true, Except.bind_eq_ok, Except.pure_eq, Except.ok.injEq,
        Prod.mk.injEq] at h
      obtain ⟨db₁, hupdate, ⟨db₂, event⟩, hrecord, gate, hgate, rfl, rfl⟩ := h
      obtain ⟨_, -, hdb⟩ := Except.bind_eq_ok.mp hupdate
      obtain rfl := Except.ok.inj hdb
      obtain ⟨⟨⟩, haccess, -⟩ := Except.bind_eq_ok.mp hgate
      obtain ⟨e, ts, ps, ks, -, -, -, rfl⟩ := recordEvent_eq_ok hrecord
      exact ⟨a, rfl, rfl, rfl, rfl, haccess⟩
    · simp [hget, hpending] at h

/-- A resolution and the gate give one answer exactly where the approval decides alone. -/
theorem oneAnswer_iff {svc : SigningKeyPair} {db db' : Db} {args : ResolveArgs} {fresh : Fresh}
    {window : List Approval} {out : ResolveOut} (hknown : ∀ a ∈ db.approvals, a.StatusKnown)
    (h : resolveApproval svc db args fresh window = .ok (db', out)) :
    OneAnswer db' args.orgId out ↔ DecidesAlone db args := by
  obtain ⟨hargs, -⟩ := resolveApproval_eq_ok h
  obtain ⟨a, hget, happrovals, htrace, hallowed, haccess⟩ := resolveApproval_out h
  have hfound : a.orgId = args.orgId ∧ a.id = args.approvalId := by
    simpa using List.find?_some hget
  have hof : a ∈ db.approvalsOf args.orgId a.traceId :=
    List.mem_filter.mpr ⟨List.mem_of_find?_eq_some hget, by simp [hfound.1]⟩
  have hwindow : ∀ before, RecentApprovals db args.orgId a.traceId before →
      (∃ newest, before.head? = some newest) ∧ ∀ b ∈ before, b.StatusKnown := by
    rintro _ ⟨rows, hperm, -, rfl⟩
    constructor
    · cases rows with
      | nil => cases hperm.mem_iff.mpr hof
      | cons b rows => exact ⟨b, rfl⟩
    · intro b hb
      exact hknown b (List.mem_of_mem_filter (hperm.mem_iff.mp (List.mem_of_mem_take hb)))
  have hanswer : OneAnswer db' args.orgId out ↔
      ∀ before, RecentApprovals db args.orgId a.traceId before →
        ∃ gate, workflowGate db' args.orgId a.traceId (before.map (args.resolve a.id)) = .ok gate ∧
          gate.resumeAllowed = decide (args.status = "approved") := by
    unfold OneAnswer
    simp only [htrace, hallowed, recentApprovals_settle happrovals]
    constructor
    · exact fun hall before hbefore => hall _ ⟨before, hbefore, rfl⟩
    · rintro hall _ ⟨before, hbefore, rfl⟩
      exact hall before hbefore
  have hdecides : DecidesAlone db args ↔
      ∀ before, RecentApprovals db args.orgId a.traceId before →
        if args.status = "approved" then
          (∀ b ∈ before, b.id ≠ a.id → b.status ≠ "pending") ∧
            ∀ newest, before.head? = some newest → newest.id = a.id ∨ newest.status = "approved"
        else
          (∃ b ∈ before, b.id ≠ a.id ∧ b.status = "pending") ∨
            ∀ newest, before.head? = some newest → newest.id = a.id ∨ newest.status = "denied" := by
    unfold DecidesAlone
    simp [hget]
  rw [hanswer, hdecides]
  refine forall₂_congr fun before hbefore => ?_
  obtain ⟨⟨newest, hnewest⟩, hbknown⟩ := hwindow before hbefore
  obtain ⟨gate, hgate⟩ : ∃ gate, workflowGate db' args.orgId a.traceId
      (before.map (args.resolve a.id)) = .ok gate :=
    ⟨_, by rw [workflowGate, haccess]; rfl⟩
  have hresumes := workflowGate_settle hargs hbknown hnewest hgate
  rw [ResolveArgs.resolve_status] at hresumes
  have hmem : newest ∈ before := List.mem_of_mem_head? hnewest
  simp only [hgate, Except.ok.injEq, exists_eq_left', hnewest, Option.some.injEq, forall_eq']
  rcases hargs with hargs | hargs
  · simp only [hargs, decide_true, if_true] at hresumes ⊢
    rw [hresumes]
    refine and_congr_right fun _ => ?_
    by_cases hid : newest.id = a.id <;> simp [hid]
  · simp only [hargs, show ("denied" : String) ≠ "approved" by decide, decide_false, if_false]
      at hresumes ⊢
    rw [← Bool.not_eq_true, hresumes, not_and_or]
    push Not
    by_cases hnone : ∃ b ∈ before, b.id ≠ a.id ∧ b.status = "pending"
    · simp only [hnone, true_or]
    · simp only [hnone, false_or]
      by_cases hid : newest.id = a.id
      · simp [hid]
      · push Not at hnone
        rcases (hbknown newest hmem).resolve_left (hnone newest hmem hid) with hs | hs <;>
          simp [hid, hs]

end Resolve

/-! ## Samples -/

section Samples

open Sample

/-- An officer resolves the oldest approval of a trace. -/
def sampleSettling (status : String) : ResolveArgs :=
  ⟨"acme", Uuid.ofNat 100, status, "officer", "asserted", none, none, none⟩

theorem getApproval_sample (n : Nat) :
    (sampleApproved (n + 1)).getApproval "acme" (Uuid.ofNat 100) = some (sampleApproval 0) := by
  have hrow : (sampleApproved (n + 1)).approvals =
      sampleApproval 0 :: ((List.range n).map Nat.succ).map sampleApproval := by
    rw [sampleApproved, List.range_succ_eq_map, List.map_cons]
  unfold Db.getApproval
  rw [hrow]
  exact List.find?_cons_of_pos (by decide)

/-- The trace of the samples, with any approvals. -/
def sampleTraced (rows : List Approval) : Db :=
  { sampleBlank with traces := [⟨Uuid.ofNat 1, "acme", none⟩]
                     approvals := rows }

theorem recordable_sampleTraced (rows : List Approval) (payload : Dict) :
    Recordable (sampleTraced rows)
      ⟨"acme", Uuid.ofNat 1, 1, "approval_action", payload, none⟩ sampleFresh where
  named := by simp [PyText.isBlank, PyText.isSpace, PyText.isAscii]
  texts := ⟨show textOk "approval_action" = true by decide, rfl⟩
  org := rfl
  trace := by
    intro t ht
    obtain ⟨hmem, -⟩ := Db.mem_of_getTraceById ht
    obtain rfl := List.mem_singleton.mp hmem
    rfl
  next := rfl
  id := by simp [sampleTraced, sampleBlank, Db.empty]
  free := by simp [sampleTraced, sampleBlank, Db.empty]
  keys := by simp [sampleTraced, sampleBlank, Db.empty]
  content := by
    right
    intro pem hpem
    cases hpem
  keyed := by simp [sampleTraced, sampleBlank, Db.empty]

theorem exists_settling_sample {status : String} (hstatus : status = "approved" ∨ status = "denied")
    (n : Nat) : ∃ db' out, resolveApproval sampleKey (sampleApproved (n + 1))
      (sampleSettling status) sampleFresh [] = .ok (db', out) := by
  let rows := (sampleApproved (n + 1)).approvals.map
    ((sampleSettling status).resolve (Uuid.ofNat 100))
  obtain ⟨db', event, hrecord⟩ := recordEvent_succeeds sampleKey
    (recordable_sampleTraced rows (resolutionPayload (sampleSettling status)))
  have hupdate : (sampleApproved (n + 1)).updateApproval (sampleSettling status) (Uuid.ofNat 100) =
      .ok (sampleTraced rows) := by
    have htexts : (textOk "officer" && textOk "asserted" && optTextOk none) = true := by decide
    exact Except.bind_eq_ok.mpr ⟨(), require_eq_ok.mpr htexts, rfl⟩
  have htrace : db'.getTraceById (Uuid.ofNat 1) = some ⟨Uuid.ofNat 1, "acme", none⟩ := by
    obtain ⟨e, ⟨-, -, opened, dbrows, -, -, rfl⟩, -⟩ := recordEvent_recorded hrecord
    simp [Db.getTraceById, sampleTraced]
  have haccess : ensureTraceAccess db' "acme" (Uuid.ofNat 1) = .ok () :=
    ensureTraceAccess_eq_ok.mpr ⟨_, htrace, rfl⟩
  obtain ⟨gate, hgate⟩ : ∃ gate, workflowGate db' "acme" (Uuid.ofNat 1) [] = .ok gate :=
    ⟨_, by rw [workflowGate, haccess]; rfl⟩
  have hget : (sampleApproved (n + 1)).getApproval (sampleSettling status).orgId
      (sampleSettling status).approvalId = some (sampleApproval 0) := getApproval_sample n
  have hallowed : (sampleSettling status).status = "approved" ∨
      (sampleSettling status).status = "denied" :=
    hstatus
  have hrecord' : recordEvent sampleKey (sampleTraced rows) {
      orgId := (sampleSettling status).orgId
      traceId := (sampleApproval 0).traceId
      seq := nextSeq ((sampleTraced rows).eventsForTrace (sampleSettling status).orgId
        (sampleApproval 0).traceId).getLast?
      eventType := "approval_action"
      payload := resolutionPayload (sampleSettling status)
      policyVersion := none } sampleFresh = .ok (db', event) := hrecord
  have hupdate' :
      (sampleApproved (n + 1)).updateApproval (sampleSettling status) (sampleApproval 0).id =
        .ok (sampleTraced rows) := hupdate
  have hgate' : workflowGate db' (sampleSettling status).orgId (sampleApproval 0).traceId [] =
      .ok gate := hgate
  have hpending : (sampleApproval 0).status = "pending" := rfl
  unfold resolveApproval
  simp only [hallowed, decide_true, require, if_true, Except.ok_bind', hget, hpending, hupdate',
    hrecord', hgate', Except.pure_eq]
  exact ⟨_, _, rfl⟩

theorem statusKnown_sample (n : Nat) : ∀ a ∈ (sampleApproved n).approvals, a.StatusKnown := by
  intro a ha
  obtain ⟨k, -, rfl⟩ := List.mem_map.mp ha
  by_cases hk : k = 0 <;> simp [sampleApproval, Approval.StatusKnown, hk]

/-- The pending one of three approvals of a trace, approved. -/
theorem oneAnswer_iff_sample : ∃ db' out,
    resolveApproval sampleKey (sampleApproved 3) (sampleSettling "approved") sampleFresh [] =
      .ok (db', out) ∧ OneAnswer db' "acme" out := by
  obtain ⟨db', out, hresolve⟩ := exists_settling_sample (Or.inl rfl) 2
  refine ⟨db', out, hresolve, (oneAnswer_iff (statusKnown_sample 3) hresolve).mpr ?_⟩
  rintro a hget window ⟨rows, hperm, -, rfl⟩
  obtain rfl := Option.some.inj ((getApproval_sample 2).symm.trans hget)
  have hothers : ∀ b ∈ rows.take approvalWindow,
      b.id = (sampleApproval 0).id ∨ b.status = "approved" := by
    intro b hb
    have hmem := hperm.subset (List.mem_of_mem_take hb)
    obtain ⟨k, -, rfl⟩ := List.mem_map.mp (List.mem_of_mem_filter hmem)
    by_cases hk : k = 0
    · exact Or.inl (by rw [hk])
    · exact Or.inr (if_neg hk)
  rw [if_pos (show (sampleSettling "approved").status = "approved" from rfl)]
  refine ⟨fun b hb hne => ?_, fun newest hnewest => hothers newest (List.mem_of_head? hnewest)⟩
  rw [(hothers b hb).resolve_left hne]
  decide

/-- A denial of the older of two approvals, the newer of which is approved. -/
theorem not_oneAnswer_sample : ∃ db' out,
    resolveApproval sampleKey (sampleApproved 2) (sampleSettling "denied") sampleFresh [] =
      .ok (db', out) ∧ ¬ OneAnswer db' "acme" out := by
  obtain ⟨db', out, hresolve⟩ := exists_settling_sample (Or.inr rfl) 1
  refine ⟨db', out, hresolve, fun hone => ?_⟩
  obtain ⟨a, hget, happrovals, htrace, hallowed, -⟩ := resolveApproval_out hresolve
  obtain rfl := Option.some.inj ((getApproval_sample 1).symm.trans hget)
  have hrecent : RecentApprovals db' "acme" out.traceId
      [sampleApproval 1, (sampleSettling "denied").resolve (Uuid.ofNat 100)
        (sampleApproval 0)] := by
    rw [htrace, RecentApprovals, Db.approvalsOf, happrovals]
    exact ⟨[sampleApproval 1, (sampleSettling "denied").resolve (Uuid.ofNat 100)
      (sampleApproval 0)], by decide, by decide, rfl⟩
  obtain ⟨gate, hgate, hsame⟩ := hone _ hrecent
  have hnone : ∀ a ∈ [sampleApproval 1,
      (sampleSettling "denied").resolve (Uuid.ofNat 100) (sampleApproval 0)],
        a.status ≠ "pending" := by
    decide
  have hresumes := (workflowGate_resumes hgate).mpr ⟨hnone, rfl⟩
  rw [hsame, hallowed] at hresumes
  exact absurd hresumes (by decide)

end Samples

end Attest
