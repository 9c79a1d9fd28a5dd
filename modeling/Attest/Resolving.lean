import Attest.Vault
import Attest.Workflow
import Attest.Lib.ReadCommitted

/-!
# Resolutions of one approval, in any interleaving

`resolve_approval` reads the row, checks that it is pending, updates it, reads the tip
of the trace, inserts its event and commits. The update locks the row until the commit
and does not ask again whether the row is pending : a transaction that read the row
before another resolution committed waits for the lock, then overwrites the row and
appends a second event.

Where the row is still pending at every update, the approval is resolved once
(`resolved_once`).
-/

set_option linter.unusedSectionVars false

namespace Attest

/-! ## The transactions -/

/-- How far a resolution has come. -/
inductive ResolveStage where
  /-- It read the row, which was pending. -/
  | read (approval : Approval)
  /-- The row is updated, and locked. -/
  | updated (approval : Approval)
  | numbered (approval : Approval) (seq : Int)
  | recording (approval : Approval) (call : Call)
  /-- The row of the event is in, and its key with it. -/
  | inserted (approval : Approval) (trace : Option Trace) (draft : Draft)

/-- A `resolve_approval` in flight. -/
structure Resolution where
  args : ResolveArgs
  stage : ResolveStage

/-- The committed database, with the resolutions committed so far and their events. -/
structure Resolutions where
  db : Db
  log : List (ResolveArgs × Event)

/-- The row as it was read. -/
def Resolution.approval (x : Resolution) : Approval :=
  match x.stage with
  | .read a => a
  | .updated a => a
  | .numbered a _ => a
  | .recording a _ => a
  | .inserted a _ _ => a

/-- The approval whose row the transaction has locked. -/
def Resolution.rowLock (x : Resolution) : Option Uuid :=
  match x.stage with
  | .read _ => none
  | _ => some x.approval.id

/-- The trace and number it holds in the unique index of the events. -/
def Resolution.keyLock (x : Resolution) : Option (Uuid × Int) :=
  match x.stage with
  | .inserted _ _ draft => some (draft.event.traceId, draft.event.seq)
  | _ => none

/-- The transactions hold one lock. -/
def Resolution.Excludes (x y : Resolution) : Prop :=
  (∃ id, x.rowLock = some id ∧ y.rowLock = some id) ∨
    ∃ key, x.keyLock = some key ∧ y.keyLock = some key

/-- The `record_event` of a resolution. -/
def resolutionRecord (args : ResolveArgs) (a : Approval) (seq : Int) : RecordArgs where
  orgId := args.orgId
  traceId := a.traceId
  seq := seq
  eventType := "approval_action"
  payload := resolutionPayload args
  policyVersion := none

/-- `get_approval(..)`, and the checks on it. -/
inductive ResolveStart (approvalId : Uuid) (db : Db) : Resolution → Prop where
  | read {args : ResolveArgs} {a : Approval} : args.approvalId = approvalId →
      args.status = "approved" ∨ args.status = "denied" →
      db.getApproval args.orgId args.approvalId = some a → a.status = "pending" →
        ResolveStart approvalId db ⟨args, .read a⟩

/-- The writes of a resolution, at its commit. -/
inductive ResolveCommit : Resolutions → Resolution → Resolutions → Prop where
  | commit {s : Resolutions} {args : ResolveArgs} {a : Approval} {trace : Option Trace}
      {draft : Draft} {db₁ db₂ : Db} : s.db.updateApproval args a.id = .ok db₁ →
      commitCall db₁ trace draft = .ok db₂ →
      ensureTraceAccess db₂ args.orgId a.traceId = .ok () →
        ResolveCommit s ⟨args, .inserted a trace draft⟩ ⟨db₂, s.log ++ [(args, draft.event)]⟩

/-- The arguments of its `record_event`. -/
def Resolution.record (x : Resolution) : Option RecordArgs :=
  match x.stage with
  | .recording _ call => some call.args
  | _ => none

/-- The event it drafted. -/
def Resolution.draft (x : Resolution) : Option Draft :=
  match x.stage with
  | .recording _ ⟨_, .drafted _ _ draft⟩ => some draft
  | .inserted _ _ draft => some draft
  | _ => none

/-- A transaction that has only read the row. -/
def Resolution.HasRead (x : Resolution) : Prop :=
  ∃ a, x.stage = .read a

theorem Resolution.HasRead.free {x y : Resolution} (h : y.HasRead) : ¬ x.Excludes y := by
  obtain ⟨a, ha⟩ := h
  rintro (⟨id, -, hid⟩ | ⟨key, -, hkey⟩)
  · rw [Resolution.rowLock, ha] at hid
    cases hid
  · rw [Resolution.keyLock, ha] at hkey
    cases hkey

/-! ## What a commit writes -/

theorem updateApproval_eq_ok {db db' : Db} {args : ResolveArgs} {id : Uuid}
    (h : db.updateApproval args id = .ok db') :
    db' = { db with approvals := db.approvals.map (args.resolve id) } := by
  obtain ⟨_, -, hdb⟩ := Except.bind_eq_ok.mp h
  exact (Except.ok.inj hdb).symm

/-- The inserts of a call leave the approvals, and do not read them. -/
theorem commitCall_withApprovals {db db' : Db} {trace : Option Trace} {draft : Draft}
    (h : commitCall db trace draft = .ok db') (rows : List Approval) :
    commitCall { db with approvals := rows } trace draft = .ok { db' with approvals := rows } := by
  obtain ⟨db₁, hopen, hinsert⟩ := Except.bind_eq_ok.mp h
  obtain ⟨db₂, hseal, hevent⟩ := Except.bind_eq_ok.mp hinsert
  have hopen' : insertOpened { db with approvals := rows } trace =
      .ok { db₁ with approvals := rows } := by
    cases trace with
    | none =>
      obtain rfl := Except.ok.inj hopen
      rfl
    | some t =>
      obtain ⟨hcheck, rfl⟩ := Db.insertTrace_eq_ok.mp hopen
      exact Db.insertTrace_eq_ok.mpr ⟨hcheck, rfl⟩
  have hseal' : insertSealed { db₁ with approvals := rows } draft.content =
      .ok { db₂ with approvals := rows } := by
    cases hcontent : draft.content with
    | none =>
      rw [hcontent] at hseal
      obtain rfl := Except.ok.inj hseal
      rfl
    | some content =>
      rw [hcontent] at hseal
      obtain ⟨hcheck, rfl⟩ := Db.insertPayload_eq_ok.mp hseal
      exact Db.insertPayload_eq_ok.mpr ⟨hcheck, rfl⟩
  obtain ⟨hcheck, rfl⟩ := Db.insertEventRow_eq_ok.mp hevent
  rw [commitCall, hopen', Except.ok_bind', Draft.insert, hseal', Except.ok_bind']
  exact Db.insertEventRow_eq_ok.mpr ⟨hcheck, rfl⟩

section Resolve

variable [SignatureScheme] [KeyWrapping] [PyUnicode]

/-- One statement of a resolution. -/
inductive ResolveStatement (svc : SigningKeyPair) (db : Db) : Resolution → Resolution → Prop where
  | update {args : ResolveArgs} {a : Approval} {db' : Db} :
      db.updateApproval args a.id = .ok db' →
        ResolveStatement svc db ⟨args, .read a⟩ ⟨args, .updated a⟩
  | number {args : ResolveArgs} {a : Approval} :
      ResolveStatement svc db ⟨args, .updated a⟩
        ⟨args, .numbered a (nextSeq (db.eventsForTrace args.orgId a.traceId).getLast?)⟩
  | open {args : ResolveArgs} {a : Approval} {seq : Int} {trace : Option Trace} :
      openTrace db args.orgId a.traceId none = .ok trace →
        ResolveStatement svc db ⟨args, .numbered a seq⟩
          ⟨args, .recording a ⟨resolutionRecord args a seq, .opened trace⟩⟩
  | readTip {args : ResolveArgs} {a : Approval} {record : RecordArgs} {trace : Option Trace}
      {last : Option Event} : readTip db record.orgId record.traceId record.seq = .ok last →
        ResolveStatement svc db ⟨args, .recording a ⟨record, .opened trace⟩⟩
          ⟨args, .recording a ⟨record, .tipRead trace last⟩⟩
  | draft {args : ResolveArgs} {a : Approval} {record : RecordArgs} {trace : Option Trace}
      {last : Option Event} {fresh : Fresh} {draft : Draft} :
      draftEvent svc db record last fresh = .ok draft →
        ResolveStatement svc db ⟨args, .recording a ⟨record, .tipRead trace last⟩⟩
          ⟨args, .recording a ⟨record, .drafted trace last draft⟩⟩
  | insert {args : ResolveArgs} {a : Approval} {record : RecordArgs} {trace : Option Trace}
      {last : Option Event} {draft : Draft} {db' : Db} :
      commitCall db trace draft = .ok db' →
        ResolveStatement svc db ⟨args, .recording a ⟨record, .drafted trace last draft⟩⟩
          ⟨args, .inserted a trace draft⟩

/-- `resolve_approval` on one approval, as transactions. -/
def resolving (svc : SigningKeyPair) (approvalId : Uuid) :
    ReadCommitted.Protocol Resolutions Resolution where
  start s := ResolveStart approvalId s.db
  statement s := ResolveStatement svc s.db
  commit := ResolveCommit
  Excludes := Resolution.Excludes
  excludes_symm := by
    rintro x y (⟨id, hx, hy⟩ | ⟨key, hx, hy⟩)
    · exact Or.inl ⟨id, hy, hx⟩
    · exact Or.inr ⟨key, hy, hx⟩

/-- From a database in which no resolution of the approval is under way. -/
def Unresolved (db : Db) (s : Resolutions) : Prop :=
  s = ⟨db, []⟩

/-! ## One resolution -/

/-- An update finds the row it read still pending. -/
def StillPending (s : Resolutions) : Resolution → Resolution → Prop
  | ⟨_, .read a⟩, _ => ∃ b ∈ s.db.approvals, b.id = a.id ∧ b.status = "pending"
  | _, _ => True

/-- The event records the resolution on a trace. -/
structure RecordsResolution (args : ResolveArgs) (traceId : Uuid) (e : Event) : Prop where
  type_eq : e.type = "approval_action"
  orgId_eq : e.orgId = args.orgId
  traceId_eq : e.traceId = traceId
  payloadHash_eq : e.payloadHash = sha256Hex (redactPayload (resolutionPayload args)).1

/-- The approval is of the trace. -/
def ApprovalOn (db : Db) (approvalId traceId : Uuid) : Prop :=
  ∃ a ∈ db.approvals, a.id = approvalId ∧ a.traceId = traceId

/-- Since `db`, the approval was resolved at most once : by one committed transaction,
whose event, on the trace of the approval, is the only one recorded and whose status is
that of the row. -/
structure ResolvedOnce (db : Db) (approvalId : Uuid) (s : Resolutions) : Prop where
  atMostOne : s.log.length ≤ 1
  events_eq : s.db.events = db.events ++ s.log.map Prod.snd
  recorded : ∀ p ∈ s.log, p.1.approvalId = approvalId ∧
    ∃ traceId, ApprovalOn s.db approvalId traceId ∧ RecordsResolution p.1 traceId p.2
  status_eq : ∀ p ∈ s.log, ∀ a ∈ s.db.approvals, a.id = approvalId → a.status = p.1.status

/-- What the committed state keeps : the approval is resolved at most once, and then not
pending any more. -/
structure ResolvingOk (db : Db) (approvalId : Uuid) (s : Resolutions) : Prop where
  once : ResolvedOnce db approvalId s
  decided : ∀ p ∈ s.log, p.1.status = "approved" ∨ p.1.status = "denied"

/-- What a resolution relies on : it is of the approval, it records itself, and while it
has the row nothing was resolved. -/
structure ResolutionOk (approvalId : Uuid) (s : Resolutions) (x : Resolution) : Prop where
  approvalId_eq : x.args.approvalId = approvalId
  decided : x.args.status = "approved" ∨ x.args.status = "denied"
  approval_eq : x.approval.id = approvalId
  row : ApprovalOn s.db approvalId x.approval.traceId
  record_eq : ∀ record, x.record = some record →
    ∃ seq, record = resolutionRecord x.args x.approval seq
  drafted : ∀ draft, x.draft = some draft →
    RecordsResolution x.args x.approval.traceId draft.event
  locked : x.rowLock.isSome = true → s.log = []

theorem Event.Records.recordsResolution {args : ResolveArgs} {a : Approval} {seq : Int} {e : Event}
    (h : e.Records (resolutionRecord args a seq)) : RecordsResolution args a.traceId e :=
  ⟨h.type_eq, h.orgId_eq, h.traceId_eq, h.payloadHash_eq⟩

variable {svc : SigningKeyPair} {db : Db} {approvalId : Uuid}

/-- Before it records, a transaction relies on its arguments and on its row. -/
theorem ResolutionOk.of_unrecorded {s : Resolutions} {x : Resolution}
    (hid : x.args.approvalId = approvalId)
    (hdecided : x.args.status = "approved" ∨ x.args.status = "denied")
    (happroval : x.approval.id = approvalId) (hrow : ApprovalOn s.db approvalId x.approval.traceId)
    (hrecord : x.record = none) (hdraft : x.draft = none)
    (hlocked : x.rowLock.isSome = true → s.log = []) : ResolutionOk approvalId s x := by
  refine ⟨hid, hdecided, happroval, hrow, ?_, ?_, hlocked⟩
  · intro record hsome
    rw [hrecord] at hsome
    cases hsome
  · intro draft hsome
    rw [hdraft] at hsome
    cases hsome

theorem ResolveStart.ok {s : Resolutions} {x : Resolution} (h : ResolveStart approvalId s.db x) :
    ResolutionOk approvalId s x := by
  cases h with
  | read hid hstatus hget hpending =>
    have hrow := List.find?_some hget
    simp only [decide_eq_true_eq] at hrow
    have hon : ApprovalOn s.db approvalId _ :=
      ⟨_, List.mem_of_find?_eq_some hget, hrow.2.trans hid, rfl⟩
    refine .of_unrecorded hid hstatus (hrow.2.trans hid) hon rfl rfl fun hlocked => ?_
    cases hlocked

/-- A statement keeps what its transaction relies on. -/
theorem ResolutionOk.statement {s : Resolutions} {x x' : Resolution}
    (hs : ResolvingOk db approvalId s) (h : ResolutionOk approvalId s x)
    (hstep : ResolveStatement svc s.db x x') (hguard : StillPending s x x') :
    ResolutionOk approvalId s x' := by
  cases hstep with
  | update _ =>
    refine .of_unrecorded h.approvalId_eq h.decided h.approval_eq h.row rfl rfl fun _ => ?_
    -- A resolution that was committed has left the row approved or denied.
    obtain ⟨b, hb, hid, hpending⟩ := hguard
    by_contra hne
    obtain ⟨p, hp⟩ := List.exists_mem_of_ne_nil s.log hne
    have hstatus := hs.once.status_eq p hp b hb (hid.trans h.approval_eq)
    rcases hs.decided p hp with hdecided | hdecided
    · rw [hpending, hdecided] at hstatus
      exact absurd hstatus (by decide)
    · rw [hpending, hdecided] at hstatus
      exact absurd hstatus (by decide)
  | number => exact .of_unrecorded h.approvalId_eq h.decided h.approval_eq h.row rfl rfl h.locked
  | «open» _ =>
    refine ⟨h.approvalId_eq, h.decided, h.approval_eq, h.row, ?_, fun _ hsome => ?_, h.locked⟩
    · rintro _ ⟨⟩
      exact ⟨_, rfl⟩
    · cases hsome
  | readTip _ =>
    refine ⟨h.approvalId_eq, h.decided, h.approval_eq, h.row, h.record_eq,
      fun _ hsome => ?_, h.locked⟩
    cases hsome
  | @draft args a record trace last fresh draft hdraft =>
    refine ⟨h.approvalId_eq, h.decided, h.approval_eq, h.row, h.record_eq, ?_, h.locked⟩
    rintro _ ⟨⟩
    obtain ⟨seq, rfl⟩ : ∃ seq, record = resolutionRecord args a seq := h.record_eq _ rfl
    exact (draftEvent_records hdraft).1.recordsResolution
  | insert _ =>
    refine ⟨h.approvalId_eq, h.decided, h.approval_eq, h.row, fun _ hsome => ?_,
      h.drafted, h.locked⟩
    cases hsome

/-- An update keeps the trace of an approval. -/
theorem ApprovalOn.resolve {db db' : Db} {traceId : Uuid} (h : ApprovalOn db approvalId traceId)
    {args : ResolveArgs} {id : Uuid}
    (happrovals : db'.approvals = db.approvals.map (args.resolve id)) :
    ApprovalOn db' approvalId traceId := by
  obtain ⟨a, ha, rfl, rfl⟩ := h
  refine ⟨args.resolve id a, ?_, by simp, by simp⟩
  rw [happrovals]
  exact List.mem_map_of_mem ha

/-- A commit resolves the approval, and finds no other transaction that has the row. -/
theorem ResolutionOk.commit {s s' : Resolutions} {x : Resolution}
    (hs : ResolvingOk db approvalId s) (h : ResolutionOk approvalId s x)
    (hcommit : ResolveCommit s x s') :
    ResolvingOk db approvalId s' ∧
      ∀ y, ResolutionOk approvalId s y → ¬ x.Excludes y → ResolutionOk approvalId s' y := by
  cases hcommit with
  | @commit args a trace draft db₁ db₂ hupdate hrecord haccess =>
    have hnil : s.log = [] := h.locked rfl
    obtain ⟨ts, ps, ks, rfl⟩ := commitCall_eq_ok hrecord
    obtain rfl := updateApproval_eq_ok hupdate
    have hrow : a.id = approvalId := h.approval_eq
    have hon {traceId : Uuid} (h : ApprovalOn s.db approvalId traceId) :
        ApprovalOn { s.db with
          approvals := s.db.approvals.map (args.resolve a.id), traces := ts, payloads := ps,
          payloadKeys := ks, events := s.db.events ++ [draft.event] } approvalId traceId :=
      h.resolve rfl
    refine ⟨⟨⟨by simp [hnil], ?_, ?_, ?_⟩, ?_⟩, ?_⟩
    · simp [hs.once.events_eq, hnil]
    · intro p hp
      obtain rfl : p = (args, draft.event) := by simpa [hnil] using hp
      exact ⟨h.approvalId_eq, a.traceId, hon h.row, h.drafted draft rfl⟩
    · intro p hp b hb hid
      obtain rfl : p = (args, draft.event) := by simpa [hnil] using hp
      obtain ⟨c, -, rfl⟩ := List.mem_map.mp hb
      have hc : c.id = a.id := by
        rw [hrow, ← hid, ResolveArgs.resolve_id]
      rw [ResolveArgs.resolve, if_pos hc]
    · intro p hp
      obtain rfl : p = (args, draft.event) := by simpa [hnil] using hp
      exact h.decided
    · intro y hy hfree
      refine ⟨hy.approvalId_eq, hy.decided, hy.approval_eq, hon hy.row, hy.record_eq,
        hy.drafted, ?_⟩
      intro hlocked
      have hlock : y.rowLock = some y.approval.id := by
        unfold Resolution.rowLock at hlocked ⊢
        split <;> simp_all
      refine absurd (Or.inl ⟨approvalId, ?_, ?_⟩) hfree
      · exact congrArg some hrow
      · rw [hlock, hy.approval_eq]

/-- Where the row is pending at every update, the approval is resolved at most once, by
the one transaction whose event and status it shows, in any interleaving. -/
theorem resolved_once {w : ReadCommitted.World Resolutions Resolution}
    (h : (((resolving svc approvalId).restrict StillPending).system (Unresolved db)).Reachable w) :
    ResolvedOnce db approvalId w.state := by
  have hinit (s : Resolutions) (hs : Unresolved db s) : ResolvingOk db approvalId s := by
    obtain rfl := hs
    exact ⟨⟨by simp, by simp, by simp, by simp⟩, by simp⟩
  have hinv := ReadCommitted.Protocol.invariant
    (p := (resolving svc approvalId).restrict StillPending) hinit
    (J := ResolutionOk approvalId) (fun _ hstart => ResolveStart.ok hstart)
    (fun hs hx hstep => ResolutionOk.statement hs hx (And.left hstep) (And.right hstep))
    (fun hs hx hcommit => ResolutionOk.commit hs hx hcommit) h
  exact hinv.state.once

/-! ## Runs -/

/-- From its update on, a resolution runs to its commit while the others have only read
the row. -/
theorem run_resolution {guard : Resolutions → Resolution → Resolution → Prop}
    {init : Resolutions → Prop} {db db₁ db₂ : Db} {log : List (ResolveArgs × Event)}
    {args : ResolveArgs} {a : Approval} {fresh : Fresh} {out : EventOut} {rest : List Resolution}
    (hrest : ∀ y ∈ rest, y.HasRead) (hupdate : db.updateApproval args a.id = .ok db₁)
    (haccess : ensureTraceAccess db args.orgId a.traceId = .ok ())
    (hrecord : recordEvent svc db (resolutionRecord args a
      (nextSeq (db.eventsForTrace args.orgId a.traceId).getLast?)) fresh = .ok (db₂, out))
    (hguard : ∀ x x', x = ⟨args, .read a⟩ ∨ x.rowLock.isSome = true → guard ⟨db, log⟩ x x') :
    ∃ e, (((resolving svc approvalId).restrict guard).system init).Run
      ⟨⟨db, log⟩, ⟨args, .read a⟩ :: rest⟩
      ⟨⟨{ db₂ with approvals := db.approvals.map (args.resolve a.id) }, log ++ [(args, e)]⟩,
        rest⟩ := by
  simp only [recordEvent, getOrCreateTrace, Except.bind_eq_ok, Except.pure_eq, Except.ok.injEq,
    Prod.mk.injEq] at hrecord
  obtain ⟨_, -, db₃, ⟨trace, hopen, hinsert⟩, last, htip, d, hdraft, db₄, hevent, rfl, -⟩ := hrecord
  obtain ⟨t, ht, horg⟩ := ensureTraceAccess_eq_ok.mp haccess
  -- The trace is there, so nothing is opened.
  have hthere : openTrace db args.orgId a.traceId none = .ok none := by
    rw [openTrace, ht]
    exact if_pos horg
  obtain rfl : none = trace := Except.ok.inj (hthere.symm.trans hopen)
  obtain rfl : db = db₃ := Except.ok.inj hinsert
  have hcommit : commitCall db none d = .ok db₄ := hevent
  have hmove {x x' : Resolution} (hx : x = ⟨args, .read a⟩ ∨ x.rowLock.isSome = true)
      (h : ResolveStatement svc db x x') :
      ((resolving svc approvalId).restrict guard).Step ⟨⟨db, log⟩, [] ++ x :: rest⟩
        ⟨⟨db, log⟩, [] ++ x' :: rest⟩ :=
    .statement ⟨h, hguard x x' hx⟩ fun y hy => (hrest y hy).free
  refine ⟨d.event, ?_⟩
  refine .head (hmove (Or.inl rfl) (.update hupdate)) ?_
  refine .head (hmove (Or.inr rfl) .number) ?_
  refine .head (hmove (Or.inr rfl) (.open hthere)) ?_
  refine .head (hmove (Or.inr rfl) (.readTip htip)) ?_
  refine .head (hmove (Or.inr rfl) (.draft hdraft)) ?_
  refine .head (hmove (Or.inr rfl) (.insert hcommit)) ?_
  obtain rfl := updateApproval_eq_ok hupdate
  obtain ⟨ts, ps, ks, hdb₄⟩ := commitCall_eq_ok hcommit
  refine .single (.commit (.commit hupdate (commitCall_withApprovals hcommit _) ?_))
  obtain ⟨-, -, ps', ks', hinserted⟩ := Draft.insert_eq_ok hevent
  have htraces : db₄.traces = db.traces := by rw [hinserted]
  rw [ensureTraceAccess_eq_ok]
  refine ⟨t, ?_, horg⟩
  rw [← ht, Db.getTraceById, Db.getTraceById]
  exact congrArg _ htraces

end Resolve

/-! ## Two resolutions of one approval -/

section Samples

open Sample

def sampleResolve (status approverId : String) : ResolveArgs where
  orgId := "acme"
  approvalId := Uuid.ofNat 100
  status := status
  approverId := approverId
  approverKind := "authenticated"
  approverUserId := none
  approverDisplay := none
  comment := none

/-- The pending approval, as both read it. -/
def sampleRead (status approverId : String) : Resolution :=
  ⟨sampleResolve status approverId, .read (sampleApproval 0)⟩

def sampleResolveFresh (n : Nat) : Fresh := ⟨"2025-01-01T00:00:00+00:00", Uuid.ofNat n, []⟩

theorem sampleRead_start (status approverId : String)
    (h : status = "approved" ∨ status = "denied") :
    ResolveStart (Uuid.ofNat 100) (sampleApproved 1) (sampleRead status approverId) :=
  .read rfl h rfl rfl

theorem sampleRead_hasRead (status approverId : String) : (sampleRead status approverId).HasRead :=
  ⟨_, rfl⟩

/-- Both transactions have read the pending row. -/
theorem run_sampleReads (guard : Resolutions → Resolution → Resolution → Prop)
    (init : Resolutions → Prop) :
    (((resolving sampleKey (Uuid.ofNat 100)).restrict guard).system
      init).Run ⟨⟨sampleApproved 1, []⟩, []⟩
        ⟨⟨sampleApproved 1, []⟩, [sampleRead "approved" "alice", sampleRead "denied" "bob"]⟩ := by
  refine .tail (.single (.start (sampleRead_start "denied" "bob" (Or.inr rfl)) fun y hy => ?_)) ?_
  · cases hy
  refine .start (sampleRead_start "approved" "alice" (Or.inl rfl)) fun y hy => ?_
  rw [List.mem_singleton.mp hy]
  exact (sampleRead_hasRead "denied" "bob").free

/-- The approvals once the first transaction has committed. -/
def sampleApprovedBy (db : Db) : Db :=
  let resolve := (sampleResolve "approved" "alice").resolve (Uuid.ofNat 100)
  { db with approvals := (sampleApproved 1).approvals.map resolve }

/-- Approvals are not part of the stored content. -/
theorem Db.Stocked.withApprovals {db : Db} (h : db.Stocked) (rows : List Approval) :
    { db with approvals := rows }.Stocked :=
  ⟨h.orgs, h.managed, h.traces, h.owned, ⟨h.keyed.payloads, h.keyed.payloadKeys⟩, h.sealed, h.keys,
    h.locked, h.recorded, h.stored⟩

theorem stocked_sampleApproved : (sampleApproved 1).Stocked where
  orgs := by decide
  managed := by simp [sampleApproved, sampleBlank, Db.empty]
  traces := by simp [sampleApproved]
  owned := by simp [sampleApproved, sampleBlank, Db.empty]
  keyed := ⟨List.nodup_nil, List.nodup_nil⟩
  sealed := by simp [sampleApproved, sampleBlank, Db.empty]
  keys := by simp [sampleApproved, sampleBlank, Db.empty]
  locked := by simp [sampleApproved, sampleBlank, Db.empty]
  recorded := by simp [sampleApproved, sampleBlank, Db.empty]
  stored := by simp [sampleApproved, sampleBlank, Db.empty]

/-- On a trace that is there, a resolution can be recorded. -/
theorem Db.Stocked.exists_resolution {db : Db} (h : db.Stocked)
    (status approverId : String) (n : Nat)
    (horgs : db.orgs = sampleBlank.orgs) (htraces : db.traces = (sampleApproved 1).traces)
    (hid : ∀ x ∈ db.events, x.id ≠ Uuid.ofNat n) : ∃ db' out e,
    let args := resolutionRecord (sampleResolve status approverId) (sampleApproval 0)
      (nextSeq (db.eventsForTrace "acme" (Uuid.ofNat 1)).getLast?)
    recordEvent sampleKey db args (sampleResolveFresh n) =
        .ok (db', out) ∧
      Recorded db args (sampleResolveFresh n) e db' := by
  have htrace (t : Trace) (ht : t ∈ db.traces) : t = ⟨Uuid.ofNat 1, "acme", none⟩ := by
    rw [htraces] at ht
    exact List.mem_singleton.mp ht
  have horg : db.hasOrg "acme" = true := by
    rw [Db.hasOrg, horgs]
    rfl
  have hwraps (pem : String) (hpem : db.wrapsTo "acme" = some pem) : False := by
    rw [Db.wrapsTo, Db.getOrgById, horgs] at hpem
    cases hpem
  have hrecordable : Recordable db (resolutionRecord
      (sampleResolve status approverId) (sampleApproval 0)
      (nextSeq (db.eventsForTrace "acme" (Uuid.ofNat 1)).getLast?)) (sampleResolveFresh n) := by
    refine h.recordable (show PyText.isBlank "approval_action" = false by decide)
      ⟨show textOk "approval_action" = true by decide, rfl⟩ horg ?_
      (nextSeq_getLast? db "acme" (Uuid.ofNat 1)) hid
      (Or.inr fun pem hpem => (hwraps pem hpem).elim)
    intro t ht _
    rw [htrace t ht]
    rfl
  obtain ⟨db', out, hrecord⟩ :=
    recordEvent_succeeds sampleKey hrecordable
  obtain ⟨e, he, -⟩ := recordEvent_recorded hrecord
  exact ⟨db', out, e, hrecord, he⟩

/-- The two records, one after the other. -/
theorem exists_resolutions_sample : ∃ db₁ out₁ db₂ out₂,
    recordEvent sampleKey (sampleApproved 1)
      (resolutionRecord (sampleResolve "approved" "alice") (sampleApproval 0)
        (nextSeq ((sampleApproved 1).eventsForTrace "acme" (Uuid.ofNat 1)).getLast?))
      (sampleResolveFresh 2) = .ok (db₁, out₁) ∧
    ensureTraceAccess (sampleApprovedBy db₁) "acme" (Uuid.ofNat 1) = .ok () ∧
    recordEvent sampleKey
      (sampleApprovedBy db₁) (resolutionRecord (sampleResolve "denied" "bob") (sampleApproval 0)
        (nextSeq (db₁.eventsForTrace "acme" (Uuid.ofNat 1)).getLast?))
      (sampleResolveFresh 3) = .ok (db₂, out₂) := by
  obtain ⟨db₁, out₁, e, hfirst, hrecorded⟩ := stocked_sampleApproved.exists_resolution "approved"
    "alice" 2 rfl rfl fun _ hx => by cases hx
  have hstocked := hrecorded.stocked stocked_sampleApproved
  obtain ⟨ts, ps, ks, hdb⟩ := hrecorded.others
  -- The trace was there, so none was opened.
  have htraces : db₁.traces = (sampleApproved 1).traces := by
    obtain ⟨-, -, opened, rows, hopens, -, rfl⟩ := hrecorded
    cases opened with
    | none => exact List.append_nil _
    | some t =>
      obtain ⟨-, -, hnew⟩ := hopens.new t rfl
      exact absurd rfl (hnew ⟨Uuid.ofNat 1, "acme", none⟩ (by decide))
  have haccess : ensureTraceAccess (sampleApprovedBy db₁) "acme" (Uuid.ofNat 1) = .ok () := by
    rw [ensureTraceAccess_eq_ok, Db.getTraceById]
    refine ⟨⟨Uuid.ofNat 1, "acme", none⟩, ?_, rfl⟩
    exact (congrArg (List.find? _) htraces).trans rfl
  have horgs : (sampleApprovedBy db₁).orgs = sampleBlank.orgs := by
    rw [hdb]
    rfl
  have hid (x : Event) (hx : x ∈ (sampleApprovedBy db₁).events) : x.id ≠ Uuid.ofNat 3 := by
    rw [hdb] at hx
    obtain rfl := List.mem_singleton.mp hx
    rw [hrecorded.id_eq]
    decide
  obtain ⟨db₂, out₂, -, hsecond, -⟩ :=
    (hstocked.withApprovals _).exists_resolution "denied" "bob" 3 horgs htraces hid
  exact ⟨db₁, out₁, db₂, out₂, hfirst, haccess, hsecond⟩

/-- The update of the row is accepted. -/
theorem updateApproval_sampleResolve (db : Db) (status : String) {approverId : String}
    (h : textOk approverId = true) : ∃ db', db.updateApproval (sampleResolve status approverId)
      (sampleApproval 0).id = .ok db' := by
  have hkind : textOk "authenticated" = true := by decide
  simp [Db.updateApproval, sampleResolve, h, hkind, optTextOk, require]

/-- One resolution, while the row is pending. -/
theorem resolved_once_sample : ∃ w : ReadCommitted.World Resolutions Resolution,
    w.state.log.length = 1 ∧
      ResolvedOnce (sampleApproved 1) (Uuid.ofNat 100) w.state := by
  obtain ⟨db₁, out₁, -, -, hfirst, -, -⟩ := exists_resolutions_sample
  obtain ⟨_, hupdate⟩ := updateApproval_sampleResolve (sampleApproved 1) "approved"
    (show textOk "alice" = true by decide)
  have haccess := ensureTraceAccess_sampleApproved 1
  have hguard (x x' : Resolution) (hx : x = sampleRead "approved" "alice" ∨
      x.rowLock.isSome = true) : StillPending ⟨sampleApproved 1, []⟩ x x' := by
    rcases hx with rfl | hlocked
    · exact ⟨sampleApproval 0, by decide, rfl, rfl⟩
    · obtain ⟨args, stage⟩ := x
      cases stage with
      | read a => cases hlocked
      | _ => trivial
  obtain ⟨e, hrun⟩ := @run_resolution _ _ _ sampleKey (Uuid.ofNat 100)
    StillPending (Unresolved (sampleApproved 1)) _ _ _ [] _ _ _ _
    [sampleRead "denied" "bob"] (by simpa using sampleRead_hasRead "denied" "bob") hupdate haccess
    hfirst hguard
  have hreach : (((resolving sampleKey (Uuid.ofNat 100)).restrict
      StillPending).system (Unresolved (sampleApproved 1))).Reachable _ :=
    ⟨⟨⟨sampleApproved 1, []⟩, []⟩, ⟨rfl, rfl⟩, (run_sampleReads _ _).trans hrun⟩
  exact ⟨_, rfl, resolved_once hreach⟩

/-- Two resolutions commit, where the second read the row before the first committed. -/
theorem resolved_twice : ¬ ∀ w : ReadCommitted.World Resolutions Resolution,
    ((resolving sampleKey (Uuid.ofNat 100)).system
      (Unresolved (sampleApproved 1))).Reachable w →
        ResolvedOnce (sampleApproved 1) (Uuid.ofNat 100) w.state := by
  intro hclaim
  obtain ⟨db₁, out₁, db₂, out₂, hfirst, haccess', hsecond⟩ := exists_resolutions_sample
  obtain ⟨_, hupdate⟩ := updateApproval_sampleResolve (sampleApproved 1) "approved"
    (show textOk "alice" = true by decide)
  obtain ⟨_, hupdate'⟩ := updateApproval_sampleResolve (sampleApprovedBy db₁) "denied"
    (show textOk "bob" = true by decide)
  have haccess := ensureTraceAccess_sampleApproved 1
  obtain ⟨e, hrun⟩ := @run_resolution _ _ _ sampleKey (Uuid.ofNat 100)
    (fun _ _ _ => True) (Unresolved (sampleApproved 1)) _ _ _ [] _ _ _ _
    [sampleRead "denied" "bob"] (by simpa using sampleRead_hasRead "denied" "bob") hupdate haccess
    hfirst fun _ _ _ => trivial
  obtain ⟨f, hrun'⟩ := @run_resolution _ _ _ sampleKey (Uuid.ofNat 100)
    (fun _ _ _ => True) (Unresolved (sampleApproved 1)) (sampleApprovedBy db₁) _ _
    [(sampleResolve "approved" "alice", e)] _ (sampleApproval 0) _ _ []
    (fun y hy => by cases hy) hupdate' haccess' hsecond fun _ _ _ => trivial
  have hreach : (((resolving sampleKey (Uuid.ofNat 100)).restrict
      fun _ _ _ => True).system (Unresolved (sampleApproved 1))).Reachable _ :=
    ⟨⟨⟨sampleApproved 1, []⟩, []⟩, ⟨rfl, rfl⟩, ((run_sampleReads _ _).trans hrun).trans hrun'⟩
  have honce := ResolvedOnce.atMostOne
    (hclaim _ (ReadCommitted.Protocol.reachable_of_restrict hreach))
  have htwo : 2 ≤ 1 := honce
  omega

end Samples

end Attest
