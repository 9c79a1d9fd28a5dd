import Attest.Disclosure
import Attest.Grafting
import Attest.Vault

/-!
# Who wrote the decisions of a trace

Decisions, resolutions and reads are events of a trace like those a customer records, and
what reads them back asks for their type alone. A type is the caller's own text : an
event recorded as `policy_decision` is a decision to every reader (`decision_recorded`).

From a database without events on, through any calls that record, check, resolve or
read, an event of one of the three types was written by `run_precheck`, by
`resolve_approval` for an approval of that status, or by `read_via_grant` (`Genuine`), or
by a customer's call that gave it this very type (`Labelled`). What the gate of a trace
and its compliance summary read is of such events (`decisions_attributed`).
-/

set_option linter.unusedSectionVars false

namespace Attest

/-- The types of the events that tell of a decision, a resolution and a read. -/
def decisionTypes : List String :=
  ["policy_decision", "approval_action", "access_read"]

section Authors

variable [KeyUnwrapping]

/-- A call, with its arguments and what it is given from outside. -/
inductive AuditOp where
  | record (args : RecordArgs) (fresh : Fresh)
  | gate (args : GateArgs) (fresh : GateFresh)
  | graft (args : GraftArgs) (fresh : GraftFresh)
  | precheck (args : PrecheckArgs) (fresh : PrecheckFresh)
  | resolve (args : ResolveArgs) (fresh : Fresh) (window : List Approval)
  | createRequest (args : AccessRequestArgs) (fresh : RequestFresh)
  | approve (args : ApproveArgs) (fresh : Fresh)
  | clientApprove (args : ClientApprovalArgs) (fresh : Fresh)
  | resolveAccess (args : ResolveAccessArgs) (fresh : Fresh)
  | read (requestId : Uuid) (payloadHash : String) (now : Int) (fresh : Fresh)

/-- The database, and the calls that returned so far, newest first, each with the database
before it. -/
structure Audit where
  db : Db
  past : List (AuditOp × Db)

variable [SignatureScheme] [PyUnicode] [IsoReader] {svc : SigningKeyPair}

/-- The database a call leaves. -/
def AuditOp.run (svc : SigningKeyPair) (db : Db) : AuditOp → Except PyError Db
  | .record args fresh => (recordEvent svc db args fresh).map Prod.fst
  | .gate args fresh => (runGate svc db args fresh).map Prod.fst
  | .graft args fresh => (graftOfflineSegment svc db args fresh).map Prod.fst
  | .precheck args fresh => (runPrecheck svc db args fresh).map Prod.fst
  | .resolve args fresh window => (resolveApproval svc db args fresh window).map Prod.fst
  | .createRequest args fresh => createAccessRequest svc db args fresh
  | .approve args fresh => approveAccessRequest svc db args fresh
  | .clientApprove args fresh => recordClientApproval svc db args fresh
  | .resolveAccess args fresh => resolveAccessRequest svc db args fresh
  | .read requestId payloadHash now fresh =>
    (readViaGrant svc db requestId payloadHash now fresh).map Prod.fst

theorem AuditOp.run_record {db db' : Db} {args : RecordArgs} {fresh : Fresh} {out : EventOut}
    (h : recordEvent svc db args fresh = .ok (db', out)) :
    (AuditOp.record args fresh).run svc db = .ok db' :=
  congrArg (Except.map Prod.fst) h

/-- One call that returns. -/
inductive AuditStep (svc : SigningKeyPair) : Audit → Audit → Prop where
  | call {w : Audit} {op : AuditOp} {db' : Db} : op.run svc w.db = .ok db' →
      AuditStep svc w ⟨db', (op, w.db) :: w.past⟩

/-- The service from a database without events on. -/
def auditing (svc : SigningKeyPair) : TransitionSystem Audit where
  init w := w.past = [] ∧ w.db.events = []
  step := AuditStep svc

/-! ## Who wrote an event -/

/-- A call runs the gate : itself, or for an item of a segment, after those before it. -/
inductive GateCall (svc : SigningKeyPair) (db : Db) : AuditOp → Db → GateArgs → GateFresh → Prop
    where
  | gate {args : GateArgs} {fresh : GateFresh} : GateCall svc db (.gate args fresh) db args fresh
  | graft {args : GraftArgs} {fresh : GraftFresh} {device : SdkDevice}
      {before after : List (Dict × OfflineClaim)} {item payload : Dict} {claim : OfflineClaim}
      {db₁ : Db} {outs : List GraftOut} {traceId : Option Uuid} :
      db.deviceOf args.org.id args.deviceId = .ok (some device) →
      verifySegment device args.items = .ok (before ++ (item, claim) :: after) →
      graftItems svc args.org device fresh.gate 0 db before = .ok (db₁, outs) →
      itemTrace item = .ok traceId → item.get "output" = .obj payload →
        GateCall svc db (.graft args fresh) db₁ (itemGate args.org item payload traceId)
          (fresh.gate before.length)

/-- A call runs a precheck : itself, or in the gate, once the trace is open. -/
inductive PrecheckCall (svc : SigningKeyPair) (db : Db) :
    AuditOp → Db → PrecheckArgs → PrecheckFresh → Prop where
  | precheck {args : PrecheckArgs} {fresh : PrecheckFresh} :
      PrecheckCall svc db (.precheck args fresh) db args fresh
  | gate {op : AuditOp} {db₁ db₂ : Db} {args : GateArgs} {fresh : GateFresh} :
      GateCall svc db op db₁ args fresh →
      getOrCreateTrace db₁ args.org.id (gateTrace args fresh) args.policyVersion = .ok db₂ →
        PrecheckCall svc db op db₂ (gatePrecheck db₂ args fresh) fresh.precheck

/-- The call wrote the event as what its type says it is. -/
inductive GenuineOf (svc : SigningKeyPair) (db : Db) : AuditOp → Event → Prop where
  | decision {op : AuditOp} {db₁ : Db} {args : PrecheckArgs} {fresh : PrecheckFresh} {e : Event} :
      PrecheckCall svc db op db₁ args fresh → PrecheckWrites svc db₁ args fresh e →
      e.type = "policy_decision" → GenuineOf svc db op e
  | resolution {args : ResolveArgs} {fresh : Fresh} {window : List Approval} {db' : Db}
      {out : ResolveOut} {a : Approval} {e : Event} :
      resolveApproval svc db args fresh window = .ok (db', out) →
      db'.events = db.events ++ [e] → e.type = "approval_action" →
      e.payloadHash = sha256Hex (redactPayload (resolutionPayload args)).1 →
      a ∈ db'.approvals → a.id = args.approvalId ∧ a.traceId = e.traceId ∧ a.status = args.status →
        GenuineOf svc db (.resolve args fresh window) e
  | read {requestId : Uuid} {payloadHash : String} {now : Int} {fresh : Fresh} {db' : Db}
      {content : Dict} {e : Event} :
      readViaGrant svc db requestId payloadHash now fresh = .ok (db', some content) →
      db'.events = db.events ++ [e] → e.type = "access_read" →
        GenuineOf svc db (.read requestId payloadHash now fresh) e

/-- The call wrote the event under a type that its caller gave. -/
inductive LabelledOf (svc : SigningKeyPair) (db : Db) : AuditOp → Event → Prop where
  | record {args : RecordArgs} {fresh : Fresh} {db' : Db} {out : EventOut} {e : Event} :
      recordEvent svc db args fresh = .ok (db', out) → db'.events = db.events ++ [e] →
      e.type = args.eventType → LabelledOf svc db (.record args fresh) e
  | output {op : AuditOp} {db₁ db₂ : Db} {args : GateArgs} {fresh : GateFresh} {out : GateOut}
      {decided : List Event} {e : Event} : GateCall svc db op db₁ args fresh →
      runGate svc db₁ args fresh = .ok (db₂, out) →
      GateWrites svc db₁ args fresh db₂ out decided e → e.type = args.action →
        LabelledOf svc db op e
  | deferred {op : AuditOp} {e : Event} {occurredAt : Option String} {deviceId signature : String} :
      LabelledOf svc db op e → LabelledOf svc db op (e.defer occurredAt deviceId signature)

/-- Some call of the run wrote the event as what its type says it is. -/
def Genuine (svc : SigningKeyPair) (w : Audit) (e : Event) : Prop :=
  ∃ call ∈ w.past, GenuineOf svc call.2 call.1 e

/-- A customer's call of the run gave the event its type. -/
def Labelled (svc : SigningKeyPair) (w : Audit) (e : Event) : Prop :=
  ∃ call ∈ w.past, LabelledOf svc call.2 call.1 e

/-! ## What each call writes -/

/-- The events a call added, where of one of the types, are genuine or labelled. -/
def Attributes (svc : SigningKeyPair) (db : Db) (op : AuditOp) (db' : Db) : Prop :=
  ∃ es, db'.events = db.events ++ es ∧ ∀ e ∈ es, e.type ∈ decisionTypes →
    GenuineOf svc db op e ∨ LabelledOf svc db op e

theorem Attributes.none {db db' : Db} {op : AuditOp} (h : db'.events = db.events) :
    Attributes svc db op db' :=
  ⟨[], by rw [h, List.append_nil], by simp⟩

/-- A consent event is of none of the types but for a read. -/
theorem Noted.attributes {db db₁ db' : Db} {request : AccessRequest} {eventType : String}
    {fresh : Fresh} {op : AuditOp} (h : Noted db₁ request eventType fresh db')
    (hevents : db₁.events = db.events) (htype : eventType ∉ decisionTypes) :
    Attributes svc db op db' := by
  rcases h with ⟨-, rfl⟩ | ⟨traceId, seq, payload, e, -, he⟩
  · exact .none hevents
  · obtain ⟨ts, ps, ks, rfl⟩ := he.others
    refine ⟨[e], by rw [hevents], ?_⟩
    intro x hx hlabel
    obtain rfl := List.mem_singleton.mp hx
    rw [he.records.type_eq] at hlabel
    exact absurd hlabel htype

theorem precheck_attributes {db db' : Db} {args : PrecheckArgs} {fresh : PrecheckFresh}
    {d : DecisionOut} (h : runPrecheck svc db args fresh = .ok (db', d)) :
    Attributes svc db (.precheck args fresh) db' := by
  obtain ⟨⟨e, ts, ps, ks, ss, he, hdb⟩, -⟩ := runPrecheck_eq_ok h
  have hevents : db'.events = db.events ++ [e] := by rw [hdb]
  refine ⟨[e], hevents, ?_⟩
  intro x hx _
  obtain rfl := List.mem_singleton.mp hx
  exact Or.inl (.decision .precheck ⟨db', d, h, hevents⟩ he.1)

/-- The decisions of a gate call are those of its precheck. -/
theorem GateWrites.genuineOf {db db₁ db₂ : Db} {op : AuditOp} {args : GateArgs} {fresh : GateFresh}
    {out : GateOut} {decided : List Event} {e : Event}
    (h : GateWrites svc db₁ args fresh db₂ out decided e)
    (hcall : GateCall svc db op db₁ args fresh) :
    ∀ x ∈ decided, GenuineOf svc db op x := by
  obtain ⟨db₃, hopen, hdecided⟩ := h.decided_of
  intro x hx
  obtain ⟨db₄, d, hprecheck, hevents⟩ := hdecided x hx
  refine .decision (.gate hcall hopen) ⟨db₄, d, hprecheck, hevents⟩ ?_
  obtain ⟨⟨y, ts, ps, ks, ss, hy, hdb⟩, -⟩ := runPrecheck_eq_ok hprecheck
  obtain rfl : x = y := by
    rw [hdb] at hevents
    simpa using hevents.symm
  exact hy.1

theorem gate_attributes {db db' : Db} {args : GateArgs} {fresh : GateFresh} {out : GateOut}
    (h : runGate svc db args fresh = .ok (db', out)) :
    Attributes svc db (.gate args fresh) db' := by
  obtain ⟨decided, e, hwrites⟩ := runGate_writes h
  refine ⟨decided ++ [e], by rw [hwrites.events_eq, List.append_assoc], ?_⟩
  intro x hx _
  rcases List.mem_append.mp hx with hx | hx
  · exact Or.inl (hwrites.genuineOf .gate x hx)
  · obtain rfl := List.mem_singleton.mp hx
    exact Or.inr (.output .gate h hwrites hwrites.type_eq)

theorem graft_attributes {db db' : Db} {args : GraftArgs} {fresh : GraftFresh}
    {outs : List GraftOut} (h : graftOfflineSegment svc db args fresh = .ok (db', outs)) :
    Attributes svc db (.graft args fresh) db' := by
  obtain ⟨device, verified, es, hdevice, hverified, hevents, hcome⟩ := graftOfflineSegment_events h
  refine ⟨es, hevents, ?_⟩
  intro x hx _
  obtain ⟨before, item, claim, after, db₁, outs₁, db₂, out, decided, e, rfl, hbefore, hround,
    hcomes⟩ := (hcome x hx).round
  rw [Nat.zero_add] at hround
  obtain ⟨payload, traceId, db₃, gate, htrace, hpayload, hgate, hwrites, -, -⟩ := hround.gated
  have hcall : GateCall svc db (.graft args fresh) db₁ (itemGate args.org item payload traceId)
      (fresh.gate before.length) := .graft hdevice hverified hbefore htrace hpayload
  rcases hcomes with hx | rfl
  · exact Or.inl (hwrites.genuineOf hcall x hx)
  · exact Or.inr (.deferred (.output hcall hgate hwrites hwrites.type_eq))

/-- A resolution says of its approval what became of it. -/
theorem resolve_attributes {db db' : Db} {args : ResolveArgs} {fresh : Fresh}
    {window : List Approval} {out : ResolveOut}
    (h : resolveApproval svc db args fresh window = .ok (db', out)) :
    Attributes svc db (.resolve args fresh window) db' := by
  have hresolve := h
  obtain ⟨_, -, h⟩ := Except.bind_eq_ok.mp h
  cases hget : db.getApproval args.orgId args.approvalId with
  | none => simp [hget] at h
  | some a =>
    have hid : a.orgId = args.orgId ∧ a.id = args.approvalId := by simpa using List.find?_some hget
    simp only [hget] at h
    split at h
    · simp only [Except.bind_eq_ok, Except.pure_eq, Except.ok.injEq, Prod.mk.injEq] at h
      obtain ⟨db₁, hupdate, ⟨db₂, event⟩, hrecord, gate, -, rfl, -⟩ := h
      obtain ⟨_, -, hdb⟩ := Except.bind_eq_ok.mp hupdate
      obtain rfl := Except.ok.inj hdb
      obtain ⟨e, ts, ps, ks, hrecords, -, -, rfl⟩ := recordEvent_eq_ok hrecord
      refine ⟨[e], rfl, ?_⟩
      intro x hx _
      obtain rfl := List.mem_singleton.mp hx
      have hrow := List.mem_map_of_mem (f := fun x : Approval => if x.id = a.id then
        { x with status := args.status, approverId := some args.approverId,
                 approverKind := some args.approverKind, comment := args.comment } else x)
        (List.mem_of_find?_eq_some hget)
      rw [if_pos rfl] at hrow
      exact Or.inl (.resolution hresolve rfl hrecords.type_eq hrecords.payloadHash_eq hrow
        ⟨hid.2, hrecords.traceId_eq.symm, rfl⟩)
    · cases h

theorem read_attributes {db db' : Db} {requestId : Uuid} {payloadHash : String} {now : Int}
    {fresh : Fresh} {result : Option Dict}
    (h : readViaGrant svc db requestId payloadHash now fresh = .ok (db', result)) :
    Attributes svc db (.read requestId payloadHash now fresh) db' := by
  rcases readViaGrant_eq_ok h with ⟨-, rfl⟩ | ⟨content, request, rfl, hreads⟩
  · exact .none rfl
  · rcases hreads.noted with ⟨-, rfl⟩ | ⟨traceId, seq, payload, e, -, he⟩
    · exact .none rfl
    · obtain ⟨ts, ps, ks, rfl⟩ := he.others
      refine ⟨[e], rfl, ?_⟩
      intro x hx _
      obtain rfl := List.mem_singleton.mp hx
      exact Or.inl (.read h rfl he.records.type_eq)

theorem AuditOp.run_attributes {db db' : Db} {op : AuditOp} (h : op.run svc db = .ok db') :
    Attributes svc db op db' := by
  cases op with
  | record args fresh =>
    obtain ⟨⟨_, out⟩, hrecord, rfl⟩ := Except.map_eq_ok.mp h
    obtain ⟨e, ts, ps, ks, hrecords, -, -, rfl⟩ := recordEvent_eq_ok hrecord
    refine ⟨[e], rfl, ?_⟩
    intro x hx _
    obtain rfl := List.mem_singleton.mp hx
    exact Or.inr (.record hrecord rfl hrecords.type_eq)
  | gate args fresh =>
    obtain ⟨_, hcall, rfl⟩ := Except.map_eq_ok.mp h
    exact gate_attributes hcall
  | graft args fresh =>
    obtain ⟨_, hcall, rfl⟩ := Except.map_eq_ok.mp h
    exact graft_attributes hcall
  | precheck args fresh =>
    obtain ⟨_, hcall, rfl⟩ := Except.map_eq_ok.mp h
    exact precheck_attributes hcall
  | resolve args fresh window =>
    obtain ⟨_, hcall, rfl⟩ := Except.map_eq_ok.mp h
    exact resolve_attributes hcall
  | createRequest args fresh =>
    obtain ⟨opened, -, hnoted⟩ := (createAccessRequest_filed h).noted
    exact hnoted.attributes rfl (by decide)
  | approve args fresh =>
    rcases approveAccessRequest_approves h with rfl | ⟨request, rows, status, happroves, -⟩
    · exact .none rfl
    · obtain ⟨requests, -, hnoted⟩ := happroves.settled
      exact hnoted.attributes rfl (by decide)
  | clientApprove args fresh =>
    rcases recordClientApproval_approves h with rfl | ⟨request, status, happroves, -⟩
    · exact .none rfl
    · obtain ⟨requests, -, hnoted⟩ := happroves.settled
      exact hnoted.attributes rfl (by decide)
  | resolveAccess args fresh =>
    obtain ⟨-, request, -, ⟨-, rfl⟩ | hnoted⟩ := resolveAccessRequest_eq_ok h
    · exact .none rfl
    · exact hnoted.attributes rfl (by decide)
  | read requestId payloadHash now fresh =>
    obtain ⟨_, hcall, rfl⟩ := Except.map_eq_ok.mp h
    exact read_attributes hcall

/-! ## Over a run -/

theorem attributed_of_reachable {w : Audit} (h : (auditing svc).Reachable w) :
    ∀ e ∈ w.db.events, e.type ∈ decisionTypes → Genuine svc w e ∨ Labelled svc w e := by
  refine TransitionSystem.invariant (P := fun w : Audit => ∀ e ∈ w.db.events,
    e.type ∈ decisionTypes → Genuine svc w e ∨ Labelled svc w e) ?_ ?_ h
  · rintro w ⟨-, hevents⟩ e he
    rw [hevents] at he
    cases he
  · rintro w w' ih ⟨hcall⟩ e he htype
    obtain ⟨es, hevents, hes⟩ := AuditOp.run_attributes hcall
    simp only [hevents, List.mem_append] at he
    rcases he with he | he
    · rcases ih e he htype with ⟨call, hmem, hgenuine⟩ | ⟨call, hmem, hlabelled⟩
      · exact Or.inl ⟨call, List.mem_cons_of_mem _ hmem, hgenuine⟩
      · exact Or.inr ⟨call, List.mem_cons_of_mem _ hmem, hlabelled⟩
    · rcases hes e he htype with hgenuine | hlabelled
      · exact Or.inl ⟨_, List.mem_cons_self, hgenuine⟩
      · exact Or.inr ⟨_, List.mem_cons_self, hlabelled⟩

/-! ## What readers read -/

/-- The entry of a trace is of an event of its type that was written as what it says it
is, or labelled so by a customer. -/
def Attributed (svc : SigningKeyPair) (w : Audit) (traceId : Uuid) (type : String) (seq : Int) :
    Prop :=
  ∃ e ∈ w.db.events, e.traceId = traceId ∧ e.type = type ∧ e.seq = seq ∧
    (Genuine svc w e ∨ Labelled svc w e)

theorem summaryOf_event {db : Db} {orgId : String} {p : PolicySummary} : ∀ {es : List Event},
    summaryOf db orgId es = some p → ∃ e ∈ es, e.type = "policy_decision" ∧ e.seq = p.seq
  | e :: es, h => by
    unfold summaryOf at h
    have hlater (h : summaryOf db orgId es = some p) :
        ∃ x ∈ e :: es, x.type = "policy_decision" ∧ x.seq = p.seq := by
      obtain ⟨x, hx, hread⟩ := summaryOf_event h
      exact ⟨x, List.mem_cons_of_mem _ hx, hread⟩
    split at h
    · rename_i htype
      split at h
      · obtain rfl := Option.some.inj h
        exact ⟨e, List.mem_cons_self, htype, rfl⟩
      · exact hlater h
    · exact hlater h

theorem mem_entriesOf {α : Type} {db : Db} {orgId type : String} {entry : Event → Dict → α}
    {events : List Event} {x : α} (h : x ∈ entriesOf db orgId type entry events) :
    ∃ e ∈ events, e.type = type ∧ ∃ content, x = entry e content := by
  obtain ⟨e, he, hread⟩ := List.mem_filterMap.mp h
  split at hread
  · rename_i htype
    obtain ⟨content, -, rfl⟩ := Option.map_eq_some_iff.mp hread
    exact ⟨e, he, htype, content, rfl⟩
  · cases hread

theorem mem_of_eventsForTrace {db : Db} {orgId : String} {traceId : Uuid} {e : Event}
    (h : e ∈ db.eventsForTrace orgId traceId) : e ∈ db.events ∧ e.traceId = traceId := by
  rw [Db.eventsForTrace, List.mem_insertionSort, Db.mem_traceRows] at h
  exact ⟨h.1, h.2.2⟩

/-- The entries of a compliance summary, as events of the trace. -/
theorem mem_of_complianceSummary {db : Db} {orgId : String} {traceId : Uuid}
    {window page : List Approval} {c : ComplianceSummary}
    (h : buildComplianceSummary svc db orgId traceId window page = .ok c) :
    (∀ entry ∈ c.policyDecisions, ∃ e ∈ db.eventsForTrace orgId traceId,
        e.type = "policy_decision" ∧ e.seq = entry.seq) ∧
      ∀ entry ∈ c.approvalActions, ∃ e ∈ db.eventsForTrace orgId traceId,
        e.type = "approval_action" ∧ e.seq = entry.seq := by
  simp only [buildComplianceSummary, Except.bind_eq_ok, Except.pure_eq, Except.ok.injEq] at h
  obtain ⟨_, -, _, -, rfl⟩ := h
  constructor
  · intro entry hentry
    obtain ⟨e, he, htype, content, rfl⟩ := mem_entriesOf hentry
    exact ⟨e, he, htype, rfl⟩
  · intro entry hentry
    obtain ⟨e, he, htype, content, rfl⟩ := mem_entriesOf hentry
    exact ⟨e, he, htype, rfl⟩

/-- Every event of the three types is what it says it is or was labelled so by a
customer's call, and so is every decision and resolution that the gate of a trace and
its compliance summary read. -/
theorem decisions_attributed {w : Audit} (h : (auditing svc).Reachable w) :
    (∀ e ∈ w.db.events, e.type ∈ decisionTypes → Genuine svc w e ∨ Labelled svc w e) ∧
    ∀ orgId traceId,
      (∀ p, policySummaryFromEvents w.db orgId traceId = some p →
        Attributed svc w traceId "policy_decision" p.seq) ∧
      ∀ window page c, buildComplianceSummary svc w.db orgId traceId window page = .ok c →
        (∀ entry ∈ c.policyDecisions, Attributed svc w traceId "policy_decision" entry.seq) ∧
          ∀ entry ∈ c.approvalActions, Attributed svc w traceId "approval_action" entry.seq := by
  have hevents := attributed_of_reachable h
  have hread {orgId : String} {traceId : Uuid} {type : String} {seq : Int}
      (htype : type ∈ decisionTypes)
      (he : ∃ e ∈ w.db.eventsForTrace orgId traceId, e.type = type ∧ e.seq = seq) :
      Attributed svc w traceId type seq := by
    obtain ⟨e, he, rfl, hseq⟩ := he
    obtain ⟨hmem, htrace⟩ := mem_of_eventsForTrace he
    exact ⟨e, hmem, htrace, rfl, hseq, hevents e hmem htype⟩
  refine ⟨hevents, fun orgId traceId => ⟨?_, ?_⟩⟩
  · intro p hp
    obtain ⟨e, he, hsummary⟩ := summaryOf_event hp
    exact hread (by decide) ⟨e, List.mem_reverse.mp he, hsummary⟩
  · intro window page c hc
    obtain ⟨hdecisions, hactions⟩ := mem_of_complianceSummary hc
    exact ⟨fun entry hentry => hread (by decide) (hdecisions entry hentry),
      fun entry hentry => hread (by decide) (hactions entry hentry)⟩

end Authors

section Samples

open Sample

/-- A customer records a decision of its own. -/
def sampleForged : RecordArgs :=
  sampleDecision samplePolicy [("tier", .str "green"), ("allowed", .bool true)]

/-- The run of that one call. -/
theorem exists_forged : ∃ (db : Db) (e : Event),
    (auditing sampleKey).Reachable
      ⟨db, [(.record sampleForged sampleFresh, sampleOpened samplePolicy)]⟩ ∧
    db.events = [e] ∧ e.type = "policy_decision" := by
  have hversion : textOk samplePolicy.version = true := by decide
  obtain ⟨db, out, hrecord⟩ := recordEvent_succeeds sampleKey
    (recordable_sampleDecision hversion
      [("tier", .str "green"), ("allowed", .bool true)])
  obtain ⟨e, ts, ps, ks, hrecords, -, -, hdb⟩ := recordEvent_eq_ok hrecord
  have hinit : (auditing sampleKey).Reachable ⟨sampleOpened samplePolicy, []⟩ :=
    .init ⟨rfl, rfl⟩
  exact ⟨db, e, hinit.step (.call (AuditOp.run_record hrecord)), by rw [hdb]; rfl, hrecords.type_eq⟩

/-- What `record_event` is given may be a decision by its type, and no call decided it. -/
theorem decision_recorded : ¬∀ w : Audit, (auditing sampleKey).Reachable w →
    ∀ e ∈ w.db.events, e.type ∈ decisionTypes → Genuine sampleKey w e := by
  intro hclaim
  obtain ⟨db, e, hreach, hevents, htype⟩ := exists_forged
  obtain ⟨call, hcall, hgenuine⟩ := hclaim _ hreach e (by simp [hevents]) (by simp [htype,
    decisionTypes])
  obtain rfl := List.mem_singleton.mp hcall
  cases hgenuine with
  | decision hprecheck =>
    cases hprecheck with
    | gate hgate => cases hgate

theorem decisions_attributed_sample : ∃ w : Audit, ∃ e ∈ w.db.events,
    e.type = "policy_decision" ∧ (Genuine sampleKey w e ∨ Labelled sampleKey w e) := by
  obtain ⟨db, e, hreach, hevents, htype⟩ := exists_forged
  have hmem : e ∈ db.events := by simp [hevents]
  refine ⟨_, e, hmem, htype, (decisions_attributed hreach).1 e hmem ?_⟩
  simp [htype, decisionTypes]

end Samples

end Attest
