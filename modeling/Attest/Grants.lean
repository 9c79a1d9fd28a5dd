import Attest.Retention

/-!
# Access by consent

What a call does to the requests, their approvals and their grants (`Consents`), and what
holds of them over every run (`Granted`) : a request is as it was filed but for its
status, its records are those it was filed for, each approval is of someone who approved
it, an approved request has as many as it asks for, and one that was denied or revoked
is never approved again.

So a read through a grant returns content only where all of this lets it, and is the next
event on the trace of the request (`read_safe`).
-/

set_option linter.unusedSectionVars false

namespace Attest

section Calls

variable [SignatureScheme] [KeyUnwrapping] [PyUnicode]

/-! ## What a call does to the consent tables -/

/-- The consent tables are the same in both databases. -/
structure SameConsents (db db' : Db) : Prop where
  requests : db'.accessRequests = db.accessRequests
  approvals : db'.accessApprovals = db.accessApprovals
  grants : db'.accessGrantKeys = db.accessGrantKeys

theorem Recorded.sameConsents {db db' : Db} {args : RecordArgs} {fresh : Fresh} {e : Event}
    (hr : Recorded db args fresh e db') : SameConsents db db' := by
  obtain ⟨ts, ps, ks, rfl⟩ := hr.others
  exact ⟨rfl, rfl, rfl⟩

theorem Noted.sameConsents {db db' : Db} {request : AccessRequest} {eventType : String}
    {fresh : Fresh} (h : Noted db request eventType fresh db') : SameConsents db db' := by
  rcases h with ⟨-, rfl⟩ | ⟨_, _, _, e, -, he⟩
  · exact ⟨rfl, rfl, rfl⟩
  · exact he.sameConsents

/-- The call is an approval of the request by this approver. -/
def VaultOp.Approves (requestId : Uuid) (approverId : String) : VaultOp → Prop
  | .approve args _ => args.requestId = requestId ∧ args.approverId = approverId
  | .clientApprove args _ => args.requestId = requestId ∧ args.approverId = approverId
  | _ => False

/-- What an approval makes of the row of a grant : the officer's call releases keys where
it completes the quorum, the client's posts them whether it does or not. -/
def VaultOp.Regrants (db : Db) (request : AccessRequest) (status : String) :
    VaultOp → AccessGrantKey → AccessGrantKey → Prop
  | .approve args _, g, g' =>
    g' = g ∨ status = "approved" ∧ ReleasedTo db request args.orgPrivatePem g g'
  | .clientApprove args _, g, g' => g' = postKey args g
  | _, g, g' => g' = g

/-- The request has this status now. -/
def StatusSet (db db' : Db) (request : AccessRequest) (status : String) : Prop :=
  request.status = status ∧ db'.accessRequests = db.accessRequests ∨
    db'.accessRequests = (db.setAccessRequest { request with status := status }).accessRequests

/-- What a call did to the consent tables. -/
inductive Consents (db : Db) : VaultOp → Db → Prop where
  | idle {op : VaultOp} {db' : Db} : (∀ args fresh, op ≠ .resolve args fresh) →
      SameConsents db db' → Consents db op db'
  | filed {args : AccessRequestArgs} {fresh : RequestFresh} {db' : Db} :
      (∀ x ∈ db.accessRequests, x.id ≠ fresh.id) →
      db'.accessRequests = db.accessRequests ++ [filedRequest args fresh] →
      db'.accessApprovals = db.accessApprovals →
      db'.accessGrantKeys =
        db.accessGrantKeys ++ args.payloadHashes.map (fun h => ⟨fresh.id, h, none⟩) →
        Consents db (.createRequest args fresh) db'
  | approved {op : VaultOp} {db' : Db} {requestId : Uuid} {approverId status : String}
      {request : AccessRequest} : op.Approves requestId approverId →
      db.getAccessRequest requestId = some request → request.status = "pending" →
      approverId ∉ db.approversOf requestId →
      (status = "pending" ∨ status = "approved" ∧
        request.requiredApprovals ≤ ((db.approversOf requestId).length : Int) + 1) →
      StatusSet db db' request status →
      db'.accessApprovals = db.accessApprovals ++ [⟨requestId, approverId⟩] →
      List.Forall₂ (op.Regrants db request status) db.accessGrantKeys db'.accessGrantKeys →
        Consents db op db'
  | resolved {args : ResolveAccessArgs} {fresh : Fresh} {db' : Db} {request : AccessRequest} :
      args.status = "denied" ∨ args.status = "revoked" →
      db.getAccessRequest args.requestId = some request →
      StatusSet db db' request args.status → db'.accessApprovals = db.accessApprovals →
      db'.accessGrantKeys = db.accessGrantKeys → Consents db (.resolve args fresh) db'

theorem Approves.consents {db db' : Db} {requestId : Uuid} {approverId : String}
    {request : AccessRequest} {rows : List AccessGrantKey} {status : String} {fresh : Fresh}
    {op : VaultOp} (h : Approves db requestId approverId request rows status fresh db')
    (hop : op.Approves requestId approverId)
    (hrows : List.Forall₂ (op.Regrants db request status) db.accessGrantKeys rows) :
    Consents db op db' := by
  obtain ⟨hfound, hpending, hnew, requests, hrequests, hnoted⟩ := h
  obtain ⟨hreq, happ, hgrant⟩ := hnoted.sameConsents
  have hquorum : status = "pending" ∨ status = "approved" ∧
      request.requiredApprovals ≤ ((db.approversOf requestId).length : Int) + 1 :=
    hrequests.imp And.left fun h => ⟨h.1, h.2.1⟩
  have hset : StatusSet db db' request status := by
    rcases hrequests with ⟨rfl, rfl⟩ | ⟨rfl, -, rfl⟩
    · exact Or.inl ⟨hpending, hreq⟩
    · exact Or.inr hreq
  exact .approved hop hfound hpending hnew hquorum hset happ (hgrant ▸ hrows)

/-- Every call does one of these. -/
theorem VaultOp.run_consents {svc : SigningKeyPair} {db db' : Db} {op : VaultOp}
    (h : op.run svc db = .ok db') : Consents db op db' := by
  have hself : SameConsents db db := ⟨rfl, rfl, rfl⟩
  cases op with
  | record args fresh =>
    obtain ⟨⟨_, out⟩, hrecord, rfl⟩ := Except.map_eq_ok.mp h
    obtain ⟨e, he, -⟩ := recordEvent_recorded hrecord
    exact .idle nofun he.sameConsents
  | erase args fresh =>
    obtain ⟨⟨_, out⟩, herase, rfl⟩ := Except.map_eq_ok.mp h
    obtain ⟨target, herased, -⟩ := eraseEventPayload_erased herase
    obtain ⟨f, e, -, he⟩ := herased.recorded
    obtain ⟨hreq, happ, hgrant⟩ := he.sameConsents
    exact .idle nofun ⟨hreq, happ, hgrant⟩
  | enableCustomerKey orgId pem =>
    have hswitch : enableCustomerKeyMode db orgId pem = .ok db' := h
    unfold enableCustomerKeyMode at hswitch
    cases hget : db.getOrgById orgId with
    | none => simp [hget] at hswitch
    | some org =>
      rw [hget] at hswitch
      obtain rfl := Except.ok.inj hswitch
      exact .idle nofun ⟨rfl, rfl, rfl⟩
  | createRequest args fresh =>
    have hfiled := createAccessRequest_filed h
    obtain ⟨opened, -, hnoted⟩ := hfiled.noted
    obtain ⟨hreq, happ, hgrant⟩ := hnoted.sameConsents
    exact .filed hfiled.new hreq happ hgrant
  | approve args fresh =>
    rcases approveAccessRequest_approves h with rfl | ⟨request, rows, status, happroves, hrows⟩
    · exact .idle nofun hself
    · refine happroves.consents ⟨rfl, rfl⟩ ?_
      rcases hrows with ⟨-, rfl⟩ | ⟨hstatus, hrows⟩
      · exact List.forall₂_same.mpr fun g _ => Or.inl rfl
      · exact hrows.imp fun g g' hg => Or.inr ⟨hstatus, hg⟩
  | clientApprove args fresh =>
    rcases recordClientApproval_approves h with rfl | ⟨request, status, happroves, -⟩
    · exact .idle nofun hself
    · refine happroves.consents ⟨rfl, rfl⟩ ?_
      exact List.forall₂_map_right_iff.mpr (List.forall₂_same.mpr fun g _ => rfl)
  | resolve args fresh =>
    obtain ⟨hstatus, request, hfound, ⟨hsame, rfl⟩ | hnoted⟩ := resolveAccessRequest_eq_ok h
    · exact .resolved hstatus hfound (Or.inl ⟨hsame, rfl⟩) rfl rfl
    · obtain ⟨hreq, happ, hgrant⟩ := hnoted.sameConsents
      exact .resolved hstatus hfound (Or.inr hreq) happ hgrant
  | read requestId payloadHash now fresh =>
    obtain ⟨⟨_, result⟩, hread, rfl⟩ := Except.map_eq_ok.mp h
    rcases readViaGrant_eq_ok hread with ⟨-, rfl⟩ | ⟨content, request, -, hreads⟩
    · exact .idle nofun hself
    · exact .idle nofun hreads.noted.sameConsents

/-- An approval leaves the columns of a grant. -/
theorem VaultOp.Regrants.columns {db : Db} {request : AccessRequest} {status : String}
    {op : VaultOp} {g g' : AccessGrantKey} (h : op.Regrants db request status g g') :
    g'.requestId = g.requestId ∧ g'.payloadHash = g.payloadHash := by
  cases op with
  | approve args fresh =>
    rcases h with rfl | ⟨-, rfl | ⟨-, row, pem, key, -, -, -, -, rfl⟩⟩
    · exact ⟨rfl, rfl⟩
    · exact ⟨rfl, rfl⟩
    · exact ⟨rfl, rfl⟩
  | clientApprove args fresh =>
    obtain rfl : g' = postKey args g := h
    exact ⟨postKey_requestId args g, postKey_payloadHash args g⟩
  | record | erase | enableCustomerKey | createRequest | resolve | read =>
    obtain rfl : g' = g := h
    exact ⟨rfl, rfl⟩

/-! ## The status of a request -/

theorem StatusSet.ids {db db' : Db} {request : AccessRequest} {status : String}
    (h : StatusSet db db' request status) :
    db'.accessRequests.map AccessRequest.id = db.accessRequests.map AccessRequest.id := by
  rcases h with ⟨-, heq⟩ | heq
  · rw [heq]
  · rw [heq, Db.setAccessRequest, List.map_map]
    refine List.map_congr_left fun r _ => ?_
    simp only [Function.comp_apply]
    split <;> rename_i hid
    · exact hid.symm
    · rfl

/-- Where ids are keys, one request changes and the others stay. -/
theorem StatusSet.mem {db db' : Db} {request : AccessRequest} {status : String}
    (h : StatusSet db db' request status) (hids : (db.accessRequests.map AccessRequest.id).Nodup)
    {requestId : Uuid} (hfound : db.getAccessRequest requestId = some request)
    {r : AccessRequest} : r ∈ db'.accessRequests ↔
      r ∈ db.accessRequests ∧ r.id ≠ requestId ∨ r = { request with status := status } := by
  obtain ⟨hmem, hid⟩ := Db.mem_of_getAccessRequest hfound
  have honly : ∀ x ∈ db.accessRequests, x.id = requestId → x = request := fun x hx hxid =>
    List.inj_on_of_nodup_map hids hx hmem (hxid.trans hid.symm)
  rcases h with ⟨hsame, heq⟩ | heq
  · rw [heq, request.withStatus_self hsame]
    constructor
    · intro hr
      by_cases hrid : r.id = requestId
      · exact Or.inr (honly r hr hrid)
      · exact Or.inl ⟨hr, hrid⟩
    · rintro (⟨hr, -⟩ | rfl)
      · exact hr
      · exact hmem
  · rw [heq, Db.setAccessRequest, List.mem_map]
    constructor
    · rintro ⟨x, hx, rfl⟩
      split <;> rename_i hxid
      · exact Or.inr rfl
      · exact Or.inl ⟨hx, fun h => hxid (h.trans hid.symm)⟩
    · rintro (⟨hr, hrid⟩ | rfl)
      · exact ⟨r, hr, if_neg fun h => hrid (h.trans hid)⟩
      · exact ⟨request, hmem, if_pos rfl⟩

/-! ## The invariant -/

/-- A call by which this approver approves the request has been made. -/
def Vault.ApprovedBy (w : Vault) (requestId : Uuid) (approverId : String) : Prop :=
  ∃ op db, (op, db) ∈ w.past ∧ op.Approves requestId approverId

/-- A call that denies or revokes the request has been made. -/
def Vault.Resolved (w : Vault) (requestId : Uuid) : Prop :=
  ∃ args fresh db, (.resolve args fresh, db) ∈ w.past ∧ args.requestId = requestId

/-- The request is as this call filed it but for its status, and its records are the
call's. -/
structure FiledAs (w : Vault) (r : AccessRequest) (args : AccessRequestArgs)
    (fresh : RequestFresh) : Prop where
  called : ∃ db, (.createRequest args fresh, db) ∈ w.past
  row : r = { filedRequest args fresh with status := r.status }
  scope : ∀ g ∈ w.db.accessGrantKeys, g.requestId = r.id → g.payloadHash ∈ args.payloadHashes

/-- What holds of the consent tables in every state. -/
structure Granted (w : Vault) : Prop where
  ids : (w.db.accessRequests.map AccessRequest.id).Nodup
  filed : ∀ r ∈ w.db.accessRequests, ∃ args fresh, FiledAs w r args fresh
  requested : ∀ g ∈ w.db.accessGrantKeys, ∃ r ∈ w.db.accessRequests, r.id = g.requestId
  approvers : ∀ requestId, (w.db.approversOf requestId).Nodup
  approved : ∀ a ∈ w.db.accessApprovals, w.ApprovedBy a.requestId a.approverId
  quorum : ∀ r ∈ w.db.accessRequests, r.status = "approved" →
    r.requiredApprovals ≤ ((w.db.approversOf r.id).length : Int)
  resolved : ∀ requestId, w.Resolved requestId → ∃ r ∈ w.db.accessRequests,
    r.id = requestId ∧ (r.status = "denied" ∨ r.status = "revoked")

theorem approversOf_congr {db db' : Db} (h : db'.accessApprovals = db.accessApprovals)
    (requestId : Uuid) : db'.approversOf requestId = db.approversOf requestId := by
  simp only [Db.approversOf, h]

theorem approversOf_concat {db db' : Db} {a : AccessApproval}
    (h : db'.accessApprovals = db.accessApprovals ++ [a]) (requestId : Uuid) :
    db'.approversOf requestId =
      db.approversOf requestId ++ if a.requestId = requestId then [a.approverId] else [] := by
  simp only [Db.approversOf, h, List.filter_append, List.map_append]
  by_cases hid : a.requestId = requestId
  · simp [hid]
  · simp [hid]

theorem Vault.ApprovedBy.later {w : Vault} {requestId : Uuid} {approverId : String}
    (h : w.ApprovedBy requestId approverId) (db' : Db) (op : VaultOp) :
    Vault.ApprovedBy ⟨db', (op, w.db) :: w.past⟩ requestId approverId := by
  obtain ⟨op', db, hmem, hop⟩ := h
  exact ⟨op', db, List.mem_cons_of_mem _ hmem, hop⟩

theorem Vault.Resolved.cases {w : Vault} {db' : Db} {op : VaultOp} {requestId : Uuid}
    (h : Vault.Resolved ⟨db', (op, w.db) :: w.past⟩ requestId) :
    (∃ args fresh, op = .resolve args fresh ∧ args.requestId = requestId) ∨
      w.Resolved requestId := by
  obtain ⟨args, fresh, db, hmem, hid⟩ := h
  rcases List.mem_cons.mp hmem with heq | hmem
  · exact Or.inl ⟨args, fresh, (Prod.mk.inj heq).1.symm, hid⟩
  · exact Or.inr ⟨args, fresh, db, hmem, hid⟩

theorem FiledAs.later {w : Vault} {r r' : AccessRequest} {args : AccessRequestArgs}
    {fresh : RequestFresh} (h : FiledAs w r args fresh) (db' : Db) (op : VaultOp)
    (hr : r' = { r with status := r'.status })
    (hgrants : ∀ g ∈ db'.accessGrantKeys, g.requestId = r.id →
      ∃ g' ∈ w.db.accessGrantKeys, g'.requestId = g.requestId ∧ g'.payloadHash = g.payloadHash) :
    FiledAs ⟨db', (op, w.db) :: w.past⟩ r' args fresh := by
  obtain ⟨⟨db, hmem⟩, hrow, hscope⟩ := h
  have hid : r'.id = r.id := by rw [hr]
  refine ⟨⟨db, List.mem_cons_of_mem _ hmem⟩, ?_, ?_⟩
  · rw [hr, hrow]
  · intro g hg hgid
    obtain ⟨g', hg', hgid', hhash⟩ := hgrants g hg (hgid.trans hid)
    exact hhash ▸ hscope g' hg' (hgid'.trans (hgid.trans hid))

/-- A call that leaves the consent tables. -/
theorem Granted.idle {w : Vault} (h : Granted w) {db' : Db} {op : VaultOp}
    (hop : ∀ args fresh, op ≠ .resolve args fresh) (hsame : SameConsents w.db db') :
    Granted ⟨db', (op, w.db) :: w.past⟩ := by
  obtain ⟨hreq, happ, hgrant⟩ := hsame
  have hof := approversOf_congr happ
  refine ⟨hreq ▸ h.ids, ?_, ?_, fun id => hof id ▸ h.approvers id, ?_, ?_, ?_⟩
  · intro r hr
    obtain ⟨args, fresh, hfiled⟩ := h.filed r (hreq ▸ hr)
    exact ⟨args, fresh, hfiled.later db' op rfl fun g hg _ => ⟨g, hgrant ▸ hg, rfl, rfl⟩⟩
  · rw [hreq, hgrant]
    exact h.requested
  · intro a ha
    exact (h.approved a (happ ▸ ha)).later db' op
  · intro r hr hstatus
    rw [hof]
    exact h.quorum r (hreq ▸ hr) hstatus
  · intro requestId hresolved
    rw [hreq]
    rcases hresolved.cases with ⟨args, fresh, rfl, -⟩ | hresolved
    · exact absurd rfl (hop args fresh)
    · exact h.resolved requestId hresolved

/-- A request that is filed. -/
theorem Granted.filedOne {w : Vault} (h : Granted w) {db' : Db} {args : AccessRequestArgs}
    {fresh : RequestFresh} (hnew : ∀ x ∈ w.db.accessRequests, x.id ≠ fresh.id)
    (hreq : db'.accessRequests = w.db.accessRequests ++ [filedRequest args fresh])
    (happ : db'.accessApprovals = w.db.accessApprovals)
    (hgrant : db'.accessGrantKeys =
      w.db.accessGrantKeys ++ args.payloadHashes.map (fun h => ⟨fresh.id, h, none⟩)) :
    Granted ⟨db', (.createRequest args fresh, w.db) :: w.past⟩ := by
  have hof := approversOf_congr happ
  have hscope : ∀ g ∈ db'.accessGrantKeys, g ∈ w.db.accessGrantKeys ∨
      g.requestId = fresh.id ∧ g.payloadHash ∈ args.payloadHashes := by
    intro g hg
    rw [hgrant] at hg
    refine (List.mem_append.mp hg).imp_right fun hg => ?_
    obtain ⟨payloadHash, hmem, rfl⟩ := List.mem_map.mp hg
    exact ⟨rfl, hmem⟩
  refine ⟨?_, ?_, ?_, fun id => hof id ▸ h.approvers id, ?_, ?_, ?_⟩
  · rw [hreq]
    exact nodup_map_concat h.ids hnew
  · intro r hr
    rw [hreq] at hr
    rcases List.mem_append.mp hr with hr | hr
    · obtain ⟨args', fresh', hfiled⟩ := h.filed r hr
      refine ⟨args', fresh', hfiled.later db' _ rfl fun g hg hgid => ?_⟩
      rcases hscope g hg with hold | ⟨hid, -⟩
      · exact ⟨g, hold, rfl, rfl⟩
      · exact absurd (hgid.symm.trans hid) (hnew r hr)
    · obtain rfl := List.mem_singleton.mp hr
      refine ⟨args, fresh, ⟨w.db, List.mem_cons_self⟩, rfl, fun g hg hgid => ?_⟩
      rcases hscope g hg with hold | ⟨-, hhash⟩
      · obtain ⟨x, hx, hxid⟩ := h.requested g hold
        exact absurd (hxid.trans hgid) (hnew x hx)
      · exact hhash
  · intro g hg
    rw [hreq]
    rcases hscope g hg with hold | ⟨hid, -⟩
    · obtain ⟨x, hx, hxid⟩ := h.requested g hold
      exact ⟨x, List.mem_append_left _ hx, hxid⟩
    · exact ⟨filedRequest args fresh, by simp, hid.symm⟩
  · intro a ha
    exact (h.approved a (happ ▸ ha)).later db' _
  · intro r hr hstatus
    rw [hof]
    rw [hreq] at hr
    rcases List.mem_append.mp hr with hr | hr
    · exact h.quorum r hr hstatus
    · obtain rfl := List.mem_singleton.mp hr
      exact absurd hstatus (by simp [filedRequest, newRequest])
  · intro requestId hresolved
    rw [hreq]
    rcases hresolved.cases with ⟨_, _, heq, -⟩ | hresolved
    · cases heq
    · obtain ⟨r, hr, hrest⟩ := h.resolved requestId hresolved
      exact ⟨r, List.mem_append_left _ hr, hrest⟩

/-- A call that sets the status of a request to one that fits : its approvals are enough
where it is approved, and a resolved request stays resolved. -/
theorem Granted.statusSet {w : Vault} (h : Granted w) {db' : Db} {op : VaultOp}
    {requestId : Uuid} {request : AccessRequest} {status : String}
    (hfound : w.db.getAccessRequest requestId = some request)
    (hset : StatusSet w.db db' request status)
    (hgrants : ∀ g ∈ db'.accessGrantKeys, ∃ g' ∈ w.db.accessGrantKeys,
      g'.requestId = g.requestId ∧ g'.payloadHash = g.payloadHash)
    (happrovers : ∀ id, (db'.approversOf id).Nodup)
    (happroved : ∀ a ∈ db'.accessApprovals,
      Vault.ApprovedBy ⟨db', (op, w.db) :: w.past⟩ a.requestId a.approverId)
    (hmore : ∀ id, (w.db.approversOf id).length ≤ (db'.approversOf id).length)
    (hquorum : status = "approved" →
      request.requiredApprovals ≤ ((db'.approversOf requestId).length : Int))
    (hresolved : (status = "denied" ∨ status = "revoked") ∨
      request.status = "pending" ∧ ∀ args fresh, op ≠ .resolve args fresh)
    (hother : ∀ args fresh, op = .resolve args fresh → args.requestId = requestId) :
    Granted ⟨db', (op, w.db) :: w.past⟩ := by
  obtain ⟨hmem, hid⟩ := Db.mem_of_getAccessRequest hfound
  have hrows : ∀ r, r ∈ db'.accessRequests ↔ r ∈ w.db.accessRequests ∧ r.id ≠ requestId ∨
      r = { request with status := status } := fun r => hset.mem h.ids hfound
  refine ⟨hset.ids ▸ h.ids, ?_, ?_, happrovers, happroved, ?_, ?_⟩
  · intro r hr
    rcases (hrows r).mp hr with ⟨hr, -⟩ | rfl
    · obtain ⟨args, fresh, hfiled⟩ := h.filed r hr
      exact ⟨args, fresh, hfiled.later db' op rfl fun g hg _ => hgrants g hg⟩
    · obtain ⟨args, fresh, hfiled⟩ := h.filed request hmem
      exact ⟨args, fresh, hfiled.later db' op rfl fun g hg _ => hgrants g hg⟩
  · intro g hg
    obtain ⟨g', hg', hgid, -⟩ := hgrants g hg
    obtain ⟨r, hr, hrid⟩ := h.requested g' hg'
    rw [hgid] at hrid
    by_cases heq : r.id = requestId
    · exact ⟨_, (hrows _).mpr (Or.inr rfl), hid.trans (heq.symm.trans hrid)⟩
    · exact ⟨r, (hrows r).mpr (Or.inl ⟨hr, heq⟩), hrid⟩
  · intro r hr hstatus
    rcases (hrows r).mp hr with ⟨hr, -⟩ | rfl
    · have hold := h.quorum r hr hstatus
      have hle : ((w.db.approversOf r.id).length : Int) ≤ (db'.approversOf r.id).length := by
        exact_mod_cast hmore r.id
      exact hold.trans hle
    · rw [hid]
      exact hquorum hstatus
  · intro id hresolve
    by_cases heq : id = requestId
    · subst heq
      rcases hresolved with hdone | ⟨hpending, hop⟩
      · exact ⟨_, (hrows _).mpr (Or.inr rfl), hid, hdone⟩
      · rcases hresolve.cases with ⟨args, fresh, rfl, -⟩ | hresolve
        · exact absurd rfl (hop args fresh)
        · obtain ⟨r, hr, hrid, hstatus⟩ := h.resolved id hresolve
          obtain rfl := List.inj_on_of_nodup_map h.ids hr hmem (hrid.trans hid.symm)
          rw [hpending] at hstatus
          exact absurd hstatus (by decide)
    · rcases hresolve.cases with ⟨args, fresh, hop, hargs⟩ | hresolve
      · exact absurd (hargs.symm.trans (hother args fresh hop)) heq
      · obtain ⟨r, hr, hrid, hstatus⟩ := h.resolved id hresolve
        exact ⟨r, (hrows r).mpr (Or.inl ⟨hr, fun hreq => heq (hrid.symm.trans hreq)⟩),
          hrid, hstatus⟩

/-- Every call keeps the invariant. -/
theorem Granted.call {w : Vault} (h : Granted w) {db' : Db} {op : VaultOp}
    (hc : Consents w.db op db') : Granted ⟨db', (op, w.db) :: w.past⟩ := by
  cases hc with
  | idle hop hsame => exact h.idle hop hsame
  | filed hnew hreq happ hgrant => exact h.filedOne hnew hreq happ hgrant
  | @approved _ _ requestId approverId status request hop hfound hpending hnew hstatus hset happ
      hgrants =>
    have hnot : ∀ args fresh, op ≠ .resolve args fresh := by
      rintro args fresh rfl
      exact hop
    have hof := approversOf_concat happ
    refine h.statusSet hfound hset ?_ ?_ ?_ ?_ ?_ (Or.inr ⟨hpending, hnot⟩)
      fun args fresh heq => absurd heq (hnot args fresh)
    · intro g' hg'
      obtain ⟨g, hg, hregrants⟩ := exists_of_forall₂ hgrants hg'
      exact ⟨g, hg, hregrants.columns.1.symm, hregrants.columns.2.symm⟩
    · intro id
      rw [hof]
      by_cases hid : requestId = id
      · subst hid
        rw [if_pos rfl]
        exact List.Nodup.append (h.approvers requestId) (List.nodup_singleton _)
          (List.disjoint_singleton.mpr hnew)
      · rw [if_neg hid, List.append_nil]
        exact h.approvers id
    · intro a ha
      rw [happ] at ha
      rcases List.mem_append.mp ha with ha | ha
      · exact (h.approved a ha).later db' op
      · obtain rfl := List.mem_singleton.mp ha
        exact ⟨op, w.db, List.mem_cons_self, hop⟩
    · intro id
      rw [hof, List.length_append]
      omega
    · rintro rfl
      rcases hstatus with hpend | ⟨-, hcount⟩
      · exact absurd hpend (by decide)
      · rw [hof, if_pos rfl, List.length_append, List.length_singleton]
        exact_mod_cast hcount
  | @resolved args fresh _ request hstatus hfound hset happ hgrant =>
    have hof := approversOf_congr happ
    refine h.statusSet hfound hset (fun g hg => ⟨g, hgrant ▸ hg, rfl, rfl⟩)
      (fun id => hof id ▸ h.approvers id) (fun a ha => (h.approved a (happ ▸ ha)).later db' _)
      (fun id => (congrArg List.length (hof id)).ge) ?_ (Or.inl hstatus) ?_
    · rintro hdone
      rw [hdone] at hstatus
      exact absurd hstatus (by decide)
    · rintro args' fresh' heq
      cases heq
      rfl

variable {svc : SigningKeyPair} {allowed : Db → VaultOp → Prop}

theorem granted_of_reachable {w : Vault} (h : (vault svc allowed).Reachable w) : Granted w := by
  refine TransitionSystem.invariant (P := Granted) ?_ ?_ h
  · rintro w ⟨hpast, hbare⟩
    refine ⟨by simp [hbare.accessRequests], by simp [hbare.accessRequests],
      by simp [hbare.accessGrantKeys], by simp [Db.approversOf, hbare.accessApprovals],
      by simp [hbare.accessApprovals], by simp [hbare.accessRequests], ?_⟩
    rintro requestId ⟨args, fresh, db, hmem, -⟩
    rw [hpast] at hmem
    cases hmem
  · rintro w w' hw ⟨-, hcall⟩
    exact hw.call (VaultOp.run_consents hcall)

/-! ## Erased content -/

/-- A call that erases the content has been made. -/
def Vault.Erased (w : Vault) (orgId payloadHash : String) : Prop :=
  ∃ op db, (op, db) ∈ w.past ∧ op.Erases db orgId payloadHash

/-- The row of the content is marked. -/
def Db.Marked (db : Db) (orgId payloadHash : String) : Prop :=
  ∃ p ∈ db.payloads, p.orgId = orgId ∧ p.payloadHash = payloadHash ∧ p.erasedAt ≠ none

theorem Db.Marked.shred {db : Db} {orgId payloadHash : String} (h : db.Marked orgId payloadHash)
    (orgId' payloadHash' now : String) :
    (db.shred orgId' payloadHash' now).Marked orgId payloadHash := by
  obtain ⟨p, hp, horg, hhash, hmark⟩ := h
  refine ⟨p, Db.mem_payloads_shred.mpr ⟨p, hp, ?_⟩, horg, hhash, hmark⟩
  rw [if_neg fun hcols => hmark hcols.2.2]

theorem Touched.marked {db db₁ : Db} {op : VaultOp} (ht : Touched db op db₁)
    {orgId payloadHash : String} (h : db.Marked orgId payloadHash) :
    db₁.Marked orgId payloadHash := by
  cases ht with
  | kept _ hpayloads _ _ _ _ _ => rwa [Db.Marked, hpayloads]
  | shredded _ _ _ _ => exact h.shred _ _ _
  | switched _ => exact h

theorem Recorded.marked {db db' : Db} {args : RecordArgs} {fresh : Fresh} {e : Event}
    (hr : Recorded db args fresh e db') {orgId payloadHash : String}
    (h : db.Marked orgId payloadHash) : db'.Marked orgId payloadHash := by
  obtain ⟨p, hp, hrest⟩ := h
  rcases hr.content with ⟨-, hpayloads, -⟩ | ⟨-, rows, -, hpayloads, -⟩
  · exact ⟨p, hpayloads ▸ hp, hrest⟩
  · exact ⟨p, hpayloads ▸ List.mem_append_left _ hp, hrest⟩

/-- Every call keeps the marks, and an erasure sets its own. -/
theorem VaultOp.run_marked {db db' : Db} {op : VaultOp} (hrun : op.run svc db = .ok db')
    {orgId payloadHash : String}
    (h : db.Marked orgId payloadHash ∨ op.Erases db orgId payloadHash) :
    db'.Marked orgId payloadHash := by
  rcases h with h | h
  · obtain ⟨db₁, htouched, rfl | ⟨args, fresh, e, -, he⟩⟩ := VaultOp.run_touched hrun
    · exact htouched.marked h
    · exact he.marked (htouched.marked h)
  · cases op with
    | erase args fresh =>
      obtain ⟨rfl, target, htarget, rfl⟩ := h
      obtain ⟨⟨_, out⟩, herase, rfl⟩ := Except.map_eq_ok.mp hrun
      obtain ⟨target', herased, -⟩ := eraseEventPayload_erased herase
      obtain rfl := Option.some.inj (htarget.symm.trans herased.target_eq)
      obtain ⟨p, hp, hunerased⟩ := herased.payload
      obtain ⟨hmem, horg, hhash⟩ := Db.mem_of_getPayload hp
      obtain ⟨f, e, -, he⟩ := herased.recorded
      refine he.marked ⟨{ p with erasedAt := some fresh.erasedAt },
        Db.mem_payloads_shred.mpr ⟨p, hmem, ?_⟩, horg, hhash, nofun⟩
      rw [if_pos ⟨horg, hhash, hunerased⟩]
    | record | enableCustomerKey | createRequest | approve | clientApprove | resolve | read =>
      exact h.elim

/-- What was erased stays marked. -/
theorem marked_of_reachable {w : Vault} (h : (vault svc allowed).Reachable w) :
    ∀ orgId payloadHash, w.Erased orgId payloadHash → w.db.Marked orgId payloadHash := by
  refine TransitionSystem.invariant (P := fun w => ∀ orgId payloadHash,
    w.Erased orgId payloadHash → w.db.Marked orgId payloadHash) ?_ ?_ h
  · rintro w ⟨hpast, -⟩ orgId payloadHash ⟨op, db, hmem, -⟩
    rw [hpast] at hmem
    cases hmem
  · rintro w w' ih ⟨-, hcall⟩ orgId payloadHash ⟨op, db, hmem, herases⟩
    rcases List.mem_cons.mp hmem with heq | hmem
    · obtain ⟨rfl, rfl⟩ := Prod.mk.inj heq
      exact VaultOp.run_marked hcall (Or.inr herases)
    · exact VaultOp.run_marked hcall (Or.inl (ih _ _ ⟨op, db, hmem, herases⟩))

/-! ## Reading through a grant -/

/-- What lets a read through : the request was filed for the record by `args`, as many
as it asks for have approved it, no one has denied or revoked it, it has not expired, and
the record has not been erased. -/
structure ReadAllowed (w : Vault) (requestId : Uuid) (payloadHash : String) (now : Int)
    (args : AccessRequestArgs) (filing : RequestFresh) : Prop where
  filed : filing.id = requestId ∧ ∃ db, (.createRequest args filing, db) ∈ w.past
  approved : ∃ approvers : List String, approvers.Nodup ∧
    max 1 args.requiredApprovals ≤ (approvers.length : Int) ∧
      ∀ approverId ∈ approvers, w.ApprovedBy requestId approverId
  unresolved : ¬w.Resolved requestId
  unexpired : now < filing.now + args.ttlSeconds * 1000000
  scope : payloadHash ∈ args.payloadHashes
  unerased : ¬w.Erased args.orgId payloadHash

/-- A read through a grant returns content only where it is allowed, and then it is the
next event of the trace of the request ; a read that returns nothing leaves the database
as it was. -/
theorem read_safe {w : Vault} (h : (vault svc anyCall).Reachable w) {requestId : Uuid}
    {payloadHash : String} {now : Int} {fresh : Fresh} {db' : Db} {result : Option Dict}
    (hread : readViaGrant svc w.db requestId payloadHash now fresh = .ok (db', result)) :
    (∀ content, result = some content → ∃ args filing,
      ReadAllowed w requestId payloadHash now args filing ∧
      ∃ e, e.type = "access_read" ∧ e.orgId = args.orgId ∧ e.traceId = filing.traceId ∧
        db'.events = w.db.events ++ [e]) ∧
      (result = none → db' = w.db) := by
  have hgranted := granted_of_reachable h
  rcases readViaGrant_eq_ok hread with ⟨rfl, rfl⟩ | ⟨content, request, rfl, hreads⟩
  · exact ⟨nofun, fun _ => rfl⟩
  · refine ⟨fun _ _ => ?_, nofun⟩
    obtain ⟨hmem, hid⟩ := Db.mem_of_getAccessRequest hreads.found
    obtain ⟨args, filing, hfiled⟩ := hgranted.filed request hmem
    have hrow := hfiled.row
    have hfid : filing.id = requestId := by rw [← hid, hrow]; rfl
    have horg : request.orgId = args.orgId := by rw [hrow]; rfl
    have htrace : request.traceId = some filing.traceId := by rw [hrow]; rfl
    refine ⟨args, filing, ⟨⟨hfid, hfiled.called⟩, ?_, ?_, ?_, ?_, ?_⟩, ?_⟩
    · refine ⟨w.db.approversOf requestId, hgranted.approvers requestId, ?_, ?_⟩
      · have hquorum := hgranted.quorum request hmem hreads.approved
        rw [hid, hrow] at hquorum
        exact hquorum
      · intro approverId happrover
        obtain ⟨a, ha, rfl⟩ := List.mem_map.mp happrover
        obtain ⟨ha, haid⟩ := List.mem_filter.mp ha
        have hby := hgranted.approved a ha
        rwa [of_decide_eq_true haid] at hby
    · intro hresolved
      obtain ⟨r, hr, hrid, hstatus⟩ := hgranted.resolved requestId hresolved
      obtain rfl := List.inj_on_of_nodup_map hgranted.ids hr hmem (hrid.trans hid.symm)
      rw [hreads.approved] at hstatus
      exact absurd hstatus (by decide)
    · have hunexpired := hreads.unexpired
      rw [hrow] at hunexpired
      exact hunexpired
    · obtain ⟨g, hg, rfl⟩ := hreads.scope
      obtain ⟨hg, hgid⟩ := List.mem_filter.mp hg
      exact hfiled.scope g hg ((of_decide_eq_true hgid).trans hid.symm)
    · intro herased
      obtain ⟨q, hq, hqorg, hqhash, hmark⟩ := marked_of_reachable h _ _ herased
      obtain ⟨p, hp, hunerased, -⟩ := hreads.stored
      have hget := Db.getPayload_of_mem (stocked_of_reachable h).keyed.payloads hq
      rw [hqorg, hqhash, ← horg, hp] at hget
      obtain rfl := Option.some.inj hget
      exact hmark hunerased
    · rcases hreads.noted with ⟨hnone, -⟩ | ⟨traceId, seq, payload, e, hsome, he⟩
      · rw [htrace] at hnone
        cases hnone
      · obtain rfl := Option.some.inj (htrace.symm.trans hsome)
        obtain ⟨ts, ps, ks, hdb⟩ := he.others
        exact ⟨e, he.records.type_eq, he.records.orgId_eq.trans horg, he.records.traceId_eq,
          by rw [hdb]⟩

end Calls

/-! ## A sample ceremony -/

section Samples

open Sample

/-- The organisation of the samples, with a key of its own. -/
def sampleDark : Db :=
  { sampleBlank with orgs := [{ sampleOrg with confidentialityMode := "customer_key"
                                               wrappingPublicPem := some "organisation" }] }

theorem bare_sampleDark : sampleDark.Bare where
  orgs := by decide
  managed := by simp [sampleDark, sampleBlank, Db.empty]
  traces := rfl
  events := rfl
  payloads := rfl
  payloadKeys := rfl
  accessRequests := rfl
  accessApprovals := rfl
  accessGrantKeys := rfl

def sampleHash : String := sha256Hex (redactPayload sampleArgs.payload).1

theorem textOk_sampleHash : textOk sampleHash = true := by
  decide +kernel

/-- A request for the first event, by `required` approvals. -/
def sampleRequest (required : Int) : AccessRequestArgs :=
  ⟨"acme", "reviewer", [sampleHash], "audit", required, 3600⟩

def sampleFiling : RequestFresh where
  now := 0
  id := Uuid.ofNat 20
  pair := ⟨"grantee", "grantee", rfl, rfl, rfl⟩
  traceId := Uuid.ofNat 21
  event := sampleFreshOf 22

/-- An officer's client approves, with the key of the first event or without. -/
def sampleAnswer (key : Option ReleasedKey) : ClientApprovalArgs :=
  ⟨Uuid.ofNat 20, "officer", key.toList.map fun k => (sampleHash, k)⟩

/-- The key of the first event, wrapped to the grantee. -/
def sampleReleased : ReleasedKey := .key (.wrapped "grantee" [1])

/-- The stored content of the first event. -/
def SampleRow (p : Payload) : Prop :=
  p.orgId = "acme" ∧ p.payloadHash = sampleHash ∧ p.erasedAt = none ∧ p.encryptedBlob.key = [1]

/-- The database with the first event alone. -/
structure SampleStored (db : Db) : Prop where
  orgs : db.orgs = sampleDark.orgs
  requests : db.accessRequests = []
  grants : db.accessGrantKeys = []
  keys : ∀ row ∈ db.payloadKeys, row.key = .wrapped "organisation" [1]

/-- The first event, then a request for it. -/
theorem exists_filed_sample (required : Int) : ∃ db₁ w e x p,
    (vault sampleKey freshKeys).Reachable w ∧
      (w.past = [(.createRequest (sampleRequest required) sampleFiling, db₁),
        (.record (sampleFirst 1 sampleArgs.payload) (sampleFreshOf 1), sampleDark)] ∧
          SampleStored db₁) ∧
      w.db.orgs = sampleDark.orgs ∧
      w.db.events = [e, x] ∧ (e.Records (sampleFirst 1 sampleArgs.payload) ∧ e.id = Uuid.ofNat 1) ∧
      (x.id = Uuid.ofNat 22 ∧ x.traceId = Uuid.ofNat 21) ∧
      (∃ t ∈ w.db.traces, t.id = Uuid.ofNat 21 ∧ t.orgId = "acme") ∧
      (p ∈ w.db.payloads ∧ SampleRow p) ∧
      w.db.accessRequests = [filedRequest (sampleRequest required) sampleFiling] ∧
      w.db.accessApprovals = [] ∧ w.db.accessGrantKeys = [⟨Uuid.ofNat 20, sampleHash, none⟩] := by
  obtain ⟨db₁, out, e, hrecord, hr, htraces, hids⟩ :=
    bare_sampleDark.stocked.exists_first sampleKey 1
    sampleArgs.payload rfl (fun _ _ => rfl) nofun nofun
  have hinit : (vault sampleKey freshKeys).Reachable ⟨sampleDark, []⟩ :=
    .init ⟨rfl, bare_sampleDark⟩
  have hreach₁ : (vault sampleKey freshKeys).Reachable ⟨db₁, _⟩ :=
    hinit.step (.call (fun _ _ => nofun) (VaultOp.run_record hrecord))
  obtain ⟨ts, ps, ks, hdb₁⟩ := hr.others
  have horgs : db₁.orgs = sampleDark.orgs := by rw [hdb₁]
  have hrequests : db₁.accessRequests = [] := by rw [hdb₁]; rfl
  have hgrants : db₁.accessGrantKeys = [] := by rw [hdb₁]; rfl
  have happrovals : db₁.accessApprovals = [] := by rw [hdb₁]; rfl
  have hevents : db₁.events = [e] := by rw [hdb₁]; rfl
  obtain ⟨⟨p, hp, hrow⟩, hkeys⟩ : (∃ p ∈ db₁.payloads, SampleRow p) ∧
      ∀ row ∈ db₁.payloadKeys, row.key = .wrapped "organisation" [1] := by
    rcases hr.content with ⟨hsome, -⟩ | ⟨-, rows, hrows, hpayloads, hkeys⟩
    · cases hsome
    · refine ⟨⟨rows.1, hpayloads ▸ List.mem_append_right _ (List.mem_singleton.mpr rfl), ?_⟩, ?_⟩
      · rw [hrows]
        exact ⟨rfl, hr.hash_eq, rfl, rfl⟩
      · intro row hrow
        rw [hkeys] at hrow
        obtain rfl := List.mem_singleton.mp hrow
        rw [hrows]
        rfl
  obtain ⟨db₂, hfile⟩ : ∃ db₂, createAccessRequest sampleKey db₁ (sampleRequest required)
      sampleFiling = .ok db₂ :=
    (stocked_of_reachable hreach₁).exists_request sampleKey
      (show PyTime.inRange (0 + 3600 * 1000000) = true by decide)
      (show textOk "reviewer" = true ∧ textOk "audit" = true by decide) (List.nodup_singleton _)
        (fun h hh => by rw [List.mem_singleton.mp hh]; exact textOk_sampleHash)
      (by simp [hrequests]) (by simp [hgrants]) (by rw [Db.hasOrg, horgs]; rfl)
      (by rw [htraces]; decide) (by rw [hids]; decide) (fun _ _ => rfl)
  have hcall : (VaultOp.createRequest (sampleRequest required) sampleFiling).run sampleKey db₁ =
      .ok db₂ := hfile
  have hfresh : freshKeys db₁ (.createRequest (sampleRequest required) sampleFiling) :=
    freshKeys_of_past hreach₁ (by simp [VaultOp.contentKeys, sampleFiling, sampleFreshOf])
  have hreach₂ : (vault sampleKey freshKeys).Reachable ⟨db₂, _⟩ := hreach₁.step (.call hfresh hcall)
  obtain ⟨opened, -, hnoted⟩ := (createAccessRequest_filed hfile).noted
  obtain ⟨hreq, happ, hgrant⟩ := hnoted.sameConsents
  rcases hnoted with ⟨hnone, -⟩ | ⟨traceId, seq, payload, x, hsome, hx⟩
  · cases hnone
  · obtain rfl := Option.some.inj hsome
    obtain ⟨ts', ps', ks', hdb₂⟩ := hx.others
    refine ⟨db₁, ⟨db₂, _⟩, e, x, p, hreach₂, ⟨rfl, ⟨horgs, hrequests, hgrants, hkeys⟩⟩, ?_, ?_,
      ⟨hr.records, hr.id_eq⟩,
      ⟨hx.id_eq, hx.records.traceId_eq⟩, ?_, ⟨?_, hrow⟩, ?_, ?_, ?_⟩
    · rw [hdb₂]
      exact horgs
    · rw [hdb₂]
      exact congrArg (· ++ [x]) hevents
    · obtain ⟨-, -, opened', rows', hopens', -, rfl⟩ := hx
      exact hopens'.there
    · rcases hx.content with ⟨-, hpayloads, -⟩ | ⟨-, rows', -, hpayloads, -⟩
      · exact hpayloads ▸ hp
      · exact hpayloads ▸ List.mem_append_left _ hp
    · exact hreq.trans (congrArg (· ++ [_]) hrequests)
    · exact happ.trans happrovals
    · exact hgrant.trans (congrArg (· ++ _) hgrants)

/-- Then an officer's client approves. -/
theorem exists_answered_sample (required : Int) (key : Option ReleasedKey) :
    ∃ db₁ db₂ w e x y p,
    (vault sampleKey freshKeys).Reachable w ∧
      (w.past = [(.clientApprove (sampleAnswer key) (sampleFreshOf 23), db₂),
        (.createRequest (sampleRequest required) sampleFiling, db₁),
        (.record (sampleFirst 1 sampleArgs.payload) (sampleFreshOf 1), sampleDark)] ∧
          SampleStored db₁ ∧
          db₂.accessRequests = [filedRequest (sampleRequest required) sampleFiling] ∧
          db₂.accessGrantKeys = [⟨Uuid.ofNat 20, sampleHash, none⟩]) ∧
      w.db.orgs = sampleDark.orgs ∧
      w.db.events = [e, x, y] ∧
      (e.Records (sampleFirst 1 sampleArgs.payload) ∧ e.id = Uuid.ofNat 1) ∧
      (x.id = Uuid.ofNat 22 ∧ x.traceId = Uuid.ofNat 21) ∧
      (y.id = Uuid.ofNat 23 ∧ y.traceId = Uuid.ofNat 21) ∧
      (∃ t ∈ w.db.traces, t.id = Uuid.ofNat 21 ∧ t.orgId = "acme") ∧
      (p ∈ w.db.payloads ∧ SampleRow p) ∧
      w.db.accessRequests = [{ filedRequest (sampleRequest required) sampleFiling with
        status := if required ≤ 1 ∧ key.isSome = true then "approved" else "pending" }] ∧
      w.db.accessApprovals = [⟨Uuid.ofNat 20, "officer"⟩] ∧
      w.db.accessGrantKeys = [⟨Uuid.ofNat 20, sampleHash, key⟩] := by
  obtain ⟨db₁, w, e, x, p, hreach, ⟨hpast, hstored⟩, horgs, hevents, he, hx, ⟨t, ht, htid, hto⟩,
    ⟨hp, hrow⟩, hrequests, happrovals, hgrants⟩ := exists_filed_sample required
  have hfound : w.db.getAccessRequest (sampleAnswer key).requestId =
      some (filedRequest (sampleRequest required) sampleFiling) := by
    rw [Db.getAccessRequest, hrequests]
    rfl
  obtain ⟨db', hrelease, hnoted⟩ := (stocked_of_reachable hreach).exists_clientApproval sampleKey
    hfound rfl (by simp [Db.approversOf, happrovals]) (show textOk "officer" = true by decide) rfl
    ⟨t, ht, htid, hto⟩ (by rw [Db.hasOrg, horgs]; rfl)
    (show (sampleFreshOf 23).eventId ∉ w.db.events.map Event.id by
      rw [hevents, List.map_cons, List.map_singleton, he.2, hx.1]; decide)
    (fun _ _ => rfl)
  have hcall : (VaultOp.clientApprove (sampleAnswer key) (sampleFreshOf 23)).run sampleKey w.db =
      .ok db' := hrelease
  have hposted : (w.db.postApproval (sampleAnswer key)).accessGrantKeys =
      [⟨Uuid.ofNat 20, sampleHash, key⟩] := by
    cases key <;> simp [Db.postApproval, hgrants, postKey, sampleAnswer]
  have hquorum : quorumMet (w.db.postApproval (sampleAnswer key))
      (filedRequest (sampleRequest required) sampleFiling) =
        decide (required ≤ 1 ∧ key.isSome = true) := by
    have hcount :
        (w.db.postApproval (sampleAnswer key)).approversOf (Uuid.ofNat 20) = ["officer"] := by
      simp [Db.approversOf, Db.postApproval, happrovals, sampleAnswer]
    have hid : (filedRequest (sampleRequest required) sampleFiling).id = Uuid.ofNat 20 := rfl
    have hrequired : (filedRequest (sampleRequest required) sampleFiling).requiredApprovals =
      max 1 required := rfl
    simp [quorumMet, Db.scopeOf, hposted, hid, hcount, hrequired]
  have hsettled : (settleApproval (w.db.postApproval (sampleAnswer key))
        (filedRequest (sampleRequest required) sampleFiling)).1.accessRequests =
      [{ filedRequest (sampleRequest required) sampleFiling with
        status := if required ≤ 1 ∧ key.isSome = true then "approved" else "pending" }] ∧
      (settleApproval (w.db.postApproval (sampleAnswer key))
        (filedRequest (sampleRequest required) sampleFiling)).1.accessApprovals =
        [⟨Uuid.ofNat 20, "officer"⟩] ∧
      (settleApproval (w.db.postApproval (sampleAnswer key))
        (filedRequest (sampleRequest required) sampleFiling)).1.accessGrantKeys =
        (w.db.postApproval (sampleAnswer key)).accessGrantKeys ∧
      (settleApproval (w.db.postApproval (sampleAnswer key))
        (filedRequest (sampleRequest required) sampleFiling)).1.events = w.db.events ∧
      (settleApproval (w.db.postApproval (sampleAnswer key))
        (filedRequest (sampleRequest required) sampleFiling)).1.orgs = w.db.orgs ∧
      (settleApproval (w.db.postApproval (sampleAnswer key))
        (filedRequest (sampleRequest required) sampleFiling)).1.payloads = w.db.payloads ∧
      (settleApproval (w.db.postApproval (sampleAnswer key))
        (filedRequest (sampleRequest required) sampleFiling)).2.traceId = some (Uuid.ofNat 21) ∧
      (settleApproval (w.db.postApproval (sampleAnswer key))
        (filedRequest (sampleRequest required) sampleFiling)).2.orgId = "acme" := by
    unfold settleApproval
    rw [hquorum]
    by_cases hone : required ≤ 1 ∧ key.isSome = true
    · simp [hone, Db.setAccessRequest, Db.postApproval, hrequests, happrovals, sampleAnswer]
      exact ⟨rfl, rfl⟩
    · simp [hone, Db.postApproval, hrequests, happrovals, sampleAnswer]
      exact ⟨rfl, rfl, rfl⟩
  obtain ⟨hreq, happ, hgrant, hevents', horgs', hpayloads', htrace, horg⟩ := hsettled
  have hsame := hnoted.sameConsents
  rcases hnoted with ⟨hnone, -⟩ | ⟨traceId, seq, payload, y, hsome, hy⟩
  · rw [htrace] at hnone
    cases hnone
  · obtain rfl := Option.some.inj (htrace.symm.trans hsome)
    obtain ⟨ts, ps, ks, hdb⟩ := hy.others
    have hfresh : freshKeys w.db (.clientApprove (sampleAnswer key) (sampleFreshOf 23)) := by
      refine freshKeys_of_past hreach fun c hc key hkey => ?_
      have hop : c.1 ∈ w.past.map Prod.fst := List.mem_map_of_mem hc
      rw [hpast] at hop
      have hearlier : ∀ op ∈ [.createRequest (sampleRequest required) sampleFiling,
          .record (sampleFirst 1 sampleArgs.payload) (sampleFreshOf 1)],
          ∀ key ∈ VaultOp.contentKeys op, key ∉ [(sampleFreshOf 23).contentKey] := by
        simp [VaultOp.contentKeys, sampleFiling, sampleFreshOf]
      exact hearlier c.1 hop key hkey
    refine ⟨db₁, w.db, ⟨db', _⟩, e, x, y, p, hreach.step (.call hfresh hcall),
      ⟨by rw [hpast], hstored, hrequests, hgrants⟩, ?_, ?_, he, hx,
      ⟨hy.id_eq, hy.records.traceId_eq⟩, ?_, ⟨?_, hrow⟩, ?_, ?_, ?_⟩
    · rw [hdb]
      exact horgs'.trans horgs
    · rw [hdb, hevents', hevents]
      rfl
    · obtain ⟨-, -, opened, rows, hopens, -, rfl⟩ := hy
      obtain ⟨t', ht', htid', hto'⟩ := hopens.there
      exact ⟨t', ht', htid', hto'.trans horg⟩
    · rcases hy.content with ⟨-, hpayloads, -⟩ | ⟨-, rows', -, hpayloads, -⟩
      · rw [hpayloads, hpayloads']
        exact hp
      · rw [hpayloads, hpayloads']
        exact List.mem_append_left _ hp
    · rw [hsame.requests, hreq]
    · rw [hsame.approvals, happ]
    · rw [hsame.grants, hgrant, hposted]

/-- An officer's approval later the record can be read, and the read is on the trace. -/
theorem read_safe_sample : ∃ (w : Vault) (db' : Db) (content : Dict),
    readViaGrant sampleKey w.db (Uuid.ofNat 20) sampleHash 1 (sampleFreshOf 24) =
      .ok (db', some content) ∧ ∃ args filing,
        ReadAllowed w (Uuid.ofNat 20) sampleHash 1 args filing ∧
        ∃ e, e.type = "access_read" ∧ e.orgId = args.orgId ∧ e.traceId = filing.traceId ∧
          db'.events = w.db.events ++ [e] := by
  obtain ⟨-, -, w, e, x, y, p, hreach, -, horgs, hevents, he, hx, hy, hthere, ⟨hp, hporg, hphash,
    hunerased, hpkey⟩, hrequests, -, hgrants⟩ := exists_answered_sample 1 (some sampleReleased)
  have hfound : w.db.getAccessRequest (Uuid.ofNat 20) =
      some { filedRequest (sampleRequest 1) sampleFiling with status := "approved" } := by
    rw [Db.getAccessRequest, hrequests]
    rfl
  have hitem : (w.db.scopeOf (Uuid.ofNat 20)).find? (fun g => g.payloadHash = p.payloadHash) =
      some ⟨Uuid.ofNat 20, sampleHash, some (.key (.wrapped "grantee" [1]))⟩ := by
    simp [Db.scopeOf, hgrants, hphash, sampleReleased]
  obtain ⟨db', hread⟩ := (stocked_of_reachable hreach).exists_read sampleKey hfound rfl
    (show (1 : Int) < 0 + 3600 * 1000000 by decide) hitem (by rw [hpkey]) ⟨rfl, by decide⟩ hp hporg
    hunerased rfl hthere (by rw [Db.hasOrg, horgs]; rfl)
    (show (sampleFreshOf 24).eventId ∉ w.db.events.map Event.id by
      rw [hevents, List.map_cons, List.map_cons, List.map_singleton, he.2, hx.1, hy.1]; decide)
    (fun _ _ => rfl)
  rw [hphash] at hread
  exact ⟨w, db', p.encryptedBlob.content, hread,
    (read_safe (vault_mono (fun _ _ _ => trivial) hreach) hread).1 _ rfl⟩

end Samples

end Attest
