import Attest.Consent
import Attest.Erasure
import Attest.Ledger

/-!
# The content store over whole runs

The calls that touch stored content, its keys or a request for them (`VaultOp`), one at
a time, each with what the clock and the generators gave it. A call that raises leaves
no trace. A run keeps the calls made with the database before each (`Vault`).

Before it records its event a call does one of three things to what is stored : nothing,
an erasure, or a switch to customer keys (`Touched`). From this the invariant follows
(`stocked_of_reachable`) : one payload row for each organisation and fingerprint an event
names, sealed for its own columns, and one key row for each payload that is not erased.
-/

set_option linter.unusedSectionVars false

namespace Attest

/-! ## The calls -/

section Ops

variable [KeyUnwrapping]

/-- A call, with its arguments and what it is given from outside. -/
inductive VaultOp where
  | record (args : RecordArgs) (fresh : Fresh)
  | erase (args : EraseArgs) (fresh : EraseFresh)
  | enableCustomerKey (orgId wrappingPublicPem : String)
  | createRequest (args : AccessRequestArgs) (fresh : RequestFresh)
  | approve (args : ApproveArgs) (fresh : Fresh)
  | clientApprove (args : ClientApprovalArgs) (fresh : Fresh)
  | resolve (args : ResolveAccessArgs) (fresh : Fresh)
  | read (requestId : Uuid) (payloadHash : String) (now : Int) (fresh : Fresh)

/-- The content keys a call is given. -/
def VaultOp.contentKeys : VaultOp → List Bytes
  | .record _ fresh | .approve _ fresh | .clientApprove _ fresh | .resolve _ fresh
  | .read _ _ _ fresh => [fresh.contentKey]
  | .erase _ fresh => [fresh.event.contentKey, fresh.again.contentKey]
  | .enableCustomerKey _ _ => []
  | .createRequest _ fresh => [fresh.event.contentKey]

variable [SignatureScheme] [PyUnicode]

/-- The database a call leaves. -/
def VaultOp.run (svc : SigningKeyPair) (db : Db) : VaultOp → Except PyError Db
  | .record args fresh => (recordEvent svc db args fresh).map Prod.fst
  | .erase args fresh => (eraseEventPayload svc db args fresh).map Prod.fst
  | .enableCustomerKey orgId pem => enableCustomerKeyMode db orgId pem
  | .createRequest args fresh => createAccessRequest svc db args fresh
  | .approve args fresh => approveAccessRequest svc db args fresh
  | .clientApprove args fresh => recordClientApproval svc db args fresh
  | .resolve args fresh => resolveAccessRequest svc db args fresh
  | .read requestId payloadHash now fresh =>
    (readViaGrant svc db requestId payloadHash now fresh).map Prod.fst

theorem VaultOp.run_record {svc : SigningKeyPair} {db db' : Db} {args : RecordArgs} {fresh : Fresh}
    {out : EventOut} (h : recordEvent svc db args fresh = .ok (db', out)) :
    (VaultOp.record args fresh).run svc db = .ok db' :=
  congrArg (Except.map Prod.fst) h

theorem VaultOp.run_erase {svc : SigningKeyPair} {db db' : Db} {args : EraseArgs}
    {fresh : EraseFresh} {out : EraseOut}
    (h : eraseEventPayload svc db args fresh = .ok (db', out)) :
    (VaultOp.erase args fresh).run svc db = .ok db' :=
  congrArg (Except.map Prod.fst) h

/-- The database, and the calls made so far, newest first, each with the database before
it. -/
structure Vault where
  db : Db
  past : List (VaultOp × Db)

/-- The databases of a run so far. -/
def Vault.states (w : Vault) : List Db :=
  w.db :: w.past.map Prod.snd

/-- One call that returns, among those `allowed`. -/
inductive VaultStep (svc : SigningKeyPair) (allowed : Db → VaultOp → Prop) : Vault → Vault → Prop
    where
  | call {w : Vault} {op : VaultOp} {db' : Db} : allowed w.db op → op.run svc w.db = .ok db' →
      VaultStep svc allowed w ⟨db', (op, w.db) :: w.past⟩

/-- Nothing stored and nothing asked for yet, for any organisations and their keys. -/
structure Db.Bare (db : Db) : Prop where
  orgs : (db.orgs.map Org.id).Nodup
  managed : ∀ k ∈ db.signingKeys, k.Managed
  traces : db.traces = []
  events : db.events = []
  payloads : db.payloads = []
  payloadKeys : db.payloadKeys = []
  accessRequests : db.accessRequests = []
  accessApprovals : db.accessApprovals = []
  accessGrantKeys : db.accessGrantKeys = []

/-- The service from a bare database on, with the calls that are `allowed`. -/
def vault (svc : SigningKeyPair) (allowed : Db → VaultOp → Prop) : TransitionSystem Vault where
  init w := w.past = [] ∧ w.db.Bare
  step := VaultStep svc allowed

/-- Any call. -/
def anyCall (_ : Db) (_ : VaultOp) : Prop := True

theorem vault_mono {svc : SigningKeyPair} {allowed allowed' : Db → VaultOp → Prop}
    (hsub : ∀ db op, allowed db op → allowed' db op) {w : Vault}
    (h : (vault svc allowed).Reachable w) : (vault svc allowed').Reachable w := by
  obtain ⟨w₀, hinit, hrun⟩ := h
  refine ⟨w₀, hinit, ?_⟩
  induction hrun with
  | refl => exact .refl
  | tail _ hstep ih =>
    obtain ⟨hallowed, hcall⟩ := hstep
    exact ih.tail (.call (hsub _ _ hallowed) hcall)

/-! ## What a call does to stored content -/

/-- What a call did to stored content before it recorded its event. -/
inductive Touched (db : Db) : VaultOp → Db → Prop where
  | kept {op : VaultOp} {db₁ : Db} {opened : Option Trace} : db₁.orgs = db.orgs →
      db₁.payloads = db.payloads → db₁.payloadKeys = db.payloadKeys → db₁.events = db.events →
      db₁.signingKeys = db.signingKeys →
      (∀ t, opened = some t → ∀ x ∈ db.traces, x.id ≠ t.id) →
      db₁.traces = db.traces ++ opened.toList → Touched db op db₁
  | shredded {args : EraseArgs} {fresh : EraseFresh} {target : Event} {p : Payload}
      {k : PayloadKey} : args.target db = some target →
      db.getPayload args.orgId target.payloadHash = some p → p.erasedAt = none →
      db.getPayloadKey args.orgId target.payloadHash = some k →
        Touched db (.erase args fresh) (db.shred args.orgId target.payloadHash fresh.erasedAt)
  | switched {orgId pem : String} {orgs : List Org} :
      enableCustomerKeyMode db orgId pem = .ok { db with orgs := orgs } →
        Touched db (.enableCustomerKey orgId pem) { db with orgs := orgs }

theorem Touched.same {db db₁ : Db} {op : VaultOp} (horgs : db₁.orgs = db.orgs)
    (hpayloads : db₁.payloads = db.payloads) (hkeys : db₁.payloadKeys = db.payloadKeys)
    (hevents : db₁.events = db.events) (hsigning : db₁.signingKeys = db.signingKeys)
    (htraces : db₁.traces = db.traces) : Touched db op db₁ := by
  have hopened : db₁.traces = db.traces ++ (none : Option Trace).toList := by simpa using htraces
  exact .kept horgs hpayloads hkeys hevents hsigning (by simp) hopened

/-- What a call leaves once it has touched what is stored : that, or one event more. -/
def Leaves (op : VaultOp) (db₁ db' : Db) : Prop :=
  db' = db₁ ∨ ∃ args fresh e, fresh.contentKey ∈ op.contentKeys ∧ Recorded db₁ args fresh e db'

theorem Noted.leaves {db₁ db' : Db} {request : AccessRequest} {eventType : String} {fresh : Fresh}
    {op : VaultOp} (h : Noted db₁ request eventType fresh db')
    (hkey : fresh.contentKey ∈ op.contentKeys) : Leaves op db₁ db' := by
  rcases h with ⟨-, rfl⟩ | ⟨traceId, seq, payload, e, -, he⟩
  · exact Or.inl rfl
  · exact Or.inr ⟨_, _, e, hkey, he⟩

theorem Approves.touched {db db' : Db} {requestId : Uuid} {approverId : String}
    {request : AccessRequest} {rows : List AccessGrantKey} {status : String} {fresh : Fresh}
    {op : VaultOp} (h : Approves db requestId approverId request rows status fresh db')
    (hkey : fresh.contentKey ∈ op.contentKeys) : ∃ db₁, Touched db op db₁ ∧ Leaves op db₁ db' := by
  obtain ⟨requests, -, hnoted⟩ := h.settled
  refine ⟨_, ?_, hnoted.leaves hkey⟩
  exact .same rfl rfl rfl rfl rfl rfl

/-- Every call touches what is stored in one of three ways, and records at most one
event. -/
theorem VaultOp.run_touched {svc : SigningKeyPair} {db db' : Db} {op : VaultOp}
    (h : op.run svc db = .ok db') : ∃ db₁, Touched db op db₁ ∧ Leaves op db₁ db' := by
  have hidle {op : VaultOp} : ∃ db₁, Touched db op db₁ ∧ Leaves op db₁ db :=
    ⟨db, .same rfl rfl rfl rfl rfl rfl, Or.inl rfl⟩
  cases op with
  | record args fresh =>
    obtain ⟨⟨_, out⟩, hrecord, rfl⟩ := Except.map_eq_ok.mp h
    obtain ⟨e, he, -⟩ := recordEvent_recorded hrecord
    exact ⟨db, .same rfl rfl rfl rfl rfl rfl, Or.inr ⟨args, fresh, e, List.mem_singleton.mpr rfl,
      he⟩⟩
  | erase args fresh =>
    obtain ⟨⟨_, out⟩, herase, rfl⟩ := Except.map_eq_ok.mp h
    obtain ⟨target, herased, -⟩ := eraseEventPayload_erased herase
    obtain ⟨p, hp, hunerased⟩ := herased.payload
    obtain ⟨k, hk⟩ := herased.key
    obtain ⟨f, e, hf, he⟩ := herased.recorded
    refine ⟨_, .shredded herased.target_eq hp hunerased hk, Or.inr ⟨_, f, e, ?_, he⟩⟩
    rcases hf with rfl | rfl
    · exact List.mem_cons_self
    · exact List.mem_cons_of_mem _ (List.mem_singleton.mpr rfl)
  | enableCustomerKey orgId pem =>
    have hswitch : enableCustomerKeyMode db orgId pem = .ok db' := h
    have horgs : ∃ orgs, db' = { db with orgs := orgs } := by
      unfold enableCustomerKeyMode at hswitch
      cases hget : db.getOrgById orgId with
      | none => simp [hget] at hswitch
      | some org =>
        rw [hget] at hswitch
        exact ⟨_, (Except.ok.inj hswitch).symm⟩
    obtain ⟨orgs, rfl⟩ := horgs
    exact ⟨_, .switched hswitch, Or.inl rfl⟩
  | createRequest args fresh =>
    have hfiled := createAccessRequest_filed h
    obtain ⟨opened, hopens, hnoted⟩ := hfiled.noted
    refine ⟨_, ?_, hnoted.leaves (List.mem_singleton.mpr rfl)⟩
    refine .kept rfl rfl rfl rfl rfl ?_ rfl
    rintro t ht x hx
    obtain ⟨hid, -, hnew⟩ := hopens.new t ht
    exact hid ▸ hnew x hx
  | approve args fresh =>
    rcases approveAccessRequest_approves h with rfl | ⟨request, rows, status, happroves, -⟩
    · exact hidle
    · exact happroves.touched (List.mem_singleton.mpr rfl)
  | clientApprove args fresh =>
    rcases recordClientApproval_approves h with rfl | ⟨request, status, happroves, -⟩
    · exact hidle
    · exact happroves.touched (List.mem_singleton.mpr rfl)
  | resolve args fresh =>
    obtain ⟨-, request, -, ⟨-, rfl⟩ | hnoted⟩ := resolveAccessRequest_eq_ok h
    · exact hidle
    · refine ⟨_, ?_, hnoted.leaves (List.mem_singleton.mpr rfl)⟩
      exact .same rfl rfl rfl rfl rfl rfl
  | read requestId payloadHash now fresh =>
    obtain ⟨⟨_, result⟩, hread, rfl⟩ := Except.map_eq_ok.mp h
    rcases readViaGrant_eq_ok hread with ⟨-, rfl⟩ | ⟨content, request, -, hreads⟩
    · exact hidle
    · exact ⟨db, .same rfl rfl rfl rfl rfl rfl, hreads.noted.leaves (List.mem_singleton.mpr rfl)⟩

/-! ## The invariant -/

/-- What holds of stored content in every state. -/
structure Db.Stocked (db : Db) : Prop where
  orgs : (db.orgs.map Org.id).Nodup
  managed : ∀ k ∈ db.signingKeys, k.Managed
  traces : (db.traces.map Trace.id).Nodup
  owned : ∀ e ∈ db.events, ∃ t ∈ db.traces, t.id = e.traceId ∧ t.orgId = e.orgId
  keyed : db.ContentKeyed
  sealed : ∀ p ∈ db.payloads, p.encAlg = defaultContentAlgorithm ∧
    p.encryptedBlob.aad = aad p.encAlg p.orgId p.payloadHash ∧
      sha256Hex p.encryptedBlob.content = p.payloadHash
  keys : ∀ k ∈ db.payloadKeys, ∃ p ∈ db.payloads, p.orgId = k.orgId ∧
    p.payloadHash = k.payloadHash ∧ p.erasedAt = none ∧
      ∃ wrapsTo, (k.key, k.wrapAlg) = storedKey wrapsTo p.encryptedBlob.key
  locked : ∀ p ∈ db.payloads, p.erasedAt = none →
    ∃ k ∈ db.payloadKeys, k.orgId = p.orgId ∧ k.payloadHash = p.payloadHash
  recorded : ∀ p ∈ db.payloads, ∃ e ∈ db.events, e.orgId = p.orgId ∧ e.payloadHash = p.payloadHash
  stored : ∀ e ∈ db.events, ∃ p ∈ db.payloads, p.orgId = e.orgId ∧ p.payloadHash = e.payloadHash

theorem Db.getPayload_isSome {db : Db} {orgId payloadHash : String} :
    (db.getPayload orgId payloadHash).isSome = true ↔
      ∃ p ∈ db.payloads, p.orgId = orgId ∧ p.payloadHash = payloadHash := by
  simp [getPayload, List.find?_isSome]

theorem Db.Bare.stocked {db : Db} (h : db.Bare) : db.Stocked where
  orgs := h.orgs
  managed := h.managed
  traces := by simp [h.traces]
  owned := by simp [h.events]
  keyed := ⟨by simp [h.payloads], by simp [h.payloadKeys]⟩
  sealed := by simp [h.payloads]
  keys := by simp [h.payloadKeys]
  locked := by simp [h.payloads]
  recorded := by simp [h.payloads]
  stored := by simp [h.events]

theorem nodup_append_opened {traces : List Trace} {opened : Option Trace}
    (h : (traces.map Trace.id).Nodup)
    (hnew : ∀ t, opened = some t → ∀ x ∈ traces, x.id ≠ t.id) :
    ((traces ++ opened.toList).map Trace.id).Nodup := by
  cases opened with
  | none => simpa using h
  | some t => exact nodup_map_concat h (hnew t rfl)

/-- Shredding keeps the columns of the payload rows. -/
theorem Db.mem_payloads_shred {db : Db} {orgId payloadHash now : String} {p : Payload} :
    p ∈ (db.shred orgId payloadHash now).payloads ↔ ∃ q ∈ db.payloads, p =
      if q.orgId = orgId ∧ q.payloadHash = payloadHash ∧ q.erasedAt = none then
        { q with erasedAt := some now } else q := by
  simp [shred, eq_comm]

theorem Db.mem_payloadKeys_shred {db : Db} {orgId payloadHash now : String} {k : PayloadKey} :
    k ∈ (db.shred orgId payloadHash now).payloadKeys ↔
      k ∈ db.payloadKeys ∧ ¬(k.orgId = orgId ∧ k.payloadHash = payloadHash) := by
  simp only [shred, List.mem_filter, decide_eq_true_eq]

theorem Db.Stocked.shred {db : Db} (h : db.Stocked) (orgId payloadHash now : String) :
    (db.shred orgId payloadHash now).Stocked := by
  have hrow {p : Payload} (hp : p ∈ (db.shred orgId payloadHash now).payloads) :
      ∃ q ∈ db.payloads, p.orgId = q.orgId ∧ p.payloadHash = q.payloadHash ∧
        p.encryptedBlob = q.encryptedBlob ∧ p.encAlg = q.encAlg ∧
          (p.erasedAt = none → p = q ∧ ¬(q.orgId = orgId ∧ q.payloadHash = payloadHash)) := by
    obtain ⟨q, hq, rfl⟩ := Db.mem_payloads_shred.mp hp
    refine ⟨q, hq, ?_⟩
    split
    · exact ⟨rfl, rfl, rfl, rfl, by simp⟩
    · rename_i hother
      exact ⟨rfl, rfl, rfl, rfl, fun hnone => ⟨rfl, fun hcols =>
        hother ⟨hcols.1, hcols.2, hnone⟩⟩⟩
  refine ⟨h.orgs, h.managed, h.traces, h.owned, ⟨?_, ?_⟩, ?_, ?_, ?_, ?_, ?_⟩
  · have hcols : (db.shred orgId payloadHash now).payloads.map (fun p => (p.orgId, p.payloadHash)) =
        db.payloads.map fun p => (p.orgId, p.payloadHash) := by
      simp only [Db.shred, List.map_map]
      refine List.map_congr_left fun p _ => ?_
      simp only [Function.comp_apply]
      split <;> rfl
    rw [hcols]
    exact h.keyed.payloads
  · exact h.keyed.payloadKeys.sublist (List.filter_sublist.map _)
  · intro p hp
    obtain ⟨q, hq, horg, hhash, hblob, halg, -⟩ := hrow hp
    rw [horg, hhash, hblob, halg]
    exact h.sealed q hq
  · intro k hk
    obtain ⟨hmem, hother⟩ := Db.mem_payloadKeys_shred.mp hk
    obtain ⟨p, hp, horg, hhash, hunerased, hkey⟩ := h.keys k hmem
    refine ⟨p, Db.mem_payloads_shred.mpr ⟨p, hp, ?_⟩, horg, hhash, hunerased, hkey⟩
    rw [if_neg fun hcols => hother ⟨horg ▸ hcols.1, hhash ▸ hcols.2.1⟩]
  · intro p hp hunerased
    obtain ⟨q, hq, -, -, -, -, hsame⟩ := hrow hp
    obtain ⟨rfl, hother⟩ := hsame hunerased
    obtain ⟨k, hk, horg, hhash⟩ := h.locked p hq hunerased
    exact ⟨k, Db.mem_payloadKeys_shred.mpr ⟨hk, by rwa [horg, hhash]⟩, horg, hhash⟩
  · intro p hp
    obtain ⟨q, hq, horg, hhash, -⟩ := hrow hp
    rw [horg, hhash]
    exact h.recorded q hq
  · intro e he
    obtain ⟨p, hp, horg, hhash⟩ := h.stored e he
    refine ⟨_, Db.mem_payloads_shred.mpr ⟨p, hp, rfl⟩, ?_⟩
    split
    · exact ⟨horg, hhash⟩
    · exact ⟨horg, hhash⟩

theorem Touched.stocked {db db₁ : Db} {op : VaultOp} (ht : Touched db op db₁) (h : db.Stocked) :
    db₁.Stocked := by
  cases ht with
  | @kept _ _ opened horgs hpayloads hkeys hevents hsigning hnew htraces =>
    refine ⟨horgs ▸ h.orgs, hsigning ▸ h.managed, htraces ▸ nodup_append_opened h.traces hnew, ?_,
      ⟨hpayloads ▸ h.keyed.payloads, hkeys ▸ h.keyed.payloadKeys⟩, hpayloads ▸ h.sealed, ?_, ?_, ?_,
      ?_⟩
    · rw [hevents, htraces]
      intro e he
      obtain ⟨t, ht, hcols⟩ := h.owned e he
      exact ⟨t, List.mem_append_left _ ht, hcols⟩
    · rw [hpayloads, hkeys]
      exact h.keys
    · rw [hpayloads, hkeys]
      exact h.locked
    · rw [hpayloads, hevents]
      exact h.recorded
    · rw [hpayloads, hevents]
      exact h.stored
  | shredded _ _ _ _ => exact h.shred _ _ _
  | switched hswitch =>
    rename_i orgId pem orgs
    have horgs : orgs.map Org.id = db.orgs.map Org.id := by
      unfold enableCustomerKeyMode at hswitch
      cases hget : db.getOrgById orgId with
      | none => simp [hget] at hswitch
      | some org =>
        simp only [hget, Except.ok.injEq, Db.mk.injEq, true_and] at hswitch
        rw [← hswitch.1, List.map_map]
        refine List.map_congr_left fun o _ => ?_
        simp only [Function.comp_apply]
        split <;> rfl
    exact ⟨horgs ▸ h.orgs, h.managed, h.traces, h.owned,
      ⟨h.keyed.payloads, h.keyed.payloadKeys⟩, h.sealed, h.keys, h.locked,
      h.recorded, h.stored⟩

/-- The event of a call is of a trace of its organisation. -/
theorem Recorded.owned {db db' : Db} {args : RecordArgs} {fresh : Fresh} {e : Event}
    (hr : Recorded db args fresh e db') (h : db.Stocked) : (db'.traces.map Trace.id).Nodup ∧
      ∀ x ∈ db'.events, ∃ t ∈ db'.traces, t.id = x.traceId ∧ t.orgId = x.orgId := by
  obtain ⟨hrecords, -, opened, rows, hopens, -, rfl⟩ := hr
  refine ⟨nodup_append_opened h.traces fun t ht x hx => ?_, fun x hx => ?_⟩
  · obtain ⟨hid, -, hnew⟩ := hopens.new t ht
    exact hid ▸ hnew x hx
  · rcases List.mem_append.mp hx with hx | hx
    · obtain ⟨t, ht, hcols⟩ := h.owned x hx
      exact ⟨t, List.mem_append_left _ ht, hcols⟩
    · obtain rfl := List.mem_singleton.mp hx
      rw [hrecords.traceId_eq, hrecords.orgId_eq]
      exact hopens.there

theorem Recorded.stocked {db db' : Db} {args : RecordArgs} {fresh : Fresh} {e : Event}
    (hr : Recorded db args fresh e db') (h : db.Stocked) : db'.Stocked := by
  obtain ⟨ts, ps, ks, hdb⟩ := hr.others
  have hevents : db'.events = db.events ++ [e] := by rw [hdb]
  have horgs : db'.orgs = db.orgs := by rw [hdb]
  have hsigning : db'.signingKeys = db.signingKeys := by rw [hdb]
  obtain ⟨htraces, howned⟩ := hr.owned h
  have horg := hr.records.orgId_eq
  have hold {p : Payload} (hp : p ∈ db.payloads) :
      ∃ x ∈ db'.events, x.orgId = p.orgId ∧ x.payloadHash = p.payloadHash := by
    obtain ⟨x, hx, hcols⟩ := h.recorded p hp
    exact ⟨x, hevents ▸ List.mem_append_left _ hx, hcols⟩
  rcases hr.content with ⟨hsome, hpayloads, hkeys⟩ | ⟨hnone, rows, hrows, hpayloads, hkeys⟩
  · refine ⟨horgs ▸ h.orgs, hsigning ▸ h.managed, htraces, howned,
      ⟨hpayloads ▸ h.keyed.payloads, hkeys ▸ h.keyed.payloadKeys⟩, hpayloads ▸ h.sealed, ?_, ?_, ?_,
      ?_⟩
    · rw [hpayloads, hkeys]
      exact h.keys
    · rw [hpayloads, hkeys]
      exact h.locked
    · rw [hpayloads]
      exact fun p hp => hold hp
    · rw [hpayloads, hevents]
      intro x hx
      rcases List.mem_append.mp hx with hx | hx
      · exact h.stored x hx
      · obtain rfl := List.mem_singleton.mp hx
        rw [horg]
        exact Db.getPayload_isSome.mp hsome
  · have hnew := Db.getPayload_eq_none.mp hnone
    have hcols : rows.1.orgId = args.orgId ∧ rows.1.payloadHash = e.payloadHash ∧
        rows.2.orgId = args.orgId ∧ rows.2.payloadHash = e.payloadHash := by
      rw [hrows]
      exact ⟨rfl, rfl, rfl, rfl⟩
    refine ⟨horgs ▸ h.orgs, hsigning ▸ h.managed, htraces, howned, ⟨?_, ?_⟩, ?_, ?_, ?_, ?_, ?_⟩
    · rw [hpayloads]
      refine nodup_map_concat h.keyed.payloads fun p hp heq => ?_
      obtain ⟨heorg, hehash⟩ := Prod.mk.inj heq
      exact hnew p hp (heorg.trans hcols.1) (hehash.trans hcols.2.1)
    · rw [hkeys]
      refine nodup_map_concat h.keyed.payloadKeys fun k hk heq => ?_
      obtain ⟨heorg, hehash⟩ := Prod.mk.inj heq
      obtain ⟨p, hp, hporg, hphash, -⟩ := h.keys k hk
      exact hnew p hp (hporg.trans (heorg.trans hcols.2.2.1))
        (hphash.trans (hehash.trans hcols.2.2.2))
    · rw [hpayloads]
      intro p hp
      rcases List.mem_append.mp hp with hp | hp
      · exact h.sealed p hp
      · obtain rfl := List.mem_singleton.mp hp
        rw [hrows]
        exact ⟨rfl, rfl, hr.hash_eq.symm⟩
    · rw [hpayloads, hkeys]
      intro k hk
      rcases List.mem_append.mp hk with hk | hk
      · obtain ⟨p, hp, hrest⟩ := h.keys k hk
        exact ⟨p, List.mem_append_left _ hp, hrest⟩
      · obtain rfl := List.mem_singleton.mp hk
        refine ⟨rows.1, List.mem_append_right _ (List.mem_singleton.mpr rfl), ?_⟩
        rw [hrows]
        exact ⟨rfl, rfl, rfl, db.wrapsTo args.orgId, rfl⟩
    · rw [hpayloads, hkeys]
      intro p hp hunerased
      rcases List.mem_append.mp hp with hp | hp
      · obtain ⟨k, hk, hrest⟩ := h.locked p hp hunerased
        exact ⟨k, List.mem_append_left _ hk, hrest⟩
      · obtain rfl := List.mem_singleton.mp hp
        refine ⟨rows.2, List.mem_append_right _ (List.mem_singleton.mpr rfl), ?_⟩
        rw [hrows]
        exact ⟨rfl, rfl⟩
    · rw [hpayloads]
      intro p hp
      rcases List.mem_append.mp hp with hp | hp
      · exact hold hp
      · obtain rfl := List.mem_singleton.mp hp
        refine ⟨e, hevents ▸ List.mem_append_right _ (List.mem_singleton.mpr rfl), ?_⟩
        rw [hcols.1, hcols.2.1]
        exact ⟨horg, rfl⟩
    · rw [hpayloads, hevents]
      intro x hx
      rcases List.mem_append.mp hx with hx | hx
      · obtain ⟨p, hp, hrest⟩ := h.stored x hx
        exact ⟨p, List.mem_append_left _ hp, hrest⟩
      · obtain rfl := List.mem_singleton.mp hx
        refine ⟨rows.1, List.mem_append_right _ (List.mem_singleton.mpr rfl), ?_⟩
        rw [hcols.1, hcols.2.1]
        exact ⟨horg.symm, rfl⟩

/-- Every call keeps the invariant. -/
theorem VaultOp.run_stocked {svc : SigningKeyPair} {db db' : Db} {op : VaultOp}
    (hrun : op.run svc db = .ok db') (h : db.Stocked) : db'.Stocked := by
  obtain ⟨db₁, htouched, rfl | ⟨args, fresh, e, -, he⟩⟩ := VaultOp.run_touched hrun
  · exact htouched.stocked h
  · exact he.stocked (htouched.stocked h)

theorem stocked_of_reachable {svc : SigningKeyPair} {allowed : Db → VaultOp → Prop} {w : Vault}
    (h : (vault svc allowed).Reachable w) : w.db.Stocked := by
  refine TransitionSystem.invariant (P := fun w => w.db.Stocked) ?_ ?_ h
  · exact fun w hw => hw.2.stocked
  · rintro w w' hw ⟨-, hrun⟩
    exact VaultOp.run_stocked hrun hw

/-! ## Content keys -/

/-- The content keys the call is given are of no content that is stored. -/
def freshKeys (db : Db) (op : VaultOp) : Prop :=
  ∀ key ∈ op.contentKeys, ∀ p ∈ db.payloads, p.encryptedBlob.key ≠ key

theorem Touched.blobs {db db₁ : Db} {op : VaultOp} (ht : Touched db op db₁) :
    db₁.payloads.map Payload.encryptedBlob = db.payloads.map Payload.encryptedBlob := by
  cases ht with
  | kept _ hpayloads _ _ _ _ _ => rw [hpayloads]
  | shredded _ _ _ _ =>
    simp only [Db.shred, List.map_map]
    refine List.map_congr_left fun p _ => ?_
    simp only [Function.comp_apply]
    split <;> rfl
  | switched _ => rfl

/-- What a call adds to the stored contents. -/
theorem VaultOp.run_blobs {svc : SigningKeyPair} {db db' : Db} {op : VaultOp}
    (hrun : op.run svc db = .ok db') :
    db'.payloads.map Payload.encryptedBlob = db.payloads.map Payload.encryptedBlob ∨
      ∃ blob, blob.key ∈ op.contentKeys ∧ db'.payloads.map Payload.encryptedBlob =
        db.payloads.map Payload.encryptedBlob ++ [blob] := by
  obtain ⟨db₁, htouched, rfl | ⟨args, fresh, e, hkey, he⟩⟩ := VaultOp.run_touched hrun
  · exact Or.inl htouched.blobs
  · rcases he.content with ⟨-, hpayloads, -⟩ | ⟨-, rows, hrows, hpayloads, -⟩
    · exact Or.inl (by rw [hpayloads, htouched.blobs])
    · refine Or.inr ⟨rows.1.encryptedBlob, by rwa [hrows], ?_⟩
      rw [hpayloads, List.map_append, htouched.blobs]
      rfl

/-- A stored content is sealed under a key that a call was given. -/
theorem keys_of_reachable {svc : SigningKeyPair} {allowed : Db → VaultOp → Prop} {w : Vault}
    (h : (vault svc allowed).Reachable w) : ∀ blob ∈ w.db.payloads.map Payload.encryptedBlob,
      ∃ c ∈ w.past, blob.key ∈ c.1.contentKeys := by
  refine TransitionSystem.invariant (P := fun w => ∀ blob ∈ w.db.payloads.map
    Payload.encryptedBlob, ∃ c ∈ w.past, blob.key ∈ c.1.contentKeys) ?_ ?_ h
  · rintro w ⟨-, hbare⟩ blob hblob
    rw [hbare.payloads] at hblob
    cases hblob
  · rintro w w' ih ⟨-, hrun⟩ blob hblob
    have hold (hblob : blob ∈ w.db.payloads.map Payload.encryptedBlob) {c : VaultOp × Db} :
        ∃ c' ∈ c :: w.past, blob.key ∈ c'.1.contentKeys := by
      obtain ⟨c', hc, hkey⟩ := ih blob hblob
      exact ⟨c', List.mem_cons_of_mem _ hc, hkey⟩
    rcases VaultOp.run_blobs hrun with hsame | ⟨new, hkey, hadd⟩
    · exact hold (hsame ▸ hblob)
    · rcases List.mem_append.mp (hadd ▸ hblob) with hblob | hblob
      · exact hold hblob
      · obtain rfl := List.mem_singleton.mp hblob
        exact ⟨_, List.mem_cons_self, hkey⟩

/-- Keys no earlier call was given are fresh. -/
theorem freshKeys_of_past {svc : SigningKeyPair} {allowed : Db → VaultOp → Prop} {w : Vault}
    (h : (vault svc allowed).Reachable w) {op : VaultOp}
    (hpast : ∀ c ∈ w.past, ∀ key ∈ c.1.contentKeys, key ∉ op.contentKeys) :
    freshKeys w.db op := by
  intro key hkey p hp heq
  obtain ⟨c, hc, hused⟩ := keys_of_reachable h _ (List.mem_map_of_mem hp)
  exact hpast c hc _ hused (heq ▸ hkey)

/-- Where keys are fresh, no two contents are sealed under one. -/
theorem nodup_keys_of_reachable {svc : SigningKeyPair} {allowed : Db → VaultOp → Prop}
    (hfresh : ∀ db op, allowed db op → freshKeys db op) {w : Vault}
    (h : (vault svc allowed).Reachable w) :
    (w.db.payloads.map fun p => p.encryptedBlob.key).Nodup := by
  have hkeys (db : Db) : (db.payloads.map fun p => p.encryptedBlob.key) =
      (db.payloads.map Payload.encryptedBlob).map SealedBlob.key := by
    rw [List.map_map]
    rfl
  refine TransitionSystem.invariant (P := fun w =>
    (w.db.payloads.map fun p => p.encryptedBlob.key).Nodup) ?_ ?_ h
  · rintro w ⟨-, hbare⟩
    simp [hbare.payloads]
  · rintro w w' ih ⟨hallowed, hrun⟩
    rw [hkeys] at ih ⊢
    rcases VaultOp.run_blobs hrun with hsame | ⟨new, hkey, hadd⟩
    · rw [hsame]
      exact ih
    · rw [hadd]
      refine nodup_map_concat ih fun blob hblob => ?_
      obtain ⟨p, hp, rfl⟩ := List.mem_map.mp hblob
      exact hfresh _ _ hallowed _ hkey p hp

/-! ## Success -/

/-- In a state the runs reach, a call with the next number of its trace goes through. -/
theorem Db.Stocked.recordable {db : Db} {args : RecordArgs} {fresh : Fresh} (h : db.Stocked)
    (hnamed : PyText.isBlank args.eventType = false)
    (htexts : textOk args.eventType = true ∧ optTextOk args.policyVersion = true)
    (horg : db.hasOrg args.orgId = true)
    (htrace : ∀ t ∈ db.traces, t.id = args.traceId → t.orgId = args.orgId)
    (hnext : args.seq = nextSeq (db.lastEventForTrace args.orgId args.traceId))
    (hid : ∀ x ∈ db.events, x.id ≠ fresh.eventId) (hstores : db.Stores args.orgId args.payload) :
    Recordable db args fresh where
  named := hnamed
  texts := htexts
  org := horg
  trace := by
    intro t ht
    obtain ⟨hmem, hid⟩ := Db.mem_of_getTraceById ht
    exact htrace t hmem hid
  next := hnext
  id := hid
  free := by
    intro x hx htraceId hseq
    obtain ⟨t, ht, hxid, hxorg⟩ := h.owned x hx
    have hrow : x ∈ db.traceRows args.orgId args.traceId :=
      Db.mem_traceRows.mpr ⟨hx, hxorg ▸ htrace t ht (hxid.trans htraceId), htraceId⟩
    cases hlast : db.lastEventForTrace args.orgId args.traceId with
    | none =>
      rw [Db.lastEventForTrace, latestBy_eq_none] at hlast
      rw [hlast] at hrow
      cases hrow
    | some last =>
      have hle := le_of_latestBy hlast x hrow
      rw [hseq, hnext, hlast, nextSeq] at hle
      omega
  keys := h.managed
  content := hstores
  keyed := by
    intro k hk
    obtain ⟨p, hp, horg, hhash, -⟩ := h.keys k hk
    exact Db.getPayload_isSome.mpr ⟨p, hp, horg, hhash⟩

/-- The number after the last event of a trace in order is the number after its latest. -/
theorem nextSeq_getLast? (db : Db) (orgId : String) (traceId : Uuid) :
    nextSeq (db.eventsForTrace orgId traceId).getLast? =
      nextSeq (db.lastEventForTrace orgId traceId) := by
  have hmem (x : Event) : x ∈ db.eventsForTrace orgId traceId ↔ x ∈ db.traceRows orgId traceId :=
    List.mem_insertionSort _
  have hsorted : (db.eventsForTrace orgId traceId).Pairwise fun a b => a.seq ≤ b.seq :=
    List.pairwise_insertionSort _ _
  cases hlast : db.lastEventForTrace orgId traceId with
  | none =>
    have hrows : db.traceRows orgId traceId = [] := latestBy_eq_none.mp hlast
    simp [Db.eventsForTrace, hrows, nextSeq]
  | some last =>
    have hin : last ∈ db.eventsForTrace orgId traceId := (hmem last).mpr (mem_of_latestBy hlast)
    have hne : db.eventsForTrace orgId traceId ≠ [] := List.ne_nil_of_mem hin
    have hle := le_of_latestBy hlast _ ((hmem _).mp (List.getLast_mem hne))
    have hge := hsorted.rel_getLast_of_rel_getLast_getLast hin (le_refl _)
    rw [List.getLast?_eq_some_getLast hne, nextSeq, nextSeq]
    omega

/-- In a state the runs reach, content that is not erased can be. -/
theorem Db.Stocked.erasable {db : Db} (h : db.Stocked) (svc : SigningKeyPair) {args : EraseArgs}
    {fresh : EraseFresh} {target : Event} {p : Payload}
    (htarget : args.target db = some target)
    (hp : db.getPayload args.orgId target.payloadHash = some p) (hunerased : p.erasedAt = none)
    (hpv : optTextOk target.policyVersion = true) (horg : db.hasOrg args.orgId = true)
    (hid : ∀ x ∈ db.events, x.id ≠ fresh.event.eventId)
    (hwraps : ∀ pem, db.wrapsTo args.orgId = some pem → KeyWrapping.publicKind pem = .usable) :
    ∃ db' out, eraseEventPayload svc db args fresh = .ok (db', out) := by
  obtain ⟨hmem, htorg, httrace, -⟩ := EraseArgs.mem_of_target htarget
  obtain ⟨t, ht, htid, hto⟩ := h.owned target hmem
  have hunique : ∀ x ∈ db.traces, x.id = args.traceId → x = t := fun x hx hxid =>
    List.inj_on_of_nodup_map h.traces hx ht (hxid.trans (httrace.symm.trans htid.symm))
  have haccess : ensureTraceAccess db args.orgId args.traceId = .ok () := by
    rw [ensureTraceAccess_eq_ok]
    have hfind := find?_of_nodup h.traces ht
    rw [htid, httrace] at hfind
    exact ⟨t, by simpa [Db.getTraceById] using hfind, hto.trans htorg⟩
  obtain ⟨hpmem, hporg, hphash⟩ := Db.mem_of_getPayload hp
  obtain ⟨k, hk, hkorg, hkhash⟩ := h.locked p hpmem hunerased
  have hkey := Db.getPayloadKey_of_mem h.keyed.payloadKeys hk
  rw [hkorg, hkhash, hporg, hphash] at hkey
  have hrecordable : Recordable (db.shred args.orgId target.payloadHash fresh.erasedAt)
      (erasureArgs db args target) fresh.event := by
    refine (h.shred args.orgId target.payloadHash fresh.erasedAt).recordable ?_ ⟨?_, hpv⟩ horg ?_
      (nextSeq_getLast? db args.orgId args.traceId) hid (Or.inr hwraps)
    · rw [erasureArgs, PyText.isBlank]
      simp [PyText.isSpace, PyText.isAscii]
    · exact show textOk "erasure" = true by decide
    · intro x hx hxid
      rw [hunique x hx hxid]
      exact hto.trans htorg
  obtain ⟨db', out, hrecord⟩ := recordEvent_succeeds svc hrecordable
  have herasure : recordErasure svc (db.shred args.orgId target.payloadHash fresh.erasedAt) args
      target fresh = .ok (db', out) := by
    have hsame : erasureArgs (db.shred args.orgId target.payloadHash fresh.erasedAt) args target =
      erasureArgs db args target := rfl
    rw [recordErasure, hsame, hrecord]
  refine ⟨db', ⟨args.traceId, out.seq, args.targetSeq, target.payloadHash, out.hash,
    out.signature⟩, ?_⟩
  simp only [eraseEventPayload, haccess, htarget, hp, hunerased, cryptoShredPayload, hkey, require,
    herasure, Except.ok_bind', Option.isSome_none, Bool.false_eq_true, if_false, if_true,
    Except.pure_eq]

/-- In a state the runs reach, a consent event of a request with its trace goes through. -/
theorem Db.Stocked.exists_consent {db : Db} (h : db.Stocked) (svc : SigningKeyPair)
    {request : AccessRequest} {traceId : Uuid} {eventType : String} (payload : Dict) {fresh : Fresh}
    (htrace : request.traceId = some traceId)
    (hthere : ∃ t ∈ db.traces, t.id = traceId ∧ t.orgId = request.orgId)
    (hnamed : PyText.isBlank eventType = false) (htext : textOk eventType = true)
    (horg : db.hasOrg request.orgId = true) (hid : ∀ x ∈ db.events, x.id ≠ fresh.eventId)
    (hwraps : ∀ pem, db.wrapsTo request.orgId = some pem →
      KeyWrapping.publicKind pem = .usable) :
    ∃ db', recordConsentEvent svc db request eventType payload fresh = .ok db' := by
  obtain ⟨t, ht, htid, hto⟩ := hthere
  have hlock : lockedNextSeq db request.orgId traceId =
      .ok (nextSeq (db.lastEventForTrace request.orgId traceId)) := by
    have hhas : db.hasTrace traceId = true := List.any_eq_true.mpr ⟨t, ht, decide_eq_true htid⟩
    rw [lockedNextSeq, hhas]
    rfl
  have hrecordable : Recordable db (consentArgs request traceId
      (nextSeq (db.lastEventForTrace request.orgId traceId)) eventType payload) fresh := by
    refine h.recordable hnamed ⟨htext, rfl⟩ horg ?_ rfl hid (Or.inr hwraps)
    intro x hx hxid
    rw [List.inj_on_of_nodup_map h.traces hx ht (hxid.trans htid.symm)]
    exact hto
  obtain ⟨db', out, hrecord⟩ := recordEvent_succeeds svc hrecordable
  exact ⟨db', by simp only [recordConsentEvent, htrace, hlock, Except.ok_bind', hrecord,
    Except.pure_eq]⟩

/-- The records of a new request can be inserted. -/
theorem insertScope_succeeds {requestId : Uuid} : ∀ {hashes : List String} {db : Db},
    hashes.Nodup → (∀ payloadHash ∈ hashes, textOk payloadHash = true) →
    (∀ g ∈ db.accessGrantKeys, g.requestId = requestId → g.payloadHash ∉ hashes) →
    insertScope db requestId hashes = .ok { db with
      accessGrantKeys := db.accessGrantKeys ++ hashes.map fun h => ⟨requestId, h, none⟩ }
  | [], db, _, _, _ => by simp [insertScope]
  | payloadHash :: rest, db, hnodup, htexts, hnew => by
    obtain ⟨hnotin, hrest⟩ := List.nodup_cons.mp hnodup
    have hinsert : db.insertGrantKey ⟨requestId, payloadHash, none⟩ = .ok { db with
        accessGrantKeys := db.accessGrantKeys ++ [⟨requestId, payloadHash, none⟩] } := by
      refine Db.insertGrantKey_eq_ok.mpr ⟨⟨htexts payloadHash List.mem_cons_self, ?_⟩, rfl⟩
      rintro g hg hid (rfl : g.payloadHash = payloadHash)
      exact hnew g hg hid List.mem_cons_self
    rw [insertScope, hinsert, Except.ok_bind', insertScope_succeeds hrest
      (fun h hh => htexts h (List.mem_cons_of_mem _ hh))]
    · simp
    · intro g hg hid
      rcases List.mem_append.mp hg with hg | hg
      · exact fun hmem => hnew g hg hid (List.mem_cons_of_mem _ hmem)
      · obtain rfl := List.mem_singleton.mp hg
        exact hnotin

/-- The database once a request is inserted and its trace is open. -/
def Db.openRequest (db : Db) (args : AccessRequestArgs) (fresh : RequestFresh) : Db :=
  { db with accessRequests := db.accessRequests ++ [newRequest args fresh]
            accessGrantKeys := db.accessGrantKeys ++
              args.payloadHashes.map fun h => ⟨fresh.id, h, none⟩
            traces := db.traces ++ [⟨fresh.traceId, args.orgId, none⟩] }

theorem Db.Stocked.openRequest {db : Db} (h : db.Stocked) {args : AccessRequestArgs}
    {fresh : RequestFresh} (hnew : ∀ t ∈ db.traces, t.id ≠ fresh.traceId) :
    ((db.openRequest args fresh).setAccessRequest (filedRequest args fresh)).Stocked := by
  have hopened : ∀ t, some (⟨fresh.traceId, args.orgId, none⟩ : Trace) = some t →
      ∀ x ∈ db.traces, x.id ≠ t.id := by
    rintro t ht x hx
    obtain rfl := Option.some.inj ht
    exact hnew x hx
  have htouched : Touched db (.createRequest args fresh)
      ((db.openRequest args fresh).setAccessRequest (filedRequest args fresh)) :=
    .kept rfl rfl rfl rfl rfl (fun t ht => hopened t ht) rfl
  exact htouched.stocked h

/-- A request with a new id and a new trace can be filed. -/
theorem Db.Stocked.exists_request {db : Db} (h : db.Stocked) (svc : SigningKeyPair)
    {args : AccessRequestArgs} {fresh : RequestFresh}
    (hexpires : PyTime.inRange (newRequest args fresh).expiresAt = true)
    (htexts : textOk args.requestedBy = true ∧ textOk args.reason = true)
    (hnodup : args.payloadHashes.Nodup)
    (hhashes : ∀ payloadHash ∈ args.payloadHashes, textOk payloadHash = true)
    (hnew : fresh.id ∉ db.accessRequests.map AccessRequest.id)
    (hgrants : ∀ g ∈ db.accessGrantKeys, g.requestId ≠ fresh.id)
    (horg : db.hasOrg args.orgId = true)
    (htrace : fresh.traceId ∉ db.traces.map Trace.id)
    (hid : fresh.event.eventId ∉ db.events.map Event.id)
    (hwraps : ∀ pem, db.wrapsTo args.orgId = some pem → KeyWrapping.publicKind pem = .usable) :
    ∃ db', createAccessRequest svc db args fresh = .ok db' := by
  have hinsert : db.insertAccessRequest (newRequest args fresh) = .ok { db with
      accessRequests := db.accessRequests ++ [newRequest args fresh] } :=
    Db.insertAccessRequest_eq_ok.mpr ⟨⟨htexts, fun x hx hxid =>
      hnew (List.mem_map.mpr ⟨x, hx, hxid⟩), horg⟩, rfl⟩
  have hscope : insertScope { db with
      accessRequests := db.accessRequests ++ [newRequest args fresh] } (newRequest args fresh).id
      args.payloadHashes = .ok { db with
        accessRequests := db.accessRequests ++ [newRequest args fresh]
        accessGrantKeys := db.accessGrantKeys ++
          args.payloadHashes.map (fun h => ⟨fresh.id, h, none⟩) } :=
    insertScope_succeeds hnodup hhashes fun g hg hgid => absurd hgid (hgrants g hg)
  have hunopened : ∀ t ∈ db.traces, t.id ≠ fresh.traceId := fun t ht htid =>
    htrace (List.mem_map.mpr ⟨t, ht, htid⟩)
  have hopen : getOrCreateTrace { db with
      accessRequests := db.accessRequests ++ [newRequest args fresh]
      accessGrantKeys := db.accessGrantKeys ++
        args.payloadHashes.map (fun h => ⟨fresh.id, h, none⟩) } args.orgId fresh.traceId none =
      .ok (db.openRequest args fresh) := by
    have hnone : db.traces.find? (fun t => t.id = fresh.traceId) = none := by
      simpa [List.find?_eq_none] using hunopened
    simp only [getOrCreateTrace, openTrace, Db.getTraceById, hnone, Except.ok_bind', insertOpened]
    exact Db.insertTrace_eq_ok.mpr ⟨⟨rfl, hunopened, horg⟩, rfl⟩
  have hnamed : PyText.isBlank "access_request" = false := by
    simp [PyText.isBlank, PyText.isSpace, PyText.isAscii]
  obtain ⟨db', hconsent⟩ : ∃ db', recordConsentEvent svc
      ((db.openRequest args fresh).setAccessRequest (filedRequest args fresh))
      (filedRequest args fresh) "access_request" (filingPayload args (filedRequest args fresh))
      fresh.event = .ok db' :=
    (h.openRequest hunopened).exists_consent svc _ rfl
      ⟨⟨fresh.traceId, args.orgId, none⟩, by simp [Db.setAccessRequest, Db.openRequest], rfl, rfl⟩
      hnamed (by decide) horg (fun x hx hxid => hid (List.mem_map.mpr ⟨x, hx, hxid⟩)) hwraps
  refine ⟨db', ?_⟩
  simp only [createAccessRequest, hexpires, require, if_true, Except.ok_bind', hinsert, hscope,
    hopen, hconsent]

/-- The database with the approval of a client and the keys it posted. -/
def Db.postApproval (db : Db) (args : ClientApprovalArgs) : Db :=
  { db with accessApprovals := db.accessApprovals ++ [⟨args.requestId, args.approverId⟩]
            accessGrantKeys := db.accessGrantKeys.map (postKey args) }

/-- A new approver's approval of a pending request goes through. -/
theorem Db.Stocked.exists_clientApproval {db : Db} (h : db.Stocked) (svc : SigningKeyPair)
    {args : ClientApprovalArgs} {fresh : Fresh} {request : AccessRequest} {traceId : Uuid}
    (hfound : db.getAccessRequest args.requestId = some request)
    (hpending : request.status = "pending") (hnew : args.approverId ∉ db.approversOf args.requestId)
    (htext : textOk args.approverId = true) (htrace : request.traceId = some traceId)
    (hthere : ∃ t ∈ db.traces, t.id = traceId ∧ t.orgId = request.orgId)
    (horg : db.hasOrg request.orgId = true) (hid : fresh.eventId ∉ db.events.map Event.id)
    (hwraps : ∀ pem, db.wrapsTo request.orgId = some pem →
      KeyWrapping.publicKind pem = .usable) : ∃ db',
      recordClientApproval svc db args fresh = .ok db' ∧
        Noted (settleApproval (db.postApproval args) request).1
          (settleApproval (db.postApproval args) request).2 "access_approval" fresh db' := by
  have hinsert : db.insertAccessApproval ⟨args.requestId, args.approverId⟩ = .ok { db with
      accessApprovals := db.accessApprovals ++ [⟨args.requestId, args.approverId⟩] } := by
    refine Db.insertAccessApproval_eq_ok.mpr ⟨⟨htext, fun x hx hxid happ => hnew ?_⟩, rfl⟩
    exact List.mem_map.mpr ⟨x, List.mem_filter.mpr ⟨hx, decide_eq_true hxid⟩, happ⟩
  have hsettled : (settleApproval (db.postApproval args) request).1.Stocked ∧
      (settleApproval (db.postApproval args) request).1.traces = db.traces ∧
      (settleApproval (db.postApproval args) request).1.events = db.events ∧
      (settleApproval (db.postApproval args) request).1.orgs = db.orgs ∧
      (settleApproval (db.postApproval args) request).2.traceId = request.traceId ∧
      (settleApproval (db.postApproval args) request).2.orgId = request.orgId := by
    have hsame {db₁ : Db} (ht : Touched db (.clientApprove args fresh) db₁) : db₁.Stocked :=
      ht.stocked h
    unfold settleApproval
    split
    · exact ⟨hsame (.same rfl rfl rfl rfl rfl rfl), rfl, rfl, rfl, rfl, rfl⟩
    · exact ⟨hsame (.same rfl rfl rfl rfl rfl rfl), rfl, rfl, rfl, rfl, rfl⟩
  obtain ⟨hstocked, htraces, hevents, horgs, hrtrace, hrorg⟩ := hsettled
  have hnamed : PyText.isBlank "access_approval" = false := by
    simp [PyText.isBlank, PyText.isSpace, PyText.isAscii]
  obtain ⟨db', hconsent⟩ : ∃ db', recordConsentEvent svc
      (settleApproval (db.postApproval args) request).1
      (settleApproval (db.postApproval args) request).2 "access_approval"
      (approvalPayload (settleApproval (db.postApproval args) request).2 args.approverId
        ((settleApproval (db.postApproval args) request).1.approversOf args.requestId).length
        (postedHashes { db with accessApprovals :=
          db.accessApprovals ++ [⟨args.requestId, args.approverId⟩] } args)) fresh = .ok db' := by
    refine hstocked.exists_consent svc _ (hrtrace.trans htrace) ?_ hnamed (by decide) ?_ ?_ ?_
    · rw [htraces, hrorg]
      exact hthere
    · rw [hrorg, Db.hasOrg, horgs]
      exact horg
    · rw [hevents]
      exact fun x hx hxid => hid (List.mem_map.mpr ⟨x, hx, hxid⟩)
    · rw [hrorg, Db.wrapsTo, Db.getOrgById, horgs]
      exact hwraps
  refine ⟨db', ?_, recordConsentEvent_noted hconsent⟩
  simp only [recordClientApproval, hfound, hpending, hnew, ne_eq, not_true_eq_false, if_false,
    hinsert, Except.ok_bind']
  exact hconsent

/-- A record of an open grant, whose key was released to the grantee, is read. -/
theorem Db.Stocked.exists_read {db : Db} (h : db.Stocked) (svc : SigningKeyPair) {requestId : Uuid}
    {now : Int} {fresh : Fresh} {request : AccessRequest} {traceId : Uuid} {p : Payload}
    {g : AccessGrantKey} {pem : String}
    (hfound : db.getAccessRequest requestId = some request)
    (happroved : request.status = "approved") (hunexpired : now < request.expiresAt)
    (hitem : (db.scopeOf requestId).find? (fun g => g.payloadHash = p.payloadHash) = some g)
    (hkey : g.wrappedKey = some (.key (.wrapped pem p.encryptedBlob.key)))
    (hopens : KeyUnwrapping.privateKind request.granteePrivatePem = .usable ∧
      KeyUnwrapping.opens request.granteePrivatePem pem = true)
    (hp : p ∈ db.payloads) (hporg : p.orgId = request.orgId) (hunerased : p.erasedAt = none)
    (htrace : request.traceId = some traceId)
    (hthere : ∃ t ∈ db.traces, t.id = traceId ∧ t.orgId = request.orgId)
    (horg : db.hasOrg request.orgId = true) (hid : fresh.eventId ∉ db.events.map Event.id)
    (hwraps : ∀ pem, db.wrapsTo request.orgId = some pem →
      KeyWrapping.publicKind pem = .usable) : ∃ db',
      readViaGrant svc db requestId p.payloadHash now fresh =
        .ok (db', some p.encryptedBlob.content) := by
  have hunwrap : unwrapReleased request.granteePrivatePem
      (.key (.wrapped pem p.encryptedBlob.key)) = .ok p.encryptedBlob.key :=
    unwrapKey_eq_ok.mpr ⟨hopens.1, pem, rfl, hopens.2⟩
  have hget := Db.getPayload_of_mem h.keyed.payloads hp
  rw [hporg] at hget
  have haad := (h.sealed p hp).2.1
  rw [hporg] at haad
  have hcontent : grantedContent db request p.payloadHash
      (.key (.wrapped pem p.encryptedBlob.key)) = .ok (some p.encryptedBlob.content) := by
    simp [grantedContent, hunwrap, hget, hunerased, decryptContent, haad]
  have hnamed : PyText.isBlank "access_read" = false := by
    simp [PyText.isBlank, PyText.isSpace, PyText.isAscii]
  obtain ⟨db', hconsent⟩ : ∃ db', recordConsentEvent svc db request "access_read"
      [("payload_hash", .str p.payloadHash), ("reader", .str "attest_admin")] fresh = .ok db' :=
    h.exists_consent svc _ htrace hthere hnamed (by decide) horg
      (fun x hx hxid => hid (List.mem_map.mpr ⟨x, hx, hxid⟩)) hwraps
  refine ⟨db', ?_⟩
  have hopen : ¬request.expiresAt ≤ now := by omega
  simp only [readViaGrant, hfound, happroved, ne_eq, not_true_eq_false, if_false, hopen, hitem,
    hkey, hcontent, Except.ok_bind', hconsent, Except.pure_eq]

/-! ## Sample calls -/

/-- The first event of a trace of its own. -/
def sampleFirst (k : Nat) (payload : Dict) : RecordArgs :=
  { sampleArgs with traceId := Uuid.ofNat k, payload := payload }

def sampleFreshOf (k : Nat) : Fresh := ⟨sampleFresh.now, Uuid.ofNat k, [UInt8.ofNat k]⟩

theorem bare_sampleBlank : sampleBlank.Bare where
  orgs := by decide
  managed := by simp [sampleBlank, Db.empty]
  traces := rfl
  events := rfl
  payloads := rfl
  payloadKeys := rfl
  accessRequests := rfl
  accessApprovals := rfl
  accessGrantKeys := rfl

/-- A new trace can be given its first event. -/
theorem Db.Stocked.exists_first {db : Db} (h : db.Stocked) (svc : SigningKeyPair) (k : Nat)
    (payload : Dict) (horg : db.hasOrg "acme" = true)
    (hwraps : ∀ pem, db.wrapsTo "acme" = some pem → KeyWrapping.publicKind pem = .usable)
    (htrace : Uuid.ofNat k ∉ db.traces.map Trace.id)
    (hid : Uuid.ofNat k ∉ db.events.map Event.id) : ∃ db' out e,
      recordEvent svc db (sampleFirst k payload) (sampleFreshOf k) = .ok (db', out) ∧
        Recorded db (sampleFirst k payload) (sampleFreshOf k) e db' ∧
        db'.traces.map Trace.id = db.traces.map Trace.id ++ [Uuid.ofNat k] ∧
        db'.events.map Event.id = db.events.map Event.id ++ [Uuid.ofNat k] := by
  have hnew : ∀ t ∈ db.traces, t.id ≠ Uuid.ofNat k := fun t ht heq =>
    htrace (List.mem_map.mpr ⟨t, ht, heq⟩)
  have hrows : db.traceRows "acme" (Uuid.ofNat k) = [] := by
    refine List.filter_eq_nil_iff.mpr fun x hx hcols => ?_
    obtain ⟨t, ht, htid, -⟩ := h.owned x hx
    exact hnew t ht (htid.trans (of_decide_eq_true hcols).2)
  have hnext : (sampleFirst k payload).seq =
      nextSeq (db.lastEventForTrace "acme" (Uuid.ofNat k)) := by
    rw [Db.lastEventForTrace, latestBy_eq_none.mpr hrows]
    rfl
  have hnamed : PyText.isBlank (sampleFirst k payload).eventType = false := by
    simp [sampleFirst, sampleArgs, PyText.isBlank, PyText.isSpace, PyText.isAscii]
  have hrecordable : Recordable db (sampleFirst k payload) (sampleFreshOf k) :=
    h.recordable hnamed ⟨show textOk "model_completion" = true by decide, rfl⟩ horg
      (fun t ht hcol => absurd hcol (hnew t ht)) hnext
      (fun x hx heq => hid (List.mem_map.mpr ⟨x, hx, heq⟩)) (Or.inr hwraps)
  obtain ⟨db', out, hrecord⟩ := recordEvent_succeeds svc hrecordable
  obtain ⟨e, he, -⟩ := recordEvent_recorded hrecord
  refine ⟨db', out, e, hrecord, he, ?_, ?_⟩
  · obtain ⟨-, -, opened, rows, hopens, -, rfl⟩ := he
    cases opened with
    | none =>
      obtain ⟨t, ht, htid, -⟩ := hopens.there
      exact absurd htid (hnew t (by simpa using ht))
    | some t =>
      simp only [Option.toList_some, List.map_append, List.map_cons, List.map_nil,
        (hopens.new t rfl).1]
      rfl
  · obtain ⟨ts, ps, ks, hdb⟩ := he.others
    rw [hdb]
    simp only [List.map_append, List.map_cons, List.map_nil, he.id_eq]
    rfl

end Ops

namespace Sample

/-- Samples are of transparent signatures, a lenient library and ASCII texts. -/
scoped instance : SignatureScheme := .transparent

scoped instance : KeyUnwrapping := .lenient

scoped instance : PyUnicode := .ascii

end Sample

end Attest
