import Attest.Mitigation
import Attest.Offline
import Attest.Settings
import Attest.Erasure

/-!
# What a call leaves of other organisations

Rows carry the organisation they belong to, and a call is on behalf of one. The
identifiers it is given (traces, approvals, sequence numbers, devices) may name rows of
another : its queries ask for rows of its own organisation, and what it inserts is its
own. An update is by primary key, so it needs that no two rows share one
(`Db.PrimaryKeys`), which every insert checks.

`Spares` is one write that leaves the rows of an organisation as they were and keeps
the primary keys. The writes of a call compose, and every call on behalf of another
organisation spares it, whether it returns or is rolled back (`tenants_isolated`), and
so does any sequence of them (`TenantOp.foldl_spares`).
-/

set_option linter.unusedSectionVars false

namespace Attest

/-! ## Rows of a table -/

section Rows

variable {α κ : Type} [DecidableEq κ] {p : α → Bool} {f : α → κ} {rows : List α}

theorem filter_append_others {new : List α} (h : ∀ r ∈ new, p r = false) :
    (rows ++ new).filter p = rows.filter p := by
  have hnew : new.filter p = [] := List.filter_eq_nil_iff.mpr fun r hr => by simp [h r hr]
  rw [List.filter_append, hnew, List.append_nil]

theorem filter_map_others {g : α → α} (hkeep : ∀ r ∈ rows, p (g r) = p r)
    (hmine : ∀ r ∈ rows, p r = true → g r = r) : (rows.map g).filter p = rows.filter p := by
  induction rows with
  | nil => rfl
  | cons r rows ih =>
    have ih := ih (fun x hx => hkeep x (List.mem_cons_of_mem r hx))
      (fun x hx => hmine x (List.mem_cons_of_mem r hx))
    have hr := hkeep r List.mem_cons_self
    by_cases h : p r = true
    · rw [List.map_cons, hmine r List.mem_cons_self h, List.filter_cons_of_pos h,
        List.filter_cons_of_pos h, ih]
    · rw [List.map_cons, List.filter_cons_of_neg (by rwa [hr]), List.filter_cons_of_neg h, ih]

/-- The update of the row with a key that none of mine has. -/
theorem filter_update_others {g : α → α} {k : κ} (hother : ∀ r ∈ rows, f r = k → p r = false)
    (hg : ∀ r, p (g r) = p r) :
    (rows.map fun r => if f r = k then g r else r).filter p = rows.filter p := by
  refine filter_map_others ?_ ?_
  · intro r _
    by_cases h : f r = k <;> simp [h, hg]
  · intro r hr hmine
    by_cases h : f r = k
    · rw [hother r hr h] at hmine
      cases hmine
    · simp [h]

theorem map_key_update {g : α → α} {k : κ} (hg : ∀ r, f (g r) = f r) :
    (rows.map fun r => if f r = k then g r else r).map f = rows.map f := by
  rw [List.map_map]
  refine List.map_congr_left ?_
  intro r _
  by_cases h : f r = k <;> simp [h, hg]

theorem nodup_append_row {row : α} (h : (rows.map f).Nodup) (hnew : ∀ r ∈ rows, f r ≠ f row) :
    ((rows ++ [row]).map f).Nodup := by
  rw [List.map_append, List.map_singleton]
  refine List.Nodup.append h (List.nodup_singleton _) ?_
  simpa using hnew

end Rows

/-! ## The rows of an organisation -/

structure OrgRows where
  orgs : List Org
  policies : List Policy
  traces : List Trace
  events : List Event
  batches : List Batch
  approvals : List Approval
  payloads : List Payload
  payloadKeys : List PayloadKey
  signingKeys : List OrgSigningKey
  orgPacks : List OrgRegulationPack
  summaries : List PolicyDecisionSummary
  devices : List SdkDevice
  profiles : List OrgProfile
  profileChanges : List ProfileChangeRequest
  accessRequests : List AccessRequest

/-- The rows that belong to an organisation. -/
def Db.rowsOf (db : Db) (orgId : String) : OrgRows where
  orgs := db.orgs.filter fun r => r.id = orgId
  policies := db.policies.filter fun r => r.orgId = orgId
  traces := db.traces.filter fun r => r.orgId = orgId
  events := db.events.filter fun r => r.orgId = orgId
  batches := db.batches.filter fun r => r.orgId = some orgId
  approvals := db.approvals.filter fun r => r.orgId = orgId
  payloads := db.payloads.filter fun r => r.orgId = orgId
  payloadKeys := db.payloadKeys.filter fun r => r.orgId = orgId
  signingKeys := db.signingKeys.filter fun r => r.orgId = orgId
  orgPacks := db.orgPacks.filter fun r => r.orgId = orgId
  summaries := db.summaries.filter fun r => r.orgId = orgId
  devices := db.devices.filter fun r => r.orgId = orgId
  profiles := db.profiles.filter fun r => r.orgId = orgId
  profileChanges := db.profileChanges.filter fun r => r.orgId = orgId
  accessRequests := db.accessRequests.filter fun r => r.orgId = orgId

/-- No two rows of a table share their primary key. -/
structure Db.PrimaryKeys (db : Db) : Prop where
  policies : (db.policies.map Policy.id).Nodup
  events : (db.events.map Event.id).Nodup
  approvals : (db.approvals.map Approval.id).Nodup
  summaries : (db.summaries.map PolicyDecisionSummary.id).Nodup
  devices : (db.devices.map SdkDevice.id).Nodup

/-- The rows of an organisation are as they were, and the primary keys are kept. -/
structure Spares (orgId : String) (db db' : Db) : Prop where
  keys : db.PrimaryKeys → db'.PrimaryKeys
  rows : db.PrimaryKeys → db'.rowsOf orgId = db.rowsOf orgId

namespace Spares

variable {orgId : String} {db db' db'' : Db}

theorem refl (db : Db) : Spares orgId db db :=
  ⟨fun h => h, fun _ => rfl⟩

/-- What follows may use that keys were primary. -/
theorem trans_of (h : Spares orgId db db') (h' : db.PrimaryKeys → Spares orgId db' db'') :
    Spares orgId db db'' :=
  ⟨fun hk => (h' hk).keys (h.keys hk),
    fun hk => ((h' hk).rows (h.keys hk)).trans (h.rows hk)⟩

theorem trans (h : Spares orgId db db') (h' : Spares orgId db' db'') : Spares orgId db db'' :=
  h.trans_of fun _ => h'

/-! ## Inserts -/

theorem insertTrace {t : Trace} (h : db.insertTrace t = .ok db') (hne : t.orgId ≠ orgId) :
    Spares orgId db db' := by
  obtain ⟨-, rfl⟩ := Db.insertTrace_eq_ok.mp h
  refine ⟨fun hk => { hk with }, fun _ => ?_⟩
  have htraces : (db.traces ++ [t]).filter (fun r => decide (r.orgId = orgId)) =
      db.traces.filter fun r => decide (r.orgId = orgId) :=
        filter_append_others (by simpa using hne)
  simp only [Db.rowsOf, htraces]

theorem insertPayload {p : Payload × PayloadKey} (h : db.insertPayload p = .ok db')
    (hne : p.1.orgId ≠ orgId ∧ p.2.orgId ≠ orgId) : Spares orgId db db' := by
  obtain ⟨-, rfl⟩ := Db.insertPayload_eq_ok.mp h
  refine ⟨fun hk => { hk with }, fun _ => ?_⟩
  have hpayloads : (db.payloads ++ [p.1]).filter (fun r => decide (r.orgId = orgId)) =
      db.payloads.filter fun r => decide (r.orgId = orgId) :=
    filter_append_others (by simpa using hne.1)
  have hkeys : (db.payloadKeys ++ [p.2]).filter (fun r => decide (r.orgId = orgId)) =
      db.payloadKeys.filter fun r => decide (r.orgId = orgId) :=
    filter_append_others (by simpa using hne.2)
  simp only [Db.rowsOf, hpayloads, hkeys]

theorem insertEventRow {e : Event} (h : db.insertEventRow e = .ok db') (hne : e.orgId ≠ orgId) :
    Spares orgId db db' := by
  obtain ⟨⟨-, -, hid, -⟩, rfl⟩ := Db.insertEventRow_eq_ok.mp h
  refine ⟨fun hk => { hk with events := nodup_append_row hk.events hid }, fun _ => ?_⟩
  have hevents : (db.events ++ [e]).filter (fun r => decide (r.orgId = orgId)) =
      db.events.filter fun r => decide (r.orgId = orgId) :=
        filter_append_others (by simpa using hne)
  simp only [Db.rowsOf, hevents]

theorem insertApproval {a : Approval} (h : db.insertApproval a = .ok db') (hne : a.orgId ≠ orgId) :
    Spares orgId db db' := by
  obtain ⟨⟨hid, -⟩, rfl⟩ := Db.insertApproval_eq_ok.mp h
  refine ⟨fun hk => { hk with approvals := nodup_append_row hk.approvals hid }, fun _ => ?_⟩
  have happrovals : (db.approvals ++ [a]).filter (fun r => decide (r.orgId = orgId)) =
      db.approvals.filter fun r => decide (r.orgId = orgId) :=
    filter_append_others (by simpa using hne)
  simp only [Db.rowsOf, happrovals]

theorem insertSummary {s : PolicyDecisionSummary} (h : db.insertSummary s = .ok db')
    (hne : s.orgId ≠ orgId) : Spares orgId db db' := by
  obtain ⟨⟨-, -, hid, -⟩, rfl⟩ := Db.insertSummary_eq_ok.mp h
  refine ⟨fun hk => { hk with summaries := nodup_append_row hk.summaries hid }, fun _ => ?_⟩
  have hsummaries : (db.summaries ++ [s]).filter (fun r => decide (r.orgId = orgId)) =
      db.summaries.filter fun r => decide (r.orgId = orgId) :=
    filter_append_others (by simpa using hne)
  simp only [Db.rowsOf, hsummaries]

theorem insertDevice {d : SdkDevice} (h : db.insertDevice d = .ok db') (hne : d.orgId ≠ orgId) :
    Spares orgId db db' := by
  simp only [Db.insertDevice, Except.bind_eq_ok, require_eq_ok, Except.pure_eq, Except.ok.injEq,
    exists_const, Bool.not_eq_true', List.any_eq_false, decide_eq_true_eq] at h
  obtain ⟨-, hid, -, -, rfl⟩ := h
  refine ⟨fun hk => { hk with devices := nodup_append_row hk.devices hid }, fun _ => ?_⟩
  have hdevices : (db.devices ++ [d]).filter (fun r => decide (r.orgId = orgId)) =
      db.devices.filter fun r => decide (r.orgId = orgId) :=
    filter_append_others (by simpa using hne)
  simp only [Db.rowsOf, hdevices]

theorem insertPolicy {p : Policy} (h : db.insertPolicy p = .ok db') (hne : p.orgId ≠ orgId) :
    Spares orgId db db' := by
  simp only [Db.insertPolicy, Except.bind_eq_ok, require_eq_ok, Except.pure_eq, Except.ok.injEq,
    exists_const, Bool.not_eq_true', List.any_eq_false, decide_eq_true_eq] at h
  obtain ⟨-, hid, -, -, rfl⟩ := h
  refine ⟨fun hk => { hk with policies := nodup_append_row hk.policies hid }, fun _ => ?_⟩
  have hpolicies : (db.policies ++ [p]).filter (fun r => decide (r.orgId = orgId)) =
      db.policies.filter fun r => decide (r.orgId = orgId) :=
    filter_append_others (by simpa using hne)
  simp only [Db.rowsOf, hpolicies]

theorem insertProfileChange {r : ProfileChangeRequest} (h : db.insertProfileChange r = .ok db')
    (hne : r.orgId ≠ orgId) : Spares orgId db db' := by
  simp only [Db.insertProfileChange, Except.bind_eq_ok, require_eq_ok, Except.pure_eq,
    Except.ok.injEq, exists_const] at h
  obtain ⟨-, -, -, rfl⟩ := h
  refine ⟨fun hk => { hk with }, fun _ => ?_⟩
  have hchanges : (db.profileChanges ++ [r]).filter (fun r => decide (r.orgId = orgId)) =
      db.profileChanges.filter fun r => decide (r.orgId = orgId) :=
    filter_append_others (by simpa using hne)
  simp only [Db.rowsOf, hchanges]

/-! ## Updates -/

theorem updatePolicy {id : Uuid} (hid : ∀ r ∈ db.policies, r.id = id → r.orgId ≠ orgId)
    {g : Policy → Policy} (hg : ∀ r, (g r).id = r.id ∧ (g r).orgId = r.orgId) :
    Spares orgId db
      { db with policies := db.policies.map fun r => if r.id = id then g r else r } := by
  refine ⟨fun hk => { hk with policies := ?_ }, fun _ => ?_⟩
  · rw [map_key_update (f := Policy.id) fun r => (hg r).1]
    exact hk.policies
  · have hpolicies := filter_update_others (p := fun r => decide (r.orgId = orgId)) (g := g)
      (f := Policy.id) (k := id) (by simpa using hid) (by simp [hg])
    simp only [Db.rowsOf, hpolicies]

theorem updateEvent {id : Uuid} (hid : ∀ r ∈ db.events, r.id = id → r.orgId ≠ orgId)
    {g : Event → Event} (hg : ∀ r, (g r).id = r.id ∧ (g r).orgId = r.orgId) :
    Spares orgId db { db with events := db.events.map fun r => if r.id = id then g r else r } := by
  refine ⟨fun hk => { hk with events := ?_ }, fun _ => ?_⟩
  · rw [map_key_update (f := Event.id) fun r => (hg r).1]
    exact hk.events
  · have hevents := filter_update_others (p := fun r => decide (r.orgId = orgId)) (g := g)
      (f := Event.id) (k := id) (by simpa using hid) (by simp [hg])
    simp only [Db.rowsOf, hevents]

theorem updateApproval {id : Uuid} (hid : ∀ r ∈ db.approvals, r.id = id → r.orgId ≠ orgId)
    {g : Approval → Approval} (hg : ∀ r, (g r).id = r.id ∧ (g r).orgId = r.orgId) :
    Spares orgId db
      { db with approvals := db.approvals.map fun r => if r.id = id then g r else r } := by
  refine ⟨fun hk => { hk with approvals := ?_ }, fun _ => ?_⟩
  · rw [map_key_update (f := Approval.id) fun r => (hg r).1]
    exact hk.approvals
  · have happrovals := filter_update_others (p := fun r => decide (r.orgId = orgId)) (g := g)
      (f := Approval.id) (k := id) (by simpa using hid) (by simp [hg])
    simp only [Db.rowsOf, happrovals]

theorem updateSummary {id : Uuid} (hid : ∀ r ∈ db.summaries, r.id = id → r.orgId ≠ orgId)
    {g : PolicyDecisionSummary → PolicyDecisionSummary}
    (hg : ∀ r, (g r).id = r.id ∧ (g r).orgId = r.orgId) :
    Spares orgId db
      { db with summaries := db.summaries.map fun r => if r.id = id then g r else r } := by
  refine ⟨fun hk => { hk with summaries := ?_ }, fun _ => ?_⟩
  · rw [map_key_update (f := PolicyDecisionSummary.id) fun r => (hg r).1]
    exact hk.summaries
  · have hsummaries := filter_update_others (p := fun r => decide (r.orgId = orgId)) (g := g)
      (f := PolicyDecisionSummary.id) (k := id) (by simpa using hid) (by simp [hg])
    simp only [Db.rowsOf, hsummaries]

theorem updateDevice {id : Uuid} (hid : ∀ r ∈ db.devices, r.id = id → r.orgId ≠ orgId)
    {g : SdkDevice → SdkDevice} (hg : ∀ r, (g r).id = r.id ∧ (g r).orgId = r.orgId) :
    Spares orgId db
      { db with devices := db.devices.map fun r => if r.id = id then g r else r } := by
  refine ⟨fun hk => { hk with devices := ?_ }, fun _ => ?_⟩
  · rw [map_key_update (f := SdkDevice.id) fun r => (hg r).1]
    exact hk.devices
  · have hdevices := filter_update_others (p := fun r => decide (r.orgId = orgId)) (g := g)
      (f := SdkDevice.id) (k := id) (by simpa using hid) (by simp [hg])
    simp only [Db.rowsOf, hdevices]

/-- Updates by the column itself. -/
theorem deactivatePolicies {owner : String} (hne : owner ≠ orgId) :
    Spares orgId db (db.deactivatePolicies owner) := by
  have hid : ∀ r : Policy,
      (if r.orgId = owner ∧ r.active then { r with active := false } else r).id = r.id := by
    intro r
    split <;> rfl
  refine ⟨fun hk => { hk with policies := ?_ }, fun _ => ?_⟩
  · have hids :
        (db.deactivatePolicies owner).policies.map Policy.id = db.policies.map Policy.id := by
      rw [Db.deactivatePolicies, List.map_map]
      exact List.map_congr_left fun r _ => hid r
    rw [hids]
    exact hk.policies
  · have hpolicies : (db.deactivatePolicies owner).policies.filter
        (fun r => decide (r.orgId = orgId)) =
          db.policies.filter fun r => decide (r.orgId = orgId) := by
      refine filter_map_others ?_ ?_
      · intro r _
        split <;> rfl
      · intro r _ hmine
        have horg : r.orgId ≠ owner := fun h => hne (h.symm.trans (by simpa using hmine))
        simp [horg]
    simp only [Db.rowsOf, hpolicies]
    rfl

theorem shred {owner : String} (hne : owner ≠ orgId) (payloadHash now : String) :
    Spares orgId db (db.shred owner payloadHash now) := by
  refine ⟨fun hk => { hk with }, fun _ => ?_⟩
  have hkeys : (db.shred owner payloadHash now).payloadKeys.filter
      (fun r => decide (r.orgId = orgId)) =
        db.payloadKeys.filter fun r => decide (r.orgId = orgId) := by
    rw [Db.shred, List.filter_filter]
    refine List.filter_congr ?_
    intro r _
    by_cases h : r.orgId = orgId
    · have horg : r.orgId ≠ owner := fun heq => hne (heq.symm.trans h)
      simp [horg]
    · simp [h]
  have hpayloads : (db.shred owner payloadHash now).payloads.filter
      (fun r => decide (r.orgId = orgId)) =
        db.payloads.filter fun r => decide (r.orgId = orgId) := by
    refine filter_map_others ?_ ?_
    · intro r _
      split <;> rfl
    · intro r _ hmine
      have horg : r.orgId ≠ owner := fun h => hne (h.symm.trans (by simpa using hmine))
      simp [horg]
  simp only [Db.rowsOf, hkeys, hpayloads]
  rfl

theorem subscribeOrg {owner packCode : String} (h : subscribeOrg db owner packCode = .ok db')
    (hne : owner ≠ orgId) : Spares orgId db db' := by
  unfold Attest.subscribeOrg at h
  split at h
  · cases h
  · rename_i pack _
    split at h
    · obtain rfl := Except.ok.inj h
      refine ⟨fun hk => { hk with }, fun _ => ?_⟩
      have hpacks : (db.orgPacks.map fun s => if s.orgId = owner ∧ s.packId = pack.id then
          { s with enabled := true, enforcement := "advisory" } else s).filter
            (fun r => decide (r.orgId = orgId)) =
          db.orgPacks.filter fun r => decide (r.orgId = orgId) := by
        refine filter_map_others ?_ ?_
        · intro r _
          split <;> rfl
        · intro r _ hmine
          have horg : r.orgId ≠ owner := fun h => hne (h.symm.trans (by simpa using hmine))
          simp [horg]
      simp only [Db.rowsOf, hpacks]
    · obtain ⟨_, -, hdb⟩ := Except.bind_eq_ok.mp h
      obtain rfl := Except.ok.inj hdb
      refine ⟨fun hk => { hk with }, fun _ => ?_⟩
      have hpacks : (db.orgPacks ++ [OrgRegulationPack.mk owner pack.id "advisory" true]).filter
          (fun r => decide (r.orgId = orgId)) =
            db.orgPacks.filter fun r => decide (r.orgId = orgId) :=
        filter_append_others (by simpa using hne)
      simp only [Db.rowsOf, hpacks]

theorem unsubscribe {owner : String} (hne : owner ≠ orgId) (packId : Uuid) :
    Spares orgId db (db.unsubscribe owner packId) := by
  refine ⟨fun hk => { hk with }, fun _ => ?_⟩
  have hpacks : (db.unsubscribe owner packId).orgPacks.filter (fun r => decide (r.orgId = orgId)) =
      db.orgPacks.filter fun r => decide (r.orgId = orgId) := by
    rw [Db.unsubscribe, List.filter_filter]
    refine List.filter_congr ?_
    intro r _
    by_cases h : r.orgId = orgId
    · have horg : r.orgId ≠ owner := fun heq => hne (heq.symm.trans h)
      simp [horg]
    · simp [h]
  simp only [Db.rowsOf, hpacks]
  rfl

theorem putProfile {profile : OrgProfile} (h : db.putProfile profile = .ok db')
    (hne : profile.orgId ≠ orgId) : Spares orgId db db' := by
  obtain ⟨_, -, h⟩ := Except.bind_eq_ok.mp h
  split at h
  · obtain rfl := Except.ok.inj h
    refine ⟨fun hk => { hk with }, fun _ => ?_⟩
    have hprofiles :
        (db.profiles.map fun p => if p.orgId = profile.orgId then profile else p).filter
            (fun r => decide (r.orgId = orgId)) =
          db.profiles.filter fun r => decide (r.orgId = orgId) := by
      refine filter_map_others ?_ ?_
      · intro r _
        by_cases heq : r.orgId = profile.orgId <;> simp [heq]
      · intro r _ hmine
        have horg : r.orgId ≠ profile.orgId := fun h => hne (h.symm.trans (by simpa using hmine))
        simp [horg]
    simp only [Db.rowsOf, hprofiles]
  · obtain ⟨_, -, hdb⟩ := Except.bind_eq_ok.mp h
    obtain rfl := Except.ok.inj hdb
    refine ⟨fun hk => { hk with }, fun _ => ?_⟩
    have hprofiles : (db.profiles ++ [profile]).filter (fun r => decide (r.orgId = orgId)) =
        db.profiles.filter fun r => decide (r.orgId = orgId) :=
      filter_append_others (by simpa using hne)
    simp only [Db.rowsOf, hprofiles]

/-! ## Recording -/

section Calls

variable [SignatureScheme] [KeyWrapping] [PyUnicode] {svc : SigningKeyPair}

theorem getOrCreateTrace {owner : String} {traceId : Uuid} {pv : Option String}
    (h : getOrCreateTrace db owner traceId pv = .ok db') (hne : owner ≠ orgId) :
    Spares orgId db db' := by
  obtain ⟨opened, hopen, hinsert⟩ := Except.bind_eq_ok.mp h
  rcases openTrace_eq_ok hopen with ⟨rfl, -⟩ | ⟨rfl, -⟩
  · obtain rfl := Except.ok.inj hinsert
    exact refl db
  · exact insertTrace hinsert hne

/-- The content a draft adds is of the caller's organisation, and so is its event. -/
theorem insertDraft {args : RecordArgs} {last : Option Event} {fresh : Fresh} {d : Draft}
    {db₀ : Db} (hdraft : draftEvent svc db₀ args last fresh = .ok d) (h : d.insert db = .ok db')
    (hne : args.orgId ≠ orgId) : Spares orgId db db' := by
  obtain ⟨db₁, hsealed, hevent⟩ := Except.bind_eq_ok.mp h
  have horg : d.event.orgId = args.orgId := (draftEvent_records hdraft).1.orgId_eq
  simp only [draftEvent, Except.bind_eq_ok, Except.pure_eq, Except.ok.injEq] at hdraft
  obtain ⟨_, -, content, hcontent, rfl⟩ := hdraft
  have hcontents : Spares orgId db db₁ := by
    rcases sealPayload_eq_ok.mp hcontent with ⟨rfl, -⟩ | ⟨-, -, rfl⟩
    · obtain rfl := Except.ok.inj hsealed
      exact refl db
    · exact insertPayload hsealed ⟨hne, hne⟩
  exact hcontents.trans (insertEventRow hevent (by rwa [horg]))

theorem recordEvent {args : RecordArgs} {fresh : Fresh} {out : EventOut}
    (h : recordEvent svc db args fresh = .ok (db', out)) (hne : args.orgId ≠ orgId) :
    Spares orgId db db' := by
  simp only [Attest.recordEvent, Except.bind_eq_ok, Except.pure_eq, Except.ok.injEq,
    Prod.mk.injEq] at h
  obtain ⟨_, -, db₁, htrace, last, -, d, hdraft, db₂, hinsert, rfl, -⟩ := h
  exact (getOrCreateTrace htrace hne).trans (insertDraft hdraft hinsert hne)

/-! ## Checking -/

section Precheck

variable {args : PrecheckArgs} {fresh : PrecheckFresh} {d : DecisionOut}

theorem openApproval {tier : RiskTier} (h : openApproval db args tier fresh = .ok db')
    (hne : args.org.id ≠ orgId) : Spares orgId db db' := by
  unfold Attest.openApproval at h
  split at h
  · exact insertApproval h hne
  · obtain rfl := Except.ok.inj h
    exact refl db

theorem concludePrecheck {policy : Policy} {features : FeatureVector} {output : PolicyOutput}
    (h : concludePrecheck svc db args policy features output fresh = .ok (db', d))
    (hne : args.org.id ≠ orgId) : Spares orgId db db' := by
  simp only [Attest.concludePrecheck, Except.bind_eq_ok, Except.pure_eq, Except.ok.injEq,
    Prod.mk.injEq] at h
  obtain ⟨_, -, _, -, ⟨db₁, event⟩, hrecord, db₂, hsummary, db₃, hopen, rfl, -⟩ := h
  exact ((recordEvent hrecord hne).trans (insertSummary hsummary hne)).trans
    (openApproval hopen hne)

theorem failClosedResponse {policyVersion detail : String}
    (h : failClosedResponse svc db args policyVersion detail fresh = .ok (db', d))
    (hne : args.org.id ≠ orgId) : Spares orgId db db' := by
  simp only [Attest.failClosedResponse, Except.bind_eq_ok, Except.pure_eq, Except.ok.injEq,
    Prod.mk.injEq] at h
  obtain ⟨db₁, htrace, ⟨db₂, event⟩, hrecord, db₃, happroval, rfl, -⟩ := h
  exact ((getOrCreateTrace htrace hne).trans (recordEvent hrecord hne)).trans
    (insertApproval happroval hne)

theorem runPrecheck (h : runPrecheck svc db args fresh = .ok (db', d)) (hne : args.org.id ≠ orgId) :
    Spares orgId db db' := by
  unfold Attest.runPrecheck at h
  split at h
  · cases h
  · simp only [Except.bind_eq_ok] at h
    obtain ⟨db₁, htrace, features, -, h⟩ := h
    refine (getOrCreateTrace htrace hne).trans ?_
    split at h
    · split at h
      · exact failClosedResponse h hne
      · exact concludePrecheck h hne
    · cases h
    · exact concludePrecheck h hne

end Precheck

/-! ## The gate -/

section Gate

variable {args : GateArgs} {fresh : GateFresh} {out : GateOut}

theorem decideOutput {decision : Option DecisionOut}
    (h : decideOutput svc db args fresh = .ok (db', decision)) (hne : args.org.id ≠ orgId) :
    Spares orgId db db' := by
  unfold Attest.decideOutput at h
  split at h
  · obtain ⟨rfl, -⟩ := Prod.mk.inj (Except.ok.inj h)
    exact refl db
  · obtain ⟨⟨db₁, d⟩, hprecheck, hpair⟩ := Except.map_eq_ok.mp h
    obtain ⟨rfl, -⟩ := Prod.mk.inj hpair
    exact runPrecheck hprecheck hne

/-- The decision a call says it cures is of its own organisation. -/
theorem mem_of_remediatedSummary {s : PolicyDecisionSummary}
    (h : remediatedSummary db args = .ok (some s)) : s ∈ db.summaries ∧ s.orgId = args.org.id := by
  unfold remediatedSummary at h
  split at h
  · obtain ⟨summary, hvalid, hsome⟩ := Except.map_eq_ok.mp h
    obtain rfl := Option.some.inj hsome
    unfold validateRemediates at hvalid
    split at hvalid
    · cases hvalid
    · obtain ⟨found, hfound, hvalid⟩ := Except.bind_eq_ok.mp hvalid
      cases found with
      | none => cases hvalid
      | some row =>
        simp only at hvalid
        split at hvalid
        · obtain rfl := Except.ok.inj hvalid
          have hmem := mem_of_oneOrNone hfound
          simp only [Db.summariesOf, List.mem_filter, decide_eq_true_eq] at hmem
          exact ⟨hmem.1, hmem.2.1⟩
        · cases hvalid
  · cases Except.ok.inj h

/-- The rows of `db` that are not mine have, after a call that spares me, keys that none
of mine has. -/
theorem summary_others (h : Spares orgId db db') (hk : db.PrimaryKeys) {s : PolicyDecisionSummary}
    (hs : s ∈ db.summaries) (hne : s.orgId ≠ orgId) :
    ∀ r ∈ db'.summaries, r.id = s.id → r.orgId ≠ orgId := by
  rintro r hr hid hmine
  have hrows : db'.summaries.filter (fun r => decide (r.orgId = orgId)) =
      db.summaries.filter fun r => decide (r.orgId = orgId) :=
    congrArg OrgRows.summaries (h.rows hk)
  have hmem : r ∈ db.summaries.filter fun r => decide (r.orgId = orgId) := by
    rw [← hrows]
    exact List.mem_filter.mpr ⟨hr, by simpa using hmine⟩
  obtain rfl := List.inj_on_of_nodup_map hk.summaries (List.mem_of_mem_filter hmem) hs hid
  exact hne hmine

theorem stampSummary {s : PolicyDecisionSummary} (hs : s ∈ db.summaries) (hne : s.orgId ≠ orgId)
    (status : Status) (event : EventOut) : Spares orgId db (db.stampSummary s.id status event) :=
  (refl db).trans_of fun hk =>
    updateSummary (summary_others (refl db) hk hs hne) fun _ => ⟨rfl, rfl⟩

/-- The decision that was cured may have been read before other writes. -/
theorem closeSummary (h : Spares orgId db db') {s : PolicyDecisionSummary} (hs : s ∈ db.summaries)
    (hne : s.orgId ≠ orgId) (seq : Int) : Spares orgId db (db'.closeSummary s.id seq) :=
  h.trans_of fun hk => updateSummary (summary_others h hk hs hne) fun _ => ⟨rfl, rfl⟩

theorem closeRemediated (h : Spares orgId db db') {remediated : Option PolicyDecisionSummary}
    (hne : args.org.id ≠ orgId) (decision : DecisionOut) :
    (∀ s, remediated = some s → s ∈ db.summaries ∧ s.orgId = args.org.id) →
      Spares orgId db (match remediated with
        | some s => if decision.status = .compliant then db'.closeSummary s.id decision.seq else db'
        | none => db') := by
  intro hremediated
  cases remediated with
  | none => exact h
  | some s =>
    obtain ⟨hs, horg⟩ := hremediated s rfl
    by_cases hcompliant : decision.status = .compliant
    · simp only [hcompliant, if_true]
      exact h.closeSummary hs (by rwa [horg]) _
    · simp only [hcompliant, if_false]
      exact h

theorem settleSummaries (h : Spares orgId db db') {remediated : Option PolicyDecisionSummary}
    {decision : DecisionOut} {event : EventOut}
    (hsettle : settleSummaries db' args remediated decision event = .ok db'')
    (hremediated : ∀ s, remediated = some s → s ∈ db.summaries ∧ s.orgId = args.org.id)
    (hne : args.org.id ≠ orgId) : Spares orgId db db'' := by
  obtain ⟨summary, hsummary, hdb⟩ := Except.bind_eq_ok.mp hsettle
  cases summary with
  | none =>
    obtain rfl := Except.ok.inj hdb
    exact h.closeRemediated hne decision hremediated
  | some s =>
    obtain rfl := Except.ok.inj hdb
    have hmem := mem_of_oneOrNone hsummary
    simp only [Db.summariesOf, List.mem_filter, decide_eq_true_eq] at hmem
    have hstamped := h.trans (stampSummary hmem.1 (by rwa [hmem.2.1]) decision.status event)
    exact hstamped.closeRemediated hne decision hremediated

theorem runGate (h : runGate svc db args fresh = .ok (db', out)) (hne : args.org.id ≠ orgId) :
    Spares orgId db db' := by
  simp only [Attest.runGate, Except.bind_eq_ok] at h
  obtain ⟨remediated, hremediated, db₁, hopen, ⟨db₂, decision⟩, hdecide, h⟩ := h
  have hdecided := (getOrCreateTrace hopen hne).trans (decideOutput hdecide hne)
  cases decision with
  | none =>
    simp only [Except.bind_eq_ok, Except.pure_eq, Except.ok.injEq, Prod.mk.injEq] at h
    obtain ⟨⟨db₃, event⟩, hrecord, rfl, -⟩ := h
    exact hdecided.trans (recordEvent hrecord hne)
  | some decision =>
    simp only [Except.bind_eq_ok, Except.pure_eq, Except.ok.injEq, Prod.mk.injEq] at h
    obtain ⟨⟨db₃, event⟩, hrecord, db₄, hsettle, rfl, -⟩ := h
    refine settleSummaries (hdecided.trans (recordEvent hrecord hne)) hsettle ?_ hne
    rintro s rfl
    exact mem_of_remediatedSummary hremediated

end Gate

/-! ## Devices -/

theorem mem_of_deviceOf {owner deviceId : String} {d : SdkDevice}
    (h : db.deviceOf owner deviceId = .ok (some d)) : d ∈ db.devices ∧ d.orgId = owner := by
  have hmem := mem_of_oneOrNone h
  simp only [List.mem_filter, decide_eq_true_eq] at hmem
  exact ⟨hmem.1, hmem.2.1⟩

theorem device_others (h : Spares orgId db db') (hk : db.PrimaryKeys) {d : SdkDevice}
    (hd : d ∈ db.devices) (hne : d.orgId ≠ orgId) :
    ∀ r ∈ db'.devices, r.id = d.id → r.orgId ≠ orgId := by
  rintro r hr hid hmine
  have hrows : db'.devices.filter (fun r => decide (r.orgId = orgId)) =
      db.devices.filter fun r => decide (r.orgId = orgId) :=
    congrArg OrgRows.devices (h.rows hk)
  have hmem : r ∈ db.devices.filter fun r => decide (r.orgId = orgId) := by
    rw [← hrows]
    exact List.mem_filter.mpr ⟨hr, by simpa using hmine⟩
  obtain rfl := List.inj_on_of_nodup_map hk.devices (List.mem_of_mem_filter hmem) hd hid
  exact hne hmine

theorem touchDevice (h : Spares orgId db db') {d : SdkDevice} (hd : d ∈ db.devices)
    (hne : d.orgId ≠ orgId) (now : String) : Spares orgId db (db'.touchDevice d.id now) :=
  h.trans_of fun hk => updateDevice (device_others h hk hd hne) fun _ => ⟨rfl, rfl⟩

theorem registerDevice {args : DeviceArgs} {fresh : DeviceFresh} {d : SdkDevice}
    (h : registerDevice db args fresh = .ok (db', d)) (hne : args.orgId ≠ orgId) :
    Spares orgId db db' := by
  obtain ⟨found, hfound, h⟩ := Except.bind_eq_ok.mp h
  cases found with
  | some existing =>
    obtain ⟨hmem, horg⟩ := mem_of_deviceOf hfound
    simp only at h
    split at h
    · cases h
    · obtain ⟨rfl, -⟩ := Prod.mk.inj (Except.ok.inj h)
      exact (refl db).touchDevice hmem (by rwa [horg]) _
  | none =>
    simp only [Except.bind_eq_ok, Except.pure_eq, Except.ok.injEq, Prod.mk.injEq] at h
    obtain ⟨db₁, hinsert, rfl, -⟩ := h
    exact insertDevice hinsert hne

section Graft

variable [IsoReader] {org : Org}

theorem markDeferred {owner : String} {traceId : Uuid} {seq : Int}
    {occurredAt deviceId signature : String}
    (h : markDeferred db owner traceId seq occurredAt deviceId signature = .ok db')
    (hne : owner ≠ orgId) : Spares orgId db db' := by
  obtain ⟨found, hfound, h⟩ := Except.bind_eq_ok.mp h
  cases found with
  | none =>
    obtain rfl := Except.ok.inj h
    exact refl db
  | some e =>
    obtain ⟨_, -, hdb⟩ := Except.bind_eq_ok.mp h
    obtain rfl := Except.ok.inj hdb
    have hmem := mem_of_oneOrNone hfound
    simp only [List.mem_filter, decide_eq_true_eq] at hmem
    refine (refl db).trans_of fun hk => updateEvent ?_ fun _ => ⟨rfl, rfl⟩
    rintro r hr hid
    obtain rfl := List.inj_on_of_nodup_map hk.events hr hmem.1 hid
    rwa [hmem.2.1]

theorem graftItem {device : SdkDevice} {item : Dict} {claim : OfflineClaim} {fresh : GateFresh}
    {out : GraftOut} (h : graftItem svc db org device item claim fresh = .ok (db', out))
    (hne : org.id ≠ orgId) : Spares orgId db db' := by
  obtain ⟨traceId, -, h⟩ := Except.bind_eq_ok.mp h
  split at h
  · simp only [Except.bind_eq_ok, Except.pure_eq, Except.ok.injEq, Prod.mk.injEq] at h
    obtain ⟨⟨db₁, gated⟩, hgate, db₂, hmark, rfl, -⟩ := h
    exact (runGate hgate hne).trans (markDeferred hmark hne)
  · cases h

theorem graftItems {device : SdkDevice} {fresh : Nat → GateFresh} (hne : org.id ≠ orgId)
    {items : List (Dict × OfflineClaim)} {index : Nat} {outs : List GraftOut}
    (h : graftItems svc org device fresh index db items = .ok (db', outs)) :
    Spares orgId db db' := by
  induction items generalizing index db outs with
  | nil =>
    obtain ⟨rfl, -⟩ := Prod.mk.inj (Except.ok.inj h)
    exact refl db
  | cons entry rest ih =>
    simp only [Attest.graftItems, Except.bind_eq_ok, Except.pure_eq, Except.ok.injEq,
      Prod.mk.injEq] at h
    obtain ⟨⟨db₁, out⟩, hitem, ⟨db₂, outs'⟩, hrest, rfl, -⟩ := h
    exact (graftItem hitem hne).trans (ih hrest)

theorem graftOfflineSegment {args : GraftArgs} {fresh : GraftFresh} {outs : List GraftOut}
    (h : graftOfflineSegment svc db args fresh = .ok (db', outs)) (hne : args.org.id ≠ orgId) :
    Spares orgId db db' := by
  obtain ⟨found, hfound, h⟩ := Except.bind_eq_ok.mp h
  cases found with
  | none => cases h
  | some device =>
    simp only [Except.bind_eq_ok, Except.pure_eq, Except.ok.injEq, Prod.mk.injEq] at h
    obtain ⟨_, -, verified, -, ⟨db₁, outs'⟩, hitems, rfl, -⟩ := h
    obtain ⟨hmem, horg⟩ := mem_of_deviceOf hfound
    exact (graftItems hne hitems).touchDevice hmem (by rwa [horg]) _

end Graft

/-! ## Approvals and erasures -/

theorem resolveApproval {args : ResolveArgs} {fresh : Fresh} {window : List Approval}
    {out : ResolveOut} (h : resolveApproval svc db args fresh window = .ok (db', out))
    (hne : args.orgId ≠ orgId) : Spares orgId db db' := by
  obtain ⟨_, -, h⟩ := Except.bind_eq_ok.mp h
  cases hget : db.getApproval args.orgId args.approvalId with
  | none => simp [hget] at h
  | some a =>
    have ha : a ∈ db.approvals ∧ a.orgId = args.orgId := by
      have hfound : a.orgId = args.orgId ∧ a.id = args.approvalId := by
        simpa using List.find?_some hget
      exact ⟨List.mem_of_find?_eq_some hget, hfound.1⟩
    simp only [hget] at h
    split at h
    · simp only [Except.bind_eq_ok, Except.pure_eq, Except.ok.injEq, Prod.mk.injEq] at h
      obtain ⟨db₁, hupdate, ⟨db₂, event⟩, hrecord, gate, -, rfl, -⟩ := h
      obtain ⟨_, -, hdb⟩ := Except.bind_eq_ok.mp hupdate
      obtain rfl := Except.ok.inj hdb
      refine Spares.trans ?_ (recordEvent hrecord hne)
      refine (refl db).trans_of fun hk => updateApproval ?_ fun _ => ⟨rfl, rfl⟩
      rintro r hr hid
      obtain rfl := List.inj_on_of_nodup_map hk.approvals hr ha.1 hid
      rwa [ha.2]
    · cases h

theorem recordErasure {args : EraseArgs} {target : Event} {fresh : EraseFresh} {out : EventOut}
    (h : recordErasure svc db args target fresh = .ok (db', out)) (hne : args.orgId ≠ orgId) :
    Spares orgId db db' := by
  unfold Attest.recordErasure at h
  split at h
  · exact recordEvent h hne
  · exact recordEvent h hne

theorem eraseEventPayload {args : EraseArgs} {fresh : EraseFresh} {out : EraseOut}
    (h : eraseEventPayload svc db args fresh = .ok (db', out)) (hne : args.orgId ≠ orgId) :
    Spares orgId db db' := by
  simp only [Attest.eraseEventPayload, Except.bind_eq_ok] at h
  obtain ⟨_, -, h⟩ := h
  split at h
  · cases h
  · split at h
    · cases h
    · split at h
      · cases h
      · rename_i target _ _ _ _ _
        simp only [Except.bind_eq_ok, Except.pure_eq, Except.ok.injEq, Prod.mk.injEq] at h
        obtain ⟨_, hshredded, ⟨db₁, event⟩, hrecord, rfl, -⟩ := h
        have hshred : Spares orgId db
            (cryptoShredPayload db args.orgId target.payloadHash fresh.erasedAt).1 := by
          unfold cryptoShredPayload
          split
          · exact refl db
          · exact shred hne _ _
        exact hshred.trans (recordErasure hrecord hne)

theorem recordMitigation {args : MitigationArgs} {fresh : Fresh} {out : MitigationOut}
    (h : recordMitigation svc db args fresh = .ok (db', out)) (hne : args.orgId ≠ orgId) :
    Spares orgId db db' := by
  simp only [Attest.recordMitigation, Except.bind_eq_ok, Except.pure_eq, Except.ok.injEq,
    Prod.mk.injEq] at h
  obtain ⟨_, -, _, -, ⟨db₁, event⟩, hrecord, rfl, -⟩ := h
  exact recordEvent hrecord hne

end Calls

/-! ## Policies and profiles -/

theorem upsertPolicy {args : PolicyArgs} {fresh : PolicyFresh} {p : Policy}
    (h : upsertPolicy db args fresh = .ok (db', p)) (hne : args.orgId ≠ orgId) :
    Spares orgId db db' := by
  unfold Attest.upsertPolicy at h
  cases hget : db.getPolicyByVersion args.orgId args.version with
  | some existing =>
    have hfound : existing.orgId = args.orgId ∧ existing.version = args.version := by
      simpa using List.find?_some hget
    simp only [hget, Except.bind_eq_ok, Except.pure_eq, Except.ok.injEq, Prod.mk.injEq] at h
    obtain ⟨_, -, rfl, -⟩ := h
    refine (refl db).trans_of fun hk => updatePolicy ?_ fun _ => ⟨rfl, rfl⟩
    rintro r hr hid
    obtain rfl := List.inj_on_of_nodup_map hk.policies hr (List.mem_of_find?_eq_some hget) hid
    rwa [hfound.1]
  | none =>
    simp only [hget, Except.bind_eq_ok, Except.pure_eq, Except.ok.injEq, Prod.mk.injEq] at h
    obtain ⟨db₁, hinsert, rfl, -⟩ := h
    split at hinsert
    · exact (deactivatePolicies hne).trans (insertPolicy hinsert hne)
    · exact insertPolicy hinsert hne

section Profile

variable [PyUnicode] {owner : String}

theorem subscribeAll (hne : owner ≠ orgId) : ∀ {codes : List String} {db : Db},
    subscribeAll owner db codes = .ok db' → Spares orgId db db'
  | [], db, h => by
    obtain rfl := Except.ok.inj h
    exact refl db
  | code :: codes, db, h => by
    obtain ⟨db₁, hcode, hcodes⟩ := Except.bind_eq_ok.mp h
    exact (subscribeOrg hcode hne).trans (subscribeAll hne hcodes)

theorem unsubscribeAll (hne : owner ≠ orgId) : ∀ (removed : List (String × OrgRegulationPack))
    (db : Db), Spares orgId db (removed.foldl (fun db c => db.unsubscribe owner c.2.packId) db)
  | [], _ => refl _
  | c :: removed, _ => (unsubscribe hne c.2.packId).trans (unsubscribeAll hne removed _)

theorem reconcilePacks {added removed : List String}
    (h : reconcilePacks db owner = .ok (db', added, removed)) (hne : owner ≠ orgId) :
    Spares orgId db db' := by
  simp only [Attest.reconcilePacks, Except.bind_eq_ok, Except.pure_eq, Except.ok.injEq,
    Prod.mk.injEq] at h
  obtain ⟨_, -, db₁, hsubscribe, rfl, -⟩ := h
  exact (subscribeAll hne hsubscribe).trans (unsubscribeAll hne _ db₁)

theorem setProfile {args : ProfileArgs} {fresh : ProfileFresh}
    {answer : OrgProfile ⊕ ProfileChangeRequest}
    (h : setProfile db args fresh = .ok (db', answer)) (hne : args.orgId ≠ orgId) :
    Spares orgId db db' := by
  simp only [Attest.setProfile, Except.bind_eq_ok] at h
  obtain ⟨_, -, _, -, _, -, h⟩ := h
  split at h
  · simp only [Except.bind_eq_ok, Except.pure_eq, Except.ok.injEq, Prod.mk.injEq] at h
    obtain ⟨_, -, db₁, hinsert, rfl, -⟩ := h
    exact insertProfileChange hinsert hne
  · simp only [applyProfile, Except.bind_eq_ok, Except.pure_eq, Except.ok.injEq,
      Prod.mk.injEq] at h
    obtain ⟨⟨db₁, profile⟩, ⟨db₂, hput, ⟨db₃, added, removed⟩, hreconcile, rfl, -⟩, rfl, -⟩ := h
    exact (putProfile hput hne).trans (reconcilePacks hreconcile hne)

end Profile

end Spares

/-! ## The calls of an organisation -/

/-- A call with its arguments and what it is given from outside. -/
inductive TenantOp where
  | record (args : RecordArgs) (fresh : Fresh)
  | gate (args : GateArgs) (fresh : GateFresh)
  | precheck (args : PrecheckArgs) (fresh : PrecheckFresh)
  | graft (args : GraftArgs) (fresh : GraftFresh)
  | register (args : DeviceArgs) (fresh : DeviceFresh)
  | resolve (args : ResolveArgs) (fresh : Fresh) (window : List Approval)
  | erase (args : EraseArgs) (fresh : EraseFresh)
  | mitigate (args : MitigationArgs) (fresh : Fresh)
  | policy (args : PolicyArgs) (fresh : PolicyFresh)
  | profile (args : ProfileArgs) (fresh : ProfileFresh)

/-- The organisation a call is on behalf of. -/
def TenantOp.orgId : TenantOp → String
  | .record args _ => args.orgId
  | .gate args _ => args.org.id
  | .precheck args _ => args.org.id
  | .graft args _ => args.org.id
  | .register args _ => args.orgId
  | .resolve args _ _ => args.orgId
  | .erase args _ => args.orgId
  | .mitigate args _ => args.orgId
  | .policy args _ => args.orgId
  | .profile args _ => args.orgId

section Tenants

variable [SignatureScheme] [KeyWrapping] [PyUnicode] [IsoReader] {svc : SigningKeyPair}
  {orgId : String}

/-- The database of a call that returns. -/
def TenantOp.run (svc : SigningKeyPair) (db : Db) : TenantOp → Except PyError Db
  | .record args fresh => (recordEvent svc db args fresh).map Prod.fst
  | .gate args fresh => (runGate svc db args fresh).map Prod.fst
  | .precheck args fresh => (runPrecheck svc db args fresh).map Prod.fst
  | .graft args fresh => (graftOfflineSegment svc db args fresh).map Prod.fst
  | .register args fresh => (registerDevice db args fresh).map Prod.fst
  | .resolve args fresh window => (resolveApproval svc db args fresh window).map Prod.fst
  | .erase args fresh => (eraseEventPayload svc db args fresh).map Prod.fst
  | .mitigate args fresh => (recordMitigation svc db args fresh).map Prod.fst
  | .policy args fresh => (upsertPolicy db args fresh).map Prod.fst
  | .profile args fresh => (setProfile db args fresh).map Prod.fst

/-- The database after a call : what it wrote, or the one before where it was refused
and rolled back. -/
def TenantOp.after (svc : SigningKeyPair) (db : Db) (op : TenantOp) : Db :=
  match op.run svc db with
  | .ok db' => db'
  | .error _ => db

theorem TenantOp.run_spares {db db' : Db} {op : TenantOp} (h : op.run svc db = .ok db')
    (hne : op.orgId ≠ orgId) : Spares orgId db db' := by
  cases op with
  | record args fresh =>
    obtain ⟨_, hcall, rfl⟩ := Except.map_eq_ok.mp h
    exact Spares.recordEvent hcall hne
  | gate args fresh =>
    obtain ⟨_, hcall, rfl⟩ := Except.map_eq_ok.mp h
    exact Spares.runGate hcall hne
  | precheck args fresh =>
    obtain ⟨_, hcall, rfl⟩ := Except.map_eq_ok.mp h
    exact Spares.runPrecheck hcall hne
  | graft args fresh =>
    obtain ⟨_, hcall, rfl⟩ := Except.map_eq_ok.mp h
    exact Spares.graftOfflineSegment hcall hne
  | register args fresh =>
    obtain ⟨_, hcall, rfl⟩ := Except.map_eq_ok.mp h
    exact Spares.registerDevice hcall hne
  | resolve args fresh window =>
    obtain ⟨_, hcall, rfl⟩ := Except.map_eq_ok.mp h
    exact Spares.resolveApproval hcall hne
  | erase args fresh =>
    obtain ⟨_, hcall, rfl⟩ := Except.map_eq_ok.mp h
    exact Spares.eraseEventPayload hcall hne
  | mitigate args fresh =>
    obtain ⟨_, hcall, rfl⟩ := Except.map_eq_ok.mp h
    exact Spares.recordMitigation hcall hne
  | policy args fresh =>
    obtain ⟨_, hcall, rfl⟩ := Except.map_eq_ok.mp h
    exact Spares.upsertPolicy hcall hne
  | profile args fresh =>
    obtain ⟨_, hcall, rfl⟩ := Except.map_eq_ok.mp h
    exact Spares.setProfile hcall hne

theorem TenantOp.after_spares (db : Db) {op : TenantOp} (hne : op.orgId ≠ orgId) :
    Spares orgId db (op.after svc db) := by
  unfold TenantOp.after
  cases hrun : op.run svc db with
  | ok db' => exact run_spares hrun hne
  | error e => exact Spares.refl db

/-- Calls on behalf of other organisations, whatever they name and in whatever order,
leave every row of an organisation as it was. -/
theorem TenantOp.foldl_spares : ∀ (ops : List TenantOp) (db : Db),
    (∀ op ∈ ops, op.orgId ≠ orgId) → Spares orgId db (ops.foldl (TenantOp.after svc) db)
  | [], db, _ => Spares.refl db
  | op :: ops, db, hne =>
    (after_spares db (hne op List.mem_cons_self)).trans
      (foldl_spares ops (op.after svc db) fun op' h => hne op' (List.mem_cons_of_mem op h))

/-- A call on behalf of one organisation, whatever it names, leaves every row of another
as it was. -/
theorem tenants_isolated (db : Db) (hkeys : db.PrimaryKeys) (op : TenantOp) (other : String)
    (hne : op.orgId ≠ other) :
    (op.after svc db).rowsOf other = db.rowsOf other ∧ (op.after svc db).PrimaryKeys :=
  have hspares : Spares other db (op.after svc db) := TenantOp.after_spares db hne
  ⟨hspares.rows hkeys, hspares.keys hkeys⟩

end Tenants

/-- A device of one organisation, and a second organisation. -/
def sampleTenants : Db :=
  { sampleBlank with
    orgs := [sampleOrg, { sampleOrg with id := "globex" }]
    devices := [{ sampleDevice with orgId := "globex" }] }

/-- The second organisation registers a device of the same name. -/
def sampleRegister : TenantOp :=
  .register ⟨"acme", "device-1", "device key", none⟩ ⟨Uuid.ofNat 8, "2025-01-01T00:00:00+00:00"⟩

theorem tenants_isolated_sample :
    (@TenantOp.after .transparent .lenient .ascii .verbatim sampleKey sampleTenants
      sampleRegister).rowsOf "globex" = sampleTenants.rowsOf "globex" ∧
    (@TenantOp.after .transparent .lenient .ascii .verbatim sampleKey sampleTenants
      sampleRegister).PrimaryKeys := by
  have hkeys : sampleTenants.PrimaryKeys := by
    refine ⟨List.nodup_nil, List.nodup_nil, List.nodup_nil, List.nodup_nil, ?_⟩
    exact List.nodup_singleton _
  exact @tenants_isolated .transparent .lenient .ascii .verbatim sampleKey sampleTenants hkeys
    sampleRegister "globex" (by decide)

end Attest
