import Attest.Lib.Run
import Attest.Ledger
import Attest.Settings

/-!
# The policy that is enforced

`upsertPolicy` takes two ways. A version that is new is made active in the place of every
other. A version that was there takes the flag it is given, and what else is active stays
so : a roll-back leaves two policies active, and `getActivePolicy`, which reads the newest,
may return the one rolled back from (`reactivated_policy_ignored`).

In a run where no call activates a version that was there while another is active, at
most one policy is active in every state, and an activated version is the one that is
read (`active_of_reachable`).
-/

namespace Attest

/-- The active policies of an organisation. -/
def Db.activePolicies (db : Db) (orgId : String) : List Policy :=
  db.policies.filter fun p => p.orgId = orgId ∧ p.active

/-- No two policies share an id, and none of the organisation a version. -/
structure Db.PoliciesKeyed (db : Db) (orgId : String) : Prop where
  ids : (db.policies.map Policy.id).Nodup
  versions : ∀ p ∈ db.policies, ∀ q ∈ db.policies, p.orgId = orgId → q.orgId = orgId →
    p.version = q.version → p = q

/-- The active policies of an organisation are of one version. -/
def Db.ExclusiveFor (db : Db) (orgId : String) (version : String) : Prop :=
  ∀ p ∈ db.activePolicies orgId, p.version = version

/-- At most one policy of the organisation is active. -/
def Db.Exclusive (db : Db) (orgId : String) : Prop :=
  (db.activePolicies orgId).length ≤ 1

/-- The call activates no version that was there while another one is active. -/
def Activates (db : Db) (args : PolicyArgs) : Prop :=
  args.active = true → (db.getPolicyByVersion args.orgId args.version).isSome = true →
    db.ExclusiveFor args.orgId args.version

theorem mem_activePolicies {db : Db} {orgId : String} {p : Policy} :
    p ∈ db.activePolicies orgId ↔ p ∈ db.policies ∧ p.orgId = orgId ∧ p.active = true := by
  simp [Db.activePolicies]

/-- Rows of one version are one row. -/
theorem Db.PoliciesKeyed.exclusive {db : Db} {orgId version : String}
    (hkeyed : db.PoliciesKeyed orgId) (h : db.ExclusiveFor orgId version) : db.Exclusive orgId := by
  have hnodup : (db.activePolicies orgId).Nodup :=
    (List.Nodup.of_map _ hkeyed.ids).filter _
  have hsame : ∀ p ∈ db.activePolicies orgId, ∀ q ∈ db.activePolicies orgId, p = q := by
    intro p hp q hq
    obtain ⟨hpmem, hporg, -⟩ := mem_activePolicies.mp hp
    obtain ⟨hqmem, hqorg, -⟩ := mem_activePolicies.mp hq
    exact hkeyed.versions p hpmem q hqmem hporg hqorg ((h p hp).trans (h q hq).symm)
  unfold Db.Exclusive
  match hrows : db.activePolicies orgId with
  | [] => simp
  | [_] => simp
  | p :: q :: rest =>
    rw [hrows] at hnodup hsame
    have hpq : p = q := hsame p (by simp) q (by simp)
    simp [hpq] at hnodup

theorem Db.Exclusive.exclusiveFor {db : Db} {orgId : String} (h : db.Exclusive orgId) {p : Policy}
    (hp : p ∈ db.activePolicies orgId) : db.ExclusiveFor orgId p.version := by
  intro q hq
  unfold Db.Exclusive at h
  match hrows : db.activePolicies orgId with
  | [] =>
    rw [hrows] at hp
    cases hp
  | [r] =>
    rw [hrows] at hp hq
    rw [List.mem_singleton.mp hp, List.mem_singleton.mp hq]
  | _ :: _ :: _ =>
    rw [hrows] at h
    simp at h

/-- The active policy that is read is the one there is. -/
theorem Db.ExclusiveFor.getActivePolicy {db : Db} {orgId version : String}
    (h : db.ExclusiveFor orgId version) {p : Policy} (hp : p ∈ db.activePolicies orgId) :
    ∃ q, db.getActivePolicy orgId = some q ∧ q.version = version := by
  cases hread : db.getActivePolicy orgId with
  | none =>
    have hnone : db.activePolicies orgId = [] := latestBy_eq_none.mp hread
    rw [hnone] at hp
    cases hp
  | some q => exact ⟨q, rfl, h q (mem_of_latestBy hread)⟩

/-! ## What a call does -/

/-- The policies after a call. -/
inductive Upserts (db : Db) (args : PolicyArgs) (db' : Db) : Prop where
  | updated {existing : Policy} : db.getPolicyByVersion args.orgId args.version = some existing →
      db' = { db with policies := db.policies.map fun p =>
        if p.id = existing.id then args.update p else p } → Upserts db args db'
  | added {p : Policy} : db.getPolicyByVersion args.orgId args.version = none →
      (∀ q ∈ db.policies, q.id ≠ p.id) →
      p.orgId = args.orgId ∧ p.version = args.version ∧ p.active = args.active →
      db' = { db with policies :=
        (if args.active then db.deactivatePolicies args.orgId else db).policies ++ [p] } →
        Upserts db args db'

theorem mem_deactivatePolicies {db : Db} {orgId : String} {p : Policy}
    (h : p ∈ (db.deactivatePolicies orgId).policies) : ∃ q ∈ db.policies,
      p.id = q.id ∧ p.orgId = q.orgId ∧ p.version = q.version ∧
        (p.active = true → p.orgId ≠ orgId ∧ p = q) := by
  obtain ⟨q, hq, rfl⟩ := List.mem_map.mp h
  refine ⟨q, hq, ?_⟩
  split
  · exact ⟨rfl, rfl, rfl, by simp⟩
  · rename_i hother
    exact ⟨rfl, rfl, rfl, fun hactive => ⟨fun horg => hother ⟨horg, hactive⟩, rfl⟩⟩

theorem map_id_deactivatePolicies (db : Db) (orgId : String) :
    (db.deactivatePolicies orgId).policies.map Policy.id = db.policies.map Policy.id := by
  rw [Db.deactivatePolicies, List.map_map]
  refine List.map_congr_left ?_
  intro p _
  by_cases h : p.orgId = orgId ∧ p.active = true <;> simp [h]

theorem upsertPolicy_upserts {db db' : Db} {args : PolicyArgs} {fresh : PolicyFresh} {p : Policy}
    (h : upsertPolicy db args fresh = .ok (db', p)) : Upserts db args db' := by
  unfold upsertPolicy at h
  cases hget : db.getPolicyByVersion args.orgId args.version with
  | some existing =>
    simp only [hget, Except.bind_eq_ok, Except.pure_eq, Except.ok.injEq, Prod.mk.injEq] at h
    obtain ⟨_, -, rfl, -⟩ := h
    exact .updated hget rfl
  | none =>
    simp only [hget, Except.bind_eq_ok, Except.pure_eq, Except.ok.injEq, Prod.mk.injEq] at h
    obtain ⟨db₁, hinsert, rfl, rfl⟩ := h
    simp only [Db.insertPolicy, Except.bind_eq_ok, require_eq_ok, Except.pure_eq, Except.ok.injEq,
      exists_const, Bool.not_eq_true', List.any_eq_false, decide_eq_true_eq] at hinsert
    obtain ⟨-, hid, -, -, rfl⟩ := hinsert
    refine .added (p := ⟨fresh.id, args.orgId, args.name, args.version, args.rules, args.active,
      fresh.createdAt⟩) hget ?_ ⟨rfl, rfl, rfl⟩ ?_
    · intro q hq hsame
      by_cases hactive : args.active = true
      · rw [if_pos hactive] at hid
        have hmem : q.id ∈ (db.deactivatePolicies args.orgId).policies.map Policy.id := by
          rw [map_id_deactivatePolicies]
          exact List.mem_map_of_mem hq
        obtain ⟨r, hr, hrid⟩ := List.mem_map.mp hmem
        exact hid r hr (hrid.trans hsame)
      · rw [if_neg hactive] at hid
        exact hid q hq hsame
    · by_cases hactive : args.active = true
      · simp only [if_pos hactive, Db.deactivatePolicies]
      · simp only [if_neg hactive]

/-- The rows stay keyed. -/
theorem Upserts.keyed {db db' : Db} {args : PolicyArgs} (h : Upserts db args db')
    (hkeyed : db.PoliciesKeyed args.orgId) : db'.PoliciesKeyed args.orgId := by
  cases h with
  | @updated existing hget hdb =>
    have hkeep : ∀ p : Policy, ∀ q, q = (if p.id = existing.id then args.update p else p) →
        q.id = p.id ∧ q.orgId = p.orgId ∧ q.version = p.version := by
      rintro p q rfl
      split
      · exact ⟨rfl, rfl, rfl⟩
      · exact ⟨rfl, rfl, rfl⟩
    subst hdb
    refine ⟨?_, ?_⟩
    · have hids : (db.policies.map fun p => if p.id = existing.id then args.update p else p).map
          Policy.id = db.policies.map Policy.id := by
        rw [List.map_map]
        exact List.map_congr_left fun p _ => (hkeep p _ rfl).1
      rw [hids]
      exact hkeyed.ids
    · rintro p hp q hq hporg hqorg hversion
      obtain ⟨p₀, hp₀, rfl⟩ := List.mem_map.mp hp
      obtain ⟨q₀, hq₀, rfl⟩ := List.mem_map.mp hq
      obtain ⟨-, hporg₀, hpversion⟩ := hkeep p₀ _ rfl
      obtain ⟨-, hqorg₀, hqversion⟩ := hkeep q₀ _ rfl
      rw [hkeyed.versions p₀ hp₀ q₀ hq₀ (hporg₀ ▸ hporg) (hqorg₀ ▸ hqorg)
        (hpversion.symm.trans (hversion.trans hqversion))]
  | @added row hget hid hrow hdb =>
    have hnew : ∀ q ∈ db.policies, q.orgId = args.orgId → q.version ≠ args.version := by
      simpa [Db.getPolicyByVersion] using hget
    have hold : ∀ p ∈ (if args.active then db.deactivatePolicies args.orgId else db).policies,
        ∃ q ∈ db.policies, p.id = q.id ∧ p.orgId = q.orgId ∧ p.version = q.version := by
      intro p hp
      split at hp
      · obtain ⟨q, hq, hid, horg, hversion, -⟩ := mem_deactivatePolicies hp
        exact ⟨q, hq, hid, horg, hversion⟩
      · exact ⟨p, hp, rfl, rfl, rfl⟩
    have hids : (if args.active then db.deactivatePolicies args.orgId else db).policies.map
        Policy.id = db.policies.map Policy.id := by
      split
      · exact map_id_deactivatePolicies db args.orgId
      · rfl
    have hnodup : ((if args.active then db.deactivatePolicies args.orgId else db).policies.map
        Policy.id).Nodup := hids ▸ hkeyed.ids
    subst hdb
    refine ⟨?_, ?_⟩
    · rw [List.map_append, List.map_singleton]
      refine List.Nodup.append hnodup (List.nodup_singleton _) ?_
      rw [hids]
      simpa using hid
    · rintro p hp q hq hporg hqorg hversion
      rcases List.mem_append.mp hp with hp | hp <;> rcases List.mem_append.mp hq with hq | hq
      · obtain ⟨p₀, hp₀, hpid, hporg₀, hpversion⟩ := hold p hp
        obtain ⟨q₀, hq₀, hqid, hqorg₀, hqversion⟩ := hold q hq
        have hsame := hkeyed.versions p₀ hp₀ q₀ hq₀ (hporg₀ ▸ hporg) (hqorg₀ ▸ hqorg)
          (hpversion.symm.trans (hversion.trans hqversion))
        exact List.inj_on_of_nodup_map hnodup hp hq (by rw [hpid, hqid, hsame])
      · obtain ⟨p₀, hp₀, -, hporg₀, hpversion⟩ := hold p hp
        obtain rfl := List.mem_singleton.mp hq
        exact absurd (hpversion.symm.trans (hversion.trans hrow.2.1))
          (hnew p₀ hp₀ (hporg₀ ▸ hporg))
      · obtain ⟨q₀, hq₀, -, hqorg₀, hqversion⟩ := hold q hq
        obtain rfl := List.mem_singleton.mp hp
        exact absurd (hqversion.symm.trans (hversion.symm.trans hrow.2.1))
          (hnew q₀ hq₀ (hqorg₀ ▸ hqorg))
      · rw [List.mem_singleton.mp hp, List.mem_singleton.mp hq]

/-- A version that is activated is the only active one afterwards exactly where no other
version stays active beside it. -/
theorem Upserts.exclusiveFor_iff {db db' : Db} {args : PolicyArgs} (h : Upserts db args db')
    (hkeyed : db.PoliciesKeyed args.orgId) (hactive : args.active = true) :
    db'.ExclusiveFor args.orgId args.version ↔ Activates db args := by
  cases h with
  | @updated existing hget hdb =>
    have hsome : (db.getPolicyByVersion args.orgId args.version).isSome = true := by rw [hget]; rfl
    have hfound : existing.orgId = args.orgId ∧ existing.version = args.version := by
      simpa using List.find?_some hget
    subst hdb
    constructor
    · intro hexclusive _ _ p hp
      obtain ⟨hmem, horg, hpactive⟩ := mem_activePolicies.mp hp
      have hrow := List.mem_map_of_mem (f := fun p : Policy =>
        if p.id = existing.id then args.update p else p) hmem
      by_cases hid : p.id = existing.id
      · have hsame := List.inj_on_of_nodup_map hkeyed.ids hmem (List.mem_of_find?_eq_some hget) hid
        rw [hsame, hfound.2]
      · rw [if_neg hid] at hrow
        exact hexclusive p (mem_activePolicies.mpr ⟨hrow, horg, hpactive⟩)
    · intro hguard p hp
      obtain ⟨hmem, horg, hpactive⟩ := mem_activePolicies.mp hp
      obtain ⟨q, hq, rfl⟩ := List.mem_map.mp hmem
      by_cases hid : q.id = existing.id
      · have hsame := List.inj_on_of_nodup_map hkeyed.ids hq (List.mem_of_find?_eq_some hget) hid
        rw [if_pos hid, hsame]
        exact hfound.2
      · rw [if_neg hid] at horg hpactive ⊢
        exact hguard hactive hsome q (mem_activePolicies.mpr ⟨hq, horg, hpactive⟩)
  | @added row hget hid hrow hdb =>
    have hexclusive : db'.ExclusiveFor args.orgId args.version := by
      intro p hp
      obtain ⟨hmem, horg, hpactive⟩ := mem_activePolicies.mp hp
      rw [hdb, if_pos hactive] at hmem
      rcases List.mem_append.mp hmem with hmem | hmem
      · obtain ⟨q, -, -, -, -, hother⟩ := mem_deactivatePolicies hmem
        exact absurd horg (hother hpactive).1
      · rw [List.mem_singleton.mp hmem]
        exact hrow.2.1
    refine iff_of_true hexclusive ?_
    intro _ hsome
    rw [hget] at hsome
    cases hsome

/-- The version that was activated is there, and active. -/
theorem Upserts.mem_active {db db' : Db} {args : PolicyArgs} (h : Upserts db args db')
    (hactive : args.active = true) :
    ∃ p ∈ db'.activePolicies args.orgId, p.version = args.version := by
  cases h with
  | @updated existing hget hdb =>
    have hfound : existing.orgId = args.orgId ∧ existing.version = args.version := by
      simpa using List.find?_some hget
    have hrow := List.mem_map_of_mem (f := fun p : Policy =>
      if p.id = existing.id then args.update p else p) (List.mem_of_find?_eq_some hget)
    rw [if_pos rfl] at hrow
    subst hdb
    exact ⟨_, mem_activePolicies.mpr ⟨hrow, hfound.1, hactive⟩, hfound.2⟩
  | @added row hget hid hrow hdb =>
    have hmem : row ∈ db'.policies := by
      rw [hdb]
      simp
    exact ⟨row, mem_activePolicies.mpr ⟨hmem, hrow.1, hrow.2.2.trans hactive⟩, hrow.2.1⟩

/-- A call that activates nothing leaves at most the active policies there were. -/
theorem Upserts.exclusive_of_inactive {db db' : Db} {args : PolicyArgs} (h : Upserts db args db')
    (hinactive : args.active = false) {version : String}
    (hexclusive : db.ExclusiveFor args.orgId version) : db'.ExclusiveFor args.orgId version := by
  cases h with
  | @updated existing hget hdb =>
    intro p hp
    obtain ⟨hmem, horg, hpactive⟩ := mem_activePolicies.mp hp
    rw [hdb] at hmem
    obtain ⟨q, hq, rfl⟩ := List.mem_map.mp hmem
    by_cases hid : q.id = existing.id
    · rw [if_pos hid] at hpactive
      exact absurd (hinactive.symm.trans hpactive) (by decide)
    · rw [if_neg hid] at horg hpactive ⊢
      exact hexclusive q (mem_activePolicies.mpr ⟨hq, horg, hpactive⟩)
  | @added row hget hid hrow hdb =>
    intro p hp
    obtain ⟨hmem, horg, hpactive⟩ := mem_activePolicies.mp hp
    have hnot : ¬args.active = true := by simp [hinactive]
    rw [hdb, if_neg hnot] at hmem
    rcases List.mem_append.mp hmem with hmem | hmem
    · exact hexclusive p (mem_activePolicies.mpr ⟨hmem, horg, hpactive⟩)
    · rw [List.mem_singleton.mp hmem, hrow.2.2] at hpactive
      exact absurd (hinactive.symm.trans hpactive) (by decide)

/-! ## Over a run -/

/-- The database, and the last call that returned. -/
structure Rulebook where
  db : Db
  last : Option PolicyArgs

/-- One call for the organisation that returns, among those the guard lets through. -/
inductive Publishes (orgId : String) (guard : Db → PolicyArgs → Prop) :
    Rulebook → Rulebook → Prop where
  | call {w : Rulebook} {args : PolicyArgs} {fresh : PolicyFresh} {db' : Db} {p : Policy} :
      args.orgId = orgId → guard w.db args → upsertPolicy w.db args fresh = .ok (db', p) →
        Publishes orgId guard w ⟨db', some args⟩

/-- The policies of an organisation that has none yet. -/
def publishing (orgId : String) (guard : Db → PolicyArgs → Prop) : TransitionSystem Rulebook where
  init w := w.last = none ∧ (w.db.policies.map Policy.id).Nodup ∧
    ∀ p ∈ w.db.policies, p.orgId ≠ orgId
  step := Publishes orgId guard

/-- At most one policy is active, and where the last call activated a version, it is the one
that is read. -/
def Enforced (orgId : String) (w : Rulebook) : Prop :=
  w.db.Exclusive orgId ∧ ∀ args, w.last = some args → args.active = true →
    ∃ p, w.db.getActivePolicy orgId = some p ∧ p.version = args.version

theorem Db.Exclusive.exists_version {db : Db} {orgId : String} (h : db.Exclusive orgId) :
    ∃ version, db.ExclusiveFor orgId version := by
  by_cases hactive : ∃ p, p ∈ db.activePolicies orgId
  · obtain ⟨p, hp⟩ := hactive
    exact ⟨p.version, h.exclusiveFor hp⟩
  · exact ⟨"", fun p hp => absurd ⟨p, hp⟩ hactive⟩

/-- A call keeps what is enforced exactly where it activates no version beside another. -/
theorem Upserts.enforced_iff {db db' : Db} {args : PolicyArgs} (h : Upserts db args db')
    (hkeyed : db.PoliciesKeyed args.orgId) (hexclusive : db.Exclusive args.orgId) :
    Enforced args.orgId ⟨db', some args⟩ ↔ Activates db args := by
  by_cases hactive : args.active = true
  · obtain ⟨p, hp, hversion⟩ := h.mem_active hactive
    rw [← h.exclusiveFor_iff hkeyed hactive]
    constructor
    · rintro ⟨honly, -⟩
      rw [← hversion]
      exact honly.exclusiveFor hp
    · intro honly
      refine ⟨(h.keyed hkeyed).exclusive honly, ?_⟩
      rintro args' hlast -
      obtain rfl := Option.some.inj hlast
      exact honly.getActivePolicy hp
  · have hinactive : args.active = false := by simpa using hactive
    obtain ⟨version, hversion⟩ := hexclusive.exists_version
    refine iff_of_true ⟨?_, ?_⟩ fun hset => absurd hset hactive
    · exact (h.keyed hkeyed).exclusive (h.exclusive_of_inactive hinactive hversion)
    · rintro args' hlast hset
      obtain rfl := Option.some.inj hlast
      exact absurd hset hactive

/-- Where no call activates a version beside another that is active, at most one policy is
active in every state and an activated version is the one that is read ; and the call
after such a run keeps this only under the same condition. -/
theorem active_of_reachable {orgId : String} {w : Rulebook}
    (h : (publishing orgId Activates).Reachable w) :
    Enforced orgId w ∧ ∀ args fresh db' p, args.orgId = orgId →
      upsertPolicy w.db args fresh = .ok (db', p) →
        (Enforced orgId ⟨db', some args⟩ ↔ Activates w.db args) := by
  have hinv : w.db.PoliciesKeyed orgId ∧ Enforced orgId w := by
    refine TransitionSystem.invariant (P := fun w : Rulebook =>
      w.db.PoliciesKeyed orgId ∧ Enforced orgId w) ?_ ?_ h
    · rintro w ⟨hlast, hids, hnone⟩
      have hempty : w.db.activePolicies orgId = [] :=
        List.filter_eq_nil_iff.mpr fun p hp => by simp [hnone p hp]
      refine ⟨⟨hids, fun p hp q _ horg => absurd horg (hnone p hp)⟩, ?_, ?_⟩
      · rw [Db.Exclusive, hempty]
        exact Nat.zero_le 1
      · intro args hargs
        rw [hlast] at hargs
        cases hargs
    · rintro w w' ⟨hkeyed, hexclusive, -⟩ ⟨rfl, hguard, hcall⟩
      have hupserts := upsertPolicy_upserts hcall
      exact ⟨hupserts.keyed hkeyed, (hupserts.enforced_iff hkeyed hexclusive).mpr hguard⟩
  refine ⟨hinv.2, ?_⟩
  rintro args fresh db' p rfl hcall
  exact (upsertPolicy_upserts hcall).enforced_iff hinv.1 hinv.2.1

/-! ## A roll-back -/

def samplePublish (version : String) : PolicyArgs :=
  ⟨"acme", "rules", version, [], true⟩

/-- The first version, active or not. -/
def samplePublished (active : Bool) : Policy :=
  ⟨Uuid.ofNat 21, "acme", "rules", "1", [], active, 1⟩

/-- The version after it. -/
def sampleSuccessor : Policy :=
  ⟨Uuid.ofNat 22, "acme", "rules", "2", [], true, 2⟩

theorem init_publishing_sample (guard : Db → PolicyArgs → Prop) :
    (publishing "acme" guard).init ⟨sampleBlank, none⟩ :=
  ⟨rfl, List.nodup_nil, fun _ hp => by cases hp⟩

/-- The first version is published. -/
theorem reachable_published (guard : Db → PolicyArgs → Prop)
    (hguard : guard sampleBlank (samplePublish "1")) : (publishing "acme" guard).Reachable
      ⟨{ sampleBlank with policies := [samplePublished true] }, some (samplePublish "1")⟩ :=
  have hcall : upsertPolicy sampleBlank (samplePublish "1") ⟨Uuid.ofNat 21, 1⟩ =
      .ok ({ sampleBlank with policies := [samplePublished true] }, samplePublished true) := rfl
  (TransitionSystem.Reachable.init (init_publishing_sample guard)).step (.call rfl hguard hcall)

/-- A version that is activated again beside its successor is not the one that is read. -/
theorem reactivated_policy_ignored : ¬∀ w : Rulebook,
    (publishing "acme" fun _ _ => True).Reachable w → Enforced "acme" w := by
  intro hclaim
  have hfirst := reachable_published (fun _ _ => True) trivial
  have hpublish : upsertPolicy { sampleBlank with policies := [samplePublished true] }
      (samplePublish "2") ⟨Uuid.ofNat 22, 2⟩ = .ok ({ sampleBlank with
        policies := [samplePublished false, sampleSuccessor] }, sampleSuccessor) := rfl
  have hsecond := hfirst.step (.call rfl trivial hpublish)
  have hrollBack : upsertPolicy { sampleBlank with
      policies := [samplePublished false, sampleSuccessor] } (samplePublish "1")
        ⟨Uuid.ofNat 23, 3⟩ =
      .ok ({ sampleBlank with policies := [samplePublished true, sampleSuccessor] },
        samplePublished true) := rfl
  have hthird := hsecond.step (.call rfl trivial hrollBack)
  obtain ⟨-, hread⟩ := hclaim _ hthird
  obtain ⟨p, hp, hversion⟩ := hread _ rfl rfl
  obtain rfl : sampleSuccessor = p := Option.some.inj hp
  exact absurd hversion (by decide)

/-- Two versions are published, one after the other. -/
theorem active_of_reachable_sample : ∃ w : Rulebook, w.db.policies.length = 2 ∧
    Enforced "acme" w := by
  have hfirst : Activates sampleBlank (samplePublish "1") := by
    rintro - hsome
    cases hsome
  have hsecond : Activates { sampleBlank with policies := [samplePublished true] }
      (samplePublish "2") := by
    rintro - hsome
    cases hsome
  have hpublish : upsertPolicy { sampleBlank with policies := [samplePublished true] }
      (samplePublish "2") ⟨Uuid.ofNat 22, 2⟩ = .ok ({ sampleBlank with
        policies := [samplePublished false, sampleSuccessor] }, sampleSuccessor) := rfl
  have hreach := (reachable_published Activates hfirst).step (.call rfl hsecond hpublish)
  exact ⟨_, rfl, (active_of_reachable hreach).1⟩

end Attest
