import Attest.Settings
import Attest.Vault

/-!
# The rulebooks an organisation is held to

`reconcilePacks` compares by code what the profile requires with what is subscribed : a
code is required when any of its versions reaches the profile, and is current when any
of its versions is subscribed. Only a required code that is not current is subscribed,
to its latest version, and of a code that is not required one version is dropped
(`reconcilePacks_returns`).

`RulebooksFollow` is that the subscriptions become the latest versions that reach the
profile, for good. `rulebooksFollow_iff` is when they do.
-/

set_option linter.unusedSectionVars false

namespace Attest

section Rulebooks

variable [PyUnicode]

/-! ## Keys -/

/-- The organisation has a row for the pack. -/
def Db.subscribed (db : Db) (orgId : String) (packId : Uuid) : Prop :=
  ∃ s ∈ db.orgPacks, s.orgId = orgId ∧ s.packId = packId

/-- The pack applies to what the organisation declared, if it declared anything. -/
def Db.packReaches (db : Db) (orgId : String) (pack : RegulationPack) : Except PyError Bool :=
  match db.getProfile orgId with
  | none => .ok false
  | some profile => packApplies pack profile.jurisdictions profile.sectors

/-- The keys of the tables, and creation times that tell the versions of a code apart. -/
structure RulebookKeys (db : Db) (orgId : String) : Prop where
  ids : (db.packs.map RegulationPack.id).Nodup
  created : ∀ p ∈ db.packs, ∀ q ∈ db.packs, p.code = q.code → p.createdAt = q.createdAt → p = q
  packs : ∀ s ∈ db.orgPacks, ∃ p ∈ db.packs, p.id = s.packId
  org : (db.getProfile orgId).isSome → db.hasOrg orgId

theorem latestPackByCode_spec {db : Db} {code : String} {p : RegulationPack}
    (h : db.latestPackByCode code = some p) : p ∈ db.packs ∧ p.code = code := by
  have hp := mem_of_latestBy h
  simpa using hp

theorem exists_latestPackByCode {db : Db} {p : RegulationPack} (hp : p ∈ db.packs) :
    ∃ latest, db.latestPackByCode p.code = some latest := by
  rw [← Option.ne_none_iff_exists']
  intro hnone
  have hempty := latestBy_eq_none.mp hnone
  have hmem : p ∈ db.packs.filter fun q => q.code = p.code := by simp [hp]
  rw [hempty] at hmem
  cases hmem

theorem pack_ext {db : Db} {orgId : String} (hkeys : RulebookKeys db orgId) {p q : RegulationPack}
    (hp : p ∈ db.packs) (hq : q ∈ db.packs) (h : p.id = q.id) : p = q :=
  List.inj_on_of_nodup_map hkeys.ids hp hq h

/-! ## What is required -/

/-- Some version of the code reaches the organisation. -/
def Db.requires (db : Db) (orgId code : String) : Prop :=
  ∃ p ∈ db.packs, p.code = code ∧ db.packReaches orgId p = .ok true

/-- The targets of every pack can be read. -/
def Db.TargetsRead (db : Db) (orgId : String) : Prop :=
  ∀ p ∈ db.packs, ∃ hit, db.packReaches orgId p = .ok hit

theorem mandatoryPacks_spec {db : Db} {orgId : String} {mandatory : List RegulationPack}
    (h : mandatoryPacks db orgId = .ok mandatory) :
    db.TargetsRead orgId ∧
      ∀ p, p ∈ mandatory ↔ p ∈ db.packs ∧ db.packReaches orgId p = .ok true := by
  unfold mandatoryPacks at h
  unfold Db.TargetsRead Db.packReaches
  cases hprofile : db.getProfile orgId with
  | none =>
    rw [hprofile] at h
    obtain rfl : [] = mandatory := by simpa using h
    simp
  | some profile =>
    rw [hprofile] at h
    simp only [Except.bind_eq_ok, Except.pure_eq, Except.ok.injEq] at h
    obtain ⟨marked, hmarked, rfl⟩ := h
    have hsteps := Except.mapM_eq_ok.mp hmarked
    have hread : ∀ p ∈ db.packs, ∃ hit, (p, hit) ∈ marked ∧
        packApplies p profile.jurisdictions profile.sectors = .ok hit := by
      intro p hp
      have hp' : p ∈ db.packs.insertionSort fun p q => p.code ≤ q.code := by simpa using hp
      obtain ⟨y, hy, hstep⟩ := exists_of_forall₂ hsteps.flip hp'
      obtain ⟨hit, hhit, rfl⟩ := Except.map_eq_ok.mp hstep
      exact ⟨hit, hy, hhit⟩
    refine ⟨fun p hp => (hread p hp).imp fun hit h => h.2, fun p => ?_⟩
    simp only [List.mem_map, List.mem_filter, Prod.exists, exists_eq_right, exists_and_right]
    constructor
    · intro hmem
      obtain ⟨x, hx, hstep⟩ := exists_of_forall₂ hsteps hmem
      obtain ⟨_, hhit, heq⟩ := Except.map_eq_ok.mp hstep
      obtain ⟨rfl, rfl⟩ := Prod.mk.inj heq
      exact ⟨by simpa using hx, hhit⟩
    · rintro ⟨hp, happlies⟩
      obtain ⟨hit, hmem, hhit⟩ := hread p hp
      obtain rfl : hit = true := by simpa [hhit] using happlies
      exact hmem

theorem mandatoryPacks_returns {db : Db} {orgId : String} (h : db.TargetsRead orgId) :
    ∃ mandatory, mandatoryPacks db orgId = .ok mandatory := by
  unfold Db.TargetsRead Db.packReaches at h
  unfold mandatoryPacks
  cases hprofile : db.getProfile orgId with
  | none => exact ⟨[], rfl⟩
  | some profile =>
    simp only [hprofile] at h
    simp only [Except.bind_eq_ok, Except.pure_eq, Except.ok.injEq]
    have hsteps : ∀ p ∈ db.packs.insertionSort fun p q => p.code ≤ q.code, ∃ y,
        (packApplies p profile.jurisdictions profile.sectors).map (fun hit => (p, hit)) =
          .ok y := by
      intro p hp
      obtain ⟨hit, hhit⟩ := h p (by simpa using hp)
      exact ⟨(p, hit), by rw [hhit]; rfl⟩
    obtain ⟨marked, hmarked⟩ := exists_forall₂ hsteps
    exact ⟨_, marked, Except.mapM_eq_ok.mpr hmarked, rfl⟩

/-! ## What is current -/

theorem mem_orgSubscriptions {db : Db} {orgId : String} {p : RegulationPack}
    {s : OrgRegulationPack} :
    (p, s) ∈ orgSubscriptions db orgId ↔
      s ∈ db.orgPacks ∧ s.orgId = orgId ∧ p ∈ db.packs ∧ p.id = s.packId := by
  unfold orgSubscriptions
  simp only [List.mem_insertionSort, List.mem_flatMap, List.mem_filter, List.mem_map,
    decide_eq_true_eq, Prod.mk.injEq]
  constructor
  · rintro ⟨_, ⟨hs, horg⟩, _, ⟨hp, hid⟩, rfl, rfl⟩
    exact ⟨hs, horg, hp, hid⟩
  · rintro ⟨hs, horg, hp, hid⟩
    exact ⟨s, ⟨hs, horg⟩, p, ⟨hp, hid⟩, rfl, rfl⟩

/-- What `reconcilePacks` takes for the subscription of each code. -/
def Db.current (db : Db) (orgId : String) : List (String × OrgRegulationPack) :=
  dictOf ((orgSubscriptions db orgId).map fun s => (s.1.code, s.2))

theorem mem_current {db : Db} {orgId : String} {c : String × OrgRegulationPack}
    (h : c ∈ db.current orgId) :
    c.2 ∈ db.orgPacks ∧ c.2.orgId = orgId ∧ ∃ p ∈ db.packs, p.id = c.2.packId ∧ p.code = c.1 := by
  obtain ⟨⟨p, s⟩, hmem, rfl⟩ := List.mem_map.mp (mem_of_mem_dictOf h)
  obtain ⟨hs, horg, hp, hid⟩ := mem_orgSubscriptions.mp hmem
  exact ⟨hs, horg, p, hp, hid, rfl⟩

/-- A code with a version subscribed is current. -/
theorem exists_mem_current {db : Db} {orgId : String} {p : RegulationPack} (hp : p ∈ db.packs)
    (h : db.subscribed orgId p.id) : ∃ s, (p.code, s) ∈ db.current orgId := by
  obtain ⟨s, hs, horg, hid⟩ := h
  have hkey : p.code ∈ (db.current orgId).map Prod.fst := by
    rw [Db.current, mem_keys_dictOf, List.map_map]
    exact List.mem_map.mpr ⟨(p, s), mem_orgSubscriptions.mpr ⟨hs, horg, hp, hid.symm⟩, rfl⟩
  obtain ⟨⟨code, s'⟩, hmem, rfl⟩ := List.mem_map.mp hkey
  exact ⟨s', hmem⟩

/-! ## Subscribing and dropping -/

theorem subscribeOrg_of_new {db : Db} {orgId code : String} {p : RegulationPack}
    (hlatest : db.latestPackByCode code = some p) (hnew : ¬ db.subscribed orgId p.id)
    (horg : db.hasOrg orgId) :
    subscribeOrg db orgId code =
      .ok { db with orgPacks := db.orgPacks ++ [⟨orgId, p.id, "advisory", true⟩] } := by
  have hany : (db.orgPacks.any fun s => s.orgId = orgId ∧ s.packId = p.id) = false := by
    rw [List.any_eq_false]
    intro s hs
    simpa using fun horg hid => hnew ⟨s, hs, horg, hid⟩
  unfold subscribeOrg
  simp only [hlatest, hany, Bool.false_eq_true, if_false, horg, require, if_true, Except.ok_bind',
    Except.pure_eq]

/-- New codes, each subscribed to its latest version. -/
theorem subscribeAll_of_new {orgId : String} : ∀ {codes : List String} {db : Db},
    (codes ≠ [] → db.hasOrg orgId) → codes.Nodup → (db.packs.map RegulationPack.id).Nodup →
    (∀ code ∈ codes, ∃ p, db.latestPackByCode code = some p ∧ ¬ db.subscribed orgId p.id) →
    subscribeAll orgId db codes = .ok { db with
      orgPacks := db.orgPacks ++ (codes.filterMap db.latestPackByCode).map fun p =>
        ⟨orgId, p.id, "advisory", true⟩ }
  | [], db, _, _, _, _ => by simp [subscribeAll]
  | code :: codes, db, horg, hcodes, hids, hnew => by
    obtain ⟨p, hlatest, hp⟩ := hnew code List.mem_cons_self
    have horg := horg (List.cons_ne_nil _ _)
    obtain ⟨hcode, hcodes⟩ := List.nodup_cons.mp hcodes
    let db₁ : Db := { db with orgPacks := db.orgPacks ++ [⟨orgId, p.id, "advisory", true⟩] }
    have hnew₁ : ∀ code' ∈ codes, ∃ q, db₁.latestPackByCode code' = some q ∧
        ¬ db₁.subscribed orgId q.id := by
      intro code' hcode'
      obtain ⟨q, hq, hqnew⟩ := hnew code' (List.mem_cons_of_mem _ hcode')
      refine ⟨q, hq, ?_⟩
      rintro ⟨s, hs, hsorg, hsid⟩
      rcases List.mem_append.mp hs with hs | hs
      · exact hqnew ⟨s, hs, hsorg, hsid⟩
      obtain rfl := List.mem_singleton.mp hs
      -- two codes have no version in common
      obtain ⟨hp', hpcode⟩ := latestPackByCode_spec hlatest
      obtain ⟨hq', hqcode⟩ := latestPackByCode_spec hq
      have hpq : p = q := List.inj_on_of_nodup_map hids hp' hq' hsid
      exact hcode (by rw [← hpcode, hpq, hqcode]; exact hcode')
    have ih : subscribeAll orgId db₁ codes = .ok { db with
        orgPacks := db.orgPacks ++ [⟨orgId, p.id, "advisory", true⟩] ++
          (codes.filterMap db.latestPackByCode).map fun p => ⟨orgId, p.id, "advisory", true⟩ } :=
      @subscribeAll_of_new orgId codes db₁ (fun _ => horg) hcodes hids hnew₁
    rw [subscribeAll, subscribeOrg_of_new hlatest hp horg, Except.ok_bind', ih,
      List.filterMap_cons_some hlatest, List.map_cons, List.append_assoc, List.singleton_append]

theorem unsubscribe_foldl (orgId : String) :
    ∀ (removed : List (String × OrgRegulationPack)) (db : Db),
    removed.foldl (fun db c => db.unsubscribe orgId c.2.packId) db =
      { db with orgPacks := db.orgPacks.filter fun s =>
          !(s.orgId = orgId ∧ ∃ c ∈ removed, c.2.packId = s.packId) }
  | [], db => by simp
  | c :: removed, db => by
    rw [List.foldl_cons, unsubscribe_foldl orgId removed, Db.unsubscribe]
    simp only [List.filter_filter, Db.mk.injEq, true_and, and_true]
    refine List.filter_congr fun s _ => ?_
    by_cases horg : s.orgId = orgId <;> by_cases hid : s.packId = c.2.packId <;>
      simp [horg, hid, eq_comm]

/-! ## Reconciling -/

/-- The subscriptions after a call : those that were there but one of each code that is not
required, and the latest version of each required code that was not current. -/
structure Reconciled (db db' : Db) (orgId : String) : Prop where
  packs : db'.packs = db.packs
  profiles : db'.profiles = db.profiles
  packsThere : ∀ s ∈ db'.orgPacks, ∃ p ∈ db.packs, p.id = s.packId
  subscribed : ∀ id, db'.subscribed orgId id ↔
    (db.subscribed orgId id ∧
      ¬ ∃ c ∈ db.current orgId, ¬ db.requires orgId c.1 ∧ c.2.packId = id) ∨
    ∃ p, db.latestPackByCode p.code = some p ∧ db.requires orgId p.code ∧
      (∀ c ∈ db.current orgId, c.1 ≠ p.code) ∧ p.id = id

theorem mem_codes {db : Db} {orgId code : String} {mandatory : List RegulationPack}
    (h : mandatoryPacks db orgId = .ok mandatory) :
    code ∈ (mandatory.map RegulationPack.code).dedup ↔ db.requires orgId code := by
  rw [List.mem_dedup, List.mem_map]
  refine exists_congr fun p => ?_
  rw [(mandatoryPacks_spec h).2 p]
  tauto

theorem org_of_requires {db : Db} {orgId code : String} (hkeys : RulebookKeys db orgId)
    (h : db.requires orgId code) : db.hasOrg orgId := by
  obtain ⟨p, -, -, hreach⟩ := h
  refine hkeys.org ?_
  unfold Db.packReaches at hreach
  cases hprofile : db.getProfile orgId with
  | none => rw [hprofile] at hreach; cases hreach
  | some profile => rfl

/-- A required code that is not current has a latest version, not subscribed. -/
theorem latest_of_new {db : Db} {orgId code : String} (hreq : db.requires orgId code)
    (hnew : ∀ c ∈ db.current orgId, c.1 ≠ code) :
    ∃ p, db.latestPackByCode code = some p ∧ ¬ db.subscribed orgId p.id := by
  obtain ⟨q, hq, rfl, -⟩ := hreq
  obtain ⟨p, hp⟩ := exists_latestPackByCode hq
  obtain ⟨hmem, hcode⟩ := latestPackByCode_spec hp
  refine ⟨p, hp, fun hsub => ?_⟩
  obtain ⟨s, hs⟩ := exists_mem_current hmem hsub
  exact hnew _ hs hcode

theorem reconcilePacks_returns {db : Db} {orgId : String} (hkeys : RulebookKeys db orgId)
    (hread : db.TargetsRead orgId) :
    ∃ db' added removed, reconcilePacks db orgId = .ok (db', added, removed) ∧
      Reconciled db db' orgId := by
  obtain ⟨mandatory, hmandatory⟩ := mandatoryPacks_returns hread
  have hcodes := fun code => @mem_codes _ db orgId code mandatory hmandatory
  unfold reconcilePacks
  rw [hmandatory, Except.ok_bind']
  dsimp only
  rw [← Db.current]
  have hnodup := (mandatory.map RegulationPack.code).nodup_dedup
  generalize (mandatory.map RegulationPack.code).dedup = required at hcodes hnodup ⊢
  have hadded : ∀ code, code ∈ (required.filter fun code =>
      !(db.current orgId).any fun c => c.1 = code) ↔
      db.requires orgId code ∧ ∀ c ∈ db.current orgId, c.1 ≠ code := by
    intro code
    rw [List.mem_filter, hcodes]
    simp
  have hadds := hnodup.filter fun code => !(db.current orgId).any fun c => c.1 = code
  generalize (required.filter fun code =>
    !(db.current orgId).any fun c => c.1 = code) = added at hadded hadds ⊢
  have horg : added ≠ [] → db.hasOrg orgId := by
    intro hne
    obtain ⟨code, hcode⟩ := List.exists_mem_of_ne_nil _ hne
    exact org_of_requires hkeys ((hadded code).mp hcode).1
  have hall := subscribeAll_of_new horg hadds hkeys.ids fun code hcode =>
    latest_of_new ((hadded code).mp hcode).1 ((hadded code).mp hcode).2
  have hdropped : ∀ id, (∃ c ∈ ((db.current orgId).filter fun c => !required.contains c.1),
      c.2.packId = id) ↔ ∃ c ∈ db.current orgId, ¬ db.requires orgId c.1 ∧ c.2.packId = id := by
    intro id
    refine exists_congr fun c => ?_
    rw [List.mem_filter]
    simp [← hcodes, and_assoc]
  simp only [hall, Except.ok_bind', unsubscribe_foldl, Except.pure_eq]
  refine ⟨_, _, _, rfl, rfl, rfl, ?_, ?_⟩
  · intro s hs
    rcases List.mem_append.mp (List.mem_of_mem_filter hs) with hs | hs
    · exact hkeys.packs s hs
    obtain ⟨p, hp, rfl⟩ := List.mem_map.mp hs
    obtain ⟨code, -, hlatest⟩ := List.mem_filterMap.mp hp
    exact ⟨p, (latestPackByCode_spec hlatest).1, rfl⟩
  intro id
  simp only [Db.subscribed, List.mem_filter, List.mem_append]
  constructor
  · rintro ⟨s, ⟨hs | hs, hkept⟩, horg, rfl⟩
    · refine Or.inl ⟨⟨s, hs, horg, rfl⟩, fun hdrop => ?_⟩
      simp only [horg, (hdropped _).mpr hdrop, and_self, decide_true, Bool.not_true,
        Bool.false_eq_true] at hkept
    obtain ⟨p, hp, rfl⟩ := List.mem_map.mp hs
    obtain ⟨code, hcode, hlatest⟩ := List.mem_filterMap.mp hp
    obtain ⟨-, rfl⟩ := latestPackByCode_spec hlatest
    obtain ⟨hreq, hnew⟩ := (hadded _).mp hcode
    exact Or.inr ⟨p, hlatest, hreq, hnew, rfl⟩
  · rintro (⟨⟨s, hs, horg, rfl⟩, hkept⟩ | ⟨p, hlatest, hreq, hnew, rfl⟩)
    · refine ⟨s, ⟨Or.inl hs, ?_⟩, horg, rfl⟩
      rw [← hdropped] at hkept
      simp only [hkept, and_false, decide_false, Bool.not_false]
    · refine ⟨⟨orgId, p.id, "advisory", true⟩, ⟨Or.inr ?_, ?_⟩, rfl, rfl⟩
      · exact List.mem_map.mpr
          ⟨p, List.mem_filterMap.mpr ⟨_, (hadded _).mpr ⟨hreq, hnew⟩, hlatest⟩, rfl⟩
      have hkept : ¬ ∃ c ∈ db.current orgId, ¬ db.requires orgId c.1 ∧ c.2.packId = p.id := by
        rintro ⟨c, hc, hnot, hid⟩
        obtain ⟨-, -, q, hq, hqid, hqcode⟩ := mem_current hc
        have hpq := pack_ext hkeys hq (latestPackByCode_spec hlatest).1 (hqid.trans hid)
        exact hnot (by rw [← hqcode, hpq]; exact hreq)
      rw [← hdropped] at hkept
      simp only [hkept, and_false, decide_false, Bool.not_false]

/-- Where every required code is current and every current code is required, nothing is
added or removed. -/
theorem reconcilePacks_settled {db : Db} {orgId : String} (hread : db.TargetsRead orgId)
    (hcur : ∀ code, db.requires orgId code → ∃ c ∈ db.current orgId, c.1 = code)
    (hreq : ∀ c ∈ db.current orgId, db.requires orgId c.1) :
    reconcilePacks db orgId = .ok (db, [], []) := by
  obtain ⟨mandatory, hmandatory⟩ := mandatoryPacks_returns hread
  have hcodes := fun code => @mem_codes _ db orgId code mandatory hmandatory
  unfold reconcilePacks
  rw [hmandatory, Except.ok_bind']
  dsimp only
  rw [← Db.current]
  generalize (mandatory.map RegulationPack.code).dedup = required at hcodes ⊢
  have hadded : (required.filter fun code =>
      !(db.current orgId).any fun c => c.1 = code) = [] := by
    rw [List.filter_eq_nil_iff]
    intro code hcode
    obtain ⟨c, hc, hcc⟩ := hcur code ((hcodes code).mp hcode)
    have : ((db.current orgId).any fun c => c.1 = code) = true :=
      List.any_eq_true.mpr ⟨c, hc, by simpa using hcc⟩
    simp [this]
  have hremoved : ((db.current orgId).filter fun c => !required.contains c.1) = [] := by
    rw [List.filter_eq_nil_iff]
    intro c hc
    simpa using (hcodes c.1).mpr (hreq c hc)
  rw [hadded, hremoved]
  rfl

/-! ## When the subscriptions follow the profile -/

/-- The call makes the subscriptions exactly the latest versions that reach the
organisation, and another call changes nothing. -/
def RulebooksFollow (db : Db) (orgId : String) : Prop :=
  ∃ db' added removed, reconcilePacks db orgId = .ok (db', added, removed) ∧
    (∀ packId, db'.subscribed orgId packId ↔
      ∃ p ∈ db.packs, p.id = packId ∧ db.latestPackByCode p.code = some p ∧
        db.packReaches orgId p = .ok true) ∧
    reconcilePacks db' orgId = .ok (db', [], [])

/-- The versions of a code agree on whether it is required, and of each code no
subscription is left over from before. -/
structure Db.VersionsAgree (db : Db) (orgId : String) : Prop where
  read : db.TargetsRead orgId
  /-- Of a code some version of which reaches the organisation, the latest does, and no
  other is subscribed. -/
  required : ∀ p ∈ db.packs, db.packReaches orgId p = .ok true →
    ∀ latest, db.latestPackByCode p.code = some latest →
      db.packReaches orgId latest = .ok true ∧
        ∀ q ∈ db.packs, q.code = p.code → db.subscribed orgId q.id → q = latest
  /-- Of a code no version of which does, at most one is subscribed. -/
  unrequired : ∀ p ∈ db.packs, (∀ r ∈ db.packs, r.code = p.code →
      db.packReaches orgId r ≠ .ok true) →
    ∀ q ∈ db.packs, q.code = p.code → db.subscribed orgId p.id → db.subscribed orgId q.id → p = q

theorem packReaches_congr {db db' : Db} {orgId : String} (h : db'.profiles = db.profiles)
    (p : RegulationPack) : db'.packReaches orgId p = db.packReaches orgId p := by
  unfold Db.packReaches Db.getProfile
  rw [h]

theorem follow_of_versionsAgree {db : Db} {orgId : String} (hkeys : RulebookKeys db orgId)
    (h : db.VersionsAgree orgId) : RulebooksFollow db orgId := by
  obtain ⟨db', added, removed, hrun, hdb⟩ := reconcilePacks_returns hkeys h.read
  -- a subscription of a required code is to its latest version, and stays
  have hkept : ∀ p ∈ db.packs, db.requires orgId p.code →
      ¬ ∃ c ∈ db.current orgId, ¬ db.requires orgId c.1 ∧ c.2.packId = p.id := by
    rintro p hp hreq ⟨c, hc, hnot, hid⟩
    obtain ⟨-, -, q, hq, hqid, hqcode⟩ := mem_current hc
    exact hnot (by rw [← hqcode, pack_ext hkeys hq hp (hqid.trans hid)]; exact hreq)
  have hspec : ∀ packId, db'.subscribed orgId packId ↔
      ∃ p ∈ db.packs, p.id = packId ∧ db.latestPackByCode p.code = some p ∧
        db.packReaches orgId p = .ok true := by
    intro packId
    rw [hdb.subscribed]
    constructor
    · rintro (⟨hsub, hleft⟩ | ⟨p, hlatest, ⟨r, hr, hcode, hreach⟩, -, rfl⟩)
      · obtain ⟨s, hs, horg, rfl⟩ := hsub
        obtain ⟨p, hp, hid⟩ := hkeys.packs s hs
        rw [← hid] at hleft ⊢
        have hsub : db.subscribed orgId p.id := ⟨s, hs, horg, hid.symm⟩
        by_cases hreq : db.requires orgId p.code
        · obtain ⟨r, hr, hcode, hreach⟩ := hreq
          obtain ⟨latest, hlatest⟩ := exists_latestPackByCode hr
          obtain ⟨hlreach, honly⟩ := h.required r hr hreach latest hlatest
          obtain rfl := honly p hp hcode.symm hsub
          exact ⟨p, hp, rfl, hcode ▸ hlatest, hlreach⟩
        · obtain ⟨s', hs'⟩ := exists_mem_current hp hsub
          obtain ⟨hmem, horg', q, hq, hqid, hqcode⟩ := mem_current hs'
          have hpq := h.unrequired p hp (fun r hr hcode hreach => hreq ⟨r, hr, hcode, hreach⟩)
            q hq hqcode hsub ⟨s', hmem, horg', hqid.symm⟩
          exact absurd ⟨_, hs', hreq, hpq ▸ hqid.symm⟩ hleft
      · obtain ⟨hp, -⟩ := latestPackByCode_spec hlatest
        exact ⟨p, hp, rfl, hlatest, (h.required r hr hreach p (hcode ▸ hlatest)).1⟩
    · rintro ⟨p, hp, rfl, hlatest, hreach⟩
      have hreq : db.requires orgId p.code := ⟨p, hp, rfl, hreach⟩
      by_cases hcur : ∃ c ∈ db.current orgId, c.1 = p.code
      · obtain ⟨c, hc, hcode⟩ := hcur
        obtain ⟨hmem, horg, q, hq, hqid, hqcode⟩ := mem_current hc
        have hsub : db.subscribed orgId q.id := ⟨c.2, hmem, horg, hqid.symm⟩
        obtain rfl := (h.required p hp hreach p hlatest).2 q hq (hqcode.trans hcode) hsub
        exact Or.inl ⟨hsub, hkept q hp hreq⟩
      · push Not at hcur
        exact Or.inr ⟨p, hlatest, hreq, hcur, rfl⟩
  refine ⟨db', added, removed, hrun, hspec, ?_⟩
  have hreaches : ∀ p, db'.packReaches orgId p = db.packReaches orgId p :=
    packReaches_congr hdb.profiles
  have hrequires : ∀ code, db'.requires orgId code ↔ db.requires orgId code := by
    intro code
    simp only [Db.requires, hdb.packs, hreaches]
  refine reconcilePacks_settled ?_ ?_ ?_
  · intro p hp
    rw [hreaches]
    exact h.read p (hdb.packs ▸ hp)
  · intro code hreq
    obtain ⟨r, hr, rfl, hreach⟩ := (hrequires code).mp hreq
    obtain ⟨latest, hlatest⟩ := exists_latestPackByCode hr
    obtain ⟨hmem, hcode⟩ := latestPackByCode_spec hlatest
    have hsub := (hspec latest.id).mpr ⟨latest, hmem, rfl, by rw [hcode]; exact hlatest,
      (h.required r hr hreach latest hlatest).1⟩
    obtain ⟨s, hs⟩ := exists_mem_current (hdb.packs ▸ hmem) hsub
    exact ⟨_, hs, hcode⟩
  · intro c hc
    obtain ⟨hmem, horg, q, hq, hqid, hqcode⟩ := mem_current hc
    obtain ⟨p, hp, hid, -, hreach⟩ := (hspec _).mp ⟨c.2, hmem, horg, rfl⟩
    have hpq := pack_ext hkeys hp (hdb.packs ▸ hq) (hid.trans hqid.symm)
    exact (hrequires _).mpr ⟨p, hp, by rw [hpq]; exact hqcode, hreach⟩

theorem versionsAgree_of_follow {db : Db} {orgId : String} (hkeys : RulebookKeys db orgId)
    (h : RulebooksFollow db orgId) : db.VersionsAgree orgId := by
  obtain ⟨_, _, _, hrun, hspec, -⟩ := h
  have hread : db.TargetsRead orgId := by
    unfold reconcilePacks at hrun
    obtain ⟨mandatory, hmandatory, -⟩ := Except.bind_eq_ok.mp hrun
    exact (mandatoryPacks_spec hmandatory).1
  obtain ⟨db', added, removed, hrun', hdb⟩ := reconcilePacks_returns hkeys hread
  obtain ⟨rfl, -⟩ := Prod.mk.inj (Except.ok.inj (hrun'.symm.trans hrun))
  have hlatest_of_kept : ∀ q ∈ db.packs, db.requires orgId q.code → db.subscribed orgId q.id →
      db.latestPackByCode q.code = some q ∧ db.packReaches orgId q = .ok true := by
    intro q hq hreq hsub
    have hsub' := (hdb.subscribed q.id).mpr (Or.inl ⟨hsub, by
      rintro ⟨c, hc, hnot, hid⟩
      obtain ⟨-, -, r, hr, hrid, hrcode⟩ := mem_current hc
      exact hnot (by rw [← hrcode, pack_ext hkeys hr hq (hrid.trans hid)]; exact hreq)⟩)
    obtain ⟨p, hp, hid, hlatest, hreach⟩ := (hspec _).mp hsub'
    obtain rfl := pack_ext hkeys hp hq hid
    exact ⟨hlatest, hreach⟩
  refine ⟨hread, fun p hp hreach latest hlatest => ?_, fun p hp hnot q hq hcode hsub hsub' => ?_⟩
  · have hreq : db.requires orgId p.code := ⟨p, hp, rfl, hreach⟩
    obtain ⟨hmem, hlcode⟩ := latestPackByCode_spec hlatest
    have honly : ∀ q ∈ db.packs, q.code = p.code → db.subscribed orgId q.id →
        q = latest ∧ db.packReaches orgId q = .ok true := by
      intro q hq hcode hsub
      obtain ⟨hqlatest, hqreach⟩ := hlatest_of_kept q hq (by rw [hcode]; exact hreq) hsub
      rw [hcode, hlatest] at hqlatest
      exact ⟨(Option.some.inj hqlatest).symm, hqreach⟩
    refine ⟨?_, fun q hq hcode hsub => (honly q hq hcode hsub).1⟩
    by_cases hcur : ∃ c ∈ db.current orgId, c.1 = p.code
    · obtain ⟨c, hc, hcode⟩ := hcur
      obtain ⟨hcmem, horg, q, hq, hqid, hqcode⟩ := mem_current hc
      obtain ⟨rfl, hqreach⟩ := honly q hq (hqcode.trans hcode) ⟨c.2, hcmem, horg, hqid.symm⟩
      exact hqreach
    · push Not at hcur
      rw [← hlcode] at hreq hcur hlatest
      have hsub := (hdb.subscribed latest.id).mpr (Or.inr ⟨latest, hlatest, hreq, hcur, rfl⟩)
      obtain ⟨q, hq, hid, -, hqreach⟩ := (hspec _).mp hsub
      obtain rfl := pack_ext hkeys hq hmem hid
      exact hqreach
  · obtain ⟨s, hs⟩ := exists_mem_current hp hsub
    -- of the two one is dropped, and neither may stay
    have hdropped : ∀ r ∈ db.packs, r.code = p.code → db.subscribed orgId r.id →
        r.id = s.packId := by
      intro r hr hrcode hrsub
      by_contra hne
      have hstays := (hdb.subscribed r.id).mpr (Or.inl ⟨hrsub, by
        rintro ⟨c, hc, -, hid⟩
        obtain ⟨-, -, y, hy, hyid, hycode⟩ := mem_current hc
        obtain rfl := pack_ext hkeys hy hr (hyid.trans hid)
        have hkey : c.1 = p.code := hycode.symm.trans hrcode
        have hcs : c = (p.code, s) :=
          List.inj_on_of_nodup_map (nodup_keys_dictOf _) hc hs hkey
        rw [hcs] at hid
        exact hne hid.symm⟩)
      obtain ⟨x, hx, hid, -, hreach⟩ := (hspec _).mp hstays
      obtain rfl := pack_ext hkeys hx hr hid
      exact hnot x hx hrcode hreach
    exact pack_ext hkeys hp hq ((hdropped p hp rfl hsub).trans (hdropped q hq hcode hsub').symm)

/-- The subscriptions follow the profile exactly where the versions of each code agree. -/
theorem rulebooksFollow_iff {db : Db} {orgId : String} (hkeys : RulebookKeys db orgId) :
    RulebooksFollow db orgId ↔ db.VersionsAgree orgId :=
  ⟨versionsAgree_of_follow hkeys, follow_of_versionsAgree hkeys⟩

end Rulebooks

/-! ## Samples -/

section Samples

open Sample

/-- Two versions of a rulebook for banks in the DIFC. -/
def sampleRulebooks (n : Nat) : RegulationPack where
  id := Uuid.ofNat n
  code := "difc_ai"
  jurisdiction := "difc"
  instrument := "Regulation 10"
  sourceUrl := none
  verificationStatus := "unverified"
  rules := .obj [("jurisdictions", .arr [.str "difc"]), ("sectors", .arr [.str "banking"])]
  createdAt := n

def sampleBank : Db :=
  { Db.empty with
    orgs := [⟨"bank", "Bank", "uae", "deny_on_error", "attest_managed", none⟩]
    packs := [sampleRulebooks 1, sampleRulebooks 2]
    profiles := [⟨"bank", ["difc"], ["banking"], "2026", none⟩] }

def sampleBankHolding (n : Nat) : Db :=
  { sampleBank with orgPacks := [⟨"bank", Uuid.ofNat n, "advisory", true⟩] }

/-- A bank that holds the latest version holds it still. -/
theorem rulebooksFollow_iff_sample :
    RulebooksFollow (sampleBankHolding 2) "bank" ↔ (sampleBankHolding 2).VersionsAgree "bank" :=
  rulebooksFollow_iff {
    ids := by decide
    created := by decide
    packs := by decide
    org := by decide }

/-- A new version of a rulebook does not reach a bank that holds the one before. -/
theorem not_rulebooksFollow_sample : ¬ RulebooksFollow (sampleBankHolding 1) "bank" := by
  rintro ⟨db', added, removed, hrun, hspec, -⟩
  have hrows : (reconcilePacks (sampleBankHolding 1) "bank").map (fun r => r.1.orgPacks) =
      .ok (sampleBankHolding 1).orgPacks := by
    decide +kernel
  rw [hrun] at hrows
  have hrows : db'.orgPacks = (sampleBankHolding 1).orgPacks := Except.ok.inj hrows
  obtain ⟨s, hs, -, hid⟩ : db'.subscribed "bank" (Uuid.ofNat 2) :=
    (hspec _).mpr ⟨sampleRulebooks 2, by decide, rfl, by decide, by decide⟩
  rw [hrows] at hs
  obtain rfl := List.mem_singleton.mp hs
  exact absurd hid (by decide)

end Samples

end Attest
