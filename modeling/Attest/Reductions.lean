import Attest.Rulebooks

/-!
# What leaves a profile

`setProfile` applies what only adds, and of what drops a jurisdiction or a sector makes a
request that keeps the whole profile it proposes. `decideChangeRequest` puts that profile
in place of the one there is then. A run here is of these two calls, over any number of
organisations and of requests that wait at once.

`namesWhatLeaves_iff` : over a run, whatever leaves a profile is named by the request
whose approval took it away, exactly when no approval drops a code that the profile got
after the request was filed.
-/

set_option linter.unusedSectionVars false

namespace Attest

section Reductions

variable [PyUnicode]

/-! ## Profiles -/

def Db.jurisdictionsOf (db : Db) (orgId : String) : List String :=
  ((db.getProfile orgId).map OrgProfile.jurisdictions).getD []

def Db.sectorsOf (db : Db) (orgId : String) : List String :=
  ((db.getProfile orgId).map OrgProfile.sectors).getD []

theorem mem_sortedSet {code : String} {codes : List String} :
    code ∈ sortedSet codes ↔ code ∈ codes := by
  simp [sortedSet]

theorem mem_removedCodes {profile : OrgProfile} {jurisdictions sectors : List String}
    {code : String} :
    code ∈ removedCodes (some profile) jurisdictions sectors ↔
      code ∈ profile.jurisdictions ∧ code ∉ jurisdictions ∨
        code ∈ profile.sectors ∧ code ∉ sectors := by
  simp [removedCodes, mem_sortedSet]

/-- The tables a call on subscriptions leaves alone. -/
structure KeepsProfiles (db db' : Db) : Prop where
  profiles : db'.profiles = db.profiles
  changes : db'.profileChanges = db.profileChanges

theorem KeepsProfiles.trans {db db₁ db' : Db} (h : KeepsProfiles db db₁)
    (h' : KeepsProfiles db₁ db') :
    KeepsProfiles db db' :=
  ⟨h'.profiles.trans h.profiles, h'.changes.trans h.changes⟩

theorem KeepsProfiles.subscribeOrg {db db' : Db} {orgId code : String}
    (h : subscribeOrg db orgId code = .ok db') : KeepsProfiles db db' := by
  unfold Attest.subscribeOrg at h
  split at h
  · cases h
  split at h
  · obtain rfl := Except.ok.inj h
    exact ⟨rfl, rfl⟩
  · simp only [Except.bind_eq_ok, Except.pure_eq, Except.ok.injEq] at h
    obtain ⟨_, -, rfl⟩ := h
    exact ⟨rfl, rfl⟩

theorem KeepsProfiles.subscribeAll {orgId : String} : ∀ {codes : List String} {db db' : Db},
    subscribeAll orgId db codes = .ok db' → KeepsProfiles db db'
  | [], db, db', h => by
    obtain rfl := Except.ok.inj h
    exact ⟨rfl, rfl⟩
  | code :: codes, db, db', h => by
    obtain ⟨db₁, hcode, hcodes⟩ := Except.bind_eq_ok.mp h
    exact (subscribeOrg hcode).trans (subscribeAll hcodes)

theorem KeepsProfiles.reconcilePacks {db db' : Db} {orgId : String} {added removed : List String}
    (h : reconcilePacks db orgId = .ok (db', added, removed)) : KeepsProfiles db db' := by
  simp only [Attest.reconcilePacks, Except.bind_eq_ok, Except.pure_eq, Except.ok.injEq,
    Prod.mk.injEq, unsubscribe_foldl] at h
  obtain ⟨_, -, db₁, hsubscribe, rfl, -⟩ := h
  exact (subscribeAll hsubscribe).trans ⟨rfl, rfl⟩

theorem getProfile_putProfile {db db' : Db} {profile : OrgProfile}
    (h : db.putProfile profile = .ok db') (orgId : String) :
    db'.getProfile orgId = if orgId = profile.orgId then some profile else db.getProfile orgId := by
  simp only [Db.putProfile, Except.bind_eq_ok] at h
  obtain ⟨_, -, h⟩ := h
  split at h
  · rename_i hthere
    obtain rfl := Except.ok.inj h
    have hkey : ((fun p : OrgProfile => decide (p.orgId = orgId)) ∘
        fun p => if p.orgId = profile.orgId then profile else p) =
          fun p => decide (p.orgId = orgId) := by
      funext p
      by_cases hp : p.orgId = profile.orgId <;> simp [hp]
    unfold Db.getProfile at hthere ⊢
    rw [List.find?_map, hkey]
    by_cases horg : orgId = profile.orgId
    · rw [if_pos horg]
      subst horg
      obtain ⟨p, hp⟩ := Option.isSome_iff_exists.mp hthere
      have hporg : p.orgId = profile.orgId := by simpa using List.find?_some hp
      simp [hp, hporg]
    · rw [if_neg horg]
      cases hp : db.profiles.find? fun p => decide (p.orgId = orgId) with
      | none => rfl
      | some p =>
        have hporg : p.orgId = orgId := by simpa using List.find?_some hp
        simp [hporg, horg]
  · rename_i hnone
    simp only [Except.bind_eq_ok, Except.pure_eq, Except.ok.injEq] at h
    obtain ⟨_, -, rfl⟩ := h
    unfold Db.getProfile at hnone ⊢
    rw [List.find?_append]
    by_cases horg : orgId = profile.orgId
    · subst horg
      have hfind : (db.profiles.find? fun p => decide (p.orgId = profile.orgId)) = none := by
        simpa using hnone
      rw [hfind]
      simp
    · simp [horg, Ne.symm horg]

theorem applyProfile_spec {db db' : Db} {orgId actor now : String}
    {jurisdictions sectors : List String} {profile : OrgProfile}
    (h : applyProfile db orgId jurisdictions sectors actor now = .ok (db', profile)) :
    db'.profileChanges = db.profileChanges ∧ profile.jurisdictions = jurisdictions ∧
      profile.sectors = sectors ∧
      ∀ x, db'.getProfile x = if x = orgId then some profile else db.getProfile x := by
  simp only [applyProfile, Except.bind_eq_ok, Except.pure_eq, Except.ok.injEq, Prod.mk.injEq] at h
  obtain ⟨db₁, hput, ⟨db₂, added, removed⟩, hreconcile, rfl, rfl⟩ := h
  have hkeep := KeepsProfiles.reconcilePacks hreconcile
  refine ⟨?_, rfl, rfl, fun x => ?_⟩
  · rw [hkeep.changes]
    simp only [Db.putProfile, Except.bind_eq_ok] at hput
    obtain ⟨_, -, hput⟩ := hput
    split at hput
    · obtain rfl := Except.ok.inj hput
      rfl
    · simp only [Except.bind_eq_ok, Except.pure_eq, Except.ok.injEq] at hput
      obtain ⟨_, -, rfl⟩ := hput
      rfl
  · have hsame : db₂.getProfile x = db₁.getProfile x := by
      rw [Db.getProfile, Db.getProfile, hkeep.profiles]
    rw [hsame]
    exact getProfile_putProfile hput x

/-- What `setProfile` did : it applied a profile that drops nothing, or it filed a request
and left every profile as it was. -/
theorem setProfile_cases {db db' : Db} {args : ProfileArgs} {fresh : ProfileFresh}
    {answer : OrgProfile ⊕ ProfileChangeRequest} (hargs : args.allowReduction = false)
    (h : setProfile db args fresh = .ok (db', answer)) :
    ∃ jurisdictions sectors, validateJurisdictions args.jurisdictions = .ok jurisdictions ∧
      validateSectors args.sectors = .ok sectors ∧
      ((∃ profile, answer = .inl profile ∧
          removedCodes (db.getProfile args.orgId) jurisdictions sectors = [] ∧
          applyProfile db args.orgId jurisdictions sectors args.actor fresh.now =
            .ok (db', profile)) ∨
        ∃ request, answer = .inr request ∧ request.orgId = args.orgId ∧
          request.status = "pending" ∧ request.proposedJurisdictions = jurisdictions ∧
          request.proposedSectors = sectors ∧ (db.getProfile args.orgId).isSome ∧
          request.removed = removedCodes (db.getProfile args.orgId) jurisdictions sectors ∧
          db.insertProfileChange request = .ok db') := by
  simp only [setProfile, Except.bind_eq_ok] at h
  obtain ⟨jurisdictions, hj, sectors, hs, _, -, h⟩ := h
  refine ⟨jurisdictions, sectors, hj, hs, ?_⟩
  split at h
  · rename_i hremoved
    simp only [Except.bind_eq_ok, Except.pure_eq, Except.ok.injEq, Prod.mk.injEq] at h
    obtain ⟨_, -, db₁, hinsert, rfl, rfl⟩ := h
    refine Or.inr ⟨_, rfl, rfl, rfl, rfl, rfl, ?_, rfl, hinsert⟩
    cases hprofile : db.getProfile args.orgId with
    | none => simp [hprofile, removedCodes] at hremoved
    | some p => rfl
  · rename_i hremoved
    simp only [Except.bind_eq_ok, Except.pure_eq, Except.ok.injEq, Prod.mk.injEq] at h
    obtain ⟨⟨db₁, profile⟩, happly, rfl, rfl⟩ := h
    refine Or.inl ⟨profile, rfl, ?_, happly⟩
    simpa [hargs] using hremoved

/-- What `decideChangeRequest` did : nothing to a request that was decided, and to one that
waited its status, with the profile it proposes where it was approved. -/
theorem decideChangeRequest_cases {db db' : Db} {requestId : Uuid} {approve : Bool}
    {decidedBy now : String} {out : ProfileChangeRequest}
    (h : decideChangeRequest db requestId approve decidedBy now = .ok (db', out)) :
    ∃ request, db.getProfileChange requestId = some request ∧
      (request.status ≠ "pending" ∧ db' = db ∨
        request.status = "pending" ∧ ∃ status rows, status ≠ "pending" ∧
          rows = db.profileChanges.map (fun r =>
            if r.id = requestId then { request with status := status } else r) ∧
          (approve = false ∧ db' = { db with profileChanges := rows } ∨
            approve = true ∧ ∃ profile,
              applyProfile { db with profileChanges := rows } request.orgId
                request.proposedJurisdictions request.proposedSectors ("attest:" ++ decidedBy) now =
                .ok (db', profile))) := by
  unfold decideChangeRequest at h
  split at h
  · cases h
  rename_i request hget
  refine ⟨request, hget, ?_⟩
  split at h
  · rename_i hstatus
    obtain ⟨rfl, -⟩ := Prod.mk.inj (Except.ok.inj h)
    exact Or.inl ⟨hstatus, rfl⟩
  rename_i hstatus
  refine Or.inr ⟨not_not.mp hstatus, ?_⟩
  simp only [Except.bind_eq_ok] at h
  obtain ⟨_, -, h⟩ := h
  cases approve with
  | false =>
    obtain ⟨rfl, -⟩ := Prod.mk.inj (Except.ok.inj h)
    exact ⟨"denied", _, by decide, rfl, Or.inl ⟨rfl, rfl⟩⟩
  | true =>
    simp only [if_true, Except.bind_eq_ok, Except.pure_eq, Except.ok.injEq, Prod.mk.injEq] at h
    obtain ⟨⟨db₁, profile⟩, happly, rfl, -⟩ := h
    exact ⟨"approved", _, by decide, rfl, Or.inr ⟨rfl, profile, happly⟩⟩

/-! ## Runs -/

/-- The state of the institutions, with the profile there was when each request was filed. -/
structure ProfileWorld where
  db : Db
  filed : Uuid → Option OrgProfile

inductive ProfileCall where
  | set (args : ProfileArgs) (fresh : ProfileFresh)
  | decide (requestId : Uuid) (approve : Bool) (decidedBy now : String)

/-- What a call filed, with the profile it was filed against. -/
def ProfileWorld.file (w : ProfileWorld) :
    OrgProfile ⊕ ProfileChangeRequest → Uuid → Option OrgProfile
  | .inl _ => w.filed
  | .inr request => fun id => if id = request.id then w.db.getProfile request.orgId else w.filed id

/-- One call. No `setProfile` is allowed to reduce. -/
def ProfileCall.run (w : ProfileWorld) : ProfileCall → Except PyError ProfileWorld
  | .set args fresh => do
    let (db, answer) ← setProfile w.db { args with allowReduction := false } fresh
    return ⟨db, w.file answer⟩
  | .decide requestId approve decidedBy now => do
    let (db, _) ← decideChangeRequest w.db requestId approve decidedBy now
    return ⟨db, w.filed⟩

structure ProfileStep where
  before : ProfileWorld
  call : ProfileCall
  after : ProfileWorld

/-- A run, of the calls that return : one that raises is rolled back. -/
inductive ProfileRun : ProfileWorld → List ProfileStep → Prop
  | nil (w : ProfileWorld) : ProfileRun w []
  | cons {w w' : ProfileWorld} {call : ProfileCall} {steps : List ProfileStep} :
    call.run w = .ok w' → ProfileRun w' steps → ProfileRun w (⟨w, call, w'⟩ :: steps)

/-! ## What a step takes away -/

/-- A code that was in the profile of the organisation is in it no more. -/
def Loses (db db' : Db) (orgId code : String) : Prop :=
  code ∈ db.jurisdictionsOf orgId ∧ code ∉ db'.jurisdictionsOf orgId ∨
    code ∈ db.sectorsOf orgId ∧ code ∉ db'.sectorsOf orgId

/-- The step approves this request, which waited. -/
def ProfileStep.Approves (step : ProfileStep) (request : ProfileChangeRequest) : Prop :=
  ∃ requestId decidedBy now, step.call = .decide requestId true decidedBy now ∧
    step.before.db.getProfileChange requestId = some request ∧ request.status = "pending"

/-- Whatever the step takes from a profile, it approves a request that names it. -/
def ProfileStep.NamesWhatLeaves (step : ProfileStep) : Prop :=
  ∀ orgId code, Loses step.before.db step.after.db orgId code →
    ∃ request, step.Approves request ∧ request.orgId = orgId ∧ code ∈ request.removed

/-- A request that the step approves proposes every code that the profile got after it was
filed. -/
def ProfileStep.KeepsAdditions (step : ProfileStep) : Prop :=
  ∀ request filed, step.Approves request → step.before.filed request.id = some filed →
    (∀ code ∈ step.before.db.jurisdictionsOf request.orgId, code ∉ filed.jurisdictions →
      code ∈ request.proposedJurisdictions) ∧
    ∀ code ∈ step.before.db.sectorsOf request.orgId, code ∉ filed.sectors →
      code ∈ request.proposedSectors

/-- Codes of the taxonomies, which have none in common. -/
structure Declared (jurisdictions sectors : List String) : Prop where
  jurisdictions : ∀ code ∈ jurisdictions, code ∈ jurisdictionCodes
  sectors : ∀ code ∈ sectors, code ∈ sectorCodes

/-- What holds of every state : the requests that wait were filed against a profile, and
name what of it they drop. -/
structure ProfileWorld.Ordered (w : ProfileWorld) : Prop where
  ids : (w.db.profileChanges.map ProfileChangeRequest.id).Nodup
  profiles : ∀ orgId, Declared (w.db.jurisdictionsOf orgId) (w.db.sectorsOf orgId)
  pending : ∀ r ∈ w.db.profileChanges, r.status = "pending" →
    Declared r.proposedJurisdictions r.proposedSectors ∧
      ∃ p, w.filed r.id = some p ∧ Declared p.jurisdictions p.sectors ∧
        r.removed = removedCodes (some p) r.proposedJurisdictions r.proposedSectors

/-- At first no request waits. -/
structure ProfileWorld.Initial (w : ProfileWorld) : Prop where
  ids : (w.db.profileChanges.map ProfileChangeRequest.id).Nodup
  profiles : ∀ orgId, Declared (w.db.jurisdictionsOf orgId) (w.db.sectorsOf orgId)
  decided : ∀ r ∈ w.db.profileChanges, r.status ≠ "pending"

theorem ProfileWorld.Initial.ordered {w : ProfileWorld} (h : w.Initial) : w.Ordered :=
  ⟨h.ids, h.profiles, fun r hr hpending => absurd hpending (h.decided r hr)⟩

theorem declared_of_validated {js ss jurisdictions sectors : List String}
    (hj : validateJurisdictions js = .ok jurisdictions) (hs : validateSectors ss = .ok sectors) :
    Declared jurisdictions sectors := by
  simp only [validateJurisdictions, validateSectors, Except.bind_eq_ok, Except.pure_eq,
    Except.ok.injEq, require_eq_ok, List.isEmpty_iff, List.filter_eq_nil_iff] at hj hs
  obtain ⟨_, hj, rfl⟩ := hj
  obtain ⟨_, hs, rfl⟩ := hs
  refine ⟨fun code hcode => ?_, fun code hcode => ?_⟩
  · have := hj code hcode
    simp only [Bool.or_eq_true, Bool.not_eq_true', not_or, Bool.not_eq_false] at this
    exact List.contains_iff_mem.mp this.1
  · have := hs code hcode
    simpa using this

theorem not_mem_both {code : String} (hj : code ∈ jurisdictionCodes) : code ∉ sectorCodes := by
  have h : ∀ c ∈ jurisdictionCodes, c ∉ sectorCodes := by decide
  exact h code hj

theorem of_applyProfile {db db' : Db} {orgId actor now : String}
    {jurisdictions sectors : List String} {profile : OrgProfile}
    (h : applyProfile db orgId jurisdictions sectors actor now = .ok (db', profile)) (x : String) :
    db'.jurisdictionsOf x = (if x = orgId then jurisdictions else db.jurisdictionsOf x) ∧
      db'.sectorsOf x = if x = orgId then sectors else db.sectorsOf x := by
  obtain ⟨-, rfl, rfl, hget⟩ := applyProfile_spec h
  unfold Db.jurisdictionsOf Db.sectorsOf
  rw [hget]
  by_cases hx : x = orgId
  · simp [hx]
  · simp [hx]

theorem declared_apply {db db' : Db} {orgId actor now : String}
    {jurisdictions sectors : List String} {profile : OrgProfile}
    (h : applyProfile db orgId jurisdictions sectors actor now = .ok (db', profile))
    (hnew : Declared jurisdictions sectors)
    (hold : ∀ orgId, Declared (db.jurisdictionsOf orgId) (db.sectorsOf orgId)) (x : String) :
    Declared (db'.jurisdictionsOf x) (db'.sectorsOf x) := by
  obtain ⟨hj, hs⟩ := of_applyProfile h x
  rw [hj, hs]
  by_cases hx : x = orgId
  · rw [if_pos hx, if_pos hx]
    exact hnew
  · rw [if_neg hx, if_neg hx]
    exact hold x

theorem getProfileChange_spec {db : Db} {requestId : Uuid} {r : ProfileChangeRequest}
    (h : db.getProfileChange requestId = some r) : r ∈ db.profileChanges ∧ r.id = requestId :=
  ⟨List.mem_of_find?_eq_some h, by simpa using List.find?_some h⟩

/-- Deciding keeps the ids of the requests, and the requests that wait are among those that
did. -/
theorem decided_rows {rows : List ProfileChangeRequest} {request : ProfileChangeRequest}
    {requestId : Uuid} {status : String} (hid : request.id = requestId)
    (hstatus : status ≠ "pending") :
    (rows.map (fun r => if r.id = requestId then { request with status := status } else r)).map
        ProfileChangeRequest.id = rows.map ProfileChangeRequest.id ∧
      ∀ r ∈ rows.map (fun r => if r.id = requestId then { request with status := status } else r),
        r.status = "pending" → r ∈ rows := by
  constructor
  · rw [List.map_map]
    refine List.map_congr_left fun r _ => ?_
    by_cases hr : r.id = requestId <;> simp [hr, hid]
  · rintro _ hmem hpending
    obtain ⟨r, hr, rfl⟩ := List.mem_map.mp hmem
    by_cases hrid : r.id = requestId
    · rw [if_pos hrid] at hpending
      exact absurd hpending hstatus
    · rw [if_neg hrid]
      exact hr

theorem ProfileWorld.Ordered.set {w : ProfileWorld} {db : Db} {args : ProfileArgs}
    {fresh : ProfileFresh} {answer : OrgProfile ⊕ ProfileChangeRequest} (h : w.Ordered)
    (hargs : args.allowReduction = false) (hrun : setProfile w.db args fresh = .ok (db, answer)) :
    (⟨db, w.file answer⟩ : ProfileWorld).Ordered := by
  obtain ⟨jurisdictions, sectors, hj, hs, ⟨profile, rfl, -, happly⟩ | ⟨request, rfl, horg, -, rfl,
    rfl, hsome, hremoved, hinsert⟩⟩ := setProfile_cases hargs hrun
  · have hchanges := (applyProfile_spec happly).1
    refine ⟨?_, declared_apply happly (declared_of_validated hj hs) h.profiles, ?_⟩
    · rw [hchanges]
      exact h.ids
    · rw [hchanges]
      exact h.pending
  · obtain ⟨p, hp⟩ := Option.isSome_iff_exists.mp hsome
    simp only [Db.insertProfileChange, Except.bind_eq_ok, Except.pure_eq, Except.ok.injEq,
      require_eq_ok] at hinsert
    obtain ⟨_, -, _, hnew, _, -, rfl⟩ := hinsert
    have hnew : ∀ r ∈ w.db.profileChanges, r.id ≠ request.id := by simpa using hnew
    refine ⟨?_, h.profiles, fun r hr hpending => ?_⟩
    · rw [List.map_append]
      refine List.Nodup.append h.ids (List.nodup_singleton _) ?_
      intro id hid hid'
      obtain ⟨r, hr, rfl⟩ := List.mem_map.mp hid
      exact hnew r hr (by simpa using hid')
    rcases List.mem_append.mp hr with hr | hr
    · obtain ⟨hdecl, q, hq, hrest⟩ := h.pending r hr hpending
      refine ⟨hdecl, q, ?_, hrest⟩
      simp only [ProfileWorld.file, if_neg (hnew r hr)]
      exact hq
    · obtain rfl := List.mem_singleton.mp hr
      refine ⟨declared_of_validated hj hs, p, ?_, ?_, by rw [hremoved, hp]⟩
      · simp only [ProfileWorld.file, if_true]
        rw [horg]
        exact hp
      · have := h.profiles args.orgId
        simpa [Db.jurisdictionsOf, Db.sectorsOf, hp] using this

theorem ProfileWorld.Ordered.decide {w : ProfileWorld} {db : Db} {requestId : Uuid} {approve : Bool}
    {decidedBy now : String} {out : ProfileChangeRequest} (h : w.Ordered)
    (hrun : decideChangeRequest w.db requestId approve decidedBy now = .ok (db, out)) :
    (⟨db, w.filed⟩ : ProfileWorld).Ordered := by
  obtain ⟨request, hget, ⟨-, rfl⟩ | ⟨hpending, status, rows, hstatus, hrows, hrun⟩⟩ :=
    decideChangeRequest_cases hrun
  · exact h
  obtain ⟨hmem, hid⟩ := getProfileChange_spec hget
  have hdecided :
      rows.map ProfileChangeRequest.id = w.db.profileChanges.map ProfileChangeRequest.id ∧
      ∀ r ∈ rows, r.status = "pending" → r ∈ w.db.profileChanges := by
    rw [hrows]
    exact decided_rows hid hstatus
  rcases hrun with ⟨-, rfl⟩ | ⟨-, profile, happly⟩
  · exact ⟨hdecided.1 ▸ h.ids, h.profiles, fun r hr hr' => h.pending r (hdecided.2 r hr hr') hr'⟩
  · have hchanges := (applyProfile_spec happly).1
    refine ⟨?_, declared_apply happly (h.pending request hmem hpending).1 h.profiles, ?_⟩
    · rw [hchanges]
      exact hdecided.1 ▸ h.ids
    · rw [hchanges]
      exact fun r hr hr' => h.pending r (hdecided.2 r hr hr') hr'

theorem ProfileWorld.Ordered.run {w w' : ProfileWorld} {call : ProfileCall} (h : w.Ordered)
    (hrun : call.run w = .ok w') : w'.Ordered := by
  cases call with
  | set args fresh =>
    obtain ⟨⟨db, answer⟩, hset, hw⟩ := Except.bind_eq_ok.mp hrun
    obtain rfl := Except.ok.inj hw
    exact h.set rfl hset
  | decide requestId approve decidedBy now =>
    obtain ⟨⟨db, out⟩, hdecide, hw⟩ := Except.bind_eq_ok.mp hrun
    obtain rfl := Except.ok.inj hw
    exact h.decide hdecide

/-! ## The law -/

theorem not_loses_of_profiles {db db' : Db} (h : db'.profiles = db.profiles) (orgId code : String) :
    ¬ Loses db db' orgId code := by
  have hget : db'.getProfile orgId = db.getProfile orgId := by rw [Db.getProfile, Db.getProfile, h]
  unfold Loses Db.jurisdictionsOf Db.sectorsOf
  rw [hget]
  rintro (⟨hin, hout⟩ | ⟨hin, hout⟩) <;> exact hout hin

/-- A profile that `setProfile` applies drops nothing. -/
theorem not_loses_setProfile {db db' : Db} {args : ProfileArgs} {fresh : ProfileFresh}
    {answer : OrgProfile ⊕ ProfileChangeRequest} (hargs : args.allowReduction = false)
    (h : setProfile db args fresh = .ok (db', answer)) (orgId code : String) :
    ¬ Loses db db' orgId code := by
  obtain ⟨jurisdictions, sectors, -, -, ⟨profile, -, hremoved, happly⟩ | ⟨request, -, -, -, -, -, -,
    -, hinsert⟩⟩ := setProfile_cases hargs h
  · unfold Loses
    rw [(of_applyProfile happly orgId).1, (of_applyProfile happly orgId).2]
    by_cases horg : orgId = args.orgId
    · subst horg
      rw [if_pos rfl, if_pos rfl]
      cases hprofile : db.getProfile args.orgId with
      | none => simp [Db.jurisdictionsOf, Db.sectorsOf, hprofile]
      | some p =>
        intro hloses
        have hmem : code ∈ removedCodes (some p) jurisdictions sectors :=
          mem_removedCodes.mpr (by simpa [Db.jurisdictionsOf, Db.sectorsOf, hprofile] using hloses)
        rw [hprofile] at hremoved
        rw [hremoved] at hmem
        cases hmem
    · rw [if_neg horg, if_neg horg]
      rintro (⟨hin, hout⟩ | ⟨hin, hout⟩) <;> exact hout hin
  · simp only [Db.insertProfileChange, Except.bind_eq_ok, Except.pure_eq,
      Except.ok.injEq] at hinsert
    obtain ⟨_, -, _, -, _, -, rfl⟩ := hinsert
    exact not_loses_of_profiles rfl orgId code

/-- Approving a request takes from the profile what the request does not propose. -/
theorem loses_apply_iff {db db' : Db} {actor now orgId : String}
    {jurisdictions sectors : List String} {profile : OrgProfile}
    (h : applyProfile db orgId jurisdictions sectors actor now = .ok (db', profile))
    (x code : String) :
    Loses db db' x code ↔ x = orgId ∧ (code ∈ db.jurisdictionsOf orgId ∧ code ∉ jurisdictions ∨
      code ∈ db.sectorsOf orgId ∧ code ∉ sectors) := by
  unfold Loses
  rw [(of_applyProfile h x).1, (of_applyProfile h x).2]
  by_cases hx : x = orgId
  · subst hx
    simp
  · simp [hx]

/-- What an approval takes is named, exactly when it takes nothing the profile got since. -/
theorem named_iff {w : ProfileWorld} (h : w.Ordered) {request : ProfileChangeRequest}
    (hmem : request ∈ w.db.profileChanges) (hpending : request.status = "pending")
    {filed : OrgProfile} (hfiled : w.filed request.id = some filed) :
    (∀ code, (code ∈ w.db.jurisdictionsOf request.orgId ∧ code ∉ request.proposedJurisdictions ∨
        code ∈ w.db.sectorsOf request.orgId ∧ code ∉ request.proposedSectors) →
        code ∈ request.removed) ↔
      (∀ code ∈ w.db.jurisdictionsOf request.orgId, code ∉ filed.jurisdictions →
        code ∈ request.proposedJurisdictions) ∧
      ∀ code ∈ w.db.sectorsOf request.orgId, code ∉ filed.sectors →
        code ∈ request.proposedSectors := by
  obtain ⟨-, p, hp, hdecl, hremoved⟩ := h.pending request hmem hpending
  obtain rfl := Option.some.inj (hfiled.symm.trans hp)
  have hcurrent := h.profiles request.orgId
  simp only [hremoved, mem_removedCodes]
  constructor
  · intro hnamed
    -- a jurisdiction is named as one, for no code is also a sector
    refine ⟨fun code hcode hnew => ?_, fun code hcode hnew => ?_⟩
    · by_contra hout
      rcases hnamed code (Or.inl ⟨hcode, hout⟩) with ⟨hin, -⟩ | ⟨hin, -⟩
      · exact hnew hin
      · exact not_mem_both (hcurrent.jurisdictions code hcode) (hdecl.sectors code hin)
    · by_contra hout
      rcases hnamed code (Or.inr ⟨hcode, hout⟩) with ⟨hin, -⟩ | ⟨hin, -⟩
      · exact not_mem_both (hdecl.jurisdictions code hin) (hcurrent.sectors code hcode)
      · exact hnew hin
  · rintro ⟨hjurisdictions, hsectors⟩ code (⟨hcode, hout⟩ | ⟨hcode, hout⟩)
    · refine Or.inl ⟨?_, hout⟩
      by_contra hnew
      exact hout (hjurisdictions code hcode hnew)
    · refine Or.inr ⟨?_, hout⟩
      by_contra hnew
      exact hout (hsectors code hcode hnew)

/-- A step from a state with the invariant. -/
theorem ProfileStep.law_iff {step : ProfileStep} (h : step.before.Ordered)
    (hrun : step.call.run step.before = .ok step.after) :
    step.NamesWhatLeaves ↔ step.KeepsAdditions := by
  obtain ⟨w, call, w'⟩ := step
  change w.Ordered at h
  change call.run w = .ok w' at hrun
  cases call with
  | set args fresh =>
    obtain ⟨⟨db, answer⟩, hset, hw⟩ := Except.bind_eq_ok.mp hrun
    obtain rfl := Except.ok.inj hw
    refine ⟨fun _ request filed happroves => ?_, fun _ orgId code hloses => ?_⟩
    · obtain ⟨_, _, _, hcall, -⟩ := happroves
      cases hcall
    · exact absurd hloses (not_loses_setProfile rfl hset orgId code)
  | decide requestId approve decidedBy now =>
    obtain ⟨⟨db, out⟩, hdecide, hw⟩ := Except.bind_eq_ok.mp hrun
    obtain rfl := Except.ok.inj hw
    have happroved : ∀ r, (⟨w, .decide requestId approve decidedBy now, ⟨db, w.filed⟩⟩ :
        ProfileStep).Approves r ↔ approve = true ∧ w.db.getProfileChange requestId = some r ∧
          r.status = "pending" := by
      intro r
      constructor
      · rintro ⟨_, _, _, hcall, hget, hpending⟩
        cases hcall
        exact ⟨rfl, hget, hpending⟩
      · rintro ⟨rfl, hget, hpending⟩
        exact ⟨requestId, decidedBy, now, rfl, hget, hpending⟩
    unfold ProfileStep.NamesWhatLeaves ProfileStep.KeepsAdditions
    simp only [happroved]
    obtain ⟨request, hget, hcases⟩ := decideChangeRequest_cases hdecide
    obtain ⟨hmem, rfl⟩ := getProfileChange_spec hget
    rcases hcases with ⟨hdecided, rfl⟩ | ⟨hpending, status, rows, -, -, ⟨rfl, rfl⟩ | ⟨rfl, profile,
      happly⟩⟩
    · refine ⟨fun _ r filed happroves => ?_, fun _ orgId code hloses => ?_⟩
      · obtain ⟨-, hr, hpending⟩ := happroves
        obtain rfl := Option.some.inj (hget.symm.trans hr)
        exact absurd hpending hdecided
      · exact absurd hloses (not_loses_of_profiles rfl orgId code)
    · refine ⟨fun _ r filed happroves => ?_, fun _ orgId code hloses => ?_⟩
      · cases happroves.1
      · exact absurd hloses (not_loses_of_profiles rfl orgId code)
    · have htaken := loses_apply_iff happly
      have hloses : ∀ orgId code, Loses w.db db orgId code ↔ orgId = request.orgId ∧
          (code ∈ w.db.jurisdictionsOf request.orgId ∧ code ∉ request.proposedJurisdictions ∨
            code ∈ w.db.sectorsOf request.orgId ∧ code ∉ request.proposedSectors) := htaken
      obtain ⟨-, filed, hfiled, -⟩ := h.pending request hmem hpending
      have hnamed := named_iff h hmem hpending hfiled
      constructor
      · rintro hlaw r filed' ⟨-, hr, -⟩ hfiled'
        obtain rfl := Option.some.inj (hget.symm.trans hr)
        obtain rfl := Option.some.inj (hfiled.symm.trans hfiled')
        refine hnamed.mp fun code hcode => ?_
        obtain ⟨r, ⟨-, hr, -⟩, -, hremoved⟩ := hlaw _ _ ((hloses _ code).mpr ⟨rfl, hcode⟩)
        obtain rfl := Option.some.inj (hget.symm.trans hr)
        exact hremoved
      · intro hkeeps orgId code hlost
        obtain ⟨rfl, hcode⟩ := (hloses orgId code).mp hlost
        exact ⟨request, ⟨rfl, hget, hpending⟩, rfl,
          hnamed.mpr (hkeeps request filed ⟨rfl, hget, hpending⟩ hfiled) code hcode⟩

/-- Over a run, whatever leaves a profile is named by the request whose approval took it,
exactly when no approval drops what the profile got after the request was filed. -/
theorem namesWhatLeaves_iff {w : ProfileWorld} {steps : List ProfileStep} (hinit : w.Initial)
    (hrun : ProfileRun w steps) :
    (∀ step ∈ steps, step.NamesWhatLeaves) ↔ ∀ step ∈ steps, step.KeepsAdditions := by
  have h := hinit.ordered
  clear hinit
  induction hrun with
  | nil w => simp
  | cons hstep _ ih =>
    rw [List.forall_mem_cons, List.forall_mem_cons]
    exact and_congr (ProfileStep.law_iff h hstep) (ih (h.run hstep))

/-- The state after a call, the same where it raises. -/
def ProfileCall.next (w : ProfileWorld) (call : ProfileCall) : ProfileWorld :=
  match call.run w with
  | .ok w' => w'
  | .error _ => w

theorem ProfileCall.run_eq_next {w : ProfileWorld} {call : ProfileCall}
    (h : (call.run w).succeeds = true) : call.run w = .ok (call.next w) := by
  obtain ⟨w', hrun⟩ := Except.succeeds_iff.mp h
  rw [hrun, next, hrun]

/-- The steps of calls in turn. -/
def profileSteps : ProfileWorld → List ProfileCall → List ProfileStep
  | _, [] => []
  | w, call :: calls => ⟨w, call, call.next w⟩ :: profileSteps (call.next w) calls

def callsReturn : ProfileWorld → List ProfileCall → Bool
  | _, [] => true
  | w, call :: calls => (call.run w).succeeds && callsReturn (call.next w) calls

theorem profileRun_of_callsReturn : ∀ {w : ProfileWorld} {calls : List ProfileCall},
    callsReturn w calls = true → ProfileRun w (profileSteps w calls)
  | w, [], _ => .nil w
  | w, call :: calls, h => by
    simp only [callsReturn, Bool.and_eq_true] at h
    exact .cons (ProfileCall.run_eq_next h.1) (profileRun_of_callsReturn h.2)

end Reductions

/-! ## Samples -/

section Samples

open Sample

/-- A bank licensed in the DIFC and the ADGM. -/
def sampleInstitution : ProfileWorld where
  db := { sampleBank with
    packs := []
    profiles := [⟨"bank", ["adgm", "difc"], ["banking"], "2026", none⟩] }
  filed := fun _ => none

def sampleDeclares (jurisdictions : List String) (reason : String) : ProfileCall :=
  .set ⟨"bank", jurisdictions, ["banking"], "user:bank", reason, false⟩ ⟨Uuid.ofNat 7, "2026"⟩

/-- The bank asks to drop the ADGM, takes on the onshore rules, and then its request is
approved. -/
def sampleCalls : List ProfileCall :=
  [sampleDeclares ["difc"] "left the ADGM", sampleDeclares ["adgm", "difc", "uae_onshore"] "",
    .decide (Uuid.ofNat 7) true "attest_admin" "2026"]

theorem initial_sample : sampleInstitution.Initial where
  ids := List.nodup_nil
  profiles := by
    intro orgId
    by_cases horg : "bank" = orgId
    · subst horg
      exact ⟨by decide, by decide⟩
    · simp only [Db.jurisdictionsOf, Db.sectorsOf, Db.getProfile, sampleInstitution,
        List.find?_cons, horg, decide_false, List.find?_nil, Option.map_none, Option.getD_none]
      exact ⟨by simp, by simp⟩
  decided := by simp [sampleInstitution, sampleBank, Db.empty]

theorem namesWhatLeaves_iff_sample :
    (∀ step ∈ profileSteps sampleInstitution sampleCalls, step.NamesWhatLeaves) ↔
      ∀ step ∈ profileSteps sampleInstitution sampleCalls, step.KeepsAdditions :=
  namesWhatLeaves_iff initial_sample (profileRun_of_callsReturn (by decide +kernel))

/-- The approval takes the onshore rules from the profile, which its request does not name. -/
theorem not_namesWhatLeaves_sample : ∃ steps, ProfileRun sampleInstitution steps ∧
    ¬ ∀ step ∈ steps, step.NamesWhatLeaves := by
  have hrun : callsReturn sampleInstitution sampleCalls = true := by decide +kernel
  refine ⟨_, profileRun_of_callsReturn hrun, fun hall => ?_⟩
  let w₂ := (sampleDeclares ["adgm", "difc", "uae_onshore"] "").next
    ((sampleDeclares ["difc"] "left the ADGM").next sampleInstitution)
  let approval : ProfileCall := .decide (Uuid.ofNat 7) true "attest_admin" "2026"
  have hmem : (⟨w₂, approval, approval.next w₂⟩ : ProfileStep) ∈
      profileSteps sampleInstitution sampleCalls := by
    simp only [sampleCalls, profileSteps, List.mem_cons, List.not_mem_nil, or_false]
    exact Or.inr (Or.inr rfl)
  have hlost : Loses w₂.db (approval.next w₂).db "bank" "uae_onshore" :=
    Or.inl (by decide +kernel)
  obtain ⟨request, ⟨_, _, _, hcall, hget, -⟩, -, hnamed⟩ := hall _ hmem _ _ hlost
  cases hcall
  have hremoved : (w₂.db.getProfileChange (Uuid.ofNat 7)).map ProfileChangeRequest.removed =
      some ["adgm"] := by
    decide +kernel
  rw [hget] at hremoved
  have hremoved : request.removed = ["adgm"] := Option.some.inj hremoved
  rw [hremoved] at hnamed
  exact absurd hnamed (by decide)

end Samples

end Attest
