import Attest.Packs
import Attest.Precheck

/-!
# What an institution declares of itself

`upsertPolicy` stores a version of its policy. `setProfile` stores where it is licensed
and what it does, and makes its subscriptions the packs that follow from that
(`reconcilePacks`). A profile that drops a jurisdiction or a sector is not applied : it
becomes a request.
-/

set_option linter.unusedSectionVars false

namespace Attest

/-! ## Policies -/

structure PolicyArgs where
  orgId : String
  name : String
  version : String
  rules : Dict
  active : Bool

structure PolicyFresh where
  id : Uuid
  createdAt : Int

/-- `VARCHAR(32)`. -/
def versionOk (version : String) : Bool :=
  textOk version && version.length ≤ 32

/-- `UNIQUE(org_id, version)` of policies, with the other keys of the table. -/
def Db.insertPolicy (db : Db) (p : Policy) : Except PyError Db := do
  require (textOk p.name && versionOk p.version) .dataError
  require (!db.policies.any fun x => x.id = p.id) .integrityError
  require (!db.policies.any fun x => x.orgId = p.orgId ∧ x.version = p.version) .integrityError
  require (db.hasOrg p.orgId) .integrityError
  return { db with policies := db.policies ++ [p] }

/-- The policies of an organisation are active no more. -/
def Db.deactivatePolicies (db : Db) (orgId : String) : Db :=
  { db with policies := db.policies.map fun p =>
      if p.orgId = orgId ∧ p.active then { p with active := false } else p }

/-- The row of a version that was there. -/
def PolicyArgs.update (args : PolicyArgs) (p : Policy) : Policy :=
  { p with name := args.name, rules := args.rules, active := args.active }

/-- `upsert_policy(db, ..)`, with the policy it returns. -/
def upsertPolicy (db : Db) (args : PolicyArgs) (fresh : PolicyFresh) :
    Except PyError (Db × Policy) :=
  match db.getPolicyByVersion args.orgId args.version with
  | some existing => do
    require (textOk args.name) .dataError
    return ({ db with policies := db.policies.map fun p =>
      if p.id = existing.id then args.update p else p }, args.update existing)
  | none => do
    let policy : Policy := {
      id := fresh.id
      orgId := args.orgId
      name := args.name
      version := args.version
      rules := args.rules
      active := args.active
      createdAt := fresh.createdAt }
    let db := if args.active then db.deactivatePolicies args.orgId else db
    let db ← db.insertPolicy policy
    return (db, policy)

/-! ## Taxonomies -/

/-- The codes of `JURISDICTIONS`. -/
def jurisdictionCodes : List String :=
  ["difc", "adgm", "uae_onshore", "internal"]

/-- `SECTOR_CODES`. -/
def sectorCodes : List String :=
  ["banking", "insurance_takaful", "capital_markets", "asset_management", "advisory", "payments",
    "virtual_assets", "healthcare_provider", "health_insurance", "pharma_medtech", "government",
    "law_enforcement", "legal", "accounting_audit", "consulting", "technology", "telecoms", "media",
    "education", "real_estate", "construction", "retail_consumer", "hospitality",
    "transport_logistics", "energy_utilities", "manufacturing", "agriculture", "mining",
    "hr_employment", "other"]

section Profile

variable [PyUnicode]

/-- `sorted({c.strip() for c in codes if c and c.strip()})`. -/
def cleanedCodes (codes : List String) : List String :=
  sortedSet ((codes.filter fun c => !PyText.isBlank c).map PyText.strip)

/-- `validate_jurisdictions(codes)`. -/
def validateJurisdictions (codes : List String) : Except PyError (List String) := do
  let unknown := (cleanedCodes codes).filter fun c =>
    !jurisdictionCodes.contains c || c = "internal"
  require unknown.isEmpty (.profile ("unknown jurisdiction(s): " ++ PyText.join ", " unknown))
  return cleanedCodes codes

/-- `validate_sectors(codes)`. -/
def validateSectors (codes : List String) : Except PyError (List String) := do
  let unknown := (cleanedCodes codes).filter fun c => !sectorCodes.contains c
  require unknown.isEmpty (.invalid ("unknown sector(s): " ++ PyText.join ", " unknown))
  return cleanedCodes codes

/-! ## Packs that follow from a profile -/

/-- `"*" in declared or bool(set(declared) & set(codes))`. -/
def reaches (declared : JVal) (codes : List String) : Except PyError Bool :=
  match declared with
  | .arr items =>
    if items.any fun v => v.pyEq (.str "*") then .ok true
    else if items.any fun v => match v with
      | .arr _ | .obj _ => true
      | _ => false
    then .error .typeError
    else .ok (items.any fun v => match v with
      | .str code => codes.contains code
      | _ => false)
  | .str text => .ok (text.toList.contains '*' ||
      text.toList.any fun c => codes.contains (String.singleton c))
  | .obj doc => .ok (Dict.has doc "*" || doc.any fun entry => codes.contains entry.1)
  | _ => .error .typeError

/-- `pack_applies(pack, jurisdictions, sectors)`. -/
def packApplies (pack : RegulationPack) (jurisdictions sectors : List String) :
    Except PyError Bool := do
  let doc := match pack.rules with
    | .obj doc => doc
    | _ => []
  let packJurisdictions := (Dict.get doc "jurisdictions").orElse (.arr [.str pack.jurisdiction])
  let packSectors := (Dict.get doc "sectors").orElse (.arr [.str "*"])
  let jurisHit ← reaches packJurisdictions jurisdictions
  let sectorHit ← reaches packSectors sectors
  return jurisHit && sectorHit

/-- `get_profile(db, org_id)`. -/
def Db.getProfile (db : Db) (orgId : String) : Option OrgProfile :=
  db.profiles.find? fun p => p.orgId = orgId

/-- `mandatory_packs(db, org_id)`. -/
def mandatoryPacks (db : Db) (orgId : String) : Except PyError (List RegulationPack) :=
  match db.getProfile orgId with
  | none => .ok []
  | some profile => do
    let packs := db.packs.insertionSort fun p q => p.code ≤ q.code
    let marked ← packs.mapM fun p =>
      (packApplies p profile.jurisdictions profile.sectors).map fun hit => (p, hit)
    return (marked.filter Prod.snd).map Prod.fst

/-- `org_subscriptions(db, org_id)`. -/
def orgSubscriptions (db : Db) (orgId : String) : List (RegulationPack × OrgRegulationPack) :=
  ((db.orgPacks.filter fun s => s.orgId = orgId).flatMap fun s =>
    (db.packs.filter fun p => p.id = s.packId).map fun p => (p, s)).insertionSort fun x y =>
      x.1.jurisdiction < y.1.jurisdiction ∨
        x.1.jurisdiction = y.1.jurisdiction ∧ x.1.code ≤ y.1.code

/-- `latest_pack_by_code(db, code)`. -/
def Db.latestPackByCode (db : Db) (code : String) : Option RegulationPack :=
  latestBy RegulationPack.createdAt (db.packs.filter fun p => p.code = code)

/-- `subscribe_org(db, org_id=.., pack_code=..)`, with its defaults. -/
def subscribeOrg (db : Db) (orgId packCode : String) : Except PyError Db :=
  match db.latestPackByCode packCode with
  | none => .error (.pack ("unknown regulation pack: " ++ packCode))
  | some pack =>
    if db.orgPacks.any fun s => s.orgId = orgId ∧ s.packId = pack.id then
      .ok { db with orgPacks := db.orgPacks.map fun s =>
        if s.orgId = orgId ∧ s.packId = pack.id then
          { s with enabled := true, enforcement := "advisory" }
        else s }
    else do
      require (db.hasOrg orgId) .integrityError
      return { db with orgPacks := db.orgPacks ++ [⟨orgId, pack.id, "advisory", true⟩] }

/-- `subscribe_org` for every code. -/
def subscribeAll (orgId : String) : Db → List String → Except PyError Db
  | db, [] => .ok db
  | db, code :: codes => do
    let db ← subscribeOrg db orgId code
    subscribeAll orgId db codes

/-- The subscription of an organisation to a pack is deleted. -/
def Db.unsubscribe (db : Db) (orgId : String) (packId : Uuid) : Db :=
  { db with orgPacks := db.orgPacks.filter fun s => !(s.orgId = orgId ∧ s.packId = packId) }

/-- `reconcile_packs(db, org_id)`, with the codes it adds and removes. -/
def reconcilePacks (db : Db) (orgId : String) :
    Except PyError (Db × List String × List String) := do
  let mandatory ← mandatoryPacks db orgId
  let required := (mandatory.map RegulationPack.code).dedup
  let current := dictOf ((orgSubscriptions db orgId).map fun s => (s.1.code, s.2))
  let added := required.filter fun code => !current.any fun c => c.1 = code
  let db ← subscribeAll orgId db added
  let removed := current.filter fun c => !required.contains c.1
  let db := removed.foldl (fun db c => db.unsubscribe orgId c.2.packId) db
  return (db, sortedSet added, sortedSet (removed.map Prod.fst))

/-! ## Profiles -/

structure ProfileArgs where
  orgId : String
  jurisdictions : List String
  sectors : List String
  actor : String
  reason : String
  allowReduction : Bool

structure ProfileFresh where
  requestId : Uuid
  now : String

/-- The row of a profile, inserted or updated. -/
def Db.putProfile (db : Db) (profile : OrgProfile) : Except PyError Db := do
  require (optTextOk profile.updatedBy) .dataError
  if (db.getProfile profile.orgId).isSome then
    return { db with profiles := db.profiles.map fun p =>
      if p.orgId = profile.orgId then profile else p }
  else do
    require (db.hasOrg profile.orgId) .integrityError
    return { db with profiles := db.profiles ++ [profile] }

/-- `_apply(db, ..)`. -/
def applyProfile (db : Db) (orgId : String) (jurisdictions sectors : List String)
    (actor now : String) : Except PyError (Db × OrgProfile) := do
  let profile : OrgProfile := {
    orgId := orgId
    jurisdictions := jurisdictions
    sectors := sectors
    updatedAt := now
    updatedBy := some actor }
  let db ← db.putProfile profile
  let (db, _, _) ← reconcilePacks db orgId
  return (db, profile)

def Db.insertProfileChange (db : Db) (r : ProfileChangeRequest) : Except PyError Db := do
  require (textOk r.requestedBy && textOk r.reason) .dataError
  require (!db.profileChanges.any fun x => x.id = r.id) .integrityError
  require (db.hasOrg r.orgId) .integrityError
  return { db with profileChanges := db.profileChanges ++ [r] }

/-- What a profile drops of the one there is. -/
def removedCodes (current : Option OrgProfile) (jurisdictions sectors : List String) :
    List String :=
  match current with
  | none => []
  | some profile => sortedSet
      ((profile.jurisdictions.filter fun c => !jurisdictions.contains c) ++
        profile.sectors.filter fun c => !sectors.contains c)

/-- `set_profile(db, ..)` : the profile that was applied, or the request to. -/
def setProfile (db : Db) (args : ProfileArgs) (fresh : ProfileFresh) :
    Except PyError (Db × (OrgProfile ⊕ ProfileChangeRequest)) := do
  let jurisdictions ← validateJurisdictions args.jurisdictions
  let sectors ← validateSectors args.sectors
  require (!jurisdictions.isEmpty && !sectors.isEmpty)
    (.profile "at least one jurisdiction and one sector are required")
  let removed := removedCodes (db.getProfile args.orgId) jurisdictions sectors
  if !removed.isEmpty && !args.allowReduction then do
    require (!PyText.isBlank args.reason)
      (.profile "a reason is required to request removal of a jurisdiction or sector")
    let request : ProfileChangeRequest := {
      id := fresh.requestId
      orgId := args.orgId
      requestedBy := args.actor
      reason := PyText.strip args.reason
      proposedJurisdictions := jurisdictions
      proposedSectors := sectors
      removed := removed
      status := "pending" }
    let db ← db.insertProfileChange request
    return (db, .inr request)
  else do
    let (db, profile) ← applyProfile db args.orgId jurisdictions sectors args.actor fresh.now
    return (db, .inl profile)

/-- `db.get(ProfileChangeRequest, request_id)`. -/
def Db.getProfileChange (db : Db) (requestId : Uuid) : Option ProfileChangeRequest :=
  db.profileChanges.find? fun r => r.id = requestId

/-- `decide_change_request(db, ..)`, with the request it returns. -/
def decideChangeRequest (db : Db) (requestId : Uuid) (approve : Bool) (decidedBy now : String) :
    Except PyError (Db × ProfileChangeRequest) :=
  match db.getProfileChange requestId with
  | none => .error (.profile ("profile change request not found: " ++ requestId.str))
  | some request =>
    if request.status ≠ "pending" then .ok (db, request)
    else do
      let request := { request with status := if approve then "approved" else "denied" }
      require (textOk decidedBy) .dataError
      let db := { db with profileChanges := db.profileChanges.map fun r =>
        if r.id = requestId then request else r }
      if approve then do
        let (db, _) ← applyProfile db request.orgId request.proposedJurisdictions
          request.proposedSectors ("attest:" ++ decidedBy) now
        return (db, request)
      else
        return (db, request)

end Profile

end Attest
