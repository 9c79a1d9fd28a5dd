import Attest.Guessing
import Attest.Precheck
import Attest.Sessions

/-!
# Keys and people

A request is made for an organisation : with the API key of the organisation, of which only the
hash is stored, or by one of its users who is signed in (`getAuthenticatedOrg`, `getActor`). The
keys are handed out to the holder of the admin key alone, by the call that creates the organisation
and by each that rotates its key.

Over every run of requests, a key authenticates as the organisation it was last handed out for, as
no other and as none once a new one was handed out, whatever session is presented beside it
(`request_authenticated_iff`); and the row of an organisation changes in no step but one of the
admin or one that is authenticated as the organisation (`org_row_guarded`). The invariant is
`Keyed`.
-/

set_option linter.unusedSectionVars false

namespace Attest

/-! ## Organisations -/

/-- A row of `orgs`, with the columns its own calls read and write. -/
structure OrgRow extends Org where
  apiKeyHash : String
  retentionDaysPayload : Int
  requiresProfile : Bool
deriving DecidableEq

/-- The organisations, and the accounts of their users. -/
structure Directory where
  orgs : List OrgRow
  auth : AuthDb

/-- How a route fails : an `HTTPException`, or what it does not catch. -/
inductive ApiError where
  | http (status : Nat) (detail : String)
  | raised (e : PyError)
deriving DecidableEq

def failModes : List String := ["allow_with_flag", "deny_on_error"]

def regions : List String := ["global", "mena", "uae"]

def defaultFailMode : String := "deny_on_error"

/-- `ROLES`. -/
def roles : List String := ["admin", "officer", "viewer"]

/-- What the driver says of a text it cannot send. -/
def nulError : PyError :=
  .invalid "A string literal cannot contain NUL (0x00) characters."

/-- `validate_region(region)`. -/
def validateRegion (region : String) : Except PyError Unit :=
  require (region ∈ regions)
    (.invalid ("invalid region: " ++ region ++ "; allowed: ['global', 'mena', 'uae']"))

/-- `validate_fail_mode(fail_mode)`. -/
def validateFailMode (failMode : String) : Except PyError Unit :=
  require (failMode ∈ failModes)
    (.invalid ("invalid fail_mode: " ++ failMode ++
      "; allowed: ['allow_with_flag', 'deny_on_error']"))

/-- `generate_api_key(prefix)`, of what `secrets.token_urlsafe(24)` draws. -/
def generateApiKey (pre drawn : String) : String :=
  pre ++ "_" ++ drawn

namespace Directory

/-- The row of an organisation takes the place of the one before. -/
def putOrg (dir : Directory) (org : OrgRow) : Directory :=
  { dir with orgs := dir.orgs.map fun o => if o.id = org.id then org else o }

/-- `get_org_by_id(db, org_id)`. -/
def getOrgById (dir : Directory) (orgId : String) : Except PyError (Option OrgRow) := do
  require (textOk orgId) nulError
  oneOrNone (dir.orgs.filter fun o => o.id = orgId)

/-- `resolve_org(db, api_key)`. -/
def resolveOrg (dir : Directory) (apiKey : String) : Except PyError (Option OrgRow) :=
  oneOrNone (dir.orgs.filter fun o => o.apiKeyHash = sha256Text apiKey)

/-- `org_exists_by_api_key_hash(db, api_key_hash)`. -/
def orgExistsByApiKeyHash (dir : Directory) (apiKeyHash : String) : Bool :=
  dir.orgs.any fun o => o.apiKeyHash = apiKeyHash

/-- `create_org_with_api_key(db, ..)` : the directory with the organisation, and its key. -/
def createOrgWithApiKey (dir : Directory) (orgId name region failMode : String)
    (retentionDaysPayload : Int) (apiKey : Option String) (drawn : String) :
    Except PyError (Directory × String) := do
  let found ← dir.getOrgById orgId
  require found.isNone (.invalid ("org already exists: " ++ orgId))
  validateRegion region
  validateFailMode failMode
  let plaintextKey := match apiKey with
    | some key => if key = "" then generateApiKey "wthq" drawn else key
    | none => generateApiKey "wthq" drawn
  require (!dir.orgExistsByApiKeyHash (sha256Text plaintextKey)) (.invalid "api key already in use")
  require (textOk name) nulError
  let org : OrgRow := {
    id := orgId
    name := name
    region := region
    failMode := failMode
    confidentialityMode := "attest_managed"
    wrappingPublicPem := none
    apiKeyHash := sha256Text plaintextKey
    retentionDaysPayload := retentionDaysPayload
    requiresProfile := true }
  return ({ dir with orgs := dir.orgs ++ [org] }, plaintextKey)

/-- The organisation of an id, for the services that raise where there is none. -/
def theOrg (dir : Directory) (orgId : String) : Except PyError OrgRow := do
  match ← dir.getOrgById orgId with
  | none => .error (.lookupError ("org not found: " ++ orgId))
  | some org => return org

/-- `enable_customer_key_mode(db, org_id, wrapping_public_pem)`. -/
def enableCustomerKeyMode (dir : Directory) (orgId wrappingPublicPem : String) :
    Except PyError Directory := do
  let org ← dir.theOrg orgId
  require (textOk wrappingPublicPem) nulError
  return dir.putOrg { org with
    confidentialityMode := "customer_key"
    wrappingPublicPem := some wrappingPublicPem }

/-- `update_org_settings(db, org_id, ..)`. -/
def updateOrgSettings (dir : Directory) (orgId : String) (region failMode : Option String)
    (retentionDaysPayload : Option Int) : Except PyError Directory := do
  region.forM validateRegion
  failMode.forM validateFailMode
  let org ← dir.theOrg orgId
  return dir.putOrg { org with
    region := region.getD org.region
    failMode := failMode.getD org.failMode
    retentionDaysPayload := retentionDaysPayload.getD org.retentionDaysPayload }

end Directory

section Routes

variable [PyUnicode] [PasswordHashing]

/-- `create_user(db, ..)`. A row of the same id or e-mail is against a constraint. -/
def createUser (dir : Directory) (orgId email displayName role : String) (id : Uuid) :
    Except PyError Directory := do
  require (role ∈ roles) (.invalid "role must be one of ('admin', 'officer', 'viewer')")
  let email := PyText.lower (PyText.strip email)
  require (textOk email && textOk displayName) nulError
  require (!dir.auth.users.any fun u => u.id = id ∨ u.email = email) .integrityError
  require (dir.orgs.any fun o => o.id = orgId) .integrityError
  let user : User := {
    id := id
    orgId := orgId
    email := email
    displayName := PyText.strip displayName
    role := role
    passwordHash := none
    failedLogins := 0
    lockedUntil := none
    disabled := false }
  return { dir with auth := { dir.auth with users := dir.auth.users ++ [user] } }

/-! ## Who a request is made for -/

/-- What a request presents : the `x-api-key` and `authorization` headers and the cookie. -/
structure Presented where
  apiKey : Option String
  authorization : Option String
  attestSession : Option String

/-- The key that is presented. An empty header presents none. -/
def Presented.key (presented : Presented) : Option String :=
  presented.apiKey.filter fun key => key ≠ ""

/-- The token that is presented : that of the header before that of the cookie. -/
def Presented.token (presented : Presented) : String :=
  let authorization := presented.authorization.getD ""
  if (PyText.lower authorization).startsWith "bearer " then
    PyText.strip (String.ofList (authorization.toList.drop 7))
  else presented.attestSession.getD ""

/-- What the service raises is not caught. -/
def uncaught {α : Type} : Except PyError α → Except ApiError α
  | .ok a => .ok a
  | .error e => .error (.raised e)

def sessionInvalid : ApiError := .http 401 "session invalid or expired"

def notAuthenticated : ApiError := .http 401 "not authenticated"

/-- `get_authenticated_org(request, ..)`. -/
def getAuthenticatedOrg (dir : Directory) (now : Int) (method : String) (presented : Presented) :
    Except ApiError OrgRow :=
  match presented.key with
  | some key => do
    match ← uncaught (dir.resolveOrg key) with
    | none => .error (.http 401 "invalid api key")
    | some org => return org
  | none =>
    if presented.token = "" then .error notAuthenticated
    else
      match sessionUser dir.auth presented.token now with
      | none => .error sessionInvalid
      | some user =>
        if user.role = "viewer" ∧ method ∉ ["GET", "HEAD"] then
          .error (.http 403 "viewer role is read-only")
        else do
          match ← uncaught (oneOrNone (dir.orgs.filter fun o => o.id = user.orgId)) with
          | none => .error sessionInvalid
          | some org => return org

/-- `Actor`. -/
structure Actor where
  org : OrgRow
  user : Option User

/-- `get_actor(..)`. -/
def getActor (dir : Directory) (now : Int) (presented : Presented) : Except ApiError Actor :=
  if presented.token ≠ "" then
    match sessionUser dir.auth presented.token now with
    | none => .error sessionInvalid
    | some user => do
      match ← uncaught (oneOrNone (dir.orgs.filter fun o => o.id = user.orgId)) with
      | none => .error sessionInvalid
      | some org => return ⟨org, some user⟩
  else
    match presented.key with
    | none => .error notAuthenticated
    | some key => do
      match ← uncaught (dir.resolveOrg key) with
      | none => .error notAuthenticated
      | some org => return ⟨org, none⟩

/-- `require_admin(x_admin_key)`. `compare_digest` takes ASCII texts alone. -/
def requireAdmin (adminKey xAdminKey : String) : Except ApiError Unit :=
  if adminKey = "" then .error (.http 503 "admin api disabled")
  else if ¬ (xAdminKey.toList.all PyText.isAscii ∧ adminKey.toList.all PyText.isAscii) then
    .error (.raised .typeError)
  else if xAdminKey = adminKey then .ok ()
  else .error (.http 401 "invalid admin key")

/-! ## Requests -/

/-- A body of the route that creates an organisation. -/
structure AdminOrgCreateIn where
  orgId : String
  name : String
  region : String
  apiKey : Option String
  orgId_chars : orgId ≠ "" ∧ ∀ c ∈ orgId.toList, c.isAlphanum ∨ c = '_' ∨ c = '-'
  name_ne : name ≠ ""
  apiKey_long : ∀ key ∈ apiKey, 12 ≤ key.length

/-- `AdminOrgKeyOut`. -/
structure AdminOrgKeyOut where
  orgId : String
  apiKey : String
deriving DecidableEq

/-- A body of the route that creates a user. -/
structure AdminCreateUserIn where
  email : String
  displayName : String
  role : String
  email_length : 3 ≤ email.length ∧ email.length ≤ 320
  displayName_length : 1 ≤ displayName.length ∧ displayName.length ≤ 200
  role_mem : role ∈ roles

/-- A body of the route that changes settings. -/
structure OrgSettingsUpdate where
  region : Option String
  failMode : Option String
  retentionDaysPayload : Option Int
  retention_range : ∀ days ∈ retentionDaysPayload, 1 ≤ days ∧ days ≤ 3650

/-- A request that takes the admin key, with what it draws. -/
inductive AdminCall where
  | createOrg (body : AdminOrgCreateIn) (drawn : String)
  | rotateOrgKey (orgId : String) (drawn : String)
  | setRequireOnboarding (orgId : String) (required : Bool)
  | createUser (orgId : String) (body : AdminCreateUserIn) (id : Uuid)

/-- A request for an organisation that changes its row. -/
inductive OrgCall where
  | patchOrgSettings (body : OrgSettingsUpdate)
  | setConfidentiality (wrappingPublicPem : String)

def OrgCall.method : OrgCall → String
  | .patchOrgSettings _ => "PATCH"
  | .setConfidentiality _ => "POST"

/-- The organisation an admin route looks up. -/
def adminOrg (dir : Directory) (orgId detail : String) : Except ApiError OrgRow := do
  match ← uncaught (dir.getOrgById orgId) with
  | none => .error (.http 404 detail)
  | some org => return org

/-- The routes of `admin.py` and `humans.py` that take the admin key. -/
def AdminCall.serve (dir : Directory) :
    AdminCall → Except ApiError (Directory × Option AdminOrgKeyOut)
  | .createOrg body drawn =>
    match dir.createOrgWithApiKey body.orgId body.name body.region defaultFailMode 365 body.apiKey
      drawn with
    | .ok (dir, plaintextKey) => .ok (dir, some ⟨body.orgId, plaintextKey⟩)
    | .error (.invalid msg) => .error (.http 409 msg)
    | .error e => .error (.raised e)
  | .rotateOrgKey orgId drawn => do
    let org ← adminOrg dir orgId "org not found"
    let plaintextKey := generateApiKey "attest" drawn
    uncaught (require (!dir.orgs.any fun o => o.id ≠ orgId ∧ o.apiKeyHash = sha256Text plaintextKey)
      .integrityError)
    return (dir.putOrg { org with apiKeyHash := sha256Text plaintextKey },
      some ⟨orgId, plaintextKey⟩)
  | .setRequireOnboarding orgId required => do
    let org ← adminOrg dir orgId "org not found"
    return (dir.putOrg { org with requiresProfile := required }, none)
  | .createUser orgId body id => do
    let _ ← adminOrg dir orgId "unknown org"
    match Attest.createUser dir orgId body.email body.displayName body.role id with
    | .ok dir => return (dir, none)
    | .error .integrityError => .error (.http 409 "email already registered")
    | .error e => .error (.raised e)

/-- The routes of `orgs.py` and `access.py` that change the row of an organisation. -/
def OrgCall.serve (dir : Directory) (orgId : String) : OrgCall → Except ApiError Directory
  | .patchOrgSettings body =>
    match dir.updateOrgSettings orgId body.region body.failMode body.retentionDaysPayload with
    | .ok dir => .ok dir
    | .error (.invalid msg) => .error (.http 422 msg)
    | .error e => .error (.raised e)
  | .setConfidentiality pem => uncaught (dir.enableCustomerKeyMode orgId pem)

/-- A request : with the admin key, for an organisation, or of a user on their account. -/
inductive Request where
  | admin (xAdminKey : String) (call : AdminCall)
  | org (presented : Presented) (call : OrgCall)
  | auth (call : AuthCall)

variable (cfg : AuthSettings) (adminKey : String)

/-- The directory after a request, and the key that the answer holds. -/
def Request.serve (dir : Directory) (now : Int) :
    Request → Except ApiError (Directory × Option AdminOrgKeyOut)
  | .admin xAdminKey call => do
    requireAdmin adminKey xAdminKey
    call.serve dir
  | .org presented call => do
    let org ← getAuthenticatedOrg dir now call.method presented
    let dir ← call.serve dir org.id
    return (dir, none)
  | .auth call => .ok ({ dir with auth := call.exec cfg dir.auth now }, none)

/-- A request and its time. -/
structure RequestStep where
  now : Int
  request : Request

/-- The directory, and the keys that were handed out, the last of them last. -/
structure Served where
  dir : Directory
  keysOut : List AdminOrgKeyOut

def Served.step (s : Served) (step : RequestStep) : Served :=
  match step.request.serve cfg adminKey s.dir step.now with
  | .ok (dir, out) => ⟨dir, s.keysOut ++ out.toList⟩
  | .error _ => s

/-- The requests are served one after the other, from the empty database. -/
def serveAll (steps : List RequestStep) : Served :=
  steps.foldl (Served.step cfg adminKey) ⟨⟨[], ⟨[], [], []⟩⟩, []⟩

/-! ## The keys that were handed out -/

/-- The key that was last handed out for an organisation. -/
def lastKey (keysOut : List AdminOrgKeyOut) (orgId : String) : Option String :=
  (keysOut.reverse.find? fun out => out.orgId = orgId).map AdminOrgKeyOut.apiKey

theorem lastKey_append (keysOut : List AdminOrgKeyOut) (out : AdminOrgKeyOut) (orgId : String) :
    lastKey (keysOut ++ [out]) orgId =
      if out.orgId = orgId then some out.apiKey else lastKey keysOut orgId := by
  unfold lastKey
  rw [List.reverse_append, List.reverse_singleton, List.singleton_append, List.find?_cons]
  by_cases h : out.orgId = orgId
  · simp [h]
  · simp [h]

theorem mem_of_lastKey {keysOut : List AdminOrgKeyOut} {orgId key : String}
    (h : lastKey keysOut orgId = some key) : key ∈ keysOut.map AdminOrgKeyOut.apiKey := by
  obtain ⟨out, hout, rfl⟩ := Option.map_eq_some_iff.mp h
  exact List.mem_map_of_mem (List.mem_reverse.mp (List.mem_of_find?_eq_some hout))

/-- The keys that were handed out for an organisation. -/
def keysFor (keysOut : List AdminOrgKeyOut) (orgId : String) : List AdminOrgKeyOut :=
  keysOut.filter fun out => out.orgId = orgId

theorem keysFor_append (keysOut : List AdminOrgKeyOut) {out : AdminOrgKeyOut} {orgId : String}
    (h : out.orgId ≠ orgId) : keysFor (keysOut ++ [out]) orgId = keysFor keysOut orgId := by
  simp [keysFor, h]

/-- The rows of the directory and the keys that were handed out. -/
structure Keyed (s : Served) : Prop where
  ids : (s.dir.orgs.map fun o => o.id).Nodup
  /-- The key of an organisation is no other's. -/
  hashes : ∀ a ∈ s.dir.orgs, ∀ b ∈ s.dir.orgs, a.apiKeyHash = b.apiKeyHash → a.id = b.id
  held : ∀ o ∈ s.dir.orgs, ∃ key, lastKey s.keysOut o.id = some key ∧
    o.apiKeyHash = sha256Text key
  known : ∀ id key, lastKey s.keysOut id = some key → ∃ o ∈ s.dir.orgs, o.id = id
  members : ∀ u ∈ s.dir.auth.users, ∃ o ∈ s.dir.orgs, o.id = u.orgId

/-! ## One row -/

/-- A condition that only rows of one key meet has one row or none. -/
theorem oneOrNone_filter {α κ : Type} {key : α → κ} {p : α → Bool} : ∀ {rows : List α},
    (rows.map key).Nodup → (∀ a ∈ rows, ∀ b ∈ rows, p a = true → p b = true → key a = key b) →
      oneOrNone (rows.filter p) = .ok (rows.find? p)
  | [], _, _ => rfl
  | row :: rows, hnodup, hsame => by
    obtain ⟨hnew, hnodup⟩ := List.nodup_cons.mp hnodup
    cases hp : p row with
    | false =>
      rw [List.filter_cons_of_neg (by simp [hp]), List.find?_cons_of_neg (by simp [hp])]
      exact oneOrNone_filter hnodup fun a ha b hb =>
        hsame a (List.mem_cons_of_mem _ ha) b (List.mem_cons_of_mem _ hb)
    | true =>
      have hnone : rows.filter p = [] := by
        refine List.filter_eq_nil_iff.mpr fun a ha hpa => hnew ?_
        rw [hsame row List.mem_cons_self a (List.mem_cons_of_mem _ ha) hp hpa]
        exact List.mem_map_of_mem ha
      rw [List.filter_cons_of_pos hp, List.find?_cons_of_pos hp, hnone]
      rfl

section Reading

variable {dir : Directory} {now : Int} {method : String} {presented : Presented} {org : OrgRow}

/-- The organisations have different ids and different keys. -/
structure Directory.Distinct (dir : Directory) : Prop where
  ids : (dir.orgs.map fun o => o.id).Nodup
  hashes : ∀ a ∈ dir.orgs, ∀ b ∈ dir.orgs, a.apiKeyHash = b.apiKeyHash → a.id = b.id

theorem Keyed.distinct {s : Served} (h : Keyed s) : s.dir.Distinct :=
  ⟨h.ids, h.hashes⟩

theorem Directory.Distinct.find?_eq_some (h : dir.Distinct) {p : OrgRow → Bool}
    (hsame : ∀ a ∈ dir.orgs, ∀ b ∈ dir.orgs, p a = true → p b = true → a.id = b.id) :
    dir.orgs.find? p = some org ↔ org ∈ dir.orgs ∧ p org = true := by
  refine ⟨fun hfind => ⟨List.mem_of_find?_eq_some hfind, List.find?_some hfind⟩, ?_⟩
  rintro ⟨horg, hp⟩
  obtain ⟨found, hfound⟩ := Option.isSome_iff_exists.mp
    (List.find?_isSome.mpr ⟨org, horg, hp⟩)
  have hid := hsame found (List.mem_of_find?_eq_some hfound) org horg (List.find?_some hfound) hp
  rw [hfound, List.inj_on_of_nodup_map h.ids (List.mem_of_find?_eq_some hfound) horg hid]

theorem Directory.Distinct.resolveOrg (h : dir.Distinct) (key : String) :
    ∃ found, dir.resolveOrg key = .ok found ∧
      ∀ org, found = some org ↔ org ∈ dir.orgs ∧ org.apiKeyHash = sha256Text key := by
  have hsame : ∀ a ∈ dir.orgs, ∀ b ∈ dir.orgs, decide (a.apiKeyHash = sha256Text key) = true →
      decide (b.apiKeyHash = sha256Text key) = true → a.id = b.id := fun a ha b hb hka hkb =>
    h.hashes a ha b hb ((of_decide_eq_true hka).trans (of_decide_eq_true hkb).symm)
  refine ⟨_, oneOrNone_filter h.ids hsame, fun org => ?_⟩
  rw [h.find?_eq_some hsame, decide_eq_true_eq]

theorem Directory.Distinct.orgOfId (h : dir.Distinct) (orgId : String) :
    ∃ found, oneOrNone (dir.orgs.filter fun o => o.id = orgId) = .ok found ∧
      ∀ org, found = some org ↔ org ∈ dir.orgs ∧ org.id = orgId := by
  have hsame : ∀ a ∈ dir.orgs, ∀ b ∈ dir.orgs, decide (a.id = orgId) = true →
      decide (b.id = orgId) = true → a.id = b.id := fun a _ b _ hka hkb =>
    (of_decide_eq_true hka).trans (of_decide_eq_true hkb).symm
  refine ⟨_, oneOrNone_filter h.ids hsame, fun org => ?_⟩
  rw [h.find?_eq_some hsame, decide_eq_true_eq]

theorem sessionUser_empty (db : AuthDb) (now : Int) : sessionUser db "" now = none :=
  rfl

/-- The request is made for an organisation : with its key, or else by one of its users, who may
do what the method does. -/
def Directory.MadeFor (dir : Directory) (now : Int) (method : String) (presented : Presented)
    (org : OrgRow) : Prop :=
  org ∈ dir.orgs ∧
    match presented.key with
    | some key => org.apiKeyHash = sha256Text key
    | none => ∃ user, sessionUser dir.auth presented.token now = some user ∧
        org.id = user.orgId ∧ ¬ (user.role = "viewer" ∧ method ∉ ["GET", "HEAD"])

theorem Directory.Distinct.getAuthenticatedOrg_eq_ok (h : dir.Distinct) :
    getAuthenticatedOrg dir now method presented = .ok org ↔
      dir.MadeFor now method presented org := by
  unfold getAuthenticatedOrg Directory.MadeFor
  cases presented.key with
  | some key =>
    obtain ⟨found, hresolve, hfound⟩ := h.resolveOrg key
    dsimp only
    rw [hresolve, ← hfound org]
    cases found with
    | none => simp [uncaught]
    | some row => simp [uncaught]
  | none =>
    dsimp only
    by_cases htoken : presented.token = ""
    · rw [if_pos htoken, htoken, sessionUser_empty]
      simp
    · rw [if_neg htoken]
      cases huser : sessionUser dir.auth presented.token now with
      | none => simp
      | some user =>
        dsimp only
        by_cases hviewer : user.role = "viewer" ∧ method ∉ ["GET", "HEAD"]
        · rw [if_pos hviewer]
          refine iff_of_false (by simp) ?_
          rintro ⟨-, other, hother, -, hmay⟩
          obtain rfl := Option.some.inj hother
          exact hmay hviewer
        · rw [if_neg hviewer]
          obtain ⟨found, hquery, hfound⟩ := h.orgOfId user.orgId
          rw [hquery]
          have hiff : (org ∈ dir.orgs ∧ ∃ u, some user = some u ∧ org.id = u.orgId ∧
              ¬ (u.role = "viewer" ∧ method ∉ ["GET", "HEAD"])) ↔
                org ∈ dir.orgs ∧ org.id = user.orgId := by
            refine and_congr_right fun _ => ⟨?_, fun hid => ⟨user, rfl, hid, hviewer⟩⟩
            rintro ⟨u, hu, hid, -⟩
            exact Option.some.inj hu ▸ hid
          rw [hiff, ← hfound org]
          cases found with
          | none => simp [uncaught]
          | some row => simp [uncaught]

/-- A request that is made for no organisation is refused. -/
theorem Directory.Distinct.getAuthenticatedOrg_error (h : dir.Distinct) {e : ApiError}
    (herror : getAuthenticatedOrg dir now method presented = .error e) :
    (∃ detail, e = .http 401 detail) ∨ e = .http 403 "viewer role is read-only" := by
  unfold getAuthenticatedOrg at herror
  cases hkey : presented.key with
  | some key =>
    obtain ⟨found, hresolve, -⟩ := h.resolveOrg key
    rw [hkey] at herror
    dsimp only at herror
    rw [hresolve] at herror
    cases found with
    | none => exact Or.inl ⟨_, (Except.error.inj herror).symm⟩
    | some row => cases herror
  | none =>
    rw [hkey] at herror
    dsimp only at herror
    split at herror
    · exact Or.inl ⟨_, (Except.error.inj herror).symm⟩
    · cases huser : sessionUser dir.auth presented.token now with
      | none =>
        rw [huser] at herror
        exact Or.inl ⟨_, (Except.error.inj herror).symm⟩
      | some user =>
        obtain ⟨found, hquery, -⟩ := h.orgOfId user.orgId
        rw [huser] at herror
        dsimp only at herror
        rw [hquery] at herror
        split at herror
        · exact Or.inr (Except.error.inj herror).symm
        · cases found with
          | none => exact Or.inl ⟨_, (Except.error.inj herror).symm⟩
          | some row => cases herror

/-- The actor is a user who is signed in, or where no token is presented the software of the
organisation. -/
def Directory.ActsFor (dir : Directory) (now : Int) (presented : Presented) (actor : Actor) :
    Prop :=
  actor.org ∈ dir.orgs ∧
    if presented.token ≠ "" then
      ∃ user, sessionUser dir.auth presented.token now = some user ∧ actor.user = some user ∧
        actor.org.id = user.orgId
    else
      actor.user = none ∧ ∃ key, presented.key = some key ∧
        actor.org.apiKeyHash = sha256Text key

theorem Directory.Distinct.getActor_eq_ok (h : dir.Distinct) {actor : Actor} :
    getActor dir now presented = .ok actor ↔ dir.ActsFor now presented actor := by
  obtain ⟨org, person⟩ := actor
  unfold getActor Directory.ActsFor
  split
  · cases huser : sessionUser dir.auth presented.token now with
    | none => simp
    | some user =>
      obtain ⟨found, hquery, hfound⟩ := h.orgOfId user.orgId
      dsimp only
      rw [hquery]
      have hiff : (org ∈ dir.orgs ∧ ∃ u, some user = some u ∧ person = some u ∧
          org.id = u.orgId) ↔ (org ∈ dir.orgs ∧ org.id = user.orgId) ∧ some user = person := by
        constructor
        · rintro ⟨horg, u, hu, hperson, hid⟩
          obtain rfl := Option.some.inj hu
          exact ⟨⟨horg, hid⟩, hperson.symm⟩
        · rintro ⟨⟨horg, hid⟩, hperson⟩
          exact ⟨horg, user, rfl, hperson.symm, hid⟩
      rw [hiff, ← hfound org]
      cases found with
      | none => simp [uncaught]
      | some row => simp [uncaught]
  · cases presented.key with
    | none => simp
    | some key =>
      obtain ⟨found, hresolve, hfound⟩ := h.resolveOrg key
      dsimp only
      rw [hresolve]
      have hiff : (org ∈ dir.orgs ∧ person = none ∧ ∃ k, some key = some k ∧
          org.apiKeyHash = sha256Text k) ↔
            (org ∈ dir.orgs ∧ org.apiKeyHash = sha256Text key) ∧ none = person := by
        constructor
        · rintro ⟨horg, hperson, k, hk, hhash⟩
          obtain rfl := Option.some.inj hk
          exact ⟨⟨horg, hhash⟩, hperson.symm⟩
        · rintro ⟨⟨horg, hhash⟩, hperson⟩
          exact ⟨horg, hperson.symm, key, rfl, hhash⟩
      rw [hiff, ← hfound org]
      cases found with
      | none => simp [uncaught]
      | some row => simp [uncaught]

/-! ## What a request does -/

/-- What a request that is served does to the directory, and the row that it is about. -/
inductive Effect (dir : Directory) :
    Option String → Directory → Option AdminOrgKeyOut → Prop where
  | created (org : OrgRow) (key : String) (hid : ∀ o ∈ dir.orgs, o.id ≠ org.id)
      (hfree : ∀ o ∈ dir.orgs, o.apiKeyHash ≠ org.apiKeyHash)
      (hkey : org.apiKeyHash = sha256Text key) :
      Effect dir (some org.id) { dir with orgs := dir.orgs ++ [org] } (some ⟨org.id, key⟩)
  | rotated (org : OrgRow) (key : String) (horg : org ∈ dir.orgs)
      (hfree : ∀ o ∈ dir.orgs, o.id ≠ org.id → o.apiKeyHash ≠ sha256Text key) :
      Effect dir (some org.id) (dir.putOrg { org with apiKeyHash := sha256Text key })
        (some ⟨org.id, key⟩)
  | edited (org org' : OrgRow) (horg : org ∈ dir.orgs) (hid : org'.id = org.id)
      (hkey : org'.apiKeyHash = org.apiKeyHash) :
      Effect dir (some org.id) (dir.putOrg org') none
  | accounts (auth : AuthDb)
      (hmembers : ∀ u ∈ auth.users, (∃ v ∈ dir.auth.users, v.orgId = u.orgId) ∨
        ∃ o ∈ dir.orgs, o.id = u.orgId) :
      Effect dir none { dir with auth := auth } none

theorem Directory.getOrgById_eq_some {orgId : String}
    (h : dir.getOrgById orgId = .ok (some org)) : org ∈ dir.orgs ∧ org.id = orgId := by
  simp only [Directory.getOrgById, Except.bind_eq_ok] at h
  obtain ⟨-, -, h⟩ := h
  simpa using mem_of_oneOrNone h

theorem Directory.theOrg_eq_ok {orgId : String} (h : dir.theOrg orgId = .ok org) :
    org ∈ dir.orgs ∧ org.id = orgId := by
  simp only [Directory.theOrg, Except.bind_eq_ok] at h
  obtain ⟨found, hfound, h⟩ := h
  cases found with
  | none => cases h
  | some row =>
    obtain rfl := Except.ok.inj h
    exact Directory.getOrgById_eq_some hfound

theorem uncaught_eq_ok {α : Type} {x : Except PyError α} {a : α} :
    uncaught x = .ok a ↔ x = .ok a := by
  cases x <;> simp [uncaught]

theorem adminOrg_eq_ok {orgId detail : String} (h : adminOrg dir orgId detail = .ok org) :
    org ∈ dir.orgs ∧ org.id = orgId := by
  simp only [adminOrg, Except.bind_eq_ok, uncaught_eq_ok] at h
  obtain ⟨found, hfound, h⟩ := h
  cases found with
  | none => cases h
  | some row =>
    obtain rfl := Except.ok.inj h
    exact Directory.getOrgById_eq_some hfound

theorem createOrgWithApiKey_effect {orgId name region failMode : String} {retention : Int}
    {apiKey : Option String} {drawn : String} {dir' : Directory} {key : String}
    (h : dir.createOrgWithApiKey orgId name region failMode retention apiKey drawn =
      .ok (dir', key)) :
    Effect dir (some orgId) dir' (some ⟨orgId, key⟩) := by
  simp only [Directory.createOrgWithApiKey, Except.bind_eq_ok, require_eq_ok, Except.pure_eq,
    Except.ok.injEq, Prod.mk.injEq] at h
  obtain ⟨found, hfound, -, hnone, -, -, -, -, -, hfree, -, -, hdir, hkey⟩ := h
  have hid : ∀ o ∈ dir.orgs, o.id ≠ orgId := by
    intro o ho hoid
    simp only [Directory.getOrgById, Except.bind_eq_ok] at hfound
    obtain ⟨-, -, hquery⟩ := hfound
    have hsome := eq_of_oneOrNone hquery (List.mem_filter.mpr ⟨ho, decide_eq_true hoid⟩)
    rw [hsome] at hnone
    cases hnone
  rw [Directory.orgExistsByApiKeyHash, Bool.not_eq_true', List.any_eq_false, hkey] at hfree
  let row : OrgRow := {
    id := orgId
    name := name
    region := region
    failMode := failMode
    confidentialityMode := "attest_managed"
    wrappingPublicPem := none
    apiKeyHash := sha256Text key
    retentionDaysPayload := retention
    requiresProfile := true }
  rw [← hdir, hkey]
  exact Effect.created row key hid (fun o ho hhash => hfree o ho (decide_eq_true hhash)) rfl

theorem updateOrgSettings_effect {orgId : String} {region failMode : Option String}
    {retention : Option Int} {dir' : Directory}
    (h : dir.updateOrgSettings orgId region failMode retention = .ok dir') :
    Effect dir (some orgId) dir' none := by
  simp only [Directory.updateOrgSettings, Except.bind_eq_ok, Except.pure_eq, Except.ok.injEq] at h
  obtain ⟨-, -, -, -, org, horg, rfl⟩ := h
  obtain ⟨hmem, rfl⟩ := Directory.theOrg_eq_ok horg
  exact Effect.edited org _ hmem rfl rfl

theorem enableCustomerKeyMode_effect {orgId pem : String} {dir' : Directory}
    (h : dir.enableCustomerKeyMode orgId pem = .ok dir') : Effect dir (some orgId) dir' none := by
  simp only [Directory.enableCustomerKeyMode, Except.bind_eq_ok, Except.pure_eq,
    Except.ok.injEq] at h
  obtain ⟨org, horg, -, -, rfl⟩ := h
  obtain ⟨hmem, rfl⟩ := Directory.theOrg_eq_ok horg
  exact Effect.edited org _ hmem rfl rfl

theorem createUser_effect {orgId email displayName role : String} {id : Uuid} {dir' : Directory}
    (h : createUser dir orgId email displayName role id = .ok dir') :
    Effect dir none dir' none := by
  simp only [createUser, Except.bind_eq_ok, require_eq_ok, Except.pure_eq, Except.ok.injEq] at h
  obtain ⟨-, -, -, -, -, -, -, horg, rfl⟩ := h
  refine Effect.accounts _ fun u hu => ?_
  rcases List.mem_append.mp hu with hu | hu
  · exact Or.inl ⟨u, hu, rfl⟩
  · obtain rfl := List.mem_singleton.mp hu
    obtain ⟨o, ho, hid⟩ := List.any_eq_true.mp horg
    exact Or.inr ⟨o, ho, of_decide_eq_true hid⟩

/-- The organisation that an admin call names. -/
def AdminCall.orgId : AdminCall → String
  | .createOrg body _ => body.orgId
  | .rotateOrgKey orgId _ => orgId
  | .setRequireOnboarding orgId _ => orgId
  | .createUser orgId _ _ => orgId

theorem AdminCall.serve_effect {call : AdminCall} {dir' : Directory}
    {out : Option AdminOrgKeyOut} (h : call.serve dir = .ok (dir', out)) :
    ∃ about, Effect dir about dir' out ∧ ∀ id ∈ about, id = call.orgId := by
  have hnamed {orgId : String} : ∀ id ∈ some orgId, id = orgId := fun id hid =>
    (Option.some.inj hid).symm
  cases call with
  | createOrg body drawn =>
    rw [AdminCall.serve] at h
    split at h
    · rename_i hcreate
      obtain ⟨rfl, rfl⟩ := Prod.mk.inj (Except.ok.inj h)
      exact ⟨_, createOrgWithApiKey_effect hcreate, hnamed⟩
    · cases h
    · cases h
  | rotateOrgKey orgId drawn =>
    simp only [AdminCall.serve, Except.bind_eq_ok, uncaught_eq_ok, require_eq_ok, Except.pure_eq,
      Except.ok.injEq, Prod.mk.injEq] at h
    obtain ⟨org, horg, -, hfree, rfl, rfl⟩ := h
    obtain ⟨hmem, rfl⟩ := adminOrg_eq_ok horg
    rw [Bool.not_eq_true', List.any_eq_false] at hfree
    exact ⟨_, Effect.rotated org _ hmem fun o ho hid hhash =>
      hfree o ho (decide_eq_true ⟨hid, hhash⟩), hnamed⟩
  | setRequireOnboarding orgId required =>
    simp only [AdminCall.serve, Except.bind_eq_ok, Except.pure_eq, Except.ok.injEq,
      Prod.mk.injEq] at h
    obtain ⟨org, horg, rfl, rfl⟩ := h
    obtain ⟨hmem, rfl⟩ := adminOrg_eq_ok horg
    exact ⟨_, Effect.edited org _ hmem rfl rfl, hnamed⟩
  | createUser orgId body id =>
    simp only [AdminCall.serve, Except.bind_eq_ok] at h
    obtain ⟨-, -, h⟩ := h
    split at h
    · rename_i hcreate
      obtain ⟨rfl, rfl⟩ := Prod.mk.inj (Except.ok.inj h)
      exact ⟨none, createUser_effect hcreate, fun id hid => by cases hid⟩
    · cases h
    · cases h

theorem OrgCall.serve_effect {call : OrgCall} {orgId : String} {dir' : Directory}
    (h : call.serve dir orgId = .ok dir') : Effect dir (some orgId) dir' none := by
  cases call with
  | patchOrgSettings body =>
    rw [OrgCall.serve] at h
    split at h
    · rename_i hupdate
      obtain rfl := Except.ok.inj h
      exact updateOrgSettings_effect hupdate
    · cases h
    · cases h
  | setConfidentiality pem => exact enableCustomerKeyMode_effect (uncaught_eq_ok.mp h)

/-- No call of a user on their account takes a user to another organisation. -/
theorem AuthCall.exec_orgIds {cfg : AuthSettings} {db : AuthDb} {call : AuthCall} {u : User}
    (hu : u ∈ (call.exec cfg db now).users) : ∃ v ∈ db.users, v.orgId = u.orgId := by
  have hput (user : User) {v : User} (hold : ∃ w ∈ db.users, w.orgId = user.orgId)
      (hv : v ∈ (db.putUser user).users) : ∃ w ∈ db.users, w.orgId = v.orgId := by
    rcases mem_putUser hv with rfl | ⟨hv, -⟩
    · exact hold
    · exact ⟨v, hv, rfl⟩
  have hsame (hu : u ∈ db.users) : ∃ v ∈ db.users, v.orgId = u.orgId := ⟨u, hu, rfl⟩
  unfold AuthCall.exec at hu
  cases happly : call.apply cfg db now with
  | error e =>
    rw [happly] at hu
    exact hsame hu
  | ok out =>
    obtain ⟨db', login⟩ := out
    rw [happly] at hu
    cases call with
    | requestCode email fresh =>
      obtain ⟨out, hout, heq⟩ := Except.map_eq_ok.mp happly
      obtain ⟨rfl, rfl⟩ := Prod.mk.inj heq
      rw [(requestCode_users hout).1] at hu
      exact hsame hu
    | verifyCode email code fresh =>
      rcases verifyCode_eq_ok happly with ⟨-, -, husers⟩ | ⟨_, _, db₁, -, -, husers, hcreate⟩
      · exact hsame (husers ▸ hu)
      · obtain ⟨row, -, -, rfl⟩ := createSession_eq_ok hcreate
        exact hsame (husers ▸ hu)
    | loginPassword email password fresh =>
      rcases loginPassword_eq_ok happly with ⟨-, rfl, -⟩ | ⟨user, stored, hchecked, -, hcases⟩
      · exact hsame hu
      · have hmem := (verifiesPassword_spec cfg password fresh hchecked).1
        rcases hcases with ⟨-, -, rfl⟩ | ⟨-, hcreate⟩
        · refine hput (user.failed cfg now) ⟨user, hmem, ?_⟩ hu
          rw [User.failed]
          split <;> rfl
        · obtain ⟨row, -, -, rfl⟩ := createSession_eq_ok hcreate
          exact hput (user.succeeded stored password fresh.salt) ⟨user, hmem, rfl⟩ hu
    | setPassword token newPassword current salt =>
      cases hfound : sessionWithUser db token now with
      | none =>
        simp only [AuthCall.apply, hfound, Except.ok.injEq, Prod.mk.injEq] at happly
        exact hsame (happly.1 ▸ hu)
      | some found =>
        obtain ⟨user, session⟩ := found
        simp only [AuthCall.apply, hfound] at happly
        obtain ⟨db₁, hset, heq⟩ := Except.map_eq_ok.mp happly
        obtain ⟨rfl, rfl⟩ := Prod.mk.inj heq
        rw [setPassword_eq_ok hset] at hu
        refine hput { user with
          passwordHash := some (PasswordHashing.hash salt newPassword)
          failedLogins := 0
          lockedUntil := none } ⟨user, ?_, rfl⟩ hu
        exact (enabledUser_spec (sessionWithUser_spec hfound).2).1
    | revokeSession token =>
      obtain ⟨rfl, rfl⟩ := Prod.mk.inj (Except.ok.inj happly)
      have husers : (Attest.revokeSession db token now).1.users = db.users := by
        rw [Attest.revokeSession]
        split <;> rfl
      exact hsame (husers ▸ hu)
    | setDisabled userId disabled =>
      obtain ⟨rfl, rfl⟩ := Prod.mk.inj (Except.ok.inj happly)
      obtain ⟨v, hv, rfl⟩ := List.mem_map.mp hu
      refine ⟨v, hv, ?_⟩
      split <;> rfl

end Reading

/-! ## Runs -/

variable {cfg adminKey} {s : Served} {now : Int}

/-- The request may change the row of an organisation : it is one of the admin that names it, or it
is made for the organisation. -/
def Request.AuthorisedFor (adminKey : String) (dir : Directory) (now : Int) (id : String) :
    Request → Prop
  | .admin xAdminKey call => adminKey ≠ "" ∧ xAdminKey = adminKey ∧ call.orgId = id
  | .org presented call => ∃ org, dir.MadeFor now call.method presented org ∧ org.id = id
  | .auth _ => False

theorem requireAdmin_eq_ok {xAdminKey : String} (h : requireAdmin adminKey xAdminKey = .ok ()) :
    adminKey ≠ "" ∧ xAdminKey = adminKey := by
  unfold requireAdmin at h
  split at h
  · cases h
  · rename_i hset
    split at h
    · cases h
    · split at h
      · rename_i hsame
        exact ⟨hset, hsame⟩
      · cases h

theorem Request.serve_effect {dir dir' : Directory} (hdistinct : dir.Distinct) {request : Request}
    {out : Option AdminOrgKeyOut} (h : request.serve cfg adminKey dir now = .ok (dir', out)) :
    ∃ about, Effect dir about dir' out ∧
      (∀ id ∈ about, request.AuthorisedFor adminKey dir now id) ∧
        (out.isSome = true → ∃ call, request = .admin adminKey call) := by
  cases request with
  | admin xAdminKey call =>
    simp only [Request.serve, Except.bind_eq_ok] at h
    obtain ⟨⟨⟩, hadmin, hserve⟩ := h
    obtain ⟨hset, rfl⟩ := requireAdmin_eq_ok hadmin
    obtain ⟨about, heffect, hnamed⟩ := AdminCall.serve_effect hserve
    exact ⟨about, heffect, fun id hid => ⟨hset, rfl, (hnamed id hid).symm⟩, fun _ => ⟨call, rfl⟩⟩
  | org presented call =>
    simp only [Request.serve, Except.bind_eq_ok, Except.pure_eq, Except.ok.injEq,
      Prod.mk.injEq] at h
    obtain ⟨org, horg, dir₁, hserve, rfl, rfl⟩ := h
    refine ⟨some org.id, OrgCall.serve_effect hserve, fun id hid => ⟨org, ?_, ?_⟩,
      fun hsome => by cases hsome⟩
    · exact hdistinct.getAuthenticatedOrg_eq_ok.mp horg
    · exact Option.some.inj hid
  | auth call =>
    obtain ⟨rfl, rfl⟩ := Prod.mk.inj (Except.ok.inj h)
    refine ⟨none, Effect.accounts _ fun u hu => Or.inl (AuthCall.exec_orgIds hu), ?_, ?_⟩
    · intro id hid
      cases hid
    · intro hsome
      cases hsome

theorem mem_putOrg {dir : Directory} {org o : OrgRow} (h : o ∈ (dir.putOrg org).orgs) :
    o = org ∨ o ∈ dir.orgs ∧ o.id ≠ org.id := by
  obtain ⟨x, hx, rfl⟩ := List.mem_map.mp h
  by_cases hid : x.id = org.id
  · exact Or.inl (if_pos hid)
  · rw [if_neg hid]
    exact Or.inr ⟨hx, hid⟩

theorem putOrg_ids (dir : Directory) (org : OrgRow) :
    ((dir.putOrg org).orgs.map fun o => o.id) = dir.orgs.map fun o => o.id := by
  rw [Directory.putOrg, List.map_map]
  refine List.map_congr_left fun o _ => ?_
  rw [Function.comp_apply]
  split
  · rename_i hid
    exact hid.symm
  · rfl

/-- Rows are told apart by their ids, also where one of them is put anew. -/
theorem exists_mem_putOrg {dir : Directory} {org : OrgRow} {id : String}
    (h : ∃ o ∈ dir.orgs, o.id = id) : ∃ o ∈ (dir.putOrg org).orgs, o.id = id := by
  have hmem : id ∈ (dir.putOrg org).orgs.map fun o => o.id := by
    rw [putOrg_ids]
    exact List.mem_map.mpr h
  exact List.mem_map.mp hmem

/-- A row that is put anew with a key that no other row has. -/
theorem hashes_putOrg {dir : Directory} (hdistinct : dir.Distinct) {org : OrgRow}
    (hfree : ∀ o ∈ dir.orgs, o.id ≠ org.id → o.apiKeyHash ≠ org.apiKeyHash) :
    ∀ a ∈ (dir.putOrg org).orgs, ∀ b ∈ (dir.putOrg org).orgs,
      a.apiKeyHash = b.apiKeyHash → a.id = b.id := by
  intro a ha b hb hhash
  rcases mem_putOrg ha with heqa | ⟨holdA, haid⟩
  · rcases mem_putOrg hb with heqb | ⟨holdB, hbid⟩
    · rw [heqa, heqb]
    · rw [heqa] at hhash
      exact absurd hhash.symm (hfree b holdB hbid)
  · rcases mem_putOrg hb with heqb | ⟨holdB, hbid⟩
    · rw [heqb] at hhash
      exact absurd hhash (hfree a holdA haid)
    · exact hdistinct.hashes a holdA b holdB hhash

/-- Every request keeps the rows and the keys together. -/
theorem Keyed.effect (h : Keyed s) {about : Option String} {dir' : Directory}
    {out : Option AdminOrgKeyOut} (heffect : Effect s.dir about dir' out) :
    Keyed ⟨dir', s.keysOut ++ out.toList⟩ := by
  cases heffect with
  | created org key hid hfree hkey =>
    have hlast (id : String) : lastKey (s.keysOut ++ [⟨org.id, key⟩]) id =
        if org.id = id then some key else lastKey s.keysOut id := lastKey_append _ _ _
    refine ⟨?_, ?_, ?_, ?_, fun u hu => ?_⟩
    · rw [List.map_append, List.map_singleton]
      refine List.nodup_append.mpr ⟨h.ids, List.nodup_singleton _, ?_⟩
      intro a ha b hb hab
      obtain ⟨o, ho, rfl⟩ := List.mem_map.mp ha
      exact hid o ho (hab.trans (List.mem_singleton.mp hb))
    · intro a ha b hb hhash
      rcases List.mem_append.mp ha with holdA | hnewa
      · rcases List.mem_append.mp hb with holdB | hnewb
        · exact h.hashes a holdA b holdB hhash
        · rw [List.mem_singleton.mp hnewb] at hhash
          exact absurd hhash (hfree a holdA)
      · rcases List.mem_append.mp hb with holdB | hnewb
        · rw [List.mem_singleton.mp hnewa] at hhash
          exact absurd hhash.symm (hfree b holdB)
        · rw [List.mem_singleton.mp hnewa, List.mem_singleton.mp hnewb]
    · intro o ho
      rw [Option.toList_some, hlast]
      rcases List.mem_append.mp ho with hold | hnew
      · rw [if_neg fun heq => hid o hold heq.symm]
        exact h.held o hold
      · obtain rfl := List.mem_singleton.mp hnew
        exact ⟨key, if_pos rfl, hkey⟩
    · intro id k hk
      rw [Option.toList_some, hlast] at hk
      split at hk
      · rename_i heq
        exact ⟨org, List.mem_append_right _ List.mem_cons_self, heq⟩
      · obtain ⟨o, ho, hoid⟩ := h.known id k hk
        exact ⟨o, List.mem_append_left _ ho, hoid⟩
    · obtain ⟨o, ho, hoid⟩ := h.members u hu
      exact ⟨o, List.mem_append_left _ ho, hoid⟩
  | rotated org key horg hfree =>
    have hlast (id : String) : lastKey (s.keysOut ++ [⟨org.id, key⟩]) id =
        if org.id = id then some key else lastKey s.keysOut id := lastKey_append _ _ _
    refine ⟨?_, hashes_putOrg h.distinct hfree, ?_, ?_, fun u hu =>
      exists_mem_putOrg (h.members u hu)⟩
    · rw [putOrg_ids]
      exact h.ids
    · intro o ho
      rw [Option.toList_some, hlast]
      rcases mem_putOrg ho with rfl | ⟨ho, hoid⟩
      · exact ⟨key, if_pos rfl, rfl⟩
      · rw [if_neg fun heq => hoid heq.symm]
        exact h.held o ho
    · intro id k hk
      rw [Option.toList_some, hlast] at hk
      refine exists_mem_putOrg ?_
      split at hk
      · rename_i heq
        exact ⟨org, horg, heq⟩
      · exact h.known id k hk
  | edited org org' horg hid hkey =>
    refine ⟨?_, hashes_putOrg h.distinct fun o ho hoid hhash => ?_, ?_, ?_, fun u hu =>
      exists_mem_putOrg (h.members u hu)⟩
    · rw [putOrg_ids]
      exact h.ids
    · exact hoid ((h.hashes o ho org horg (hhash.trans hkey)).trans hid.symm)
    · intro o ho
      rw [Option.toList_none, List.append_nil]
      rcases mem_putOrg ho with rfl | ⟨ho, -⟩
      · rw [hid, hkey]
        exact h.held org horg
      · exact h.held o ho
    · intro id k hk
      rw [Option.toList_none, List.append_nil] at hk
      exact exists_mem_putOrg (h.known id k hk)
  | accounts auth hmembers =>
    rw [Option.toList_none, List.append_nil]
    refine ⟨h.ids, h.hashes, h.held, h.known, fun u hu => ?_⟩
    rcases hmembers u hu with ⟨v, hv, hsame⟩ | hknown
    · rw [← hsame]
      exact h.members v hv
    · exact hknown

variable (cfg adminKey) in
theorem keyed_step (h : Keyed s) (step : RequestStep) : Keyed (s.step cfg adminKey step) := by
  unfold Served.step
  split
  · rename_i hserve
    obtain ⟨about, heffect, -⟩ := Request.serve_effect h.distinct hserve
    exact h.effect heffect
  · exact h

variable (cfg adminKey) in
theorem serveAll_append (steps : List RequestStep) (step : RequestStep) :
    serveAll cfg adminKey (steps ++ [step]) =
      (serveAll cfg adminKey steps).step cfg adminKey step :=
  List.foldl_append

variable (cfg adminKey) in
/-- In every run of requests the rows and the keys are kept together. -/
theorem keyed_serveAll (steps : List RequestStep) : Keyed (serveAll cfg adminKey steps) := by
  induction steps using List.reverseRecOn with
  | nil =>
    refine ⟨List.nodup_nil, ?_, ?_, ?_, ?_⟩
    · intro a ha
      cases ha
    · intro o ho
      cases ho
    · intro id key hkey
      cases hkey
    · intro u hu
      cases hu
  | append_singleton steps step ih =>
    rw [serveAll_append]
    exact keyed_step cfg adminKey ih step

/-- The presented key has no hash in common with another one that was handed out. -/
def Presented.CollisionFree (presented : Presented) (keysOut : List AdminOrgKeyOut) : Prop :=
  ∀ key, presented.key = some key →
    Attest.CollisionFree (key :: keysOut.map AdminOrgKeyOut.apiKey)

/-- The row of an organisation holds the key exactly where it is the last that was handed out for
it. -/
theorem Keyed.hash_iff (h : Keyed s) {key : String}
    (hfree : CollisionFree (key :: s.keysOut.map AdminOrgKeyOut.apiKey)) (id : String) :
    (∃ o ∈ s.dir.orgs, o.apiKeyHash = sha256Text key ∧ o.id = id) ↔
      lastKey s.keysOut id = some key := by
  constructor
  · rintro ⟨o, ho, hhash, rfl⟩
    obtain ⟨held, hlast, hheld⟩ := h.held o ho
    have hsame := hfree held (List.mem_cons_of_mem _ (mem_of_lastKey hlast)) key
      List.mem_cons_self (hheld.symm.trans hhash)
    rw [hlast, hsame]
  · intro hlast
    obtain ⟨o, ho, rfl⟩ := h.known id key hlast
    obtain ⟨held, hlast', hheld⟩ := h.held o ho
    obtain rfl := Option.some.inj (hlast.symm.trans hlast')
    exact ⟨o, ho, hheld, rfl⟩

/-- The request is made for the organisation, as the keys that were handed out and the sessions
say. -/
def Served.HeldBy (s : Served) (now : Int) (method : String) (presented : Presented)
    (orgId : String) : Prop :=
  match presented.key with
  | some key => lastKey s.keysOut orgId = some key
  | none => ∃ user, sessionUser s.dir.auth presented.token now = some user ∧
      user.orgId = orgId ∧ ¬ (user.role = "viewer" ∧ method ∉ ["GET", "HEAD"])

theorem Keyed.madeFor_iff (h : Keyed s) {method : String} {presented : Presented}
    (hfree : presented.CollisionFree s.keysOut) (id : String) :
    (∃ org, s.dir.MadeFor now method presented org ∧ org.id = id) ↔
      s.HeldBy now method presented id := by
  unfold Directory.MadeFor Served.HeldBy
  cases hkey : presented.key with
  | some key =>
    dsimp only
    rw [← h.hash_iff (hfree key hkey) id]
    exact exists_congr fun o => and_assoc
  | none =>
    dsimp only
    constructor
    · rintro ⟨org, ⟨-, user, huser, hid, hmay⟩, rfl⟩
      exact ⟨user, huser, hid.symm, hmay⟩
    · rintro ⟨user, huser, rfl, hmay⟩
      obtain ⟨-, row, -, henabled⟩ := sessionUser_spec huser
      obtain ⟨org, horg, hid⟩ := h.members user (enabledUser_spec henabled).1
      exact ⟨org, ⟨horg, user, huser, hid, hmay⟩, hid⟩

theorem Keyed.actsFor_iff (h : Keyed s) {presented : Presented}
    (hfree : presented.CollisionFree s.keysOut) (person : Option User) (id : String) :
    (∃ org, s.dir.ActsFor now presented ⟨org, person⟩ ∧ org.id = id) ↔
      if presented.token ≠ "" then
        ∃ user, sessionUser s.dir.auth presented.token now = some user ∧ person = some user ∧
          user.orgId = id
      else person = none ∧ ∃ key, presented.key = some key ∧ lastKey s.keysOut id = some key := by
  unfold Directory.ActsFor
  split
  · constructor
    · rintro ⟨org, ⟨-, user, huser, hperson, hid⟩, rfl⟩
      exact ⟨user, huser, hperson, hid.symm⟩
    · rintro ⟨user, huser, hperson, rfl⟩
      obtain ⟨-, row, -, henabled⟩ := sessionUser_spec huser
      obtain ⟨org, horg, hid⟩ := h.members user (enabledUser_spec henabled).1
      exact ⟨org, ⟨horg, user, huser, hperson, hid⟩, hid⟩
  · constructor
    · rintro ⟨org, ⟨horg, hperson, key, hkey, hhash⟩, rfl⟩
      exact ⟨hperson, key, hkey, (h.hash_iff (hfree key hkey) _).mp ⟨org, horg, hhash, rfl⟩⟩
    · rintro ⟨hperson, key, hkey, hlast⟩
      obtain ⟨org, horg, hhash, hid⟩ := (h.hash_iff (hfree key hkey) id).mpr hlast
      exact ⟨org, ⟨horg, hperson, key, hkey, hhash⟩, hid⟩

/-- In every run of requests a key that is presented authenticates as the organisation that it was
last handed out for, and a session where no key is presented as the organisation of its user;
anything else is refused. An actor is the user of the session that is presented, and the software
that holds the key where none is. -/
theorem request_authenticated_iff (cfg : AuthSettings) (adminKey : String)
    (steps : List RequestStep) (now : Int) (method : String) (presented : Presented)
    (hfree : presented.CollisionFree (serveAll cfg adminKey steps).keysOut) :
    let s := serveAll cfg adminKey steps
    (∀ id, (∃ org, getAuthenticatedOrg s.dir now method presented = .ok org ∧ org.id = id) ↔
      s.HeldBy now method presented id) ∧
    (∀ e, getAuthenticatedOrg s.dir now method presented = .error e →
      (∃ detail, e = .http 401 detail) ∨ e = .http 403 "viewer role is read-only") ∧
    ∀ person id, (∃ org, getActor s.dir now presented = .ok ⟨org, person⟩ ∧ org.id = id) ↔
      if presented.token ≠ "" then
        ∃ user, sessionUser s.dir.auth presented.token now = some user ∧ person = some user ∧
          user.orgId = id
      else
        person = none ∧ ∃ key, presented.key = some key ∧ lastKey s.keysOut id = some key := by
  have hkeyed := keyed_serveAll cfg adminKey steps
  refine ⟨fun id => ?_, fun e => hkeyed.distinct.getAuthenticatedOrg_error, fun person id => ?_⟩
  · rw [← hkeyed.madeFor_iff hfree id]
    exact exists_congr fun org =>
      and_congr_left fun _ => hkeyed.distinct.getAuthenticatedOrg_eq_ok
  · rw [← hkeyed.actsFor_iff hfree person id]
    exact exists_congr fun org => and_congr_left fun _ => hkeyed.distinct.getActor_eq_ok

end Routes

/-! ## A run of requests -/

namespace CredentialsSample

open AuthSample

def acme : AdminOrgCreateIn where
  orgId := "acme"
  name := "Acme"
  region := "uae"
  apiKey := some "acme-first-key"
  orgId_chars := by simp
  name_ne := by decide
  apiKey_long := by decide

/-- Acme is created with a key of its own, which is rotated then. -/
def steps : List RequestStep :=
  [⟨0, .admin "ops" (.createOrg acme "-")⟩, ⟨1, .admin "ops" (.rotateOrgKey "acme" "x1")⟩]

/-- A request that presents a key. -/
def withKey (key : String) : Presented :=
  ⟨some key, none, none⟩

def relaxed : OrgSettingsUpdate where
  region := none
  failMode := some "allow_with_flag"
  retentionDaysPayload := none
  retention_range := by decide

theorem keysOut_steps : (serveAll .default "ops" steps).keysOut =
    [⟨"acme", "acme-first-key"⟩, ⟨"acme", "attest_x1"⟩] := by
  decide +kernel

theorem collisionFree_withKey {key : String} (hkey : key = "acme-first-key" ∨ key = "attest_x1") :
    (withKey key).CollisionFree (serveAll .default "ops" steps).keysOut := by
  have hhashes : sha256Text "acme-first-key" ≠ sha256Text "attest_x1" := by decide +kernel
  intro presented hpresented
  rw [keysOut_steps]
  have hmem {a : String} (ha : a ∈ [presented, "acme-first-key", "attest_x1"]) :
      a = "acme-first-key" ∨ a = "attest_x1" := by
    have hsome : presented = key := by
      have hfilter := Option.filter_eq_some_iff.mp hpresented
      exact (Option.some.inj hfilter.1).symm
    rcases List.mem_cons.mp ha with rfl | ha
    · rwa [hsome]
    · simpa using ha
  intro a ha b hb hhash
  rcases hmem ha with rfl | rfl
  · rcases hmem hb with rfl | rfl
    · rfl
    · exact absurd hhash hhashes
  · rcases hmem hb with rfl | rfl
    · exact absurd hhash.symm hhashes
    · rfl

end CredentialsSample

open AuthSample CredentialsSample in
/-- The rotated key authenticates as Acme, and the one before it no more. -/
theorem request_authenticated_iff_sample :
    (∃ org, getAuthenticatedOrg (serveAll .default "ops" steps).dir 2 "GET" (withKey "attest_x1") =
      .ok org ∧ org.id = "acme") ∧
    ¬ ∃ org, getAuthenticatedOrg (serveAll .default "ops" steps).dir 2 "GET"
      (withKey "acme-first-key") = .ok org ∧ org.id = "acme" := by
  refine ⟨((request_authenticated_iff .default "ops" steps 2 "GET" (withKey "attest_x1")
    (collisionFree_withKey (Or.inr rfl))).1 "acme").mpr ?_, fun hold => ?_⟩
  · have hlast : lastKey (serveAll .default "ops" steps).keysOut "acme" = some "attest_x1" := by
      rw [keysOut_steps]
      rfl
    exact hlast
  · have hheld := ((request_authenticated_iff .default "ops" steps 2 "GET"
      (withKey "acme-first-key") (collisionFree_withKey (Or.inl rfl))).1 "acme").mp hold
    have hlast : lastKey (serveAll .default "ops" steps).keysOut "acme" =
        some "acme-first-key" := hheld
    rw [keysOut_steps] at hlast
    exact absurd hlast (by decide)

section Guarded

variable [PyUnicode] [PasswordHashing]

/-! ## Who changes a row -/

/-- The row of an organisation. -/
def Directory.rowOf (dir : Directory) (id : String) : Option OrgRow :=
  dir.orgs.find? fun o => o.id = id

theorem rowOf_putOrg {dir : Directory} {org : OrgRow} {id : String} (hid : org.id ≠ id) :
    (dir.putOrg org).rowOf id = dir.rowOf id := by
  have hput (o : OrgRow) : decide ((if o.id = org.id then org else o).id = id) =
      decide (o.id = id) := by
    split
    · rename_i hsame
      rw [hsame]
    · rfl
  unfold Directory.rowOf Directory.putOrg
  induction dir.orgs with
  | nil => rfl
  | cons o rows ih =>
    rw [List.map_cons, List.find?_cons, List.find?_cons, hput o, ih]
    by_cases ho : o.id = id
    · have hother : ¬ o.id = org.id := fun hsame => hid (hsame.symm.trans ho)
      rw [if_neg hother]
    · rw [decide_eq_false ho]

/-- A request leaves the rows and the keys that it is not about. -/
theorem Effect.other {dir dir' : Directory} {about : Option String} {out : Option AdminOrgKeyOut}
    (h : Effect dir about dir' out) {id : String} (hid : id ∉ about)
    (keysOut : List AdminOrgKeyOut) :
    dir'.rowOf id = dir.rowOf id ∧
      keysFor (keysOut ++ out.toList) id = keysFor keysOut id := by
  have hne {org : OrgRow} (hid : id ∉ some org.id) : org.id ≠ id := fun hsame =>
    hid (congrArg some hsame)
  cases h with
  | created org key _ _ _ =>
    refine ⟨?_, keysFor_append keysOut (hne hid)⟩
    rw [Directory.rowOf, List.find?_append, List.find?_singleton,
      if_neg (by simpa using hne hid), Option.or_none]
    rfl
  | rotated org key _ _ => exact ⟨rowOf_putOrg (hne hid), keysFor_append keysOut (hne hid)⟩
  | edited org org' _ hsame _ =>
    refine ⟨rowOf_putOrg fun heq => hne hid (hsame.symm.trans heq), ?_⟩
    rw [Option.toList_none, List.append_nil]
  | accounts auth _ =>
    refine ⟨rfl, ?_⟩
    rw [Option.toList_none, List.append_nil]

/-- In every run the row of an organisation changes, and a key is handed out for it, in no step
but one of the holder of the admin key that names it, or for the row one that is made for the
organisation. -/
theorem org_row_guarded (cfg : AuthSettings) (adminKey : String) (steps : List RequestStep)
    (step : RequestStep) (id : String)
    (hfree : ∀ presented call, step.request = .org presented call →
      presented.CollisionFree (serveAll cfg adminKey steps).keysOut) :
    let s := serveAll cfg adminKey steps
    let s' := serveAll cfg adminKey (steps ++ [step])
    (s'.dir.rowOf id ≠ s.dir.rowOf id → match step.request with
      | .admin xAdminKey call => adminKey ≠ "" ∧ xAdminKey = adminKey ∧ call.orgId = id
      | .org presented call => s.HeldBy step.now call.method presented id
      | .auth _ => False) ∧
    (keysFor s'.keysOut id ≠ keysFor s.keysOut id →
      adminKey ≠ "" ∧ ∃ call, step.request = .admin adminKey call ∧ call.orgId = id) := by
  intro s s'
  have hkeyed : Keyed s := keyed_serveAll cfg adminKey steps
  have hs' : s' = s.step cfg adminKey step := serveAll_append cfg adminKey steps step
  cases hserve : step.request.serve cfg adminKey s.dir step.now with
  | error e =>
    have hsame : s' = s := by
      rw [hs', Served.step, hserve]
    rw [hsame]
    exact ⟨fun h => absurd rfl h, fun h => absurd rfl h⟩
  | ok result =>
    obtain ⟨dir', out⟩ := result
    have hafter : s' = ⟨dir', s.keysOut ++ out.toList⟩ := by
      rw [hs', Served.step, hserve]
    obtain ⟨about, heffect, hauthorised, hadmin⟩ := Request.serve_effect hkeyed.distinct hserve
    have habout (h : ¬ (s'.dir.rowOf id = s.dir.rowOf id ∧
        keysFor s'.keysOut id = keysFor s.keysOut id)) : id ∈ about := by
      rw [hafter] at h
      exact not_not.mp fun hid => h (heffect.other hid s.keysOut)
    refine ⟨fun hrow => ?_, fun hkeys => ?_⟩
    · have hmay := hauthorised id (habout fun hsame => hrow hsame.1)
      cases hrequest : step.request with
      | admin xAdminKey call =>
        rw [hrequest] at hmay
        exact hmay
      | org presented call =>
        rw [hrequest] at hmay
        exact (hkeyed.madeFor_iff (hfree presented call hrequest) id).mp hmay
      | auth call =>
        rw [hrequest] at hmay
        exact hmay
    · have hout : out.isSome = true := by
        rw [hafter] at hkeys
        cases out with
        | none => exact absurd (congrArg (keysFor · id) (List.append_nil s.keysOut)) hkeys
        | some out => rfl
      obtain ⟨call, hrequest⟩ := hadmin hout
      have hmay := hauthorised id (habout fun hsame => hkeys hsame.2)
      rw [hrequest] at hmay
      exact ⟨hmay.1, call, hrequest, hmay.2.2⟩

end Guarded

open AuthSample CredentialsSample in
/-- Acme changes its settings with the key that it holds. -/
theorem org_row_guarded_sample :
    (serveAll .default "ops" steps).HeldBy 2 "PATCH" (withKey "attest_x1") "acme" := by
  have hchanged : (serveAll .default "ops" (steps ++
      [⟨2, .org (withKey "attest_x1") (.patchOrgSettings relaxed)⟩])).dir.rowOf "acme" ≠
        (serveAll .default "ops" steps).dir.rowOf "acme" := by
    decide +kernel
  refine (org_row_guarded .default "ops" steps
    ⟨2, .org (withKey "attest_x1") (.patchOrgSettings relaxed)⟩ "acme" ?_).1 hchanged
  intro presented call hrequest
  obtain ⟨rfl, rfl⟩ := Request.org.inj hrequest
  exact collisionFree_withKey (Or.inr rfl)

end Attest
