import Attest.Db
import Attest.Lib.PyText
import Attest.Lib.PyTime

/-!
# Human login

People log in with a one-time code that was issued to their address, or with a password.
Either gives a session, named by a bearer token of which the hash is stored. A code takes a
few guesses, issuance is capped over a window, failed passwords lock the account for a
while, and a new password revokes every session but the one that set it.

A call reads the clock once. The hashing of passwords is a parameter (`PasswordHashing`), and
what a call draws at random is given to it (`CodeFresh`, `SessionFresh`). A call that raises is
rolled back. What a call does to the rows of sessions is said once, for all calls
(`AuthCall.exec_sessions`), and no call adds a user (`AuthCall.exec_ids`).
-/

set_option linter.unusedSectionVars false

namespace Attest

/-! ## Settings and rows -/

/-- Minutes and hours in microseconds. -/
def minutes (n : Int) : Int := n * 60000000

def hours (n : Int) : Int := n * 3600000000

/-- The settings of the module, which the environment may change. A lock needs a failure. -/
structure AuthSettings where
  codeTtlMinutes : Int
  maxAttempts : Nat
  sessionTtlHours : Int
  maxIssuedPerWindow : Nat
  lockoutThreshold : Nat
  lockoutMinutes : Int
  threshold_pos : 0 < lockoutThreshold

/-- The settings where the environment says nothing. -/
def AuthSettings.default : AuthSettings where
  codeTtlMinutes := 10
  maxAttempts := 5
  sessionTtlHours := 12
  maxIssuedPerWindow := 3
  lockoutThreshold := 5
  lockoutMinutes := 15
  threshold_pos := by decide

def passwordMinLength : Nat := 12

def passwordMaxLength : Nat := 128

/-- A row of `users`. -/
structure User where
  id : Uuid
  orgId : String
  email : String
  displayName : String
  role : String
  passwordHash : Option String
  failedLogins : Nat
  lockedUntil : Option Int
  disabled : Bool
deriving DecidableEq

/-- A row of `login_codes`. -/
structure LoginCode where
  id : Uuid
  userId : Uuid
  codeHash : String
  attempts : Nat
  expiresAt : Int
  usedAt : Option Int
  createdAt : Int
deriving DecidableEq

/-- How a session was earned. -/
inductive SessionMethod where
  | code
  | password
deriving DecidableEq

/-- A row of `auth_sessions`. -/
structure AuthSession where
  id : Uuid
  userId : Uuid
  tokenHash : String
  method : SessionMethod
  expiresAt : Int
  revokedAt : Option Int
deriving DecidableEq

structure AuthDb where
  users : List User
  codes : List LoginCode
  sessions : List AuthSession
deriving DecidableEq

/-- What a call on accounts raises. -/
inductive AuthError where
  | passwordPolicy (msg : String)
  | wrongCurrentPassword
  /-- A constraint of the database. -/
  | integrityError
deriving DecidableEq

/-- The `argon2` library. `verify` is false where it raises `VerifyMismatchError` or
`InvalidHashError`. -/
class PasswordHashing where
  hash : (salt password : String) → String
  verify : (hash password : String) → Bool
  checkNeedsRehash : String → Bool

/-- `_sha256(text)`. -/
def sha256Text (text : String) : String :=
  Bytes.hex (sha256 (Bytes.utf8 text))

/-- What issuing a code draws : the id of its row, and `secrets.randbelow(1_000_000)`. -/
structure CodeFresh where
  id : Uuid
  number : Fin 1000000

/-- `f"{number:06d}"`. -/
def CodeFresh.code (fresh : CodeFresh) : String :=
  PyTime.padded 6 fresh.number

/-- What opening a session draws : the id of its row, its token, and a salt. -/
structure SessionFresh where
  id : Uuid
  token : String
  salt : String

/-- What a login returns : the user, the token and when it expires. -/
structure Login where
  user : User
  token : String
  expiresAt : Int

/-! ## Queries and updates -/

namespace AuthDb

def putUser (db : AuthDb) (user : User) : AuthDb :=
  { db with users := db.users.map fun u => if u.id = user.id then user else u }

def putCode (db : AuthDb) (code : LoginCode) : AuthDb :=
  { db with codes := db.codes.map fun c => if c.id = code.id then code else c }

/-- How many codes the user was issued since. -/
def issuedSince (db : AuthDb) (userId : Uuid) (start : Int) : Nat :=
  (db.codes.filter fun c => c.userId = userId ∧ start ≤ c.createdAt).length

/-- The codes of the user that are not used are voided. -/
def voidCodes (db : AuthDb) (userId : Uuid) (now : Int) : AuthDb :=
  { db with codes := db.codes.map fun c =>
      if c.userId = userId ∧ c.usedAt = none then { c with usedAt := some now } else c }

/-- The latest code of the user that can be guessed. -/
def candidate (db : AuthDb) (userId : Uuid) (now : Int) : Option LoginCode :=
  latestBy LoginCode.createdAt
    (db.codes.filter fun c => c.userId = userId ∧ c.usedAt = none ∧ now < c.expiresAt)

/-- The session of a token, where it is live. -/
def liveSession (db : AuthDb) (token : String) (now : Int) : Option AuthSession :=
  db.sessions.find? fun s =>
    s.tokenHash = sha256Text token ∧ s.revokedAt = none ∧ now < s.expiresAt

/-- The user of an id, unless disabled. -/
def enabledUser (db : AuthDb) (userId : Uuid) : Option User :=
  db.users.find? fun u => u.id = userId ∧ u.disabled = false

end AuthDb

/-! ## The calls -/

section Calls

variable [PyUnicode] [PasswordHashing] (cfg : AuthSettings)

/-- `find_user(db, email)`. -/
def findUser (db : AuthDb) (email : String) : Option User :=
  db.users.find? fun u => u.email = PyText.lower (PyText.strip email) ∧ u.disabled = false

/-- `request_code(db, email)`. -/
def requestCode (db : AuthDb) (email : String) (now : Int) (fresh : CodeFresh) :
    Except AuthError (AuthDb × Option String) :=
  match findUser db email with
  | none => .ok (db, none)
  | some user =>
    if cfg.maxIssuedPerWindow ≤ db.issuedSince user.id (now - minutes cfg.codeTtlMinutes) then
      .ok (db, none)
    else if db.codes.any fun c => c.id = fresh.id then .error .integrityError
    else
      let voided := db.voidCodes user.id now
      .ok ({ voided with codes := voided.codes ++ [{
        id := fresh.id
        userId := user.id
        codeHash := sha256Text fresh.code
        attempts := 0
        expiresAt := now + minutes cfg.codeTtlMinutes
        usedAt := none
        createdAt := now }] }, some fresh.code)

/-- `_create_session(db, user, method=..)`. -/
def createSession (db : AuthDb) (user : User) (method : SessionMethod) (now : Int)
    (fresh : SessionFresh) : Except AuthError (AuthDb × Option Login) :=
  if db.sessions.any fun s => s.id = fresh.id ∨ s.tokenHash = sha256Text fresh.token then
    .error .integrityError
  else
    let expiresAt := now + hours cfg.sessionTtlHours
    .ok ({ db with sessions := db.sessions ++ [{
      id := fresh.id
      userId := user.id
      tokenHash := sha256Text fresh.token
      method := method
      expiresAt := expiresAt
      revokedAt := none }] }, some ⟨user, fresh.token, expiresAt⟩)

/-- The guess of a call is compared with a stored code. -/
def comparesCode (db : AuthDb) (email : String) (now : Int) : Option LoginCode :=
  match findUser db email with
  | none => none
  | some user =>
    match db.candidate user.id now with
    | none => none
    | some candidate => if cfg.maxAttempts < candidate.attempts + 1 then none else some candidate

/-- `verify_code(db, email, code)`. -/
def verifyCode (db : AuthDb) (email code : String) (now : Int) (fresh : SessionFresh) :
    Except AuthError (AuthDb × Option Login) :=
  match findUser db email with
  | none => .ok (db, none)
  | some user =>
    match db.candidate user.id now with
    | none => .ok (db, none)
    | some candidate =>
      let spent := { candidate with attempts := candidate.attempts + 1 }
      if cfg.maxAttempts < spent.attempts then .ok (db.putCode spent, none)
      else if spent.codeHash ≠ sha256Text code then .ok (db.putCode spent, none)
      else createSession cfg (db.putCode { spent with usedAt := some now }) user .code now fresh

/-- `session_user(db, token)`. -/
def sessionUser (db : AuthDb) (token : String) (now : Int) : Option User :=
  if token = "" then none
  else (db.liveSession token now).bind fun row => db.enabledUser row.userId

/-- `session_with_user(db, token)`. -/
def sessionWithUser (db : AuthDb) (token : String) (now : Int) : Option (User × AuthSession) :=
  if token = "" then none
  else (db.liveSession token now).bind fun row =>
    (db.enabledUser row.userId).map fun user => (user, row)

/-- `revoke_session(db, token)`. -/
def revokeSession (db : AuthDb) (token : String) (now : Int) : AuthDb × Bool :=
  if db.sessions.any fun s => s.tokenHash = sha256Text token ∧ s.revokedAt = none then
    ({ db with sessions := db.sessions.map fun s =>
        if s.tokenHash = sha256Text token ∧ s.revokedAt = none then { s with revokedAt := some now }
        else s }, true)
  else (db, false)

/-- `validate_password(password, email=..)`. -/
def validatePassword (password email : String) : Except AuthError Unit :=
  if password.length < passwordMinLength then
    .error (.passwordPolicy ("password must be at least " ++ toString passwordMinLength ++
      " characters"))
  else if passwordMaxLength < password.length then
    .error (.passwordPolicy ("password must be at most " ++ toString passwordMaxLength ++
      " characters"))
  else if PyText.lower (PyText.strip password) = PyText.lower (PyText.strip email) then
    .error (.passwordPolicy "password must not be your email address")
  else .ok ()

/-- The call checks the password against the stored hash. -/
def verifiesPassword (db : AuthDb) (email : String) (now : Int) : Option User :=
  match findUser db email with
  | none => none
  | some user =>
    if user.passwordHash = none then none
    else if user.lockedUntil.any fun lock => now < lock then none
    else some user

/-- The user after a password that did not verify. -/
def User.failed (user : User) (now : Int) : User :=
  if cfg.lockoutThreshold ≤ user.failedLogins + 1 then
    { user with lockedUntil := some (now + minutes cfg.lockoutMinutes), failedLogins := 0 }
  else { user with failedLogins := user.failedLogins + 1 }

/-- The user after a password that did, which may be hashed anew. -/
def User.succeeded (user : User) (stored password salt : String) : User :=
  { user with
    passwordHash := some (if PasswordHashing.checkNeedsRehash stored then
      PasswordHashing.hash salt password else stored)
    failedLogins := 0
    lockedUntil := none }

/-- `login_password(db, email, password)`. -/
def loginPassword (db : AuthDb) (email password : String) (now : Int) (fresh : SessionFresh) :
    Except AuthError (AuthDb × Option Login) :=
  match findUser db email with
  | none => .ok (db, none)
  | some user =>
    match user.passwordHash with
    | none => .ok (db, none)
    | some stored =>
      if user.lockedUntil.any fun lock => now < lock then .ok (db, none)
      else if PasswordHashing.verify stored password then
        let user := user.succeeded stored password fresh.salt
        createSession cfg (db.putUser user) user .password now fresh
      else .ok (db.putUser (user.failed cfg now), none)

/-- The current password, where the session has to prove it. -/
def provesCurrent (user : User) (session : AuthSession) (current : Option String) : Bool :=
  match user.passwordHash with
  | none => true
  | some stored =>
    if session.method = .password then
      match current with
      | none => false
      | some password => password ≠ "" && PasswordHashing.verify stored password
    else true

/-- `set_password(db, user=.., session=.., new_password=.., current_password=..)`. -/
def setPassword (db : AuthDb) (user : User) (session : AuthSession) (newPassword : String)
    (current : Option String) (now : Int) (salt : String) : Except AuthError AuthDb := do
  validatePassword newPassword user.email
  if provesCurrent user session current then
    let db := db.putUser { user with passwordHash := some (PasswordHashing.hash salt newPassword)
                                     failedLogins := 0
                                     lockedUntil := none }
    .ok { db with sessions := db.sessions.map fun s =>
      if s.userId = user.id ∧ s.id ≠ session.id ∧ s.revokedAt = none then
        { s with revokedAt := some now }
      else s }
  else .error .wrongCurrentPassword

/-! ## Runs -/

/-- A call on accounts. A password is set through the session of a token. -/
inductive AuthCall where
  | requestCode (email : String) (fresh : CodeFresh)
  | verifyCode (email code : String) (fresh : SessionFresh)
  | loginPassword (email password : String) (fresh : SessionFresh)
  | setPassword (token newPassword : String) (current : Option String) (salt : String)
  | revokeSession (token : String)
  /-- An account is disabled, or enabled again. -/
  | setDisabled (userId : Uuid) (disabled : Bool)

/-- The database after a call, and the session it opened. -/
def AuthCall.apply (db : AuthDb) (now : Int) : AuthCall → Except AuthError (AuthDb × Option Login)
  | .requestCode email fresh =>
    (Attest.requestCode cfg db email now fresh).map fun out => (out.1, none)
  | .verifyCode email code fresh => Attest.verifyCode cfg db email code now fresh
  | .loginPassword email password fresh => Attest.loginPassword cfg db email password now fresh
  | .setPassword token newPassword current salt =>
    match sessionWithUser db token now with
    | none => .ok (db, none)
    | some (user, session) =>
      (Attest.setPassword db user session newPassword current now salt).map fun db => (db, none)
  | .revokeSession token => .ok ((Attest.revokeSession db token now).1, none)
  | .setDisabled userId disabled =>
    .ok ({ db with users := db.users.map fun u =>
        if u.id = userId then { u with disabled := disabled } else u }, none)

/-- The database after a call. One that raises is rolled back. -/
def AuthCall.exec (db : AuthDb) (now : Int) (call : AuthCall) : AuthDb :=
  match call.apply cfg db now with
  | .ok (db', _) => db'
  | .error _ => db

/-- A call and its time. -/
structure AuthStep where
  now : Int
  call : AuthCall

def runAuth (db : AuthDb) (steps : List AuthStep) : AuthDb :=
  steps.foldl (fun db step => step.call.exec cfg db step.now) db

/-- The steps are in the order of their times. -/
def Timed (steps : List AuthStep) : Prop :=
  steps.Pairwise fun a b => a.now ≤ b.now

/-- There are users, of different ids, and neither codes nor sessions yet. -/
structure AuthStart (db : AuthDb) : Prop where
  codes : db.codes = []
  sessions : db.sessions = []
  ids : (db.users.map User.id).Nodup
  counters : ∀ u ∈ db.users, u.failedLogins = 0

/-! ## What a call does to sessions and users -/

/-- The row of a session that a login opened. -/
structure Opened (db : AuthDb) (now : Int) (login : Login) (row : AuthSession) : Prop where
  userId : row.userId = login.user.id
  tokenHash : row.tokenHash = sha256Text login.token
  expiresAt : row.expiresAt = now + hours cfg.sessionTtlHours
  revokedAt : row.revokedAt = none
  fresh_id : ∀ s ∈ db.sessions, s.id ≠ row.id
  fresh_hash : ∀ s ∈ db.sessions, s.tokenHash ≠ row.tokenHash

/-- The call revokes the row of a session. -/
def AuthCall.revokes (db : AuthDb) (now : Int) : AuthCall → AuthSession → Bool
  | .revokeSession token, s => s.tokenHash = sha256Text token ∧ s.revokedAt = none
  | .setPassword token newPassword current salt, s =>
    match sessionWithUser db token now with
    | none => false
    | some (user, session) =>
      (Attest.setPassword db user session newPassword current now salt).succeeds &&
        (s.userId = user.id ∧ s.id ≠ session.id ∧ s.revokedAt = none)
  | _, _ => false

/-- A row of sessions after a call. -/
def AuthCall.settle (db : AuthDb) (now : Int) (call : AuthCall) (s : AuthSession) : AuthSession :=
  if call.revokes db now s then { s with revokedAt := some now } else s

variable {cfg} {db db' : AuthDb} {now : Int}

theorem createSession_eq_ok {user : User} {method : SessionMethod} {fresh : SessionFresh}
    {login : Option Login} (h : createSession cfg db user method now fresh = .ok (db', login)) :
    ∃ row, Opened cfg db now ⟨user, fresh.token, now + hours cfg.sessionTtlHours⟩ row ∧
      login = some ⟨user, fresh.token, now + hours cfg.sessionTtlHours⟩ ∧
        db' = { db with sessions := db.sessions ++ [row] } := by
  unfold createSession at h
  split at h
  · cases h
  · rename_i hfresh
    simp only [Except.ok.injEq, Prod.mk.injEq] at h
    obtain ⟨rfl, rfl⟩ := h
    have hnew (s : AuthSession) (hs : s ∈ db.sessions) : s.id ≠ fresh.id ∧
        s.tokenHash ≠ sha256Text fresh.token :=
      not_or.mp fun hor => hfresh (List.any_eq_true.mpr ⟨s, hs, decide_eq_true hor⟩)
    exact ⟨_, ⟨rfl, rfl, rfl, rfl, fun s hs => (hnew s hs).1, fun s hs => (hnew s hs).2⟩, rfl, rfl⟩

theorem requestCode_users {email : String} {fresh : CodeFresh} {code : Option String}
    (h : requestCode cfg db email now fresh = .ok (db', code)) :
    db'.users = db.users ∧ db'.sessions = db.sessions := by
  unfold requestCode at h
  split at h
  · rw [← (Prod.mk.inj (Except.ok.inj h)).1]
    exact ⟨rfl, rfl⟩
  · split at h
    · rw [← (Prod.mk.inj (Except.ok.inj h)).1]
      exact ⟨rfl, rfl⟩
    · split at h
      · cases h
      · rw [← (Prod.mk.inj (Except.ok.inj h)).1]
        exact ⟨rfl, rfl⟩

/-- A code that is guessed is spent or burns, before a session is opened for it. -/
theorem verifyCode_eq_ok {email code : String} {fresh : SessionFresh} {login : Option Login}
    (h : verifyCode cfg db email code now fresh = .ok (db', login)) :
    (login = none ∧ db'.sessions = db.sessions ∧ db'.users = db.users) ∨
      ∃ user method db₁, findUser db email = some user ∧ db₁.sessions = db.sessions ∧
        db₁.users = db.users ∧ createSession cfg db₁ user method now fresh = .ok (db', login) := by
  unfold verifyCode at h
  cases huser : findUser db email with
  | none =>
    simp only [huser, Except.ok.injEq, Prod.mk.injEq] at h
    obtain ⟨rfl, rfl⟩ := h
    exact Or.inl ⟨rfl, rfl, rfl⟩
  | some user =>
    cases hcandidate : db.candidate user.id now with
    | none =>
      simp only [huser, hcandidate, Except.ok.injEq, Prod.mk.injEq] at h
      obtain ⟨rfl, rfl⟩ := h
      exact Or.inl ⟨rfl, rfl, rfl⟩
    | some candidate =>
      simp only [huser, hcandidate] at h
      split at h
      · simp only [Except.ok.injEq, Prod.mk.injEq] at h
        obtain ⟨rfl, rfl⟩ := h
        exact Or.inl ⟨rfl, rfl, rfl⟩
      · split at h
        · simp only [Except.ok.injEq, Prod.mk.injEq] at h
          obtain ⟨rfl, rfl⟩ := h
          exact Or.inl ⟨rfl, rfl, rfl⟩
        · refine Or.inr ⟨user, .code, db.putCode { candidate with
            attempts := candidate.attempts + 1
            usedAt := some now }, rfl, rfl, rfl, h⟩

variable (cfg) in
/-- A password that is checked, and what the login does then. -/
theorem verifiesPassword_spec {email : String} (password : String) (fresh : SessionFresh)
    {user : User} (h : verifiesPassword db email now = some user) :
    user ∈ db.users ∧ (∀ lock, user.lockedUntil = some lock → lock ≤ now) ∧
      ∃ stored, user.passwordHash = some stored ∧
        loginPassword cfg db email password now fresh =
          if PasswordHashing.verify stored password then
            createSession cfg (db.putUser (user.succeeded stored password fresh.salt))
              (user.succeeded stored password fresh.salt) .password now fresh
          else .ok (db.putUser (user.failed cfg now), none) := by
  unfold verifiesPassword at h
  unfold loginPassword
  cases hfound : findUser db email with
  | none => simp [hfound] at h
  | some found =>
    cases hstored : found.passwordHash with
    | none => simp [hfound, hstored] at h
    | some stored =>
      by_cases hlocked : (found.lockedUntil.any fun lock => now < lock) = true
      · simp [hfound, hstored, hlocked] at h
      · have huser : found = user := by simpa [hfound, hstored, hlocked] using h
        subst huser
        refine ⟨List.mem_of_find?_eq_some hfound, fun lock hlock => ?_, stored, hstored, ?_⟩
        · rw [hlock] at hlocked
          simpa using hlocked
        · simp only [hstored, if_neg hlocked]

theorem loginPassword_of_unchecked {email password : String} {fresh : SessionFresh}
    (h : verifiesPassword db email now = none) :
    loginPassword cfg db email password now fresh = .ok (db, none) := by
  unfold verifiesPassword at h
  unfold loginPassword
  cases hfound : findUser db email with
  | none => rfl
  | some found =>
    cases hstored : found.passwordHash with
    | none => simp only [hstored]
    | some stored =>
      have hlocked : (found.lockedUntil.any fun lock => now < lock) = true := by
        simpa [hfound, hstored] using h
      simp only [hstored, if_pos hlocked]

/-- A password that is checked against the hash fails, or opens a session. -/
theorem loginPassword_eq_ok {email password : String} {fresh : SessionFresh} {login : Option Login}
    (h : loginPassword cfg db email password now fresh = .ok (db', login)) :
    (login = none ∧ db' = db ∧ verifiesPassword db email now = none) ∨
      ∃ user stored, verifiesPassword db email now = some user ∧ user.passwordHash = some stored ∧
        ((login = none ∧ PasswordHashing.verify stored password = false ∧
            db' = db.putUser (user.failed cfg now)) ∨
          (PasswordHashing.verify stored password = true ∧
            createSession cfg (db.putUser (user.succeeded stored password fresh.salt))
                (user.succeeded stored password fresh.salt) .password now fresh =
              .ok (db', login))) := by
  cases hchecked : verifiesPassword db email now with
  | none =>
    rw [loginPassword_of_unchecked hchecked] at h
    obtain ⟨rfl, rfl⟩ := Prod.mk.inj (Except.ok.inj h)
    exact Or.inl ⟨rfl, rfl, rfl⟩
  | some user =>
    obtain ⟨-, -, stored, hstored, hlogin⟩ :=
      verifiesPassword_spec cfg password fresh hchecked
    rw [hlogin] at h
    refine Or.inr ⟨user, stored, rfl, hstored, ?_⟩
    by_cases hverify : PasswordHashing.verify stored password = true
    · rw [if_pos hverify] at h
      exact Or.inr ⟨hverify, h⟩
    · rw [if_neg hverify] at h
      obtain ⟨rfl, rfl⟩ := Prod.mk.inj (Except.ok.inj h)
      exact Or.inl ⟨rfl, by simpa using hverify, rfl⟩

/-- A password that is set is stored, and the other sessions of the user are revoked. -/
theorem setPassword_eq_ok {user : User} {session : AuthSession} {newPassword : String}
    {current : Option String} {salt : String}
    (h : setPassword db user session newPassword current now salt = .ok db') :
    db' = { db.putUser { user with
              passwordHash := some (PasswordHashing.hash salt newPassword)
              failedLogins := 0
              lockedUntil := none } with
            sessions := db.sessions.map fun s =>
              if s.userId = user.id ∧ s.id ≠ session.id ∧ s.revokedAt = none then
                { s with revokedAt := some now }
              else s } := by
  simp only [setPassword, Except.bind_eq_ok] at h
  obtain ⟨_, -, h⟩ := h
  split at h
  · exact (Except.ok.inj h).symm
  · cases h

theorem liveSession_spec {token : String} {s : AuthSession}
    (h : db.liveSession token now = some s) :
    s ∈ db.sessions ∧ s.tokenHash = sha256Text token ∧ s.revokedAt = none ∧ now < s.expiresAt := by
  have hs := List.find?_some h
  simp only [decide_eq_true_eq] at hs
  exact ⟨List.mem_of_find?_eq_some h, hs⟩

theorem enabledUser_spec {userId : Uuid} {u : User} (h : db.enabledUser userId = some u) :
    u ∈ db.users ∧ u.id = userId ∧ u.disabled = false := by
  have hu := List.find?_some h
  simp only [decide_eq_true_eq] at hu
  exact ⟨List.mem_of_find?_eq_some h, hu⟩

theorem sessionUser_spec {token : String} {u : User} (h : sessionUser db token now = some u) :
    token ≠ "" ∧ ∃ s, db.liveSession token now = some s ∧ db.enabledUser s.userId = some u := by
  unfold sessionUser at h
  split at h
  · cases h
  · rename_i hne
    exact ⟨hne, Option.bind_eq_some_iff.mp h⟩

theorem sessionWithUser_spec {token : String} {u : User} {s : AuthSession}
    (h : sessionWithUser db token now = some (u, s)) :
    db.liveSession token now = some s ∧ db.enabledUser s.userId = some u := by
  unfold sessionWithUser at h
  split at h
  · cases h
  · obtain ⟨row, hrow, hmap⟩ := Option.bind_eq_some_iff.mp h
    obtain ⟨user, huser, heq⟩ := Option.map_eq_some_iff.mp hmap
    obtain ⟨rfl, rfl⟩ := Prod.mk.inj heq
    exact ⟨hrow, huser⟩

/-- Only the two logins return a session, and what they open is appended. -/
theorem AuthCall.apply_sessions {call : AuthCall} {login : Option Login}
    (h : call.apply cfg db now = .ok (db', login)) :
    ∃ new, db'.sessions = db.sessions.map (call.settle db now) ++ new ∧
      ((new = [] ∧ login = none) ∨ ∃ l row, login = some l ∧ new = [row] ∧
        Opened cfg db now l row ∧ l.expiresAt = now + hours cfg.sessionTtlHours) := by
  have hkept {db₁ : AuthDb} {call : AuthCall} (hnone : ∀ s, call.revokes db now s = false)
      (hsame : db₁.sessions = db.sessions) :
      db₁.sessions = db.sessions.map (call.settle db now) ++ [] := by
    rw [List.append_nil, hsame]
    refine (List.map_id _).symm.trans (List.map_congr_left fun s _ => ?_)
    rw [AuthCall.settle, hnone s]
    rfl
  have hopened {db₁ : AuthDb} {user : User} {method : SessionMethod} {fresh : SessionFresh}
      {call : AuthCall} (hnone : ∀ s, call.revokes db now s = false)
      (hsame : db₁.sessions = db.sessions)
      (hcreate : createSession cfg db₁ user method now fresh = .ok (db', login)) :
      ∃ new, db'.sessions = db.sessions.map (call.settle db now) ++ new ∧
        ((new = [] ∧ login = none) ∨ ∃ l row, login = some l ∧ new = [row] ∧
          Opened cfg db now l row ∧ l.expiresAt = now + hours cfg.sessionTtlHours) := by
    obtain ⟨row, hrow, rfl, rfl⟩ := createSession_eq_ok hcreate
    have hold := hkept hnone hsame
    rw [List.append_nil] at hold
    refine ⟨[row], by rw [← hold], Or.inr ⟨_, row, rfl, rfl, ?_, rfl⟩⟩
    exact ⟨hrow.userId, hrow.tokenHash, hrow.expiresAt, hrow.revokedAt, hsame ▸ hrow.fresh_id,
      hsame ▸ hrow.fresh_hash⟩
  cases call with
  | requestCode email fresh =>
    obtain ⟨out, hout, heq⟩ := Except.map_eq_ok.mp h
    obtain ⟨rfl, rfl⟩ := Prod.mk.inj heq
    exact ⟨[], hkept (fun _ => rfl) (requestCode_users hout).2, Or.inl ⟨rfl, rfl⟩⟩
  | verifyCode email code fresh =>
    rcases verifyCode_eq_ok h with ⟨rfl, hsame, -⟩ | ⟨user, method, db₁, -, hsame, -, hcreate⟩
    · exact ⟨[], hkept (fun _ => rfl) hsame, Or.inl ⟨rfl, rfl⟩⟩
    · exact hopened (fun _ => rfl) hsame hcreate
  | loginPassword email password fresh =>
    rcases loginPassword_eq_ok h with ⟨rfl, rfl, -⟩ | ⟨user, stored, -, -, hcases⟩
    · exact ⟨[], hkept (fun _ => rfl) rfl, Or.inl ⟨rfl, rfl⟩⟩
    · rcases hcases with ⟨rfl, -, rfl⟩ | ⟨-, hcreate⟩
      · exact ⟨[], hkept (fun _ => rfl) rfl, Or.inl ⟨rfl, rfl⟩⟩
      · have hsame : (db.putUser (user.succeeded stored password fresh.salt)).sessions =
          db.sessions := rfl
        exact hopened (fun _ => rfl) hsame hcreate
  | setPassword token newPassword current salt =>
    cases hfound : sessionWithUser db token now with
    | none =>
      simp only [AuthCall.apply, hfound, Except.ok.injEq, Prod.mk.injEq] at h
      obtain ⟨rfl, rfl⟩ := h
      exact ⟨[], hkept (fun s => by simp [AuthCall.revokes, hfound]) rfl, Or.inl ⟨rfl, rfl⟩⟩
    | some found =>
      obtain ⟨user, session⟩ := found
      simp only [AuthCall.apply, hfound] at h
      obtain ⟨db₁, hset, heq⟩ := Except.map_eq_ok.mp h
      obtain ⟨rfl, rfl⟩ := Prod.mk.inj heq
      refine ⟨[], ?_, Or.inl ⟨rfl, rfl⟩⟩
      rw [setPassword_eq_ok hset, List.append_nil]
      refine List.map_congr_left fun s _ => ?_
      simp [AuthCall.settle, AuthCall.revokes, hfound, hset, Except.succeeds]
  | revokeSession token =>
    obtain ⟨rfl, rfl⟩ := Prod.mk.inj (Except.ok.inj h)
    refine ⟨[], ?_, Or.inl ⟨rfl, rfl⟩⟩
    rw [List.append_nil, Attest.revokeSession]
    split
    · refine List.map_congr_left fun s _ => ?_
      simp [AuthCall.settle, AuthCall.revokes]
    · rename_i hnone
      refine (List.map_id _).symm.trans (List.map_congr_left fun s hs => ?_)
      have hs' : ¬ (s.tokenHash = sha256Text token ∧ s.revokedAt = none) := fun hboth =>
        hnone (List.any_eq_true.mpr ⟨s, hs, decide_eq_true hboth⟩)
      simp [AuthCall.settle, AuthCall.revokes, hs']
  | setDisabled userId disabled =>
    obtain ⟨rfl, rfl⟩ := Prod.mk.inj (Except.ok.inj h)
    exact ⟨[], hkept (fun _ => rfl) rfl, Or.inl ⟨rfl, rfl⟩⟩

/-- A call that raises revokes nothing. -/
theorem AuthCall.revokes_of_error {call : AuthCall} {e : AuthError}
    (h : call.apply cfg db now = .error e) (s : AuthSession) : call.revokes db now s = false := by
  cases call with
  | setPassword token newPassword current salt =>
    cases hfound : sessionWithUser db token now with
    | none => simp [AuthCall.revokes, hfound]
    | some found =>
      obtain ⟨user, session⟩ := found
      cases hset : Attest.setPassword db user session newPassword current now salt with
      | error e' => simp [AuthCall.revokes, hfound, hset, Except.succeeds]
      | ok db₁ => simp [AuthCall.apply, hfound, hset, Except.map] at h
  | revokeSession token => cases h
  | _ => rfl

variable (cfg db now) in
/-- The rows of sessions after a call. -/
theorem AuthCall.exec_sessions (call : AuthCall) :
    ∃ new, (call.exec cfg db now).sessions = db.sessions.map (call.settle db now) ++ new ∧
      (new = [] ∨ ∃ db' l row, call.apply cfg db now = .ok (db', some l) ∧ new = [row] ∧
        Opened cfg db now l row) := by
  unfold AuthCall.exec
  cases happly : call.apply cfg db now with
  | error e =>
    refine ⟨[], ?_, Or.inl rfl⟩
    rw [List.append_nil]
    refine (List.map_id _).symm.trans (List.map_congr_left fun s _ => ?_)
    rw [AuthCall.settle, AuthCall.revokes_of_error happly s]
    rfl
  | ok out =>
    obtain ⟨db', login⟩ := out
    obtain ⟨new, hsessions, hnew⟩ := AuthCall.apply_sessions happly
    refine ⟨new, hsessions, ?_⟩
    rcases hnew with ⟨rfl, -⟩ | ⟨l, row, rfl, rfl, hrow, -⟩
    · exact Or.inl rfl
    · exact Or.inr ⟨db', l, row, rfl, rfl, hrow⟩

theorem AuthDb.putUser_ids (user : User) :
    (db.putUser user).users.map User.id = db.users.map User.id := by
  simp only [AuthDb.putUser, List.map_map]
  refine List.map_congr_left fun u _ => ?_
  simp only [Function.comp_apply]
  split
  · rename_i heq
    exact heq.symm
  · rfl

/-- No call adds a user or takes one away. -/
theorem AuthCall.exec_ids (call : AuthCall) :
    (call.exec cfg db now).users.map User.id = db.users.map User.id := by
  unfold AuthCall.exec
  cases happly : call.apply cfg db now with
  | error e => rfl
  | ok out =>
    obtain ⟨db', login⟩ := out
    cases call with
    | requestCode email fresh =>
      obtain ⟨out, hout, heq⟩ := Except.map_eq_ok.mp happly
      obtain ⟨rfl, rfl⟩ := Prod.mk.inj heq
      rw [(requestCode_users hout).1]
    | verifyCode email code fresh =>
      rcases verifyCode_eq_ok happly with ⟨-, -, husers⟩ | ⟨_, _, db₁, -, -, husers, hcreate⟩
      · rw [husers]
      · obtain ⟨row, -, -, rfl⟩ := createSession_eq_ok hcreate
        exact congrArg (List.map User.id) husers
    | loginPassword email password fresh =>
      rcases loginPassword_eq_ok happly with ⟨-, rfl, -⟩ | ⟨user, stored, -, -, hcases⟩
      · rfl
      · rcases hcases with ⟨-, -, rfl⟩ | ⟨-, hcreate⟩
        · exact AuthDb.putUser_ids _
        · obtain ⟨row, -, -, rfl⟩ := createSession_eq_ok hcreate
          exact AuthDb.putUser_ids _
    | setPassword token newPassword current salt =>
      cases hfound : sessionWithUser db token now with
      | none =>
        simp only [AuthCall.apply, hfound, Except.ok.injEq, Prod.mk.injEq] at happly
        rw [← happly.1]
      | some found =>
        obtain ⟨user, session⟩ := found
        simp only [AuthCall.apply, hfound] at happly
        obtain ⟨db₁, hset, heq⟩ := Except.map_eq_ok.mp happly
        obtain ⟨rfl, rfl⟩ := Prod.mk.inj heq
        rw [setPassword_eq_ok hset]
        exact AuthDb.putUser_ids _
    | revokeSession token =>
      obtain ⟨rfl, rfl⟩ := Prod.mk.inj (Except.ok.inj happly)
      change (Attest.revokeSession db token now).1.users.map User.id = db.users.map User.id
      rw [Attest.revokeSession]
      split <;> rfl
    | setDisabled userId disabled =>
      obtain ⟨rfl, rfl⟩ := Prod.mk.inj (Except.ok.inj happly)
      simp only [List.map_map]
      refine List.map_congr_left fun u _ => ?_
      simp only [Function.comp_apply]
      split <;> rfl

theorem runAuth_append (start : AuthDb) (steps later : List AuthStep) :
    runAuth cfg start (steps ++ later) = runAuth cfg (runAuth cfg start steps) later :=
  List.foldl_append

theorem runAuth_ids (start : AuthDb) (steps : List AuthStep) :
    (runAuth cfg start steps).users.map User.id = start.users.map User.id := by
  induction steps using List.reverseRecOn with
  | nil => rfl
  | append_singleton steps step ih =>
    rw [runAuth_append]
    exact (AuthCall.exec_ids step.call).trans ih

/-- In a run the users keep their different ids. -/
theorem AuthStart.nodup_ids {start : AuthDb} (hstart : AuthStart start) (steps : List AuthStep) :
    ((runAuth cfg start steps).users.map User.id).Nodup := by
  rw [runAuth_ids]
  exact hstart.ids

end Calls

/-! ## A small directory -/

namespace AuthSample

scoped instance : PyUnicode := .ascii

/-- Hashes that show the password, under one salt. -/
scoped instance : PasswordHashing where
  hash salt password := "$" ++ salt ++ "$" ++ password
  verify hash password := hash = "$salt$" ++ password
  checkNeedsRehash _ := false

def alice : User where
  id := Uuid.ofNat 1
  orgId := "org-1"
  email := "alice@example.com"
  displayName := "Alice"
  role := "officer"
  passwordHash := some "$salt$correct horse"
  failedLogins := 0
  lockedUntil := none
  disabled := false

def accounts : AuthDb where
  users := [alice]
  codes := []
  sessions := []

def loginOfAlice : AuthCall :=
  .loginPassword "alice@example.com" "correct horse" ⟨Uuid.ofNat 1, "token", "salt"⟩

end AuthSample

end Attest
