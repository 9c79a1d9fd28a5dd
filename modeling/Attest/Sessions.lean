import Attest.HumanAuth

/-!
# Sessions over a run

A token that is accepted was issued to the user it is accepted for by one of the two logins,
less than a session's lifetime ago, and no call has ended it since (`session_soundness`). The
invariant is `Traced` : every row of a session was opened by a call of the run, and while the
row is not revoked no later call was one that ends it (`AuthCall.Ends`). A row is never taken
away, revoked rows stay revoked and a row keeps its expiry (`Outlives`), so a token that was
revoked or has expired is never accepted again.

A revocation finds the row by the hash of the token, and a new password spares the row of the
session that set it. Both need that the tokens of the run have different hashes
(`CollisionFree`).
-/

set_option linter.unusedSectionVars false

namespace Attest

section Sessions

variable [PyUnicode] [PasswordHashing] (cfg : AuthSettings)

/-! ## Issued and ended -/

/-- The token a call draws or is made with. -/
def AuthCall.token : AuthCall → Option String
  | .verifyCode _ _ fresh => some fresh.token
  | .loginPassword _ _ fresh => some fresh.token
  | .setPassword token _ _ _ => some token
  | .revokeSession token => some token
  | _ => none

/-- Different tokens have different hashes. -/
def CollisionFree (tokens : List String) : Prop :=
  ∀ a ∈ tokens, ∀ b ∈ tokens, sha256Text a = sha256Text b → a = b

/-- The call is a login. -/
def AuthCall.LogsIn : AuthCall → Prop
  | .verifyCode .. => True
  | .loginPassword .. => True
  | _ => False

/-- The call revokes the token, or sets the password of the user through another session. -/
def AuthCall.Ends (db : AuthDb) (now : Int) (userId : Uuid) (token : String) : AuthCall → Prop
  | .revokeSession token' => token' = token
  | .setPassword token' newPassword current salt =>
    token' ≠ token ∧ ∃ user session, sessionWithUser db token' now = some (user, session) ∧
      user.id = userId ∧
      (Attest.setPassword db user session newPassword current now salt).succeeds = true
  | _ => False

/-- The `i`-th call of a run is a login that opened a session for the user. -/
def IssuedAt (start : AuthDb) (steps : List AuthStep) (i : Nat) (userId : Uuid) (token : String)
    (issued : Int) : Prop :=
  ∃ step db login, steps[i]? = some step ∧ step.now = issued ∧ step.call.LogsIn ∧
    step.call.apply cfg (runAuth cfg start (steps.take i)) step.now = .ok (db, some login) ∧
    login.user.id = userId ∧ login.token = token

/-- No later call of the run ended it. -/
def KeptSince (start : AuthDb) (steps : List AuthStep) (i : Nat) (userId : Uuid) (token : String) :
    Prop :=
  ∀ j step, i < j → steps[j]? = some step →
    ¬ step.call.Ends (runAuth cfg start (steps.take j)) step.now userId token

/-- The session of the token is revoked or has expired. -/
def AuthDb.Ended (db : AuthDb) (token : String) (now : Int) : Prop :=
  ∃ s ∈ db.sessions, s.tokenHash = sha256Text token ∧ (s.revokedAt ≠ none ∨ s.expiresAt ≤ now)

variable {cfg} {start db : AuthDb} {steps : List AuthStep} {step : AuthStep} {i : Nat}
  {userId : Uuid} {token : String} {issued now : Int}

theorem IssuedAt.lt_length (h : IssuedAt cfg start steps i userId token issued) :
    i < steps.length := by
  obtain ⟨step, _, _, hstep, -⟩ := h
  exact (List.getElem?_eq_some_iff.mp hstep).1

theorem IssuedAt.append (h : IssuedAt cfg start steps i userId token issued)
    (later : List AuthStep) : IssuedAt cfg start (steps ++ later) i userId token issued := by
  have hi := h.lt_length
  obtain ⟨step, db, login, hstep, hnow, hlogs, happly, hrest⟩ := h
  refine ⟨step, db, login, ?_, hnow, hlogs, ?_, hrest⟩
  · rw [List.getElem?_append_left hi, hstep]
  · rwa [List.take_append_of_le_length hi.le]

/-- The call that is made last issues its session at the end of the run. -/
theorem IssuedAt.last {db' : AuthDb} {login : Login} (hlogs : step.call.LogsIn)
    (h : step.call.apply cfg (runAuth cfg start steps) step.now = .ok (db', some login)) :
    IssuedAt cfg start (steps ++ [step]) steps.length login.user.id login.token step.now := by
  refine ⟨step, db', login, ?_, rfl, hlogs, ?_, rfl, rfl⟩
  · rw [List.getElem?_append_right le_rfl, Nat.sub_self, List.getElem?_cons_zero]
  · rwa [List.take_append_of_le_length le_rfl, List.take_length]

/-- A run that goes one call further keeps a session where that call does not end it. -/
theorem KeptSince.append (h : KeptSince cfg start steps i userId token)
    (hlast : ¬ step.call.Ends (runAuth cfg start steps) step.now userId token) :
    KeptSince cfg start (steps ++ [step]) i userId token := by
  intro j step' hij hstep'
  rcases Nat.lt_or_ge j steps.length with hj | hj
  · rw [List.getElem?_append_left hj] at hstep'
    rw [List.take_append_of_le_length hj.le]
    exact h j step' hij hstep'
  · rw [List.getElem?_append_right hj] at hstep'
    have hj' : j = steps.length := by
      have := (List.getElem?_eq_some_iff.mp hstep').1
      rw [List.length_singleton] at this
      omega
    subst hj'
    rw [Nat.sub_self, List.getElem?_cons_zero, Option.some.injEq] at hstep'
    rw [← hstep', List.take_append_of_le_length le_rfl, List.take_length]
    exact hlast

theorem KeptSince.last : KeptSince cfg start (steps ++ [step]) steps.length userId token := by
  intro j step' hj hstep'
  have := (List.getElem?_eq_some_iff.mp hstep').1
  rw [List.length_append, List.length_singleton] at this
  omega

/-- Only a login returns a session. -/
theorem AuthCall.logsIn {call : AuthCall} {db' : AuthDb} {login : Login}
    (h : call.apply cfg db now = .ok (db', some login)) : call.LogsIn := by
  cases call with
  | verifyCode email code fresh => exact trivial
  | loginPassword email password fresh => exact trivial
  | requestCode email fresh =>
    obtain ⟨out, -, heq⟩ := Except.map_eq_ok.mp h
    cases (Prod.mk.inj heq).2
  | setPassword token newPassword current salt =>
    simp only [AuthCall.apply] at h
    split at h
    · cases (Prod.mk.inj (Except.ok.inj h)).2
    · obtain ⟨out, -, heq⟩ := Except.map_eq_ok.mp h
      cases (Prod.mk.inj heq).2
  | revokeSession token => cases (Prod.mk.inj (Except.ok.inj h)).2
  | setDisabled userId disabled => cases (Prod.mk.inj (Except.ok.inj h)).2

/-- The token of a session a login returns is the one it drew. -/
theorem AuthCall.token_of_apply {call : AuthCall} {db' : AuthDb} {login : Login}
    (h : call.apply cfg db now = .ok (db', some login)) : call.token = some login.token := by
  cases call with
  | verifyCode email code fresh =>
    rcases verifyCode_eq_ok h with ⟨hnone, -⟩ | ⟨user, method, db₁, -, -, -, hcreate⟩
    · cases hnone
    · obtain ⟨row, -, hlogin, -⟩ := createSession_eq_ok hcreate
      rw [Option.some.inj hlogin]
      rfl
  | loginPassword email password fresh =>
    rcases loginPassword_eq_ok h with ⟨hnone, -⟩ | ⟨user, stored, -, -, hcases⟩
    · cases hnone
    · rcases hcases with ⟨hnone, -⟩ | ⟨-, hcreate⟩
      · cases hnone
      · obtain ⟨row, -, hlogin, -⟩ := createSession_eq_ok hcreate
        rw [Option.some.inj hlogin]
        rfl
  | _ => exact (AuthCall.logsIn h).elim

/-! ## Rows over a run -/

variable (db now) in
theorem AuthCall.settle_spec (call : AuthCall) (s : AuthSession) :
    (call.settle db now s).id = s.id ∧ (call.settle db now s).userId = s.userId ∧
      (call.settle db now s).tokenHash = s.tokenHash ∧
      (call.settle db now s).expiresAt = s.expiresAt ∧
      ((call.settle db now s).revokedAt = none ↔
        s.revokedAt = none ∧ call.revokes db now s = false) := by
  unfold AuthCall.settle
  by_cases h : call.revokes db now s = true
  · simp [h]
  · simp [h]

/-- The ids of the rows of sessions differ, and so do their hashes. -/
def Distinct (db : AuthDb) : Prop :=
  (db.sessions.map AuthSession.id).Nodup ∧ (db.sessions.map AuthSession.tokenHash).Nodup

theorem Distinct.exec (h : Distinct db) (call : AuthCall) : Distinct (call.exec cfg db now) := by
  obtain ⟨new, hsessions, hnew⟩ := AuthCall.exec_sessions cfg db now call
  have hid : (db.sessions.map (call.settle db now)).map AuthSession.id =
      db.sessions.map AuthSession.id := by
    rw [List.map_map]
    exact List.map_congr_left fun s _ => (AuthCall.settle_spec _ _ call s).1
  have hhash : (db.sessions.map (call.settle db now)).map AuthSession.tokenHash =
      db.sessions.map AuthSession.tokenHash := by
    rw [List.map_map]
    exact List.map_congr_left fun s _ => (AuthCall.settle_spec _ _ call s).2.2.1
  unfold Distinct
  rw [hsessions, List.map_append, List.map_append, hid, hhash]
  rcases hnew with rfl | ⟨_, _, row, -, rfl, hrow⟩
  · rw [List.map_nil, List.append_nil, List.map_nil, List.append_nil]
    exact h
  · have happend {α : Type} {f : AuthSession → α} (hnodup : (db.sessions.map f).Nodup)
        (hne : ∀ s ∈ db.sessions, f s ≠ f row) : (db.sessions.map f ++ [row].map f).Nodup := by
      refine List.nodup_append.mpr ⟨hnodup, List.nodup_singleton _, ?_⟩
      intro a ha b hb heq
      obtain ⟨s, hs, rfl⟩ := List.mem_map.mp ha
      exact hne s hs (heq.trans (List.mem_singleton.mp hb))
    exact ⟨happend h.1 hrow.fresh_id, happend h.2 hrow.fresh_hash⟩

variable (cfg) in
theorem AuthStart.distinct (hstart : AuthStart start) (steps : List AuthStep) :
    Distinct (runAuth cfg start steps) := by
  induction steps using List.reverseRecOn with
  | nil =>
    change Distinct start
    unfold Distinct
    rw [hstart.sessions]
    exact ⟨List.nodup_nil, List.nodup_nil⟩
  | append_singleton steps step ih =>
    rw [runAuth_append]
    exact ih.exec step.call

/-- A call that ends a session revokes its row, if it still is not revoked. -/
theorem AuthCall.Ends.revokes {call : AuthCall} {s : AuthSession} (hdistinct : Distinct db)
    (hs : s ∈ db.sessions) (hhash : s.tokenHash = sha256Text token) (hlive : s.revokedAt = none)
    (hinj : ∀ t ∈ call.token, sha256Text t = sha256Text token → t = token)
    (h : call.Ends db now s.userId token) : call.revokes db now s = true := by
  cases call with
  | revokeSession token' =>
    obtain rfl : token' = token := h
    exact decide_eq_true ⟨hhash, hlive⟩
  | setPassword token' newPassword current salt =>
    obtain ⟨hother, user, session, hfound, huser, hsucceeds⟩ := h
    obtain ⟨hsession, -⟩ := sessionWithUser_spec hfound
    obtain ⟨hmem, hhash', -⟩ := liveSession_spec hsession
    have hid : s.id ≠ session.id := fun heq => by
      have hrow := List.inj_on_of_nodup_map hdistinct.1 hs hmem heq
      rw [hrow, hhash'] at hhash
      exact hother (hinj token' rfl hhash)
    simp only [AuthCall.revokes, hfound, hsucceeds, Bool.true_and]
    exact decide_eq_true ⟨huser.symm, hid, hlive⟩
  | requestCode email fresh => exact h.elim
  | verifyCode email code fresh => exact h.elim
  | loginPassword email password fresh => exact h.elim
  | setDisabled userId disabled => exact h.elim

/-! ## Where a row comes from -/

variable (cfg) in
/-- The row was opened by a call of the run, and while it is not revoked no later call was one
that ends it. -/
def Traced (start : AuthDb) (steps : List AuthStep) (s : AuthSession) : Prop :=
  ∃ i token issued, IssuedAt cfg start steps i s.userId token issued ∧
    s.tokenHash = sha256Text token ∧ s.expiresAt = issued + hours cfg.sessionTtlHours ∧
    (s.revokedAt = none → KeptSince cfg start steps i s.userId token)

/-- The tokens of a run. -/
def tokensOf (steps : List AuthStep) : List String :=
  steps.filterMap fun step => step.call.token

theorem IssuedAt.mem_tokensOf (h : IssuedAt cfg start steps i userId token issued) :
    token ∈ tokensOf steps := by
  obtain ⟨step, db, login, hstep, -, -, happly, -, rfl⟩ := h
  exact List.mem_filterMap.mpr
    ⟨step, List.mem_of_getElem? hstep, AuthCall.token_of_apply happly⟩

/-- A row of before the last call, after it. -/
theorem Traced.settle {s : AuthSession} (hdistinct : Distinct (runAuth cfg start steps))
    (hs : s ∈ (runAuth cfg start steps).sessions)
    (hhashes : CollisionFree (tokensOf (steps ++ [step])))
    (h : Traced cfg start steps s) :
    Traced cfg start (steps ++ [step])
      (step.call.settle (runAuth cfg start steps) step.now s) := by
  obtain ⟨i, token, issued, hissued, hhash, hexpires, hkept⟩ := h
  obtain ⟨-, huser, hhash', hexpires', hrevoked⟩ :=
    AuthCall.settle_spec (runAuth cfg start steps) step.now step.call s
  refine ⟨i, token, issued, ?_, hhash'.trans hhash, hexpires'.trans hexpires, ?_⟩
  · rw [huser]
    exact hissued.append [step]
  · rw [hrevoked, huser]
    rintro ⟨hlive, hspared⟩
    refine (hkept hlive).append fun hends => ?_
    have hrevokes := hends.revokes hdistinct hs hhash hlive fun t ht => by
      refine hhashes t ?_ token (hissued.append [step]).mem_tokensOf
      exact List.mem_filterMap.mpr ⟨step, by simp, ht⟩
    rw [hspared] at hrevokes
    cases hrevokes

theorem AuthStart.traced (hstart : AuthStart start) (steps : List AuthStep)
    (hhashes : CollisionFree (tokensOf steps)) :
    ∀ s ∈ (runAuth cfg start steps).sessions, Traced cfg start steps s := by
  induction steps using List.reverseRecOn with
  | nil =>
    intro s hs
    rw [show (runAuth cfg start []).sessions = [] from hstart.sessions] at hs
    cases hs
  | append_singleton steps step ih =>
    have hearlier : CollisionFree (tokensOf steps) := fun a ha b hb => by
      unfold tokensOf at hhashes
      rw [List.filterMap_append] at hhashes
      exact hhashes a (List.mem_append_left _ ha) b (List.mem_append_left _ hb)
    intro s hs
    rw [runAuth_append] at hs
    obtain ⟨new, hsessions, hnew⟩ := AuthCall.exec_sessions cfg
      (runAuth cfg start steps) step.now step.call
    change s ∈ (step.call.exec cfg (runAuth cfg start steps) step.now).sessions at hs
    rw [hsessions] at hs
    rcases List.mem_append.mp hs with hs | hs
    · obtain ⟨old, hold, rfl⟩ := List.mem_map.mp hs
      exact (ih hearlier old hold).settle (hstart.distinct cfg steps) hold hhashes
    · rcases hnew with rfl | ⟨db', login, row, happly, rfl, hrow⟩
      · cases hs
      · obtain rfl := List.mem_singleton.mp hs
        refine ⟨steps.length, login.token, step.now, ?_, hrow.tokenHash, hrow.expiresAt,
          fun _ => KeptSince.last⟩
        rw [hrow.userId]
        exact IssuedAt.last (AuthCall.logsIn happly) happly

/-! ## Rows stay ended -/

/-- The rows of one state, in a later one. -/
def Outlives (db later : AuthDb) : Prop :=
  ∀ s ∈ db.sessions, ∃ s' ∈ later.sessions, s'.tokenHash = s.tokenHash ∧ s'.userId = s.userId ∧
    s'.expiresAt = s.expiresAt ∧ (s.revokedAt ≠ none → s'.revokedAt ≠ none)

variable (cfg now) in
theorem outlives_exec (call : AuthCall) : Outlives db (call.exec cfg db now) := by
  intro s hs
  obtain ⟨new, hsessions, -⟩ := AuthCall.exec_sessions cfg db now call
  obtain ⟨-, huser, hhash, hexpires, hrevoked⟩ :=
    AuthCall.settle_spec db now call s
  refine ⟨call.settle db now s, ?_, hhash, huser, hexpires, fun h h' => h (hrevoked.mp h').1⟩
  rw [hsessions]
  exact List.mem_append_left _ (List.mem_map_of_mem hs)

variable (cfg) in
theorem outlives_runAuth (db : AuthDb) (steps : List AuthStep) :
    Outlives db (runAuth cfg db steps) := by
  induction steps using List.reverseRecOn with
  | nil => exact fun s hs => ⟨s, hs, rfl, rfl, rfl, id⟩
  | append_singleton steps step ih =>
    intro s hs
    obtain ⟨s₁, hs₁, hhash₁, huser₁, hexpires₁, hrevoked₁⟩ := ih s hs
    rw [runAuth_append]
    obtain ⟨s₂, hs₂, hhash₂, huser₂, hexpires₂, hrevoked₂⟩ :=
      outlives_exec cfg step.now step.call s₁ hs₁
    exact ⟨s₂, hs₂, hhash₂.trans hhash₁, huser₂.trans huser₁, hexpires₂.trans hexpires₁,
      fun h => hrevoked₂ (hrevoked₁ h)⟩

theorem AuthDb.Ended.later {t : Int} (h : db.Ended token now) (hle : now ≤ t)
    (later : List AuthStep) : (runAuth cfg db later).Ended token t := by
  obtain ⟨s, hs, hhash, hended⟩ := h
  obtain ⟨s', hs', hhash', -, hexpires, hrevoked⟩ := outlives_runAuth cfg db later s hs
  refine ⟨s', hs', hhash'.trans hhash, ?_⟩
  rcases hended with hrev | hexp
  · exact Or.inl (hrevoked hrev)
  · exact Or.inr (hexpires ▸ hexp.trans hle)

/-- The session of a token that was revoked or has expired is not accepted. -/
theorem AuthDb.Ended.sessionUser (hdistinct : Distinct db) (h : db.Ended token now) :
    sessionUser db token now = none := by
  obtain ⟨s, hs, hhash, hended⟩ := h
  rw [Option.eq_none_iff_forall_ne_some]
  intro u hu
  obtain ⟨-, row, hrow, -⟩ := sessionUser_spec hu
  obtain ⟨hmem, hhash', hlive, hfresh⟩ := liveSession_spec hrow
  obtain rfl := List.inj_on_of_nodup_map hdistinct.2 hmem hs (hhash'.trans hhash.symm)
  rcases hended with hrev | hexp
  · exact hrev hlive
  · omega

/-- A token that is refused though its user is enabled belongs to a session that ended. -/
theorem ended_of_refused {later : List AuthStep} {t : Int} {u v : User}
    (hdistinct : Distinct (runAuth cfg db later))
    (haccepted : sessionUser db token now = some u)
    (hrefused : sessionUser (runAuth cfg db later) token t = none)
    (henabled : (runAuth cfg db later).enabledUser u.id = some v) :
    (runAuth cfg db later).Ended token t := by
  obtain ⟨hne, s, hs, huser⟩ := sessionUser_spec haccepted
  obtain ⟨hmem, hhash, -⟩ := liveSession_spec hs
  obtain ⟨s', hs', hhash', huser', -⟩ := outlives_runAuth cfg db later s hmem
  have hfound : (runAuth cfg db later).liveSession token t = none := by
    rw [Option.eq_none_iff_forall_ne_some]
    intro row hrow
    obtain ⟨hrowmem, hrowhash, -⟩ := liveSession_spec hrow
    obtain rfl := List.inj_on_of_nodup_map hdistinct.2 hrowmem hs'
      (hrowhash.trans (hhash'.trans hhash).symm)
    have hu : s.userId = u.id := (enabledUser_spec huser).2.1.symm
    rw [sessionUser, if_neg hne, hrow, Option.bind_some, huser', hu, henabled] at hrefused
    cases hrefused
  refine ⟨s', hs', hhash'.trans hhash, ?_⟩
  by_cases hrev : s'.revokedAt = none
  · refine Or.inr (not_lt.mp fun hlt => ?_)
    exact List.find?_eq_none.mp hfound s' hs' (decide_eq_true ⟨hhash'.trans hhash, hrev, hlt⟩)
  · exact Or.inl hrev

/-- A token is accepted for the user one of the logins issued it to, less than a session's
lifetime before, where no call ended it since and the user is not disabled. Once its session
is revoked or has expired it is never accepted again, and so it is with a token that was
accepted and is refused while its user is enabled. -/
theorem session_soundness (hstart : AuthStart start) (steps : List AuthStep) (token : String)
    (hhashes : CollisionFree (token :: tokensOf steps)) :
    (∀ now u, sessionUser (runAuth cfg start steps) token now = some u →
      (∃ i issued, IssuedAt cfg start steps i u.id token issued ∧
        now < issued + hours cfg.sessionTtlHours ∧ KeptSince cfg start steps i u.id token) ∧
      u ∈ (runAuth cfg start steps).users ∧ u.disabled = false ∧
        ∀ v ∈ (runAuth cfg start steps).users, v.id = u.id → v = u) ∧
    (∀ now, (runAuth cfg start steps).Ended token now → ∀ later t, now ≤ t →
      sessionUser (runAuth cfg start (steps ++ later)) token t = none) ∧
    ∀ now u, sessionUser (runAuth cfg start steps) token now = some u → ∀ later t v,
      sessionUser (runAuth cfg start (steps ++ later)) token t = none →
      (runAuth cfg start (steps ++ later)).enabledUser u.id = some v → ∀ more t', t ≤ t' →
      sessionUser (runAuth cfg start (steps ++ later ++ more)) token t' = none := by
  have hnever {steps : List AuthStep} {now : Int}
      (hended : (runAuth cfg start steps).Ended token now) (later : List AuthStep) (t : Int)
      (hle : now ≤ t) :
      sessionUser (runAuth cfg start (steps ++ later)) token t = none := by
    have hdistinct := hstart.distinct cfg (steps ++ later)
    rw [runAuth_append] at hdistinct ⊢
    exact (hended.later hle later).sessionUser hdistinct
  refine ⟨fun now u haccepted => ?_, fun now => hnever,
    fun now u haccepted later t v hrefused henabled => ?_⟩
  · obtain ⟨-, s, hs, huser⟩ := sessionUser_spec haccepted
    obtain ⟨hmem, hhash, hlive, hfresh⟩ := liveSession_spec hs
    obtain ⟨humem, huid, hdisabled⟩ := enabledUser_spec huser
    have hrun : CollisionFree (tokensOf steps) := fun a ha b hb =>
      hhashes a (List.mem_cons_of_mem _ ha) b (List.mem_cons_of_mem _ hb)
    obtain ⟨i, token', issued, hissued, hhash', hexpires, hkept⟩ := hstart.traced steps hrun s hmem
    obtain rfl : token = token' := hhashes token List.mem_cons_self token'
      (List.mem_cons_of_mem _ hissued.mem_tokensOf) (hhash.symm.trans hhash')
    rw [← huid] at hissued hkept
    exact ⟨⟨i, issued, hissued, hexpires ▸ hfresh, hkept hlive⟩, humem, hdisabled,
      fun w hw hid => List.inj_on_of_nodup_map (hstart.nodup_ids steps) hw humem hid⟩
  · have hdistinct := hstart.distinct cfg (steps ++ later)
    refine hnever ?_
    rw [runAuth_append] at hdistinct hrefused henabled ⊢
    exact ended_of_refused hdistinct haccepted hrefused henabled

end Sessions

open AuthSample in
/-- Alice logs in twice, and the session of her first token is revoked. -/
def AuthSample.twoLogins : List AuthStep :=
  [⟨0, loginOfAlice⟩,
    ⟨1, .loginPassword "alice@example.com" "correct horse" ⟨Uuid.ofNat 2, "again", "salt"⟩⟩,
    ⟨2, .revokeSession "token"⟩]

open AuthSample in
/-- The second token is accepted an hour later, and the first one never again. -/
theorem session_soundness_sample :
    (∃ i issued, IssuedAt .default accounts twoLogins i alice.id "again" issued ∧
      hours 1 < issued + hours AuthSettings.default.sessionTtlHours ∧
      KeptSince .default accounts twoLogins i alice.id "again") ∧
    ∀ later t, hours 1 ≤ t →
      sessionUser (runAuth .default accounts (twoLogins ++ later)) "token" t = none := by
  have hstart : AuthStart accounts := ⟨rfl, rfl, by decide, by decide⟩
  have hdistinct : sha256Text "token" ≠ sha256Text "again" := by decide +kernel
  have hhashes {token : String} (htoken : token = "token" ∨ token = "again") :
      CollisionFree (token :: tokensOf twoLogins) := by
    have hall : ∀ a ∈ token :: tokensOf twoLogins, a = "token" ∨ a = "again" := by
      have htokens : tokensOf twoLogins = ["token", "again", "token"] := rfl
      rw [htokens]
      simpa using htoken
    intro a ha b hb hsame
    rcases hall a ha with rfl | rfl <;> rcases hall b hb with rfl | rfl
    · rfl
    · exact absurd hsame hdistinct
    · exact absurd hsame.symm hdistinct
    · rfl
  have haccepted : sessionUser (runAuth .default accounts twoLogins) "again" (hours 1) =
      some alice := by decide +kernel
  have hended : (runAuth .default accounts twoLogins).Ended "token" (hours 1) :=
    show ∃ s ∈ (runAuth .default accounts twoLogins).sessions, s.tokenHash = sha256Text "token" ∧
      (s.revokedAt ≠ none ∨ s.expiresAt ≤ hours 1) by decide +kernel
  exact ⟨((session_soundness hstart twoLogins "again" (hhashes (Or.inr rfl))).1 _ _ haccepted).1,
    (session_soundness hstart twoLogins "token" (hhashes (Or.inl rfl))).2.1 _ hended⟩

end Attest
