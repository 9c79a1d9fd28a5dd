import Attest.HumanAuth
import Mathlib.Algebra.Order.BigOperators.Group.List

/-!
# Guessing codes and passwords

Issuing of codes is capped over a window, and so are the guesses at one code, so the guesses
of a window are bounded by the codes issued in it. A code that was issued before the window
opened adds its own guesses (`budget_overrun`) : the budget holds in every window in which no
such code is guessed at, or in which fewer codes than the cap were issued (`guess_budget`).
The invariant is `Budgeted`, and one call changes the codes of a user in one of three ways
(`CodesAfter`).

A password that does not verify counts, and the lock that the threshold sets outlasts the
window it was set in, so no window sees more checks than the threshold (`lockout_brake`,
with the invariant `Braked`).
-/

set_option linter.unusedSectionVars false

namespace Attest

section Guessing

variable [PyUnicode] [PasswordHashing] (cfg : AuthSettings)

/-! ## Counting the calls of a run -/

/-- The time is in the window of a length, which does not include its end. -/
def inWindow (opens length t : Int) : Bool := opens ≤ t ∧ t < opens + length

/-- How many calls of a run meet a predicate on the database they are made on. -/
def countCalls (p : AuthDb → AuthStep → Bool) : AuthDb → List AuthStep → Nat
  | _, [] => 0
  | db, step :: steps =>
    (p db step).toNat + countCalls p (step.call.exec cfg db step.now) steps

variable {cfg} {start db : AuthDb} {steps : List AuthStep} {step : AuthStep}
  {p : AuthDb → AuthStep → Bool}

theorem countCalls_append (step : AuthStep) : ∀ (db : AuthDb) (steps : List AuthStep),
    countCalls cfg p db (steps ++ [step]) =
      countCalls cfg p db steps + (p (runAuth cfg db steps) step).toNat
  | db, [] => by simp [countCalls, runAuth]
  | db, first :: steps => by
    have ih := countCalls_append step (first.call.exec cfg db first.now) steps
    simp only [List.cons_append, countCalls, ih]
    rw [← Nat.add_assoc]
    rfl

/-- A predicate that is counted nowhere in the first part of a run is not counted in it. -/
theorem countCalls_append_eq_zero (h : countCalls cfg p db (steps ++ [step]) = 0) :
    countCalls cfg p db steps = 0 ∧ p (runAuth cfg db steps) step = false := by
  rw [countCalls_append, Nat.add_eq_zero_iff] at h
  exact ⟨h.1, by simpa using h.2⟩

theorem Timed.append (h : Timed (steps ++ [step])) :
    Timed steps ∧ ∀ a ∈ steps, a.now ≤ step.now := by
  obtain ⟨hsteps, -, hlast⟩ := List.pairwise_append.mp h
  exact ⟨hsteps, fun a ha => hlast a ha step (List.mem_singleton.mpr rfl)⟩

/-! ## What a call does to codes -/

variable (cfg)

/-- The stored code that the guess of a call is compared with. -/
def AuthStep.guess (db : AuthDb) (step : AuthStep) : Option LoginCode :=
  match step.call with
  | .verifyCode email _ _ => comparesCode cfg db email step.now
  | _ => none

/-- The guess of a call is right. -/
def guessesRight (db : AuthDb) (step : AuthStep) : Bool :=
  match step.call with
  | .verifyCode email code _ =>
    (comparesCode cfg db email step.now).any fun c => c.codeHash = sha256Text code
  | _ => false

/-- A call compares a guess with a code of the user, in the window of a code's lifetime. -/
def guesses (userId : Uuid) (opens : Int) (db : AuthDb) (step : AuthStep) : Bool :=
  inWindow opens (minutes cfg.codeTtlMinutes) step.now &&
    (step.guess cfg db).any fun c => c.userId = userId

/-- The code that it is compared with was issued before the window. -/
def guessesEarlier (userId : Uuid) (opens : Int) (db : AuthDb) (step : AuthStep) : Bool :=
  inWindow opens (minutes cfg.codeTtlMinutes) step.now &&
    (step.guess cfg db).any fun c => c.userId = userId ∧ c.createdAt < opens

/-- The codes of a user. -/
def AuthDb.codesOf (db : AuthDb) (userId : Uuid) : List LoginCode :=
  db.codes.filter fun c => c.userId = userId

/-- How many codes the user was issued in the window of a code's lifetime. -/
def AuthDb.issuedIn (db : AuthDb) (userId : Uuid) (opens : Int) : Nat :=
  (db.codesOf userId).countP fun c => inWindow opens (minutes cfg.codeTtlMinutes) c.createdAt

/-- A code after a guess at it. -/
def LoginCode.spent (code : LoginCode) : LoginCode :=
  { code with attempts := code.attempts + 1 }

/-- The codes after a call that guesses none of them right. -/
inductive CodesAfter (db : AuthDb) (now : Int) (guess : Option LoginCode) : List LoginCode → Prop
  | kept (hguess : guess = none) : CodesAfter db now guess db.codes
  | issued (userId : Uuid) (row : LoginCode) (hguess : guess = none)
      (hcap : db.issuedSince userId (now - minutes cfg.codeTtlMinutes) < cfg.maxIssuedPerWindow)
      (hid : ∀ c ∈ db.codes, c.id ≠ row.id) (huser : row.userId = userId)
      (hcreated : row.createdAt = now) :
      CodesAfter db now guess ((db.voidCodes userId now).codes ++ [row])
  | spent (userId : Uuid) (candidate : LoginCode)
      (hcandidate : db.candidate userId now = some candidate)
      (hguess : guess = none ∨ guess = some candidate ∧ candidate.attempts + 1 ≤ cfg.maxAttempts) :
      CodesAfter db now guess (db.putCode candidate.spent).codes

variable {cfg} {now : Int} {guess : Option LoginCode} {codes : List LoginCode} {userId : Uuid}
  {opens : Int}

theorem requestCode_codes {email : String} {fresh : CodeFresh} {db' : AuthDb}
    {code : Option String} (h : requestCode cfg db email now fresh = .ok (db', code)) :
    CodesAfter cfg db now none db'.codes := by
  unfold requestCode at h
  split at h
  · rw [← (Prod.mk.inj (Except.ok.inj h)).1]
    exact .kept rfl
  · split at h
    · rw [← (Prod.mk.inj (Except.ok.inj h)).1]
      exact .kept rfl
    · split at h
      · cases h
      · rename_i user _ hcap hid
        rw [← (Prod.mk.inj (Except.ok.inj h)).1]
        refine .issued user.id _ rfl (not_le.mp hcap) (fun c hc heq => hid ?_) rfl rfl
        exact List.any_eq_true.mpr ⟨c, hc, decide_eq_true heq⟩

theorem createSession_codes {user : User} {method : SessionMethod} {fresh : SessionFresh}
    {db' : AuthDb} {login : Option Login}
    (h : createSession cfg db user method now fresh = .ok (db', login)) :
    db'.codes = db.codes := by
  obtain ⟨row, -, -, rfl⟩ := createSession_eq_ok h
  rfl

/-- A call that does not guess right changes the codes in one of three ways. -/
theorem AuthStep.exec_codes (hwrong : guessesRight cfg db step = false) :
    CodesAfter cfg db step.now (step.guess cfg db) (step.call.exec cfg db step.now).codes := by
  obtain ⟨now, call⟩ := step
  unfold AuthCall.exec
  cases call with
  | requestCode email fresh =>
    cases hrequest : Attest.requestCode cfg db email now fresh with
    | error e =>
      simp only [AuthCall.apply, hrequest, Except.map]
      exact .kept rfl
    | ok out =>
      simp only [AuthCall.apply, hrequest, Except.map]
      exact requestCode_codes hrequest
  | verifyCode email code fresh =>
    simp only [guessesRight, comparesCode] at hwrong
    simp only [AuthCall.apply, Attest.verifyCode, AuthStep.guess, comparesCode]
    cases huser : findUser db email with
    | none => exact .kept rfl
    | some user =>
      cases hcandidate : db.candidate user.id now with
      | none =>
        simp only [hcandidate]
        exact .kept rfl
      | some candidate =>
        simp only [huser, hcandidate] at hwrong ⊢
        by_cases hburnt : cfg.maxAttempts < candidate.attempts + 1
        · simp only [hburnt, if_true]
          exact .spent user.id candidate hcandidate (Or.inl rfl)
        · rw [if_neg hburnt, Option.any_some, decide_eq_false_iff_not] at hwrong
          simp only [hburnt, if_false, if_pos hwrong]
          exact .spent user.id candidate hcandidate (Or.inr ⟨rfl, not_lt.mp hburnt⟩)
  | loginPassword email password fresh =>
    cases hlogin : Attest.loginPassword cfg db email password now fresh with
    | error e =>
      simp only [AuthCall.apply, hlogin]
      exact .kept rfl
    | ok out =>
      obtain ⟨db', login⟩ := out
      have hcodes : db'.codes = db.codes := by
        rcases loginPassword_eq_ok hlogin with ⟨-, rfl, -⟩ | ⟨user, stored, -, -, hcases⟩
        · rfl
        · rcases hcases with ⟨-, -, rfl⟩ | ⟨-, hcreate⟩
          · rfl
          · exact (createSession_codes hcreate).trans rfl
      simp only [AuthCall.apply, hlogin, hcodes]
      exact .kept rfl
  | setPassword token newPassword current salt =>
    cases hfound : sessionWithUser db token now with
    | none =>
      simp only [AuthCall.apply, hfound]
      exact .kept rfl
    | some found =>
      obtain ⟨user, session⟩ := found
      cases hset : Attest.setPassword db user session newPassword current now salt with
      | error e =>
        simp only [AuthCall.apply, hfound, hset, Except.map]
        exact .kept rfl
      | ok db' =>
        simp only [AuthCall.apply, hfound, hset, Except.map]
        rw [setPassword_eq_ok hset]
        exact .kept rfl
  | revokeSession token =>
    have hcodes : (Attest.revokeSession db token now).1.codes = db.codes := by
      rw [Attest.revokeSession]
      split <;> rfl
    simp only [AuthCall.apply, hcodes]
    exact .kept rfl
  | setDisabled userId disabled => exact .kept rfl

/-! ## The codes of one user -/

/-- A change of rows that keeps their users is one of the rows of every user. -/
theorem filter_map_codes {f : LoginCode → LoginCode} {codes : List LoginCode}
    (hf : ∀ c ∈ codes, (f c).userId = c.userId) :
    (codes.map f).filter (fun c => c.userId = userId) =
      (codes.filter fun c => c.userId = userId).map f := by
  rw [List.filter_map]
  refine congrArg (List.map f) (List.filter_congr fun c hc => ?_)
  simp only [Function.comp_apply, hf c hc]

theorem candidate_spec {candidate : LoginCode} (h : db.candidate userId now = some candidate) :
    candidate ∈ db.codes ∧ candidate.userId = userId ∧ candidate.usedAt = none := by
  have hmem := List.mem_filter.mp (mem_of_latestBy h)
  exact ⟨hmem.1, (of_decide_eq_true hmem.2).1, (of_decide_eq_true hmem.2).2.1⟩

/-- The rows of the user after a call : as they were, voided with a new one, or with one spent. -/
theorem CodesAfter.codesOf (h : CodesAfter cfg db now guess codes)
    (hids : (db.codes.map LoginCode.id).Nodup) (userId : Uuid) :
    let rows := codes.filter fun c => c.userId = userId
    (rows = db.codesOf userId ∧ ∀ c ∈ guess, c.userId ≠ userId) ∨
    (guess = none ∧
      db.issuedSince userId (now - minutes cfg.codeTtlMinutes) < cfg.maxIssuedPerWindow ∧
      ∃ row, row.createdAt = now ∧ rows = ((db.codesOf userId).map fun c =>
        if c.usedAt = none then { c with usedAt := some now } else c) ++ [row]) ∨
    ∃ candidate ∈ db.codesOf userId, candidate.usedAt = none ∧
      (∀ c ∈ guess, c = candidate ∧ candidate.attempts + 1 ≤ cfg.maxAttempts) ∧
      rows = (db.codesOf userId).map fun c => if c.id = candidate.id then c.spent else c := by
  intro rows
  cases h with
  | kept hguess => exact Or.inl ⟨rfl, by simp [hguess]⟩
  | issued other row hguess hcap hid huser hcreated =>
    have hvoided : (db.voidCodes other now).codes.filter (fun c => c.userId = userId) =
        (db.codesOf userId).map fun c =>
          if c.userId = other ∧ c.usedAt = none then { c with usedAt := some now } else c :=
      filter_map_codes fun c _ => by split <;> rfl
    simp only [rows, List.filter_append, hvoided]
    by_cases hother : other = userId
    · subst hother
      refine Or.inr (Or.inl ⟨hguess, hcap, row, hcreated, ?_⟩)
      rw [List.filter_cons_of_pos (by simpa using huser), List.filter_nil]
      refine congrArg (· ++ [row]) (List.map_congr_left fun c hc => ?_)
      have hc' : c.userId = other := by simpa using (List.mem_filter.mp hc).2
      simp only [hc', true_and]
    · refine Or.inl ⟨?_, by simp [hguess]⟩
      rw [List.filter_cons_of_neg (by simpa [huser] using hother), List.filter_nil,
        List.append_nil]
      refine (List.map_congr_left fun c hc => ?_).trans (List.map_id _)
      have hc' : c.userId = userId := by simpa using (List.mem_filter.mp hc).2
      rw [if_neg fun hboth => hother (hboth.1.symm.trans hc')]
      rfl
  | spent other candidate hcandidate hguess =>
    obtain ⟨hmem, huser, hunused⟩ := candidate_spec hcandidate
    have hput : (db.putCode candidate.spent).codes =
        db.codes.map fun c => if c.id = candidate.id then c.spent else c := by
      refine List.map_congr_left fun c hc => ?_
      change (if c.id = candidate.id then candidate.spent else c) = _
      split
      · rename_i heq
        rw [List.inj_on_of_nodup_map hids hc hmem heq]
      · rfl
    have hrows : rows =
        (db.codesOf userId).map fun c => if c.id = candidate.id then c.spent else c := by
      simp only [rows, hput]
      exact filter_map_codes fun c _ => by split <;> rfl
    by_cases hother : other = userId
    · subst hother
      refine Or.inr (Or.inr ⟨candidate, ?_, hunused, ?_, hrows⟩)
      · exact List.mem_filter.mpr ⟨hmem, decide_eq_true huser⟩
      · intro c hc
        rcases hguess with hnone | ⟨hsome, hleft⟩
        · rw [hnone] at hc
          cases hc
        · rw [hsome] at hc
          exact ⟨(Option.some.inj hc).symm, hleft⟩
    · refine Or.inl ⟨hrows.trans ?_, ?_⟩
      · refine (List.map_congr_left fun c hc => ?_).trans (List.map_id _)
        obtain ⟨hc, hc'⟩ := List.mem_filter.mp hc
        rw [decide_eq_true_eq] at hc'
        rw [if_neg fun heq => hother ?_]
        · rfl
        · rw [← hc', List.inj_on_of_nodup_map hids hc hmem heq, huser]
      · intro c hc heq
        rcases hguess with hnone | ⟨hsome, -⟩
        · rw [hnone] at hc
          cases hc
        · rw [hsome] at hc
          rw [← Option.some.inj hc, huser] at heq
          exact hother heq

theorem CodesAfter.nodup (h : CodesAfter cfg db now guess codes)
    (hids : (db.codes.map LoginCode.id).Nodup) : (codes.map LoginCode.id).Nodup := by
  cases h with
  | kept hguess => exact hids
  | issued other row hguess hcap hid huser hcreated =>
    have hvoided : (db.voidCodes other now).codes.map LoginCode.id =
        db.codes.map LoginCode.id := by
      simp only [AuthDb.voidCodes, List.map_map]
      refine List.map_congr_left fun c _ => ?_
      simp only [Function.comp_apply]
      split <;> rfl
    rw [List.map_append, hvoided]
    refine List.nodup_append.mpr ⟨hids, List.nodup_singleton _, ?_⟩
    intro a ha b hb heq
    obtain ⟨c, hc, rfl⟩ := List.mem_map.mp ha
    exact hid c hc (heq.trans (List.mem_singleton.mp hb))
  | spent other candidate hcandidate hguess =>
    have hput : (db.putCode candidate.spent).codes.map LoginCode.id =
        db.codes.map LoginCode.id := by
      simp only [AuthDb.putCode, List.map_map]
      refine List.map_congr_left fun c _ => ?_
      simp only [Function.comp_apply]
      split
      · rename_i heq
        exact heq.symm
      · rfl
    rw [hput]
    exact hids

/-! ## The budget of a window -/

variable (cfg)

/-- The guesses at a code that count against the cap, where it was issued in the window. -/
def LoginCode.charge (opens : Int) (code : LoginCode) : Nat :=
  if inWindow opens (minutes cfg.codeTtlMinutes) code.createdAt then
    min code.attempts cfg.maxAttempts
  else 0

/-- What holds of the codes of a user while `total` guesses of the window were compared, of
which `earlier` with a code from before it. -/
structure Budgeted (userId : Uuid) (opens : Int) (db : AuthDb) (total earlier : Nat)
    (now : Int) : Prop where
  ids : (db.codes.map LoginCode.id).Nodup
  past : ∀ c ∈ db.codesOf userId, c.createdAt ≤ now
  outstanding : ∀ a ∈ db.codesOf userId, ∀ b ∈ db.codesOf userId,
    a.usedAt = none → b.usedAt = none → a.id = b.id
  capped : db.issuedIn cfg userId opens ≤ cfg.maxIssuedPerWindow
  charged : total ≤ ((db.codesOf userId).map (LoginCode.charge cfg opens)).sum + earlier
  earlier_le : earlier ≤ cfg.maxAttempts
  began : earlier ≠ 0 → opens ≤ now
  burnt : ∀ c ∈ db.codesOf userId, c.usedAt = none → c.createdAt < opens → earlier ≤ c.attempts

variable {cfg} {total earlier : Nat}

theorem AuthStart.budgeted (hstart : AuthStart start) :
    Budgeted cfg userId opens start 0 0 now := by
  have hrows : start.codesOf userId = [] := by
    rw [AuthDb.codesOf, hstart.codes, List.filter_nil]
  constructor
  · rw [hstart.codes]
    exact List.nodup_nil
  · rw [hrows]
    exact nofun
  · rw [hrows]
    exact nofun
  · rw [AuthDb.issuedIn, hrows, List.countP_nil]
    exact Nat.zero_le _
  · exact Nat.zero_le _
  · exact Nat.zero_le _
  · exact fun h => (h rfl).elim
  · rw [hrows]
    exact nofun

theorem Budgeted.mono {later : Int} (h : Budgeted cfg userId opens db total earlier now)
    (hle : now ≤ later) : Budgeted cfg userId opens db total earlier later :=
  { h with
    past := fun c hc => (h.past c hc).trans hle
    began := fun hne => (h.began hne).trans hle }

theorem charge_le_spent (c : LoginCode) : c.charge cfg opens ≤ c.spent.charge cfg opens := by
  unfold LoginCode.charge LoginCode.spent
  dsimp only
  split <;> omega

/-- The cap on issuing looks back from the moment of issue, as far as the window is long. -/
theorem issuedIn_lt (hwindow : inWindow opens (minutes cfg.codeTtlMinutes) now = true)
    (hcap : db.issuedSince userId (now - minutes cfg.codeTtlMinutes) < cfg.maxIssuedPerWindow) :
    db.issuedIn cfg userId opens < cfg.maxIssuedPerWindow := by
  refine lt_of_le_of_lt ?_ hcap
  rw [AuthDb.issuedIn, AuthDb.codesOf, List.countP_filter, AuthDb.issuedSince,
    ← List.countP_eq_length_filter]
  refine List.countP_mono_left fun c _ hc => ?_
  simp only [inWindow, Bool.and_eq_true, decide_eq_true_eq] at hwindow hc ⊢
  exact ⟨hc.2, by omega⟩

/-- A code that is spent charges its guess, if it counts. -/
theorem sum_charge_spent {rows : List LoginCode} {candidate : LoginCode}
    (hmem : candidate ∈ rows)
    (hcounts : inWindow opens (minutes cfg.codeTtlMinutes) candidate.createdAt = true)
    (hleft : candidate.attempts + 1 ≤ cfg.maxAttempts) :
    (rows.map (LoginCode.charge cfg opens)).sum + 1 ≤
      ((rows.map fun c => if c.id = candidate.id then c.spent else c).map
        (LoginCode.charge cfg opens)).sum := by
  rw [List.map_map]
  refine Nat.succ_le_of_lt (List.sum_lt_sum _ _ (fun c _ => ?_) ⟨candidate, hmem, ?_⟩)
  · simp only [Function.comp_apply]
    split
    · exact charge_le_spent c
    · exact le_rfl
  · simp only [Function.comp_apply, if_true, LoginCode.charge, LoginCode.spent, hcounts]
    omega

variable (cfg opens) in
theorem sum_charge_le_spent (rows : List LoginCode) (id : Uuid) :
    (rows.map (LoginCode.charge cfg opens)).sum ≤
      ((rows.map fun c => if c.id = id then c.spent else c).map
        (LoginCode.charge cfg opens)).sum := by
  rw [List.map_map]
  refine List.sum_le_sum fun c _ => ?_
  simp only [Function.comp_apply]
  split
  · exact charge_le_spent c
  · exact le_rfl

variable (cfg opens) in
/-- No window charges a code more than the guesses it takes. -/
theorem sum_charge_le (rows : List LoginCode) :
    (rows.map (LoginCode.charge cfg opens)).sum ≤
      (rows.countP fun c => inWindow opens (minutes cfg.codeTtlMinutes) c.createdAt) *
        cfg.maxAttempts := by
  induction rows with
  | nil => simp
  | cons c rows ih =>
    rw [List.map_cons, List.sum_cons, List.countP_cons, Nat.add_mul]
    have hc : c.charge cfg opens ≤
        (if inWindow opens (minutes cfg.codeTtlMinutes) c.createdAt = true then 1 else 0) *
          cfg.maxAttempts := by
      unfold LoginCode.charge
      split
      · rw [Nat.one_mul]
        exact Nat.min_le_right _ _
      · exact Nat.zero_le _
    omega

/-- Nothing changed for the user. -/
theorem Budgeted.kept {db' : AuthDb} {later : Int}
    (h : Budgeted cfg userId opens db total earlier now)
    (hids : (db'.codes.map LoginCode.id).Nodup) (hrows : db'.codesOf userId = db.codesOf userId)
    (hle : now ≤ later) : Budgeted cfg userId opens db' total earlier later := by
  have hcapped := h.capped
  have h' := h.mono hle
  unfold AuthDb.issuedIn at hcapped
  constructor
  · exact hids
  · exact hrows ▸ h'.past
  · exact hrows ▸ h.outstanding
  · rw [AuthDb.issuedIn, hrows]
    exact hcapped
  · exact hrows ▸ h.charged
  · exact h.earlier_le
  · exact h'.began
  · exact hrows ▸ h.burnt

/-- A code is issued to the user. -/
theorem Budgeted.issued {db' : AuthDb} {row : LoginCode} {later : Int}
    (h : Budgeted cfg userId opens db total earlier now)
    (hids : (db'.codes.map LoginCode.id).Nodup)
    (hrows : db'.codesOf userId = ((db.codesOf userId).map fun c =>
      if c.usedAt = none then { c with usedAt := some later } else c) ++ [row])
    (hcreated : row.createdAt = later)
    (hcap : db.issuedSince userId (later - minutes cfg.codeTtlMinutes) < cfg.maxIssuedPerWindow)
    (hle : now ≤ later) : Budgeted cfg userId opens db' total earlier later := by
  have hmem {c : LoginCode} (hc : c ∈ db'.codesOf userId) :
      (c.usedAt ≠ none ∧ ∃ old ∈ db.codesOf userId, c.createdAt = old.createdAt) ∨ c = row := by
    rw [hrows] at hc
    rcases List.mem_append.mp hc with hc | hc
    · obtain ⟨old, hold, rfl⟩ := List.mem_map.mp hc
      refine Or.inl ⟨?_, old, hold, ?_⟩
      · split
        · exact Option.some_ne_none _
        · assumption
      · split <;> rfl
    · exact Or.inr (List.mem_singleton.mp hc)
  have hvoided {c : LoginCode} (hc : c ∈ db'.codesOf userId) (hunused : c.usedAt = none) :
      c = row := (hmem hc).resolve_left fun hold => hold.1 hunused
  constructor
  · exact hids
  · intro c hc
    rcases hmem hc with ⟨-, old, hold, heq⟩ | rfl
    · exact heq.le.trans ((h.past old hold).trans hle)
    · exact hcreated.le
  · intro a ha b hb hunused hunused'
    rw [hvoided ha hunused, hvoided hb hunused']
  · have hcapped := h.capped
    rw [AuthDb.issuedIn] at hcapped ⊢
    rw [hrows, List.countP_append, List.countP_map, List.countP_singleton, hcreated]
    have hsame : (db.codesOf userId).countP ((fun c : LoginCode =>
        inWindow opens (minutes cfg.codeTtlMinutes) c.createdAt) ∘ fun c =>
          if c.usedAt = none then { c with usedAt := some later } else c) =
        (db.codesOf userId).countP fun c =>
          inWindow opens (minutes cfg.codeTtlMinutes) c.createdAt :=
      List.countP_congr fun c _ => by
        simp only [Function.comp_apply]
        split <;> rfl
    rw [hsame]
    split
    · rename_i hwindow
      exact issuedIn_lt hwindow hcap
    · exact hcapped
  · have hsame : ((db.codesOf userId).map fun c =>
        if c.usedAt = none then { c with usedAt := some later } else c).map
          (LoginCode.charge cfg opens) = (db.codesOf userId).map (LoginCode.charge cfg opens) := by
      rw [List.map_map]
      refine List.map_congr_left fun c _ => ?_
      simp only [Function.comp_apply]
      split <;> rfl
    rw [hrows, List.map_append, List.sum_append, hsame]
    have hcharged := h.charged
    omega
  · exact h.earlier_le
  · exact (h.mono hle).began
  · intro c hc hunused hearlier
    rw [hvoided hc hunused, hcreated] at hearlier
    have hbegan := (h.mono hle).began
    omega

/-- A guess at one of the codes of the user, in the window if `guessed`. -/
theorem Budgeted.spent {db' : AuthDb} {candidate : LoginCode} {later : Int} {guessed : Bool}
    (h : Budgeted cfg userId opens db total earlier now)
    (hids : (db'.codes.map LoginCode.id).Nodup)
    (hcandidate : candidate ∈ db.codesOf userId) (hunused : candidate.usedAt = none)
    (hrows : db'.codesOf userId =
      (db.codesOf userId).map fun c => if c.id = candidate.id then c.spent else c)
    (hguessed : guessed = true → candidate.attempts + 1 ≤ cfg.maxAttempts ∧
      inWindow opens (minutes cfg.codeTtlMinutes) later = true)
    (hle : now ≤ later) :
    Budgeted cfg userId opens db' (total + guessed.toNat)
      (earlier + (guessed && candidate.createdAt < opens).toNat) later := by
  have hmem {c : LoginCode} (hc : c ∈ db'.codesOf userId) : ∃ old ∈ db.codesOf userId,
      c.id = old.id ∧ c.createdAt = old.createdAt ∧ c.usedAt = old.usedAt ∧
        c = if old.id = candidate.id then old.spent else old := by
    rw [hrows] at hc
    obtain ⟨old, hold, rfl⟩ := List.mem_map.mp hc
    exact ⟨old, hold, by split <;> rfl, by split <;> rfl, by split <;> rfl, rfl⟩
  have hburnt := h.burnt candidate hcandidate hunused
  constructor
  · exact hids
  · intro c hc
    obtain ⟨old, hold, -, heq, -⟩ := hmem hc
    exact heq.le.trans ((h.past old hold).trans hle)
  · intro a ha b hb hunusedA hunusedB
    obtain ⟨a', ha', hida, -, husedA, -⟩ := hmem ha
    obtain ⟨b', hb', hidb, -, husedB, -⟩ := hmem hb
    rw [hida, hidb]
    exact h.outstanding a' ha' b' hb' (husedA ▸ hunusedA) (husedB ▸ hunusedB)
  · have hcapped := h.capped
    rw [AuthDb.issuedIn] at hcapped ⊢
    rw [hrows, List.countP_map]
    refine le_of_eq_of_le (List.countP_congr fun c _ => ?_) hcapped
    simp only [Function.comp_apply]
    split <;> rfl
  · have hcharged := h.charged
    have hmono := sum_charge_le_spent cfg opens (db.codesOf userId)
      candidate.id
    rw [hrows]
    cases hg : guessed with
    | false =>
      simp only [Bool.toNat_false, Bool.false_and, Nat.add_zero]
      omega
    | true =>
      obtain ⟨hleft, hwindow⟩ := hguessed hg
      by_cases hearlier : candidate.createdAt < opens
      · simp only [hearlier, decide_true, Bool.and_true, Bool.toNat_true]
        omega
      · have hcounts : inWindow opens (minutes cfg.codeTtlMinutes) candidate.createdAt = true := by
          have hpast := h.past candidate hcandidate
          simp only [inWindow, decide_eq_true_eq] at hwindow ⊢
          omega
        have hspent := sum_charge_spent hcandidate hcounts hleft
        simp only [hearlier, decide_false, Bool.and_false, Bool.toNat_true, Bool.toNat_false]
        omega
  · have hearlier_le := h.earlier_le
    by_cases hboth : guessed = true ∧ candidate.createdAt < opens
    · have hleft := (hguessed hboth.1).1
      have := hburnt hboth.2
      simp only [hboth.1, hboth.2, decide_true, Bool.and_true, Bool.toNat_true]
      omega
    · have hfalse : (guessed && decide (candidate.createdAt < opens)) = false := by
        simpa using hboth
      rw [hfalse]
      exact hearlier_le
  · intro hne
    by_cases hboth : guessed = true ∧ candidate.createdAt < opens
    · have hwindow := (hguessed hboth.1).2
      simp only [inWindow, decide_eq_true_eq] at hwindow
      exact hwindow.1
    · have hfalse : (guessed && decide (candidate.createdAt < opens)) = false := by
        simpa using hboth
      rw [hfalse] at hne
      exact (h.mono hle).began hne
  · intro c hc hunused' hearlier
    obtain ⟨old, hold, hid, hcreated, hused, rfl⟩ := hmem hc
    rw [hused] at hunused'
    rw [hcreated] at hearlier
    have hold' := h.burnt old hold hunused' hearlier
    rw [if_pos (h.outstanding old hold candidate hcandidate hunused' hunused)]
    have hone := Bool.toNat_le (guessed && decide (candidate.createdAt < opens))
    simp only [LoginCode.spent]
    omega

theorem Budgeted.exec (h : Budgeted cfg userId opens db total earlier now)
    (hle : now ≤ step.now) (hwrong : guessesRight cfg db step = false) :
    Budgeted cfg userId opens (step.call.exec cfg db step.now)
      (total + (guesses cfg userId opens db step).toNat)
      (earlier + (guessesEarlier cfg userId opens db step).toNat) step.now := by
  have hafter := AuthStep.exec_codes hwrong
  have hids := hafter.nodup h.ids
  rcases hafter.codesOf h.ids userId with ⟨hkept, hguess⟩ |
      ⟨hguess, hcap, row, hcreated, hissued⟩ | ⟨candidate, hcandidate, hunused, hguess, hspent⟩
  · have hnone : guesses cfg userId opens db step = false ∧
        guessesEarlier cfg userId opens db step = false := by
      unfold guesses guessesEarlier
      cases hstep : step.guess cfg db with
      | none => simp
      | some c => simp [hguess c hstep]
    rw [hnone.1, hnone.2]
    exact h.kept hids hkept hle
  · have hnone : guesses cfg userId opens db step = false ∧
        guessesEarlier cfg userId opens db step = false := by
      simp [guesses, guessesEarlier, hguess]
    rw [hnone.1, hnone.2]
    exact h.issued hids hissued hcreated hcap hle
  · have huser : candidate.userId = userId := by
      simpa using (List.mem_filter.mp hcandidate).2
    have hearlier : guessesEarlier cfg userId opens db step =
        (guesses cfg userId opens db step && decide (candidate.createdAt < opens)) := by
      unfold guesses guessesEarlier
      cases hstep : step.guess cfg db with
      | none => simp
      | some c => simp [(hguess c hstep).1, huser]
    rw [hearlier]
    refine h.spent hids hcandidate hunused hspent (fun hguesses => ?_) hle
    obtain ⟨hwindow, hany⟩ := Bool.and_eq_true_iff.mp hguesses
    cases hstep : step.guess cfg db with
    | none =>
      rw [hstep] at hany
      cases hany
    | some c => exact ⟨(hguess c hstep).2, hwindow⟩

variable (cfg) in
/-- The invariant over a run that guesses no code right. -/
theorem AuthStart.budgeted_runAuth (hstart : AuthStart start) (userId : Uuid) (opens : Int) :
    ∀ (steps : List AuthStep), Timed steps → countCalls cfg (guessesRight cfg) start steps = 0 →
      ∀ now, (∀ a ∈ steps, a.now ≤ now) →
        Budgeted cfg userId opens (runAuth cfg start steps)
          (countCalls cfg (guesses cfg userId opens) start steps)
          (countCalls cfg (guessesEarlier cfg userId opens) start steps) now := by
  intro steps
  induction steps using List.reverseRecOn with
  | nil => exact fun _ _ now _ => hstart.budgeted
  | append_singleton steps step ih =>
    intro htimed hwrong now hnow
    obtain ⟨htimed', hlast⟩ := htimed.append
    obtain ⟨hwrong', hstep⟩ := countCalls_append_eq_zero hwrong
    have hbefore := ih htimed' hwrong' step.now hlast
    rw [countCalls_append, countCalls_append, runAuth_append]
    exact (hbefore.exec le_rfl hstep).mono (hnow step (by simp))

/-- A window sees no more guesses than the budget, if none of them is at a code from before
it, or if the cap on issuing is not reached in it. -/
theorem guess_budget (hstart : AuthStart start) (steps : List AuthStep) (htimed : Timed steps)
    (hwrong : countCalls cfg (guessesRight cfg) start steps = 0) (userId : Uuid) (opens : Int)
    (hwindow : countCalls cfg (guessesEarlier cfg userId opens) start steps = 0 ∨
      (runAuth cfg start steps).issuedIn cfg userId opens < cfg.maxIssuedPerWindow) :
    countCalls cfg (guesses cfg userId opens) start steps ≤
      cfg.maxAttempts * cfg.maxIssuedPerWindow := by
  obtain ⟨now, hnow⟩ := ((steps.map AuthStep.now).toFinset).exists_le
  have hbudget := hstart.budgeted_runAuth cfg userId opens steps htimed hwrong now
    fun a ha => hnow a.now (List.mem_toFinset.mpr (List.mem_map_of_mem ha))
  have hsum := sum_charge_le cfg opens
    ((runAuth cfg start steps).codesOf userId)
  have hcharged := hbudget.charged
  rw [← AuthDb.issuedIn] at hsum
  rw [Nat.mul_comm]
  rcases hwindow with hnone | hfew
  · rw [hnone] at hcharged
    have := Nat.mul_le_mul_right cfg.maxAttempts hbudget.capped
    omega
  · have hearlier := hbudget.earlier_le
    have := Nat.mul_le_mul_right cfg.maxAttempts hfew
    rw [Nat.succ_mul] at this
    omega

end Guessing

namespace AuthSample

/-- A code for Alice, drawn as 000000. -/
def asks (now : Int) (id : Nat) : AuthStep :=
  ⟨now, .requestCode "alice@example.com" ⟨Uuid.ofNat id, 0⟩⟩

/-- Guesses at it, none of them right. -/
def guessesFrom (now : Int) (n : Nat) : List AuthStep :=
  (List.range n).map fun k =>
    ⟨now + k, .verifyCode "alice@example.com" "111111" ⟨Uuid.ofNat 1, "token", "salt"⟩⟩

/-- Five guesses at a code from a minute before, and then at the three that are issued. -/
def carriedRun : List AuthStep :=
  asks (minutes (-1)) 1 :: guessesFrom 0 5 ++ asks (minutes 1) 2 :: guessesFrom (minutes 1 + 1) 5 ++
    asks (minutes 2) 3 :: guessesFrom (minutes 2 + 1) 5 ++
    asks (minutes 9 + 1) 4 :: guessesFrom (minutes 9 + 2) 1

/-- A code is issued and guessed at in one window. -/
def freshRun : List AuthStep :=
  asks 0 1 :: guessesFrom 1 6

end AuthSample

open AuthSample in
theorem guess_budget_sample :
    countCalls .default (guesses .default alice.id 0) accounts freshRun ≤
      AuthSettings.default.maxAttempts * AuthSettings.default.maxIssuedPerWindow := by
  have hstart : AuthStart accounts := ⟨rfl, rfl, by decide, by decide⟩
  have htimed : Timed freshRun := by
    unfold Timed
    decide +kernel
  exact guess_budget hstart freshRun htimed (by decide +kernel) alice.id 0
    (Or.inl (by decide +kernel))

/-- The call asks for a code or guesses at one. -/
def AuthCall.OnCodes : AuthCall → Bool
  | .requestCode .. => true
  | .verifyCode .. => true
  | _ => false

open AuthSample in
/-- Sixteen guesses in ten minutes, where the budget is fifteen. -/
theorem budget_overrun :
    AuthStart accounts ∧ Timed carriedRun ∧ carriedRun.all (fun step => step.call.OnCodes) ∧
      countCalls .default (guessesRight .default) accounts carriedRun = 0 ∧
      AuthSettings.default.maxAttempts * AuthSettings.default.maxIssuedPerWindow <
        countCalls .default (guesses .default alice.id 0) accounts carriedRun := by
  refine ⟨⟨rfl, rfl, by decide, by decide⟩, ?_, by decide +kernel, by decide +kernel,
    by decide +kernel⟩
  unfold Timed
  decide +kernel

section Lockout

variable [PyUnicode] [PasswordHashing] (cfg : AuthSettings) {start db : AuthDb}
  {step : AuthStep} {now opens : Int} {userId : Uuid}

/-! ## Passwords that are checked -/

/-- The call checks a password against the stored hash of the user. -/
def AuthStep.checks (db : AuthDb) (userId : Uuid) (step : AuthStep) : Bool :=
  match step.call with
  | .loginPassword email _ _ =>
    (verifiesPassword db email step.now).any fun user => user.id = userId
  | _ => false

/-- The call logs the user in with the password, or sets it. -/
def AuthStep.resets (db : AuthDb) (userId : Uuid) (step : AuthStep) : Bool :=
  match step.call with
  | .loginPassword email password _ =>
    (verifiesPassword db email step.now).any fun user => user.id = userId &&
      user.passwordHash.any fun stored => PasswordHashing.verify stored password
  | .setPassword token newPassword current salt =>
    match sessionWithUser db token step.now with
    | none => false
    | some (user, session) => user.id = userId &&
      (setPassword db user session newPassword current step.now salt).succeeds
  | _ => false

/-- A password of the user is checked in the window of a lock's length. -/
def checksIn (userId : Uuid) (opens : Int) (db : AuthDb) (step : AuthStep) : Bool :=
  inWindow opens (minutes cfg.lockoutMinutes) step.now && step.checks db userId

/-- The failures of the user are forgotten in the window. -/
def resetsIn (userId : Uuid) (opens : Int) (db : AuthDb) (step : AuthStep) : Bool :=
  inWindow opens (minutes cfg.lockoutMinutes) step.now && step.resets db userId

/-- A row of users after a call : with its counters, with one failure more, or forgiven. -/
inductive UserAfter (db : AuthDb) (step : AuthStep) (v : User) : User → Prop
  | kept {v' : User} (hchecks : step.checks db v.id = false)
      (hfailed : v'.failedLogins = v.failedLogins) (hlocked : v'.lockedUntil = v.lockedUntil) :
      UserAfter db step v v'
  | failed (hunlocked : ∀ lock, v.lockedUntil = some lock → lock ≤ step.now) :
      UserAfter db step v (v.failed cfg step.now)
  | reset {v' : User} (hresets : step.resets db v.id = true)
      (hfailed : v'.failedLogins ≤ v.failedLogins) : UserAfter db step v v'

variable {cfg}

theorem mem_putUser {user v' : User} (h : v' ∈ (db.putUser user).users) :
    v' = user ∨ v' ∈ db.users ∧ v'.id ≠ user.id := by
  obtain ⟨v, hv, rfl⟩ := List.mem_map.mp h
  by_cases hid : v.id = user.id
  · exact Or.inl (if_pos hid)
  · rw [if_neg hid]
    exact Or.inr ⟨hv, hid⟩

/-- A row of users after a call, in one of three ways. -/
theorem AuthStep.exec_users {v' : User}
    (hv' : v' ∈ (step.call.exec cfg db step.now).users) :
    ∃ v ∈ db.users, v.id = v'.id ∧ UserAfter cfg db step v v' := by
  obtain ⟨now, call⟩ := step
  have hsame (hchecks : ∀ u, AuthStep.checks db u ⟨now, call⟩ = false) (hv' : v' ∈ db.users) :
      ∃ v ∈ db.users, v.id = v'.id ∧ UserAfter cfg db ⟨now, call⟩ v v' :=
    ⟨v', hv', rfl, .kept (hchecks v'.id) rfl rfl⟩
  simp only [AuthCall.exec] at hv'
  cases call with
  | requestCode email fresh =>
    refine hsame (fun _ => rfl) ?_
    cases hrequest : Attest.requestCode cfg db email now fresh with
    | error e => simpa [AuthCall.apply, hrequest, Except.map] using hv'
    | ok out =>
      simp only [AuthCall.apply, hrequest, Except.map] at hv'
      rwa [(requestCode_users hrequest).1] at hv'
  | verifyCode email code fresh =>
    refine hsame (fun _ => rfl) ?_
    cases hverify : Attest.verifyCode cfg db email code now fresh with
    | error e => simpa [AuthCall.apply, hverify] using hv'
    | ok out =>
      simp only [AuthCall.apply, hverify] at hv'
      rcases verifyCode_eq_ok hverify with ⟨-, -, husers⟩ | ⟨_, _, db₁, -, -, husers, hcreate⟩
      · rwa [husers] at hv'
      · obtain ⟨row, -, -, heq⟩ := createSession_eq_ok hcreate
        rw [heq] at hv'
        rwa [← husers]
  | loginPassword email password fresh =>
    cases hchecked : verifiesPassword db email now with
    | none =>
      simp only [AuthCall.apply, loginPassword_of_unchecked hchecked] at hv'
      exact hsame (fun _ => by simp [AuthStep.checks, hchecked]) hv'
    | some user =>
      obtain ⟨huser, hunlocked, stored, hstored, hlogin⟩ :=
        verifiesPassword_spec cfg password fresh hchecked
      have hothers (hid : v'.id ≠ user.id) : AuthStep.checks db v'.id
          ⟨now, .loginPassword email password fresh⟩ = false := by
        simpa [AuthStep.checks, hchecked] using hid.symm
      by_cases hverify : PasswordHashing.verify stored password = true
      · have hresets : AuthStep.resets db user.id ⟨now, .loginPassword email password fresh⟩ =
            true := by
          simp [AuthStep.resets, hchecked, hstored, hverify]
        rw [if_pos hverify] at hlogin
        simp only [AuthCall.apply, hlogin] at hv'
        cases hcreate : createSession cfg (db.putUser (user.succeeded stored password fresh.salt))
            (user.succeeded stored password fresh.salt) .password now fresh with
        | error e =>
          rw [hcreate] at hv'
          by_cases hid : v'.id = user.id
          · exact ⟨v', hv', rfl, .reset (hid ▸ hresets) le_rfl⟩
          · exact ⟨v', hv', rfl, .kept (hothers hid) rfl rfl⟩
        | ok out =>
          obtain ⟨row, -, -, heq⟩ := createSession_eq_ok hcreate
          simp only [hcreate, heq] at hv'
          rcases mem_putUser hv' with rfl | ⟨hv', hid⟩
          · exact ⟨user, huser, rfl, .reset hresets (Nat.zero_le _)⟩
          · exact ⟨v', hv', rfl, .kept (hothers hid) rfl rfl⟩
      · rw [if_neg hverify] at hlogin
        simp only [AuthCall.apply, hlogin] at hv'
        rcases mem_putUser hv' with rfl | ⟨hv', hid⟩
        · refine ⟨user, huser, ?_, .failed hunlocked⟩
          unfold User.failed
          split <;> rfl
        · refine ⟨v', hv', rfl, .kept (hothers ?_) rfl rfl⟩
          unfold User.failed at hid
          split at hid <;> exact hid
  | setPassword token newPassword current salt =>
    cases hfound : sessionWithUser db token now with
    | none =>
      simp only [AuthCall.apply, hfound] at hv'
      exact hsame (fun _ => rfl) hv'
    | some found =>
      obtain ⟨user, session⟩ := found
      simp only [AuthCall.apply, hfound] at hv'
      cases hset : Attest.setPassword db user session newPassword current now salt with
      | error e =>
        simp only [hset, Except.map] at hv'
        exact hsame (fun _ => rfl) hv'
      | ok db' =>
        simp only [hset, Except.map] at hv'
        rw [setPassword_eq_ok hset] at hv'
        obtain ⟨-, henabled⟩ := sessionWithUser_spec hfound
        rcases mem_putUser hv' with rfl | ⟨hv', -⟩
        · refine ⟨user, (enabledUser_spec henabled).1, rfl, .reset ?_ (Nat.zero_le _)⟩
          simp [AuthStep.resets, hfound, hset, Except.succeeds]
        · exact hsame (fun _ => rfl) hv'
  | revokeSession token =>
    refine hsame (fun _ => rfl) ?_
    have husers : (Attest.revokeSession db token now).1.users = db.users := by
      rw [Attest.revokeSession]
      split <;> rfl
    simpa only [AuthCall.apply, husers] using hv'
  | setDisabled userId disabled =>
    obtain ⟨v, hv, rfl⟩ := List.mem_map.mp hv'
    refine ⟨v, hv, ?_, .kept rfl ?_ ?_⟩ <;> split <;> rfl

/-! ## The brake of a window -/

variable (cfg)

/-- What holds of the users while `checks` passwords of one were checked in the window : each
failed, and they are still counted or the lock they set outlasts the window. -/
structure Braked (userId : Uuid) (opens : Int) (db : AuthDb) (checks : Nat) (now : Int) :
    Prop where
  below : ∀ v ∈ db.users, v.failedLogins < cfg.lockoutThreshold
  checks_le : checks ≤ cfg.lockoutThreshold
  began : checks ≠ 0 → opens ≤ now
  counted : now < opens + minutes cfg.lockoutMinutes → ∀ v ∈ db.users, v.id = userId →
    checks ≤ v.failedLogins ∨
      ∃ lock, v.lockedUntil = some lock ∧ opens + minutes cfg.lockoutMinutes ≤ lock

variable {cfg} {checks : Nat}

theorem Braked.mono {later : Int} (h : Braked cfg userId opens db checks now)
    (hle : now ≤ later) : Braked cfg userId opens db checks later :=
  { h with
    began := fun hne => (h.began hne).trans hle
    counted := fun hlater => h.counted (hle.trans_lt hlater) }

/-- A check in the window finds the account open, so all the checks before it are counted. -/
theorem Braked.of_checksIn (h : Braked cfg userId opens db checks now) (hle : now ≤ step.now)
    (hchecks : checksIn cfg userId opens db step = true) :
    ∃ v ∈ db.users, v.id = userId ∧ checks ≤ v.failedLogins := by
  obtain ⟨hwindow, hstep⟩ := Bool.and_eq_true_iff.mp hchecks
  simp only [inWindow, decide_eq_true_eq] at hwindow
  unfold AuthStep.checks at hstep
  split at hstep
  · rename_i email password fresh _
    cases hchecked : verifiesPassword db email step.now with
    | none =>
      rw [hchecked] at hstep
      cases hstep
    | some user =>
      have huser : user.id = userId := by simpa [hchecked] using hstep
      obtain ⟨hmem, hunlocked, -⟩ :=
        verifiesPassword_spec cfg password fresh hchecked
      refine ⟨user, hmem, huser, ?_⟩
      rcases h.counted (hle.trans_lt hwindow.2) user hmem huser with hcounted | ⟨lock, hlock, hlong⟩
      · exact hcounted
      · have := hunlocked lock hlock
        omega
  · cases hstep

theorem Braked.exec (h : Braked cfg userId opens db checks now) (hle : now ≤ step.now)
    (hresets : resetsIn cfg userId opens db step = false) :
    Braked cfg userId opens (step.call.exec cfg db step.now)
      (checks + (checksIn cfg userId opens db step).toNat) step.now := by
  constructor
  · intro v' hv'
    obtain ⟨v, hv, -, hafter⟩ := AuthStep.exec_users hv'
    have hbelow := h.below v hv
    cases hafter with
    | kept hchecks hfailed hlocked => omega
    | failed hunlocked =>
      unfold User.failed
      split
      · exact cfg.threshold_pos
      · dsimp only
        omega
    | reset hresets' hfailed => omega
  · cases hchecks : checksIn cfg userId opens db step with
    | false => exact h.checks_le
    | true =>
      obtain ⟨v, hv, -, hcounted⟩ := h.of_checksIn hle hchecks
      have := h.below v hv
      rw [Bool.toNat_true]
      omega
  · intro hne
    cases hchecks : checksIn cfg userId opens db step with
    | false =>
      rw [hchecks] at hne
      exact (h.mono hle).began hne
    | true =>
      have hwindow := (Bool.and_eq_true_iff.mp hchecks).1
      simp only [inWindow, decide_eq_true_eq] at hwindow
      exact hwindow.1
  · intro hlater v' hv' huser
    by_cases hopen : opens ≤ step.now
    · have hwindow : inWindow opens (minutes cfg.lockoutMinutes) step.now = true :=
        decide_eq_true ⟨hopen, hlater⟩
      obtain ⟨v, hv, hid, hafter⟩ := AuthStep.exec_users hv'
      rw [huser] at hid
      have hcounted := h.counted (hle.trans_lt hlater) v hv hid
      have hone := Bool.toNat_le (checksIn cfg userId opens db step)
      cases hafter with
      | kept hchecks hfailed hlocked =>
        have hnone : checksIn cfg userId opens db step = false := by
          rw [checksIn, ← hid, hchecks, Bool.and_false]
        rw [hnone, Bool.toNat_false, Nat.add_zero, hfailed, hlocked]
        exact hcounted
      | failed hunlocked =>
        rcases hcounted with hcounted | ⟨lock, hlock, hlong⟩
        · unfold User.failed
          split
          · exact Or.inr ⟨_, rfl, by omega⟩
          · exact Or.inl (by dsimp only; omega)
        · have := hunlocked lock hlock
          omega
      | reset hresets' hfailed =>
        rw [resetsIn, hwindow, ← hid, hresets'] at hresets
        cases hresets
    · have hzero : checks = 0 := by
        by_contra hne
        exact hopen ((h.mono hle).began hne)
      have hnone : checksIn cfg userId opens db step = false := by
        rw [checksIn, inWindow, decide_eq_false fun hboth => hopen hboth.1, Bool.false_and]
      rw [hzero, hnone]
      exact Or.inl (Nat.zero_le _)

theorem AuthStart.braked (hstart : AuthStart start) :
    Braked cfg userId opens start 0 now where
  below v hv := (hstart.counters v hv).trans_lt cfg.threshold_pos
  checks_le := Nat.zero_le _
  began hne := (hne rfl).elim
  counted _ _ _ _ := Or.inl (Nat.zero_le _)

/-- The invariant over a run that forgives no failure in the window. -/
theorem AuthStart.braked_runAuth (hstart : AuthStart start) (userId : Uuid) (opens : Int) :
    ∀ (steps : List AuthStep), Timed steps →
      countCalls cfg (resetsIn cfg userId opens) start steps = 0 →
      ∀ now, (∀ a ∈ steps, a.now ≤ now) →
        Braked cfg userId opens (runAuth cfg start steps)
          (countCalls cfg (checksIn cfg userId opens) start steps) now := by
  intro steps
  induction steps using List.reverseRecOn with
  | nil => exact fun _ _ now _ => hstart.braked
  | append_singleton steps step ih =>
    intro htimed hresets now hnow
    obtain ⟨htimed', hlast⟩ := htimed.append
    obtain ⟨hresets', hstep⟩ := countCalls_append_eq_zero hresets
    have hbefore := ih htimed' hresets' step.now hlast
    rw [countCalls_append, runAuth_append]
    exact (hbefore.exec le_rfl hstep).mono (hnow step (by simp))

/-- No window of a lock's length sees more passwords of a user checked than the threshold, while
the user does not log in with one or set one in it. -/
theorem lockout_brake (hstart : AuthStart start) (steps : List AuthStep) (htimed : Timed steps)
    (userId : Uuid) (opens : Int)
    (hresets : countCalls cfg (resetsIn cfg userId opens) start steps = 0) :
    countCalls cfg (checksIn cfg userId opens) start steps ≤ cfg.lockoutThreshold := by
  obtain ⟨now, hnow⟩ := ((steps.map AuthStep.now).toFinset).exists_le
  exact (hstart.braked_runAuth userId opens steps htimed hresets now
    fun a ha => hnow a.now (List.mem_toFinset.mpr (List.mem_map_of_mem ha))).checks_le

end Lockout

/-- Wrong passwords for Alice. -/
def AuthSample.wrongPasswords : List AuthStep :=
  (List.range 7).map fun k =>
    ⟨k, .loginPassword "alice@example.com" "wrong horse" ⟨Uuid.ofNat 1, "token", "salt"⟩⟩

open AuthSample in
theorem lockout_brake_sample :
    countCalls .default (checksIn .default alice.id 0) accounts wrongPasswords ≤
      AuthSettings.default.lockoutThreshold := by
  have hstart : AuthStart accounts := ⟨rfl, rfl, by decide, by decide⟩
  have htimed : Timed wrongPasswords := by
    unfold Timed
    decide +kernel
  exact lockout_brake hstart wrongPasswords htimed alice.id 0 (by decide +kernel)

end Attest
