import Mathlib.Data.List.Forall2

/-!
# Computations that may raise

`Except` carries the code that raises. The rules here take a sequence of such
computations apart : `Except.bind_eq_ok` says what a sequence that returned did, step
by step, and the simp rules run a step whose outcome is known. `Except.succeeds` is
whether a computation returns at all.
-/

theorem exists_of_forall₂ {α β : Type} {R : α → β → Prop} {xs : List α} {ys : List β}
    (h : List.Forall₂ R xs ys) {y : β} (hy : y ∈ ys) : ∃ x ∈ xs, R x y := by
  induction h with
  | nil => cases hy
  | cons hxy _ ih =>
    rcases List.mem_cons.mp hy with rfl | hy
    · exact ⟨_, List.mem_cons_self, hxy⟩
    · obtain ⟨x, hx, hR⟩ := ih hy
      exact ⟨x, List.mem_cons_of_mem _ hx, hR⟩

theorem exists_forall₂ {α β : Type} {R : α → β → Prop} {xs : List α}
    (h : ∀ x ∈ xs, ∃ y, R x y) : ∃ ys, List.Forall₂ R xs ys := by
  induction xs with
  | nil => exact ⟨[], .nil⟩
  | cons x xs ih =>
    obtain ⟨y, hy⟩ := h x List.mem_cons_self
    obtain ⟨ys, hys⟩ := ih fun z hz => h z (List.mem_cons_of_mem x hz)
    exact ⟨y :: ys, .cons hy hys⟩

namespace Except

variable {ε α β : Type}

@[simp] theorem ok_bind' (a : α) (f : α → Except ε β) : (Except.ok a >>= f) = f a := rfl

@[simp] theorem error_bind' (e : ε) (f : α → Except ε β) :
    (Except.error e >>= f) = .error e := rfl

@[simp] theorem pure_eq (a : α) : (pure a : Except ε α) = .ok a := rfl

/-- A sequence returns when its first step does and then the rest. -/
theorem bind_eq_ok {x : Except ε α} {f : α → Except ε β} {b : β} :
    x >>= f = .ok b ↔ ∃ a, x = .ok a ∧ f a = .ok b := by
  cases x with
  | error e => simp
  | ok a => simp

theorem bind_eq_error {x : Except ε α} {f : α → Except ε β} {e : ε} :
    x >>= f = .error e ↔ x = .error e ∨ ∃ a, x = .ok a ∧ f a = .error e := by
  cases x with
  | error e => simp
  | ok a => simp

theorem map_eq_ok {f : α → β} {x : Except ε α} {b : β} :
    x.map f = .ok b ↔ ∃ a, x = .ok a ∧ f a = b := by
  cases x with
  | error e => simp [Except.map]
  | ok a => simp [Except.map]

/-- A step for each element returns when each of them does. -/
theorem mapM_eq_ok {f : α → Except ε β} : ∀ {xs : List α} {ys : List β},
    xs.mapM f = .ok ys ↔ List.Forall₂ (fun x y => f x = .ok y) xs ys
  | [], ys => by
    rw [List.mapM_nil, pure_eq, ok.injEq, List.forall₂_nil_left_iff, eq_comm]
  | x :: xs, ys => by
    rw [List.mapM_cons, bind_eq_ok, List.forall₂_cons_left_iff]
    simp only [bind_eq_ok, mapM_eq_ok, pure_eq, ok.injEq]
    constructor
    · rintro ⟨y, hy, zs, hzs, rfl⟩
      exact ⟨y, zs, hy, hzs, rfl⟩
    · rintro ⟨y, zs, hy, hzs, rfl⟩
      exact ⟨y, hy, zs, hzs, rfl⟩

theorem exists_mapM_eq_ok {R : α → β → Prop} {f : α → Except ε β} {xs : List α}
    (h : ∀ x ∈ xs, ∃ y, f x = .ok y ∧ R x y) :
    ∃ ys, xs.mapM f = .ok ys ∧ List.Forall₂ R xs ys := by
  induction xs with
  | nil => exact ⟨[], rfl, .nil⟩
  | cons x xs ih =>
    obtain ⟨y, hy, hR⟩ := h x List.mem_cons_self
    obtain ⟨ys, hys, hRs⟩ := ih fun z hz => h z (List.mem_cons_of_mem x hz)
    exact ⟨y :: ys, by simp [hy, hys], .cons hR hRs⟩

/-- Steps with the same outcomes have the same outcome together. -/
theorem mapM_congr_of_forall₂ {γ : Type} {f : α → Except ε γ} {g : β → Except ε γ} {xs : List α}
    {ys : List β} (h : List.Forall₂ (fun x y => f x = g y) xs ys) : xs.mapM f = ys.mapM g := by
  induction h with
  | nil => rfl
  | cons hxy _ ih => rw [List.mapM_cons, List.mapM_cons, hxy, ih]

/-- Every check of a list of checks passes. -/
theorem all_mapM_eq_true {f : α → Except ε Bool} {xs : List α} :
    (∃ rs, xs.mapM f = .ok rs ∧ rs.all id = true) ↔ ∀ x ∈ xs, f x = .ok true := by
  induction xs with
  | nil => simp
  | cons x xs ih =>
    rw [List.forall_mem_cons, ← ih]
    simp only [List.mapM_cons, bind_eq_ok, pure_eq, ok.injEq]
    constructor
    · rintro ⟨_, ⟨r, hr, rs, hrs, rfl⟩, hall⟩
      simp only [List.all_cons, id, Bool.and_eq_true] at hall
      exact ⟨by rw [hr, hall.1], rs, hrs, hall.2⟩
    · rintro ⟨hx, rs, hrs, hall⟩
      exact ⟨true :: rs, ⟨true, hx, rs, hrs, rfl⟩, by simpa using hall⟩

/-- Tests in turn : the first that holds or raises decides. -/
def anyTrue : List (Except ε Bool) → Except ε Bool
  | [] => .ok false
  | .ok false :: tests => anyTrue tests
  | test :: _ => test

/-- The computation returns. -/
def succeeds : Except ε α → Bool
  | .ok _ => true
  | .error _ => false

theorem succeeds_iff {x : Except ε α} : x.succeeds = true ↔ ∃ a, x = .ok a := by
  cases x <;> simp [succeeds]

theorem succeeds_bind {x : Except ε α} {f : α → Except ε β} :
    (x >>= f).succeeds = true ↔ ∃ a, x = .ok a ∧ (f a).succeeds = true := by
  cases x with
  | error e => simp [succeeds]
  | ok a => simp

@[simp] theorem anyTrue_ok_cons (b : Bool) (tests : List (Except ε Bool)) :
    anyTrue (.ok b :: tests) = if b then .ok true else anyTrue tests := by
  cases b <;> rfl

theorem succeeds_mapM {f : α → Except ε β} {xs : List α} :
    (xs.mapM f).succeeds = true ↔ ∀ x ∈ xs, (f x).succeeds = true := by
  simp only [succeeds_iff]
  constructor
  · rintro ⟨ys, hys⟩ x hx
    exact (exists_of_forall₂ (mapM_eq_ok.mp hys).flip hx).imp fun y hy => hy.2
  · intro h
    obtain ⟨ys, hys⟩ := exists_forall₂ h
    exact ⟨ys, mapM_eq_ok.mpr hys⟩

/-- What a map returned, where each step that returns gives `g`. -/
theorem eq_map_of_mapM {f : α → Except ε β} {g : α → β} {xs : List α} {ys : List β}
    (h : xs.mapM f = .ok ys) (hf : ∀ x y, f x = .ok y → y = g x) : ys = xs.map g := by
  have hsteps := mapM_eq_ok.mp h
  clear h
  induction hsteps with
  | nil => rfl
  | cons hxy _ ih => rw [List.map_cons, ← hf _ _ hxy, ← ih]

theorem exists_of_mapM_error {f : α → Except ε β} {e : ε} : ∀ {xs : List α},
    xs.mapM f = .error e → ∃ x ∈ xs, f x = .error e
  | [], h => by cases h
  | x :: xs, h => by
    rw [List.mapM_cons, bind_eq_error] at h
    rcases h with h | ⟨y, -, h⟩
    · exact ⟨x, List.mem_cons_self, h⟩
    · rcases bind_eq_error.mp h with h | ⟨ys, -, h⟩
      · obtain ⟨z, hz, h⟩ := exists_of_mapM_error h
        exact ⟨z, List.mem_cons_of_mem x hz, h⟩
      · cases h

/-- Tests in turn return when each test that is reached does. -/
theorem succeeds_anyTrue_cons {test : Except ε Bool} {tests : List (Except ε Bool)} :
    (anyTrue (test :: tests)).succeeds = true ↔
      test.succeeds = true ∧ (test = .ok true ∨ (anyTrue tests).succeeds = true) := by
  cases test with
  | error e => simp [anyTrue, succeeds]
  | ok b => cases b <;> simp [anyTrue, succeeds]

/-- What tests raise is raised by one of them. -/
theorem exists_of_anyTrue_error {e : ε} : ∀ {tests : List (Except ε Bool)},
    anyTrue tests = .error e → ∃ test ∈ tests, test = .error e
  | .error _ :: _, h => ⟨_, List.mem_cons_self, h⟩
  | .ok true :: _, h => by cases h
  | .ok false :: tests, h => by
    obtain ⟨test, htest, herror⟩ := exists_of_anyTrue_error (show anyTrue tests = .error e from h)
    exact ⟨test, List.mem_cons_of_mem _ htest, herror⟩

end Except
