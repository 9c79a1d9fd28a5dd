import Mathlib.Data.List.Chain
import Mathlib.Data.List.Forall2
import Mathlib.Data.Set.Function

/-!
# Hash chains

Records that name the hash of the record before them. `Linked` is the check a
verifier makes along a list, and a list grows by what names its tip
(`linked_append_singleton`).

A list that links is a piece of the chain its records come from, whatever was
dropped, moved or repeated before it reached the verifier : where the hash tells the
records of the chains apart, records of any of them that link stand in one chain next
to each other (`Linked.infix`), and at its start if the first names nothing
(`Linked.prefix`).
-/

namespace HashChain

variable {α β : Type}

/-- Every record names the hash of the one before it, the first one `start`. -/
def Linked (hash : α → β) (prev : α → Option β) : Option β → List α → Prop
  | _, [] => True
  | start, x :: xs => prev x = start ∧ Linked hash prev (some (hash x)) xs

/-- What the next record has to name. -/
def tip (hash : α → β) : Option β → List α → Option β
  | start, [] => start
  | _, x :: xs => tip hash (some (hash x)) xs

variable {hash : α → β} {prev : α → Option β}

@[simp] theorem linked_nil (start : Option β) : Linked hash prev start [] := trivial

@[simp] theorem linked_cons {start : Option β} {x : α} {xs : List α} :
    Linked hash prev start (x :: xs) ↔ prev x = start ∧ Linked hash prev (some (hash x)) xs :=
  Iff.rfl

theorem tip_append (start : Option β) (xs ys : List α) :
    tip hash start (xs ++ ys) = tip hash (tip hash start xs) ys := by
  induction xs generalizing start with
  | nil => rfl
  | cons x xs ih => exact ih _

@[simp] theorem tip_concat (start : Option β) (xs : List α) (x : α) :
    tip hash start (xs ++ [x]) = some (hash x) := by
  rw [tip_append]
  rfl

theorem tip_eq_getLast? (xs : List α) : tip hash none xs = xs.getLast?.map hash := by
  rcases List.eq_nil_or_concat' xs with rfl | ⟨xs, x, rfl⟩
  · rfl
  · simp

theorem linked_append {start : Option β} {xs ys : List α} :
    Linked hash prev start (xs ++ ys) ↔
      Linked hash prev start xs ∧ Linked hash prev (tip hash start xs) ys := by
  induction xs generalizing start with
  | nil => simp [tip]
  | cons x xs ih => simp [tip, ih, and_assoc]

/-- A chain grows by a record that names its tip. -/
theorem linked_append_singleton {start : Option β} {xs : List α} {x : α}
    (h : Linked hash prev start xs) (hx : prev x = tip hash start xs) :
    Linked hash prev start (xs ++ [x]) :=
  linked_append.mpr ⟨h, hx, trivial⟩

theorem linked_map {γ : Type} {hash : α → β} {prev : α → Option β} (f : γ → α) {start : Option β}
    {xs : List γ} : Linked hash prev start (xs.map f) ↔
      Linked (fun x => hash (f x)) (fun x => prev (f x)) start xs := by
  induction xs generalizing start with
  | nil => simp
  | cons x xs ih => simp [ih]

/-- Records that name the one before them link from what the first one names. -/
theorem linked_of_isChain {xs : List α} {start : Option β}
    (h : xs.IsChain fun x y => prev y = some (hash x))
    (hstart : ∀ x, xs.head? = some x → prev x = start) : Linked hash prev start xs := by
  induction xs generalizing start with
  | nil => trivial
  | cons x xs ih =>
    rw [List.isChain_cons] at h
    exact ⟨hstart x rfl, ih h.2 h.1⟩

/-- Linking asks for hashes alone. -/
theorem linked_iff_of_forall₂ {γ : Type} {hash' : γ → β} {prev' : γ → Option β}
    {R : α → γ → Prop} (hR : ∀ {x y}, R x y → hash x = hash' y ∧ prev x = prev' y)
    {start : Option β} {xs : List α} {ys : List γ} (h : List.Forall₂ R xs ys) :
    Linked hash prev start xs ↔ Linked hash' prev' start ys := by
  induction h generalizing start with
  | nil => simp
  | cons hxy _ ih =>
    obtain ⟨hhash, hprev⟩ := hR hxy
    rw [linked_cons, linked_cons, hhash, hprev, ih]

/-- In a chain, what names a hash follows the record that has it. -/
theorem Linked.prev_eq {xs ys : List α} {x y : α}
    (h : Linked hash prev none (xs ++ x :: y :: ys)) : prev y = some (hash x) := by
  have := (linked_append.mp h).2
  exact this.2.1

/-- What a record names is the start or a record of the chain. -/
theorem Linked.prev_mem {start : Option β} {xs : List α} (h : Linked hash prev start xs) {x : α}
    (hx : x ∈ xs) : prev x = start ∨ ∃ y ∈ xs, prev x = some (hash y) := by
  induction xs generalizing start with
  | nil => cases hx
  | cons z xs ih =>
    rcases List.mem_cons.mp hx with rfl | hx
    · exact Or.inl h.1
    · rcases ih h.2 hx with hz | ⟨y, hy, hprev⟩
      · exact Or.inr ⟨z, List.mem_cons_self, hz⟩
      · exact Or.inr ⟨y, List.mem_cons_of_mem z hy, hprev⟩

theorem Linked.prev_head {xs : List α} {x : α} (h : Linked hash prev none (x :: xs)) :
    prev x = none :=
  h.1

variable {ι : Type} {chain : ι → List α}

/-- Records of some chains that link are a piece of one of them. -/
theorem Linked.infix (hchain : ∀ i, Linked hash prev none (chain i))
    (hinj : Set.InjOn hash {x | ∃ i, x ∈ chain i}) :
    ∀ {start : Option β} {ys : List α}, ys ≠ [] → Linked hash prev start ys →
      (∀ y ∈ ys, ∃ i, y ∈ chain i) → ∃ i, List.IsInfix ys (chain i)
  | _, [y], _, _, hmem => by
    obtain ⟨i, hi⟩ := hmem y (by simp)
    obtain ⟨l, r, hlr⟩ := List.append_of_mem hi
    exact ⟨i, l, r, by simp [hlr]⟩
  | _, y :: z :: ys, _, hlink, hmem => by
    obtain ⟨i, l, r, hlr⟩ := Linked.infix hchain hinj (List.cons_ne_nil z ys) hlink.2
      fun x hx => hmem x (List.mem_cons_of_mem y hx)
    have hz : prev z = some (hash y) := hlink.2.1
    -- The record before `z` in the chain is `y`, since it has the hash `z` names.
    rcases List.eq_nil_or_concat' l with rfl | ⟨l, x, rfl⟩
    · have := hchain i
      rw [← hlr] at this
      have hnone : prev z = none := Linked.prev_head this
      rw [hnone] at hz
      exact absurd hz.symm (Option.some_ne_none _)
    · have hi := hchain i
      rw [← hlr] at hi
      simp only [List.append_assoc, List.cons_append] at hi
      have hx : hash x = hash y := Option.some.inj ((Linked.prev_eq hi).symm.trans hz)
      have hxi : x ∈ chain i := by
        rw [← hlr]
        simp
      obtain rfl := hinj ⟨i, hxi⟩ (hmem y (by simp)) hx
      exact ⟨i, l, r, by rw [← hlr]; simp⟩

/-- Records of some chains that link from nothing are a start of one of them. -/
theorem Linked.prefix [Nonempty ι] (hchain : ∀ i, Linked hash prev none (chain i))
    (hinj : Set.InjOn hash {x | ∃ i, x ∈ chain i}) {ys : List α}
    (hlink : Linked hash prev none ys) (hmem : ∀ y ∈ ys, ∃ i, y ∈ chain i) :
    ∃ i, List.IsPrefix ys (chain i) := by
  cases ys with
  | nil => exact ⟨Classical.arbitrary ι, List.nil_prefix⟩
  | cons y ys =>
    obtain ⟨i, l, r, hlr⟩ := Linked.infix hchain hinj (List.cons_ne_nil y ys) hlink hmem
    rcases List.eq_nil_or_concat' l with rfl | ⟨l, x, rfl⟩
    · exact ⟨i, r, hlr⟩
    · have hi := hchain i
      rw [← hlr] at hi
      simp only [List.append_assoc, List.cons_append] at hi
      have hy : prev y = some (hash x) := Linked.prev_eq hi
      rw [hlink.1] at hy
      exact absurd hy.symm (Option.some_ne_none _)

end HashChain
