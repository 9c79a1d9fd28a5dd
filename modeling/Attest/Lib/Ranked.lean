import Mathlib.Data.List.Sort

/-!
# Lists by rank

Sorting by descending rank keeps the elements (`perm_sortByRank`), puts them in order
(`pairwise_sortByRank`) and is stable : those of one rank stay in their order
(`filter_sortByRank`, an instance of `filter_insertionSort`). A fold that keeps the highest
rank is bounded by what bounds all it has seen (`foldl_rank_le`).
-/

namespace List

variable {α β : Type}

/-- The elements by descending rank. -/
def sortByRank (rank : α → Nat) (xs : List α) : List α :=
  xs.insertionSort fun a b => rank b ≤ rank a

variable {rank : α → Nat} {xs : List α}

theorem perm_sortByRank : xs.sortByRank rank ~ xs :=
  perm_insertionSort _ xs

theorem pairwise_sortByRank : (xs.sortByRank rank).Pairwise fun a b => rank b ≤ rank a :=
  @pairwise_insertionSort _ (fun a b => rank b ≤ rank a) _ ⟨fun _ _ => Nat.le_total _ _⟩
    ⟨fun _ _ _ hab hbc => hbc.trans hab⟩ xs

/-- Elements that are all related stay in their order. -/
theorem filter_insertionSort {r : α → α → Prop} [DecidableRel r] {p : α → Bool}
    (h : ∀ a b, p a = true → p b = true → r a b) :
    (xs.insertionSort r).filter p = xs.filter p := by
  have hordered : (xs.filter p).Pairwise r :=
    pairwise_of_forall_mem_list fun a ha b hb => h a b (mem_filter.mp ha).2 (mem_filter.mp hb).2
  have hsub : (xs.filter p).Sublist (xs.insertionSort r) :=
    sublist_insertionSort hordered filter_sublist
  have hfiltered : (xs.filter p).Sublist ((xs.insertionSort r).filter p) := by
    have hself := hsub.filter p
    rwa [filter_filter, funext fun a => Bool.and_self (p a)] at hself
  exact (hfiltered.eq_of_length ((perm_insertionSort r xs).filter p).length_eq.symm).symm

/-- Elements of one rank stay in their order. -/
theorem filter_sortByRank {p : α → Bool} (h : ∀ a b, p a = true → p b = true → rank a = rank b) :
    (xs.sortByRank rank).filter p = xs.filter p :=
  filter_insertionSort fun a b ha hb => (h b a hb ha).le

/-- A fold that keeps the highest rank stays below a bound of all it has seen. -/
theorem foldl_rank_le {f : β → α → β} {rank : β → Nat} {rankOf : α → Nat}
    (hf : ∀ b a, rank (f b a) = max (rank b) (rankOf a)) {n : Nat} :
    ∀ {xs : List α} {b : β}, rank (xs.foldl f b) ≤ n ↔ rank b ≤ n ∧ ∀ a ∈ xs, rankOf a ≤ n
  | [], b => by simp
  | a :: xs, b => by
    rw [foldl_cons, foldl_rank_le hf, hf, Nat.max_le, forall_mem_cons, and_assoc]

end List
