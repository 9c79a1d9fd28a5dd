import Mathlib.Data.List.Basic
import Mathlib.Data.List.Nodup
import Mathlib.Data.Set.Function
import Mathlib.Tactic.Ring

/-!
# Merkle trees

A tree over a list of leaves, level by level : neighbours are joined by `node`, and a
level of odd length joins its last element with itself. `rootOf` is the top, `proofOf`
the siblings on the way up from a leaf, and `climb` joins a leaf with such a list, by
the bits of its index.

Climbing from a leaf with its proof reaches the root (`climb_proofOf`). The root is the
one leaf or joins one of the pairs joined on the way up (`rootOf_cases`), and what all
leaves have and `node` keeps, both halves of those pairs have (`forall_mem_joinedOf`).

Where `node` tells the pairs joined apart and makes no leaf, a climb of any length that
reaches the root starts from a leaf, from the one at its index where there is one
(`mem_of_climb`), and lists without repetition that have one root are one list
(`eq_of_rootOf_eq`).
-/

namespace Merkle

variable {α : Type} (node : α → α → α)

/-- The level above. -/
def pairs : List α → List α
  | [] => []
  | [a] => [node a a]
  | a :: b :: rest => node a b :: pairs rest

/-- The top of a level, after at most `fuel` levels. -/
def rootFrom : Nat → List α → Option α
  | _, [] => none
  | _, [a] => some a
  | 0, a :: _ :: _ => some a
  | fuel + 1, a :: b :: rest => rootFrom fuel (pairs node (a :: b :: rest))

/-- The root over some leaves, `none` over none. -/
def rootOf (leaves : List α) : Option α :=
  rootFrom node leaves.length leaves

/-- What the element at `i` is joined with. -/
def sibling (level : List α) (i : Nat) : Option α :=
  if i % 2 = 1 then level[i - 1]? else level[i + 1]?.or level[i]?

/-- The siblings on the way up from `i`. -/
def proofFrom : Nat → List α → Nat → List α
  | fuel + 1, a :: b :: rest, i =>
    (sibling (a :: b :: rest) i).toList ++
      proofFrom fuel (pairs node (a :: b :: rest)) (i / 2)
  | _, _, _ => []

/-- The proof of the leaf at `i`. -/
def proofOf (leaves : List α) (i : Nat) : List α :=
  proofFrom node leaves.length leaves i

/-- Join `x` with its sibling. -/
def join (i : Int) (x s : α) : α :=
  if i % 2 = 1 then node s x else node x s

/-- Climb from `x` at `i` along a list of siblings. -/
def climb : α → Int → List α → α
  | x, _, [] => x
  | x, i, s :: rest => climb (join node i x s) (i / 2) rest

theorem length_pairs : ∀ level : List α, (pairs node level).length = (level.length + 1) / 2
  | [] => by simp [pairs]
  | [a] => by simp [pairs]
  | a :: b :: rest => by
    simp only [pairs, List.length_cons, length_pairs rest]
    omega

/-- An element and its sibling make the element above. -/
theorem getElem?_pairs : ∀ (level : List α) (i : Nat) {x : α}, level[i]? = some x →
    ∃ s, sibling level i = some s ∧ (pairs node level)[i / 2]? = some (join node i x s)
  | [a], 0, x, h => by
    obtain rfl : a = x := by simpa using h
    exact ⟨a, by simp [sibling], by simp [pairs, join]⟩
  | a :: b :: rest, 0, x, h => by
    obtain rfl : a = x := by simpa using h
    exact ⟨b, by simp [sibling], by simp [pairs, join]⟩
  | a :: b :: rest, 1, x, h => by
    obtain rfl : b = x := by simpa using h
    exact ⟨a, by simp [sibling], by simp [pairs, join]⟩
  | a :: b :: rest, i + 2, x, h => by
    obtain ⟨s, hs, hp⟩ := getElem?_pairs rest i (x := x) (by simpa using h)
    have hhalf : (i + 2) / 2 = i / 2 + 1 := by omega
    refine ⟨s, ?_, ?_⟩
    · rw [← hs]
      unfold sibling
      by_cases hodd : i % 2 = 1
      · obtain ⟨j, rfl⟩ : ∃ j, i = j + 1 := ⟨i - 1, by omega⟩
        have hodd' : (j + 1 + 2) % 2 = 1 := by omega
        rw [if_pos hodd, if_pos hodd']
        simp
      · have hodd' : ¬ (i + 2) % 2 = 1 := by omega
        rw [if_neg hodd, if_neg hodd']
        simp
    · rw [hhalf]
      have hmod : (i + 2) % 2 = i % 2 := by omega
      simpa [pairs, join, hmod] using hp

theorem rootFrom_eq_climb : ∀ (fuel : Nat) (level : List α) (i : Nat) {x : α},
    level.length ≤ fuel + 1 → level[i]? = some x →
      rootFrom node fuel level = some (climb node x i (proofFrom node fuel level i))
  | 0, [a], 0, x, _, h => by
    obtain rfl : a = x := by simpa using h
    rfl
  | fuel + 1, [a], 0, x, _, h => by
    obtain rfl : a = x := by simpa using h
    rfl
  | fuel + 1, a :: b :: rest, i, x, hlen, h => by
    obtain ⟨s, hs, hp⟩ := getElem?_pairs node (a :: b :: rest) i h
    have hshort : (pairs node (a :: b :: rest)).length ≤ fuel + 1 := by
      rw [length_pairs]
      simp only [List.length_cons] at hlen ⊢
      omega
    have ih := rootFrom_eq_climb fuel _ (i / 2) hshort hp
    have hhalf : ((i / 2 : Nat) : Int) = (i : Int) / 2 := Int.natCast_ediv i 2
    simp only [rootFrom, proofFrom, hs, Option.toList_some, List.singleton_append, climb, ← hhalf]
    exact ih

/-- Climbing from a leaf with its proof reaches the root. -/
theorem climb_proofOf {leaves : List α} {i : Nat} {x : α} (h : leaves[i]? = some x) :
    rootOf node leaves = some (climb node x i (proofOf node leaves i)) :=
  rootFrom_eq_climb node leaves.length leaves i (Nat.le_succ _) h

/-- The pairs joined on a level. -/
def neighbours : List α → List (α × α)
  | [] => []
  | [a] => [(a, a)]
  | a :: b :: rest => (a, b) :: neighbours rest

/-- All pairs joined on the way to the root. -/
def joinedFrom : Nat → List α → List (α × α)
  | fuel + 1, a :: b :: rest =>
    neighbours (a :: b :: rest) ++ joinedFrom fuel (pairs node (a :: b :: rest))
  | _, _ => []

def joinedOf (leaves : List α) : List (α × α) :=
  joinedFrom node leaves.length leaves

theorem pairs_eq_map : ∀ level : List α,
    pairs node level = (neighbours level).map fun p => node p.1 p.2
  | [] => by simp [pairs, neighbours]
  | [a] => by simp [pairs, neighbours]
  | a :: b :: rest => by simp [pairs, neighbours, pairs_eq_map rest]

theorem mem_of_mem_neighbours : ∀ {level : List α} {p : α × α}, p ∈ neighbours level →
    p.1 ∈ level ∧ p.2 ∈ level
  | [a], p, h => by
    obtain rfl : p = (a, a) := by simpa [neighbours] using h
    simp
  | a :: b :: rest, p, h => by
    rcases List.mem_cons.mp h with rfl | h
    · simp
    · have := mem_of_mem_neighbours h
      simp [this.1, this.2]

/-- What all leaves have and `node` keeps, both halves of every pair have. -/
theorem forall_mem_joinedFrom {P : α → Prop} (hnode : ∀ a b, P a → P b → P (node a b)) :
    ∀ (fuel : Nat) {level : List α}, (∀ x ∈ level, P x) →
      ∀ p ∈ joinedFrom node fuel level, P p.1 ∧ P p.2
  | 0, level, _, p, hp => by simp [joinedFrom] at hp
  | fuel + 1, [], _, p, hp => by simp [joinedFrom] at hp
  | fuel + 1, [a], _, p, hp => by simp [joinedFrom] at hp
  | fuel + 1, a :: b :: rest, h, p, hp => by
    rcases List.mem_append.mp hp with hp | hp
    · have := mem_of_mem_neighbours hp
      exact ⟨h _ this.1, h _ this.2⟩
    · refine forall_mem_joinedFrom hnode fuel ?_ p hp
      intro x hx
      rw [pairs_eq_map] at hx
      obtain ⟨q, hq, rfl⟩ := List.mem_map.mp hx
      have := mem_of_mem_neighbours hq
      exact hnode _ _ (h _ this.1) (h _ this.2)

theorem forall_mem_joinedOf {P : α → Prop} (hnode : ∀ a b, P a → P b → P (node a b))
    {leaves : List α} (h : ∀ x ∈ leaves, P x) : ∀ p ∈ joinedOf node leaves, P p.1 ∧ P p.2 :=
  forall_mem_joinedFrom node hnode leaves.length h

theorem rootFrom_cases : ∀ (fuel : Nat) {level : List α} {r : α}, level.length ≤ fuel + 1 →
    rootFrom node fuel level = some r →
      level = [r] ∨ ∃ p ∈ joinedFrom node fuel level, r = node p.1 p.2
  | 0, [a], r, _, h => by simp_all [rootFrom]
  | fuel + 1, [a], r, _, h => by simp_all [rootFrom]
  | fuel + 1, a :: b :: rest, r, hlen, h => by
    right
    have hshort : (pairs node (a :: b :: rest)).length ≤ fuel + 1 := by
      rw [length_pairs]
      simp only [List.length_cons] at hlen ⊢
      omega
    rcases rootFrom_cases fuel hshort h with hr | ⟨p, hp, hr⟩
    · -- One pair is left, so the level above is the root.
      obtain ⟨hr, -⟩ : node a b = r ∧ pairs node rest = [] := by simpa [pairs] using hr
      exact ⟨(a, b), by simp [joinedFrom, neighbours], hr.symm⟩
    · exact ⟨p, List.mem_append_right _ hp, hr⟩

/-- The root is the one leaf there is, or joins a pair. -/
theorem rootOf_cases {leaves : List α} {r : α} (h : rootOf node leaves = some r) :
    leaves = [r] ∨ ∃ p ∈ joinedOf node leaves, r = node p.1 p.2 :=
  rootFrom_cases node leaves.length (Nat.le_succ _) h

theorem rootOf_isSome {leaves : List α} (h : leaves ≠ []) : ∃ r, rootOf node leaves = some r := by
  obtain ⟨x, rest, rfl⟩ := List.exists_cons_of_ne_nil h
  exact ⟨_, climb_proofOf node (i := 0) (x := x) rfl⟩

/-! ## Climbs that reach the root -/

/-- The pairs joined on a climb. -/
def climbed : α → Int → List α → List (α × α)
  | _, _, [] => []
  | x, i, s :: rest =>
    (if i % 2 = 1 then (s, x) else (x, s)) :: climbed (join node i x s) (i / 2) rest

/-- The index after `n` steps up. -/
def up (i : Int) : Nat → Int
  | 0 => i
  | n + 1 => up (i / 2) n

theorem up_succ : ∀ (i : Int) (n : Nat), up i (n + 1) = up i n / 2
  | _, 0 => rfl
  | i, n + 1 => up_succ (i / 2) n

/-- A climb ends with the join of its last sibling. -/
theorem climb_concat : ∀ (x : α) (i : Int) (proof : List α) (s : α),
    climb node x i (proof ++ [s]) =
      join node (up i proof.length) (climb node x i proof) s
  | _, _, [], _ => rfl
  | x, i, t :: proof, s => climb_concat (join node i x t) (i / 2) proof s

theorem climbed_append : ∀ (x : α) (i : Int) (proof rest : List α),
    climbed node x i (proof ++ rest) = climbed node x i proof ++
      climbed node (climb node x i proof) (up i proof.length) rest
  | _, _, [], _ => rfl
  | x, i, t :: proof, rest => by
    rw [List.cons_append, climbed, climbed, climbed_append]
    rfl

/-- The last pair of a climb. -/
theorem mem_climbed_concat (x : α) (i : Int) (proof : List α) (s : α) (rest : List α) :
    (if up i proof.length % 2 = 1 then (s, climb node x i proof) else (climb node x i proof, s)) ∈
      climbed node x i (proof ++ s :: rest) := by
  rw [climbed_append]
  exact List.mem_append_right _ List.mem_cons_self

theorem join_eq (i : Int) (x s : α) :
    join node i x s = node (if i % 2 = 1 then (s, x) else (x, s)).1
      (if i % 2 = 1 then (s, x) else (x, s)).2 := by
  unfold join
  split <;> rfl

/-- The two halves of a pair, where they stand on their level. -/
theorem getElem?_neighbours : ∀ {level : List α} {j : Nat} {p : α × α},
    (neighbours level)[j]? = some p → level[2 * j]? = some p.1 ∧
      (level[2 * j + 1]? = some p.2 ∨ level.length = 2 * j + 1 ∧ p.2 = p.1)
  | [a], 0, p, h => by
    obtain rfl : (a, a) = p := by simpa [neighbours] using h
    exact ⟨rfl, Or.inr ⟨rfl, rfl⟩⟩
  | a :: b :: rest, 0, p, h => by
    obtain rfl : (a, b) = p := by simpa [neighbours] using h
    exact ⟨rfl, Or.inl rfl⟩
  | a :: b :: rest, j + 1, p, h => by
    have hrest : (neighbours rest)[j]? = some p := by simpa [neighbours] using h
    obtain ⟨hleft, hright⟩ := getElem?_neighbours hrest
    have hindex : 2 * (j + 1) = 2 * j + 1 + 1 := by omega
    rw [hindex]
    refine ⟨by simpa using hleft, hright.imp (fun h => by simpa using h) fun h => ?_⟩
    exact ⟨by simp only [List.length_cons]; omega, h.2⟩

/-- A climb that reaches the root passes through the level, unless it starts above it.
Where the level has its index, it passes there. -/
theorem rootFrom_climb : ∀ (fuel : Nat) {level : List α} {x : α} {i : Int} {proof : List α},
    level.length ≤ fuel + 1 →
    (∀ p ∈ joinedFrom node fuel level, ∀ q ∈ climbed node x i proof,
      node p.1 p.2 = node q.1 q.2 → p = q) →
    rootFrom node fuel level = some (climb node x i proof) →
    (∃ below above, ∃ j : Nat, proof = below ++ above ∧ level[j]? = some (climb node x i below) ∧
      (0 ≤ up i below.length → up i below.length < level.length → (j : Int) = up i below.length)) ∨
      ∃ p ∈ joinedFrom node fuel level, x = node p.1 p.2
  | fuel, [], x, i, proof, _, _, h => by cases fuel <;> simp [rootFrom] at h
  | 0, a :: b :: rest, x, i, proof, hlen, _, _ => by simp at hlen
  | fuel, [a], x, i, proof, _, _, h => by
    have hroot : a = climb node x i proof := by
      cases fuel <;> simpa [rootFrom] using h
    refine Or.inl ⟨proof, [], 0, by simp, by rw [← hroot]; rfl, fun hpos hlt => ?_⟩
    simp only [List.length_singleton, Nat.cast_one] at hlt
    omega
  | fuel + 1, a :: b :: rest, x, i, proof, hlen, hinj, h => by
    have hshort : (pairs node (a :: b :: rest)).length ≤ fuel + 1 := by
      rw [length_pairs]
      simp only [List.length_cons] at hlen ⊢
      omega
    rcases rootFrom_climb fuel hshort (fun p hp => hinj p (List.mem_append_right _ hp)) h with
      ⟨below, above, j, rfl, hj, hplace⟩ | ⟨p, hp, hx⟩
    · rw [pairs_eq_map, List.getElem?_map] at hj
      obtain ⟨p, hp, hnode⟩ := Option.map_eq_some_iff.mp hj
      have hmem : p ∈ joinedFrom node (fuel + 1) (a :: b :: rest) :=
        List.mem_append_left _ (List.mem_of_getElem? hp)
      obtain ⟨hleft, hright⟩ := getElem?_neighbours hp
      -- The climb reaches the level above, so its last step joined a pair of this one.
      rcases List.eq_nil_or_concat below with rfl | ⟨before, s, rfl⟩
      · exact Or.inr ⟨p, hmem, hnode.symm⟩
      · rw [List.concat_eq_append] at *
        rw [climb_concat, join_eq] at hnode
        have hq := mem_climbed_concat node x i before s above
        have hpair := hinj p hmem _ (by simpa using hq) hnode
        rw [List.length_append, List.length_singleton, up_succ, length_pairs] at hplace
        have hhalf : (((a :: b :: rest).length + 1) / 2 : Nat) =
            (((a :: b :: rest).length : Int) + 1) / 2 := by simp
        rw [hhalf] at hplace
        left
        by_cases hodd : up i before.length % 2 = 1
        · rw [if_pos hodd] at hpair
          have hright' : p.2 = climb node x i before := congrArg Prod.snd hpair
          rcases hright with hright | ⟨hlast, hsame⟩
          · refine ⟨before, s :: above, 2 * j + 1, by simp, hright' ▸ hright, fun hpos hlt => ?_⟩
            have := hplace (by omega) (by omega)
            push_cast
            omega
          · refine ⟨before, s :: above, 2 * j, by simp, hright' ▸ hsame ▸ hleft, fun hpos hlt => ?_⟩
            have := hplace (by omega) (by omega)
            omega
        · rw [if_neg hodd] at hpair
          have hleft' : p.1 = climb node x i before := congrArg Prod.fst hpair
          refine ⟨before, s :: above, 2 * j, by simp, hleft' ▸ hleft, fun hpos hlt => ?_⟩
          have := hplace (by omega) (by omega)
          push_cast
          omega
    · exact Or.inr ⟨p, List.mem_append_right _ hp, hx⟩

/-- A climb that reaches the root starts from a leaf, from the one at its index where
there is one. -/
theorem mem_of_climb {leaves : List α} {x : α} {i : Int} {proof : List α}
    (hinj : ∀ p ∈ joinedOf node leaves, ∀ q ∈ climbed node x i proof,
      node p.1 p.2 = node q.1 q.2 → p = q)
    (hleaves : ∀ y ∈ leaves, ∀ q ∈ climbed node x i proof, y ≠ node q.1 q.2)
    (hleaf : ∀ p ∈ joinedOf node leaves, x ≠ node p.1 p.2)
    (h : rootOf node leaves = some (climb node x i proof)) :
    x ∈ leaves ∧ (0 ≤ i → i < leaves.length → leaves[i.toNat]? = some x) := by
  rcases rootFrom_climb node leaves.length (Nat.le_succ _) hinj h with
    ⟨below, above, j, rfl, hj, hplace⟩ | ⟨p, hp, hx⟩
  · rcases List.eq_nil_or_concat below with rfl | ⟨before, s, rfl⟩
    · refine ⟨List.mem_of_getElem? hj, fun hpos hlt => ?_⟩
      have hji : (j : Int) = i := hplace hpos hlt
      rw [← hji, Int.toNat_natCast]
      exact hj
    · rw [List.concat_eq_append] at *
      refine absurd ?_ (hleaves _ (List.mem_of_getElem? hj) _
        (by simpa using mem_climbed_concat node x i before s above))
      rw [climb_concat, join_eq]
  · exact absurd hx (hleaf p hp)

/-- Climbs along one list of siblings that end in one place start in one place. -/
theorem climb_inj : ∀ {x y : α} {i : Int} {proof : List α},
    (∀ s a b, (s, a) ∈ climbed node x i proof → (s, b) ∈ climbed node y i proof →
      node s a = node s b → a = b) →
    (∀ s a b, (a, s) ∈ climbed node x i proof → (b, s) ∈ climbed node y i proof →
      node a s = node b s → a = b) →
    climb node x i proof = climb node y i proof → x = y
  | x, y, _, [], _, _, h => h
  | x, y, i, s :: rest, hright, hleft, h => by
    have hjoin : join node i x s = join node i y s :=
      climb_inj (fun t a b ha hb =>
        hright t a b (List.mem_cons_of_mem _ ha) (List.mem_cons_of_mem _ hb)) (fun t a b ha hb =>
          hleft t a b (List.mem_cons_of_mem _ ha) (List.mem_cons_of_mem _ hb)) h
    unfold join at hjoin
    unfold climbed at hright hleft
    by_cases hodd : i % 2 = 1
    · rw [if_pos hodd, if_pos hodd] at hjoin
      rw [if_pos hodd, if_pos hodd] at hright
      exact hright s x y List.mem_cons_self List.mem_cons_self hjoin
    · rw [if_neg hodd, if_neg hodd] at hjoin
      rw [if_neg hodd, if_neg hodd] at hleft
      exact hleft s x y List.mem_cons_self List.mem_cons_self hjoin

/-! ## Lists with one root -/

theorem eq_of_map_eq {β : Type} {f : α → β} : ∀ {xs ys : List α},
    (∀ x ∈ xs, ∀ y ∈ ys, f x = f y → x = y) → xs.map f = ys.map f → xs = ys
  | [], [], _, _ => rfl
  | [], _ :: _, _, h => by simp at h
  | _ :: _, [], _, h => by simp at h
  | x :: xs, y :: ys, hinj, h => by
    obtain ⟨hxy, hrest⟩ : f x = f y ∧ xs.map f = ys.map f := by simpa using h
    rw [hinj x List.mem_cons_self y List.mem_cons_self hxy, eq_of_map_eq (fun a ha b hb =>
      hinj a (List.mem_cons_of_mem _ ha) b (List.mem_cons_of_mem _ hb)) hrest]

theorem nodup_neighbours : ∀ {level : List α}, level.Nodup → (neighbours level).Nodup
  | [], _ => List.nodup_nil
  | [a], _ => List.nodup_singleton _
  | a :: b :: rest, h => by
    obtain ⟨ha, hrest⟩ := List.nodup_cons.mp h
    refine List.nodup_cons.mpr ⟨fun hmem => ha ?_, nodup_neighbours (List.nodup_cons.mp hrest).2⟩
    exact List.mem_cons_of_mem _ (mem_of_mem_neighbours hmem).1

/-- Without repetition, only one list has these neighbours. -/
theorem eq_of_neighbours_eq : ∀ {xs ys : List α}, xs.Nodup → ys.Nodup →
    neighbours xs = neighbours ys → xs = ys
  | [], [], _, _, _ => rfl
  | [], [a], _, _, h => by simp [neighbours] at h
  | [], a :: b :: ys, _, _, h => by simp [neighbours] at h
  | [a], [], _, _, h => by simp [neighbours] at h
  | a :: b :: xs, [], _, _, h => by simp [neighbours] at h
  | [a], [b], _, _, h => by
    obtain ⟨hab, -⟩ : a = b ∧ a = b := by simpa [neighbours] using h
    rw [hab]
  | [a], b :: c :: ys, _, hys, h => by
    obtain ⟨⟨rfl, rfl⟩, -⟩ : (a = b ∧ a = c) ∧ neighbours ys = [] := by
      simpa only [neighbours, List.cons.injEq, Prod.mk.injEq, List.nil_eq] using h
    exact absurd List.mem_cons_self (List.nodup_cons.mp hys).1
  | a :: b :: xs, [c], hxs, _, h => by
    obtain ⟨⟨rfl, rfl⟩, -⟩ : (a = c ∧ b = c) ∧ neighbours xs = [] := by
      simpa [neighbours] using h
    exact absurd List.mem_cons_self (List.nodup_cons.mp hxs).1
  | a :: b :: xs, c :: d :: ys, hxs, hys, h => by
    obtain ⟨⟨rfl, rfl⟩, hrest⟩ : (a = c ∧ b = d) ∧ neighbours xs = neighbours ys := by
      simpa [neighbours] using h
    rw [eq_of_neighbours_eq (List.nodup_cons.mp (List.nodup_cons.mp hxs).2).2
      (List.nodup_cons.mp (List.nodup_cons.mp hys).2).2 hrest]

/-- A half of a pair is an element of the level, or was joined of a pair. -/
theorem half_of_mem_joinedFrom : ∀ {fuel : Nat} {level : List α} {p : α × α},
    p ∈ joinedFrom node fuel level →
      p.1 ∈ level ∨ ∃ q ∈ joinedFrom node fuel level, p.1 = node q.1 q.2
  | 0, level, p, h => by simp [joinedFrom] at h
  | fuel + 1, [], p, h => by simp [joinedFrom] at h
  | fuel + 1, [a], p, h => by simp [joinedFrom] at h
  | fuel + 1, a :: b :: rest, p, h => by
    rcases List.mem_append.mp h with h | h
    · exact Or.inl (mem_of_mem_neighbours h).1
    · right
      rcases half_of_mem_joinedFrom h with hmem | ⟨q, hq, hnode⟩
      · rw [pairs_eq_map] at hmem
        obtain ⟨q, hq, hnode⟩ := List.mem_map.mp hmem
        exact ⟨q, List.mem_append_left _ hq, hnode.symm⟩
      · exact ⟨q, List.mem_append_right _ hq, hnode⟩

/-- An element of the level above that a pair of another tree joins too has below it an
element that is joined there. -/
theorem exists_joined_below {f g : Nat} {a b c d : α} {xs ys : List α}
    (hinj : Set.InjOn (fun p : α × α => node p.1 p.2)
      {p | p ∈ joinedFrom node (f + 1) (a :: b :: xs) ∨ p ∈ joinedFrom node (g + 1) (c :: d :: ys)})
    (h : ∃ x ∈ pairs node (a :: b :: xs), ∃ p ∈ joinedFrom node g (pairs node (c :: d :: ys)),
      x = node p.1 p.2) :
    ∃ x ∈ a :: b :: xs, ∃ p ∈ joinedFrom node (g + 1) (c :: d :: ys), x = node p.1 p.2 := by
  obtain ⟨x, hx, p, hp, rfl⟩ := h
  rw [pairs_eq_map] at hx
  obtain ⟨q, hq, hnode⟩ := List.mem_map.mp hx
  obtain rfl : q = p := hinj (Or.inl (List.mem_append_left _ hq))
    (Or.inr (List.mem_append_right _ hp)) hnode
  refine ⟨q.1, (mem_of_mem_neighbours hq).1, ?_⟩
  rcases half_of_mem_joinedFrom node hp with hmem | ⟨r, hr, hleft⟩
  · rw [pairs_eq_map] at hmem
    obtain ⟨r, hr, hleft⟩ := List.mem_map.mp hmem
    exact ⟨r, List.mem_append_left _ hr, hleft.symm⟩
  · exact ⟨r, List.mem_append_right _ hr, hleft⟩

/-- Levels with one root are one level, or one holds what is joined on the way up from
the other. -/
theorem rootFrom_inj : ∀ (f g : Nat) {xs ys : List α} {r : α}, xs.length ≤ f + 1 →
    ys.length ≤ g + 1 → xs.Nodup → ys.Nodup →
    Set.InjOn (fun p : α × α => node p.1 p.2)
      {p | p ∈ joinedFrom node f xs ∨ p ∈ joinedFrom node g ys} →
    rootFrom node f xs = some r → rootFrom node g ys = some r →
    xs = ys ∨ (∃ x ∈ xs, ∃ p ∈ joinedFrom node g ys, x = node p.1 p.2) ∨
      ∃ y ∈ ys, ∃ p ∈ joinedFrom node f xs, y = node p.1 p.2
  | f, _, [], _, _, _, _, _, _, _, h, _ => by cases f <;> simp [rootFrom] at h
  | _, g, _, [], _, _, _, _, _, _, _, h => by cases g <;> simp [rootFrom] at h
  | 0, _, a :: b :: xs, _, _, hlen, _, _, _, _, _, _ => by simp at hlen
  | _, 0, _, a :: b :: ys, _, _, hlen, _, _, _, _, _ => by simp at hlen
  | f, g, [a], ys, r, _, hlen, _, _, _, hx, hy => by
    obtain rfl : a = r := by cases f <;> simpa [rootFrom] using hx
    rcases rootFrom_cases node g hlen hy with rfl | ⟨p, hp, hnode⟩
    · exact Or.inl rfl
    · exact Or.inr (Or.inl ⟨a, List.mem_cons_self, p, hp, hnode⟩)
  | f, g, xs, [b], r, hlen, _, _, _, _, hx, hy => by
    obtain rfl : b = r := by cases g <;> simpa [rootFrom] using hy
    rcases rootFrom_cases node f hlen hx with rfl | ⟨p, hp, hnode⟩
    · exact Or.inl rfl
    · exact Or.inr (Or.inr ⟨b, List.mem_cons_self, p, hp, hnode⟩)
  | f + 1, g + 1, a :: b :: xs, c :: d :: ys, r, hxlen, hylen, hxs, hys, hinj, hx, hy => by
    have hxshort : (pairs node (a :: b :: xs)).length ≤ f + 1 := by
      rw [length_pairs]
      simp only [List.length_cons] at hxlen ⊢
      omega
    have hyshort : (pairs node (c :: d :: ys)).length ≤ g + 1 := by
      rw [length_pairs]
      simp only [List.length_cons] at hylen ⊢
      omega
    have hxinj : ∀ p ∈ neighbours (a :: b :: xs), ∀ q ∈ neighbours (a :: b :: xs),
        node p.1 p.2 = node q.1 q.2 → p = q := fun p hp q hq =>
      hinj (Or.inl (List.mem_append_left _ hp)) (Or.inl (List.mem_append_left _ hq))
    have hyinj : ∀ p ∈ neighbours (c :: d :: ys), ∀ q ∈ neighbours (c :: d :: ys),
        node p.1 p.2 = node q.1 q.2 → p = q := fun p hp q hq =>
      hinj (Or.inr (List.mem_append_left _ hp)) (Or.inr (List.mem_append_left _ hq))
    have hxabove : (pairs node (a :: b :: xs)).Nodup := by
      rw [pairs_eq_map]
      exact (nodup_neighbours hxs).map_on hxinj
    have hyabove : (pairs node (c :: d :: ys)).Nodup := by
      rw [pairs_eq_map]
      exact (nodup_neighbours hys).map_on hyinj
    have habove : Set.InjOn (fun p : α × α => node p.1 p.2)
        {p | p ∈ joinedFrom node f (pairs node (a :: b :: xs)) ∨
          p ∈ joinedFrom node g (pairs node (c :: d :: ys))} :=
      hinj.mono fun p hp => hp.imp (List.mem_append_right _) (List.mem_append_right _)
    rcases rootFrom_inj f g hxshort hyshort hxabove hyabove habove hx hy with
      hsame | hbelow | hbelow
    · left
      rw [pairs_eq_map, pairs_eq_map] at hsame
      refine eq_of_neighbours_eq hxs hys (eq_of_map_eq (fun p hp q hq => ?_) hsame)
      exact hinj (Or.inl (List.mem_append_left _ hp)) (Or.inr (List.mem_append_left _ hq))
    · exact Or.inr (Or.inl (exists_joined_below node hinj hbelow))
    · refine Or.inr (Or.inr (exists_joined_below node (hinj.mono fun p hp => hp.symm) hbelow))

/-- Without repetition and with no leaf that is a join, only one list has a root. -/
theorem eq_of_rootOf_eq {xs ys : List α} {r : α} (hxs : xs.Nodup) (hys : ys.Nodup)
    (hinj : Set.InjOn (fun p : α × α => node p.1 p.2)
      {p | p ∈ joinedOf node xs ∨ p ∈ joinedOf node ys})
    (hxleaf : ∀ x ∈ xs, ∀ p ∈ joinedOf node ys, x ≠ node p.1 p.2)
    (hyleaf : ∀ y ∈ ys, ∀ p ∈ joinedOf node xs, y ≠ node p.1 p.2)
    (hx : rootOf node xs = some r) (hy : rootOf node ys = some r) : xs = ys := by
  rcases rootFrom_inj node xs.length ys.length (Nat.le_succ _) (Nat.le_succ _) hxs hys hinj hx hy
    with hsame | ⟨x, hmem, p, hp, hnode⟩ | ⟨y, hmem, p, hp, hnode⟩
  · exact hsame
  · exact absurd hnode (hxleaf x hmem p hp)
  · exact absurd hnode (hyleaf y hmem p hp)

end Merkle
