import Attest.Lib.Json

/-!
# JSON values up to the order of keys

`SameUpToOrder` is the least equivalence of JSON values that permutes the items of
objects and goes through arrays and objects. On values whose objects name no key twice
(`Distinct`) it is what sorting the keys decides : each value is the same as its sorted
form (`sameUpToOrder_sortKeys`), and the same values have one sorted form
(`SameUpToOrder.sortKeys_eq`), so two values have one canonical text exactly when they
are the same up to the order of keys (`canonical_eq_iff`).
-/

namespace JVal

/-! ## Distinct keys -/

mutual
/-- No object of the value names a key twice. -/
def Distinct : JVal → Prop
  | .arr items => DistinctList items
  | .obj items => (items.map Prod.fst).Nodup ∧ DistinctItems items
  | _ => True

def DistinctList : List JVal → Prop
  | [] => True
  | v :: vs => Distinct v ∧ DistinctList vs

def DistinctItems : List (String × JVal) → Prop
  | [] => True
  | (_, v) :: rest => Distinct v ∧ DistinctItems rest
end

theorem distinctList_iff : ∀ vs : List JVal, DistinctList vs ↔ ∀ v ∈ vs, Distinct v
  | [] => by simp [DistinctList]
  | v :: vs => by simp [DistinctList, distinctList_iff vs]

theorem distinctItems_iff : ∀ items : Dict,
    DistinctItems items ↔ ∀ item ∈ items, Distinct item.2
  | [] => by simp [DistinctItems]
  | (k, v) :: rest => by simp [DistinctItems, distinctItems_iff rest]

theorem distinct_arr {items : List JVal} : Distinct (.arr items) ↔ ∀ v ∈ items, Distinct v := by
  rw [Distinct, distinctList_iff]

theorem distinct_obj {items : Dict} : Distinct (.obj items) ↔
    (items.map Prod.fst).Nodup ∧ ∀ item ∈ items, Distinct item.2 := by
  rw [Distinct, distinctItems_iff]

theorem sortKeysList_eq_map : ∀ vs : List JVal, sortKeysList vs = vs.map sortKeys
  | [] => rfl
  | v :: vs => by rw [sortKeysList, sortKeysList_eq_map vs, List.map_cons]

theorem sortKeysItems_eq_map : ∀ items : Dict,
    sortKeysItems items = items.map fun item => (item.1, sortKeys item.2)
  | [] => rfl
  | (k, v) :: rest => by rw [sortKeysItems, sortKeysItems_eq_map rest, List.map_cons]

/-! ## The same up to the order of keys -/

/-- The values are equal up to the order of the keys of their objects. -/
inductive SameUpToOrder : JVal → JVal → Prop
  | refl (v : JVal) : SameUpToOrder v v
  | symm {v w : JVal} : SameUpToOrder v w → SameUpToOrder w v
  | trans {u v w : JVal} : SameUpToOrder u v → SameUpToOrder v w → SameUpToOrder u w
  | perm {a b : Dict} : List.Perm a b → SameUpToOrder (.obj a) (.obj b)
  | elem {v w : JVal} (before after : List JVal) : SameUpToOrder v w →
      SameUpToOrder (.arr (before ++ v :: after)) (.arr (before ++ w :: after))
  | entry {v w : JVal} (before after : Dict) (key : String) : SameUpToOrder v w →
      SameUpToOrder (.obj (before ++ (key, v) :: after)) (.obj (before ++ (key, w) :: after))

mutual
/-- Sorting the keys changes their order alone. -/
theorem sameUpToOrder_sortKeys : ∀ v : JVal, SameUpToOrder v (sortKeys v)
  | .null => .refl _
  | .bool _ => .refl _
  | .int _ => .refl _
  | .float _ => .refl _
  | .str _ => .refl _
  | .arr items => sameUpToOrder_sortKeysList [] items
  | .obj items =>
    (sameUpToOrder_sortKeysItems [] items).trans (.perm (sortItems_perm (sortKeysItems items)).symm)

theorem sameUpToOrder_sortKeysList : ∀ before vs : List JVal,
    SameUpToOrder (.arr (before ++ vs)) (.arr (before ++ sortKeysList vs))
  | before, [] => .refl _
  | before, v :: vs => by
    have hrest := sameUpToOrder_sortKeysList (before ++ [sortKeys v]) vs
    simp only [List.append_assoc, List.singleton_append] at hrest
    exact (SameUpToOrder.elem before vs (sameUpToOrder_sortKeys v)).trans hrest

theorem sameUpToOrder_sortKeysItems : ∀ before items : List (String × JVal),
    SameUpToOrder (.obj (before ++ items)) (.obj (before ++ sortKeysItems items))
  | before, [] => .refl _
  | before, (k, v) :: rest => by
    have hrest := sameUpToOrder_sortKeysItems (before ++ [(k, sortKeys v)]) rest
    simp only [List.append_assoc, List.singleton_append] at hrest
    exact (SameUpToOrder.entry before rest k (sameUpToOrder_sortKeys v)).trans hrest
end

/-- Permuted items with distinct keys sort to one list. -/
theorem sortItems_eq_of_perm {a b : Dict} (h : List.Perm a b) (hnodup : (a.map Prod.fst).Nodup) :
    sortItems a = sortItems b := by
  have hsorted (items : Dict) : (sortItems items).Pairwise fun x y => x.1 ≤ y.1 := by
    have : Std.Total fun x y : String × JVal => x.1 ≤ y.1 := ⟨fun x y => String.le_total x.1 y.1⟩
    have : IsTrans (String × JVal) fun x y => x.1 ≤ y.1 := ⟨fun _ _ _ => String.le_trans⟩
    exact List.pairwise_insertionSort _ items
  have hperm : List.Perm (sortItems a) (sortItems b) :=
    ((sortItems_perm a).trans h).trans (sortItems_perm b).symm
  refine hperm.eq_of_pairwise ?_ (hsorted a) (hsorted b)
  intro x y hx hy hxy hyx
  have hxa : x ∈ a := (sortItems_perm a).mem_iff.mp hx
  have hya : y ∈ a := h.mem_iff.mpr ((sortItems_perm b).mem_iff.mp hy)
  exact List.inj_on_of_nodup_map hnodup hxa hya (String.le_antisymm hxy hyx)

theorem SameUpToOrder.distinct_iff {v w : JVal} (h : SameUpToOrder v w) :
    Distinct v ↔ Distinct w := by
  induction h with
  | refl => exact Iff.rfl
  | symm _ ih => exact ih.symm
  | trans _ _ ih₁ ih₂ => exact ih₁.trans ih₂
  | perm hperm =>
    simp only [distinct_obj, (hperm.map Prod.fst).nodup_iff, hperm.mem_iff]
  | elem before after _ ih =>
    simp only [distinct_arr, List.forall_mem_append, List.forall_mem_cons, ih]
  | entry before after key _ ih =>
    simp only [distinct_obj, List.map_append, List.map_cons, List.forall_mem_append,
      List.forall_mem_cons, ih]

/-- Values that differ in the order of keys alone have one sorted form. -/
theorem SameUpToOrder.sortKeys_eq {v w : JVal} (h : SameUpToOrder v w) (hv : Distinct v) :
    sortKeys v = sortKeys w := by
  induction h with
  | refl => rfl
  | symm hwv ih => exact (ih (hwv.distinct_iff.mpr hv)).symm
  | trans huv _ ih₁ ih₂ => exact (ih₁ hv).trans (ih₂ (huv.distinct_iff.mp hv))
  | perm hperm =>
    rw [sortKeys, sortKeys, obj.injEq]
    refine sortItems_eq_of_perm ?_ ?_
    · rw [sortKeysItems_eq_map, sortKeysItems_eq_map]
      exact hperm.map _
    · rw [map_fst_sortKeysItems]
      exact (distinct_obj.mp hv).1
  | elem before after _ ih =>
    have hitem := distinct_arr.mp hv _ (List.mem_append_right _ List.mem_cons_self)
    simp only [sortKeys, sortKeysList_eq_map, List.map_append, List.map_cons, ih hitem]
  | entry before after key _ ih =>
    have hitem := (distinct_obj.mp hv).2 _ (List.mem_append_right _ List.mem_cons_self)
    simp only [sortKeys, sortKeysItems_eq_map, List.map_append, List.map_cons, ih hitem]

theorem sortKeys_eq_iff {v w : JVal} (hv : Distinct v) :
    sortKeys v = sortKeys w ↔ SameUpToOrder v w := by
  constructor
  · intro h
    have hw := sameUpToOrder_sortKeys w
    rw [← h] at hw
    exact (sameUpToOrder_sortKeys v).trans hw.symm
  · intro h
    exact h.sortKeys_eq hv

/-- Two values without repeated keys have one canonical text exactly when they are equal
up to the order of keys. -/
theorem canonical_eq_iff {v w : JVal} (hv : Distinct v) :
    canonical v = canonical w ↔ SameUpToOrder v w := by
  rw [canonical_inj, sortKeys_eq_iff hv]

end JVal
