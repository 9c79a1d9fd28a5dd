import Attest.Rules
import Attest.Lib.Ranked

/-!
# Which rule is selected

The rules of a policy are tried by descending priority, and rules of one priority in their
order (`before_of_triedOrder`). Of a list whose entries have values of the documented types,
the walk ends at the first entry that is malformed or matches (`walkRules_selects`). So the
evaluator refuses the list exactly where a malformed entry stands before every rule that
matches, and else returns the first rule that matches; where no two rules have one priority,
and each names its id, their order in the list is no matter (`rule_selection`).
-/

set_option linter.unusedSectionVars false

namespace Attest

section Selection

variable [PyUnicode]

/-! ## Entries -/

/-- The priority of an entry : 0 where it has none or is no object. -/
def entryPriority : JVal → Int
  | .obj rule =>
    match Dict.get? rule "priority" with
    | some (.int n) => n
    | _ => 0
  | _ => 0

/-- The rule of an entry and its tier, where it is an object with a known tier. -/
def wellFormed? : JVal → Option (Dict × RiskTier)
  | .obj rule =>
    match ruleTier rule with
    | .str name => (RiskTier.ofName? name).map fun tier => (rule, tier)
    | _ => none
  | _ => none

/-- The entry is no object, or its tier is unknown. -/
def Malformed (v : JVal) : Prop :=
  wellFormed? v = none

/-- A bound that `rule_matches` compares with : a number that is finite. -/
def isBound : JVal → Bool
  | .int _ => true
  | .float x =>
    match x.num with
    | .fin _ => true
    | _ => false
  | _ => false

/-- An entry is no object, or its priority is an integer, its tier a text, and the bounds in
its `match` are numbers. -/
def documented : JVal → Bool
  | .obj rule =>
    (match Dict.get? rule "priority" with
      | none | some (.int _) => true
      | _ => false) &&
    (match Dict.get? rule "tier" with
      | none | some (.str _) => true
      | _ => false) &&
    (match Dict.get rule "match" with
      | .obj m => ["lt", "gte"].all fun key => (Dict.get? m key).all isBound
      | _ => true)
  | _ => true

/-- What the types of an entry say of its values. -/
theorem documented_obj {rule : Dict} (h : documented (.obj rule) = true) :
    (∀ v, Dict.get? rule "priority" = some v → ∃ n, v = .int n) ∧
      (∀ v, Dict.get? rule "tier" = some v → ∃ name, v = .str name) ∧
        ∀ m, Dict.get rule "match" = .obj m → ∀ key ∈ ["lt", "gte"], ∀ bound,
          Dict.get? m key = some bound → isBound bound = true := by
  simp only [documented, Bool.and_eq_true] at h
  obtain ⟨⟨hpriority, htier⟩, hmatch⟩ := h
  refine ⟨fun v hv => ?_, fun v hv => ?_, fun m hm key hkey bound hbound => ?_⟩
  · rw [hv] at hpriority
    cases v <;> simp_all
  · rw [hv] at htier
    cases v <;> simp_all
  · rw [hm] at hmatch
    simpa [hbound] using List.all_eq_true.mp hmatch key hkey

variable (hintKeys : List String) (action : String) (payload : Dict) (features : FeatureVector)

/-- The entry at `i` is well formed and matches, and is selected as `hit`. -/
def Selects (rules : List JVal) (i : Nat) (hit : RuleHit) : Prop :=
  ∃ v rule tier, rules[i]? = some v ∧ wellFormed? v = some (rule, tier) ∧
    ruleMatches hintKeys action payload features rule = .ok true ∧ hit = ruleHit tier rule i

/-- The entry at `i` stands before the one at `j` : by descending priority, and by their
places where they have one. -/
def Before (rules : List JVal) (i j : Nat) : Prop :=
  ∃ v w, rules[i]? = some v ∧ rules[j]? = some w ∧
    (entryPriority w < entryPriority v ∨ entryPriority w = entryPriority v ∧ i < j)

/-- Some malformed entry stands before every rule that matches. -/
def MalformedFirst (rules : List JVal) : Prop :=
  ∃ i v, rules[i]? = some v ∧ Malformed v ∧
    ∀ j hit, Selects hintKeys action payload features rules j hit → Before rules i j

variable {hintKeys action payload features}

/-! ## The order -/

theorem rulePriority_of_documented {v : JVal} (h : documented v = true) :
    rulePriority v = .ok (entryPriority v) := by
  cases v with
  | obj rule =>
    cases hpriority : Dict.get? rule "priority" with
    | none => simp [rulePriority, entryPriority, Dict.getD, hpriority, toInt]
    | some w =>
      obtain ⟨n, rfl⟩ := (documented_obj h).1 w hpriority
      simp [rulePriority, entryPriority, Dict.getD, hpriority, toInt]
  | _ => rfl

/-- The entries with their places, in the order they are tried. -/
def triedOrder (rules : List JVal) : List (JVal × Nat) :=
  rules.zipIdx.insertionSort fun a b => entryPriority b.1 ≤ entryPriority a.1

theorem zip_zipIdx (f : JVal → Int) : ∀ (rules : List JVal) (start : Nat),
    (rules.map f).zip (rules.zipIdx start) = (rules.zipIdx start).map fun x => (f x.1, x)
  | [], _ => rfl
  | v :: rules, start => by
    rw [List.map_cons, List.zipIdx_cons, List.zip_cons_cons, List.map_cons, zip_zipIdx f rules]

theorem sortedRules_of_documented {rules : List JVal} (h : ∀ v ∈ rules, documented v = true) :
    sortedRules rules = .ok (triedOrder rules) := by
  have hpriorities : rules.mapM rulePriority = .ok (rules.map entryPriority) := by
    rw [Except.mapM_eq_ok, List.forall₂_map_right_iff, List.forall₂_same]
    exact fun v hv => rulePriority_of_documented (h v hv)
  have hsort := List.map_insertionSort
    (fun a b : JVal × Nat => entryPriority b.1 ≤ entryPriority a.1)
    (fun a b : Int × JVal × Nat => b.1 ≤ a.1) (fun x => (entryPriority x.1, x)) rules.zipIdx
    fun _ _ _ _ => Iff.rfl
  rw [sortedRules, hpriorities, Except.ok_bind', Except.pure_eq, zip_zipIdx, ← hsort, List.map_map]
  exact congrArg Except.ok (List.map_id _)

theorem mem_triedOrder {rules : List JVal} {x : JVal × Nat} :
    x ∈ triedOrder rules ↔ rules[x.2]? = some x.1 := by
  rw [triedOrder, List.mem_insertionSort, List.mem_zipIdx_iff_getElem?]

/-- Entries are tried by descending priority, and by their places. -/
theorem before_of_triedOrder (rules : List JVal) :
    (triedOrder rules).Pairwise fun x y => Before rules x.2 y.2 := by
  have hsorted : (triedOrder rules).Pairwise fun x y => entryPriority y.1 ≤ entryPriority x.1 :=
    @List.pairwise_insertionSort _ (fun a b : JVal × Nat => entryPriority b.1 ≤ entryPriority a.1) _
      ⟨fun _ _ => Int.le_total _ _⟩ ⟨fun _ _ _ hab hbc => hbc.trans hab⟩ _
  have hplaces : rules.zipIdx.Pairwise fun x y => x.2 < y.2 := by
    have hrange : (rules.zipIdx.map Prod.snd).Pairwise (· < ·) := by
      rw [List.zipIdx_map_snd]
      exact List.pairwise_lt_range'
    exact List.pairwise_map.mp hrange
  rw [List.pairwise_iff_forall_sublist] at hsorted hplaces ⊢
  intro x y hsub
  have hx := mem_triedOrder.mp (hsub.subset List.mem_cons_self)
  have hy := mem_triedOrder.mp (hsub.subset (List.mem_cons_of_mem x List.mem_cons_self))
  refine ⟨x.1, y.1, hx, hy, ?_⟩
  rcases (hsorted hsub).lt_or_eq with hlt | heq
  · exact Or.inl hlt
  · -- Entries of one priority stay in their places.
    let p (z : JVal × Nat) : Bool := entryPriority z.1 = entryPriority x.1
    have hfilter : (triedOrder rules).filter p = rules.zipIdx.filter p :=
      List.filter_insertionSort fun a b ha hb => by
        simp only [p, decide_eq_true_eq] at ha hb
        omega
    have hpair : List.Sublist [x, y] ((triedOrder rules).filter p) := by
      have := hsub.filter p
      simpa [p, heq] using this
    rw [hfilter] at hpair
    exact Or.inr ⟨heq, hplaces (hpair.trans List.filter_sublist)⟩

/-! ## The walk -/

/-- A well-formed entry matches or does not. -/
theorem ruleMatches_of_documented {rule : Dict} (h : documented (.obj rule) = true) :
    ∃ hit, ruleMatches hintKeys action payload features rule = .ok hit := by
  rw [← Except.succeeds_iff, ruleMatches_succeeds]
  intro m hm
  have hbounds := (documented_obj h).2.2 m hm
  have hnum {key : String} {value : JVal} (hkey : key ∈ ["lt", "gte"]) :
      BoundReads key value m := by
    intro bound hbound _
    have hb := hbounds key hkey bound hbound
    cases bound <;> simp_all [isBound, JVal.num?]
  have hint : CitationsRead m := by
    intro bound hbound
    unfold citationBound at hbound
    split at hbound
    · have hb := hbounds "lt" (by simp) bound hbound
      cases bound with
      | int n => rfl
      | float x =>
        cases hx : x.num <;> simp_all [isBound, toInt, Except.succeeds]
      | _ => cases hb
    · cases hbound
  refine Or.inr (Or.inr ⟨hint, Or.inr (Or.inr (Or.inr (Or.inr ?_)))⟩)
  exact fun value _ => Or.inr ⟨hnum (by simp), Or.inr (hnum (by simp))⟩

theorem readTier_of_wellFormed {v : JVal} {rule : Dict} {tier : RiskTier}
    (h : wellFormed? v = some (rule, tier)) :
    v = .obj rule ∧ readTier (ruleTier rule) = .ok (some tier) := by
  unfold wellFormed? at h
  split at h
  · split at h
    · rename_i name hname
      obtain ⟨t, ht, heq⟩ := Option.map_eq_some_iff.mp h
      simp only [Prod.mk.injEq] at heq
      obtain ⟨rfl, rfl⟩ := heq
      exact ⟨rfl, by simp [readTier, hname, hashable, ht]⟩
    · cases h
  · cases h

/-- A malformed entry of the documented types is refused where it is reached. -/
theorem walkRules_of_malformed {v : JVal} (hdoc : documented v = true) (h : Malformed v) (i : Nat)
    (rest : List (JVal × Nat)) :
    ∃ msg, walkRules hintKeys action payload features ((v, i) :: rest) =
      .error (.policyEngine msg) := by
  cases v with
  | obj rule =>
    have hname : ∃ name, ruleTier rule = .str name := by
      cases htier : Dict.get? rule "tier" with
      | none => exact ⟨"yellow", by simp [ruleTier, Dict.getD, htier]⟩
      | some w =>
        obtain ⟨name, rfl⟩ := (documented_obj hdoc).2.1 w htier
        exact ⟨name, by simp [ruleTier, Dict.getD, htier]⟩
    obtain ⟨name, hname⟩ := hname
    have hunknown : RiskTier.ofName? name = none := by
      simpa [Malformed, wellFormed?, hname] using h
    have htier : readTier (ruleTier rule) = .ok none := by
      simp [readTier, hname, hashable, hunknown]
    exact ⟨_, by simp only [walkRules, htier, Except.ok_bind']; rfl⟩
  | _ => exact ⟨_, rfl⟩

/-- The entry with its place is selected as `hit`. -/
def SelectsEntry (hintKeys : List String) (action : String) (payload : Dict)
    (features : FeatureVector) (x : JVal × Nat) (hit : RuleHit) : Prop :=
  ∃ rule tier, wellFormed? x.1 = some (rule, tier) ∧
    ruleMatches hintKeys action payload features rule = .ok true ∧ hit = ruleHit tier rule x.2

/-- How the walk over entries in an order ends : at the first that is malformed or
matches. -/
inductive WalkEnds (hintKeys : List String) (action : String) (payload : Dict)
    (features : FeatureVector) (order : List (JVal × Nat)) (R : JVal × Nat → JVal × Nat → Prop) :
    Except PyError (Option RuleHit) → Prop
  | refused (x : JVal × Nat) (msg : String) : x ∈ order → Malformed x.1 →
    (∀ y ∈ order, ∀ hit, SelectsEntry hintKeys action payload features y hit → R x y) →
    WalkEnds hintKeys action payload features order R (.error (.policyEngine msg))
  | selected (x : JVal × Nat) (hit : RuleHit) : x ∈ order →
    SelectsEntry hintKeys action payload features x hit →
    (∀ y ∈ order, y ≠ x → (Malformed y.1 ∨
      ∃ hit', SelectsEntry hintKeys action payload features y hit') → R x y) →
    WalkEnds hintKeys action payload features order R (.ok (some hit))
  | exhausted : (∀ y ∈ order, ¬ Malformed y.1 ∧
      ∀ hit, ¬ SelectsEntry hintKeys action payload features y hit) →
    WalkEnds hintKeys action payload features order R (.ok none)

theorem not_selects_of_malformed {x : JVal × Nat} (h : Malformed x.1) {hit : RuleHit} :
    ¬ SelectsEntry hintKeys action payload features x hit := by
  rintro ⟨rule, tier, hform, -⟩
  rw [h] at hform
  cases hform

/-- The walk ends at the first entry that is malformed or matches. -/
theorem walkRules_selects {R : JVal × Nat → JVal × Nat → Prop} : ∀ {order : List (JVal × Nat)},
    (∀ x ∈ order, documented x.1 = true) → order.Pairwise R →
      WalkEnds hintKeys action payload features order R
        (walkRules hintKeys action payload features order)
  | [], _, _ => .exhausted fun y hy => nomatch hy
  | x :: order, hdoc, hpair => by
    obtain ⟨hfirst, hrest⟩ := List.pairwise_cons.mp hpair
    have hx := hdoc x List.mem_cons_self
    cases hform : wellFormed? x.1 with
    | none =>
      obtain ⟨msg, hmsg⟩ : ∃ msg, walkRules hintKeys action payload features (x :: order) =
          .error (.policyEngine msg) := walkRules_of_malformed hx hform x.2 order
      rw [hmsg]
      refine .refused x msg List.mem_cons_self hform fun y hy hit hsel => ?_
      rcases List.mem_cons.mp hy with rfl | hy
      · exact absurd hsel (not_selects_of_malformed hform)
      · exact hfirst y hy
    | some found =>
      obtain ⟨rule, tier⟩ := found
      obtain ⟨hrule, htier⟩ := readTier_of_wellFormed hform
      have hentry : x = (.obj rule, x.2) := Prod.ext hrule rfl
      obtain ⟨hit, hmatch⟩ : ∃ hit, ruleMatches hintKeys action payload features rule = .ok hit :=
        ruleMatches_of_documented (hrule ▸ hx)
      have hwalk : walkRules hintKeys action payload features (x :: order) =
          if hit then .ok (some (ruleHit tier rule x.2))
          else walkRules hintKeys action payload features order := by
        rw [hentry, walkRules, htier]
        simp only [Except.ok_bind', hmatch, Except.pure_eq]
      rw [hwalk]
      cases hit with
      | true =>
        refine .selected x _ List.mem_cons_self ⟨rule, tier, hform, hmatch, rfl⟩
          fun y hy hne _ => ?_
        exact hfirst y ((List.mem_cons.mp hy).resolve_left hne)
      | false =>
        have hnot : ¬ Malformed x.1 ∧
            ∀ hit, ¬ SelectsEntry hintKeys action payload features x hit := by
          refine ⟨fun h => ?_, ?_⟩
          · rw [Malformed, hform] at h
            cases h
          · rintro hit ⟨rule', tier', hform', hmatch', -⟩
            obtain ⟨rfl, rfl⟩ := Prod.mk.inj (Option.some.inj (hform.symm.trans hform'))
            rw [hmatch] at hmatch'
            cases hmatch'
        rw [if_neg Bool.false_ne_true]
        have hends := walkRules_selects (fun y hy => hdoc y (List.mem_cons_of_mem x hy)) hrest
        generalize walkRules hintKeys action payload features order = res at hends ⊢
        cases hends with
        | refused z msg hz hbad hbefore =>
          refine .refused z msg (List.mem_cons_of_mem x hz) hbad fun y hy hit hsel => ?_
          rcases List.mem_cons.mp hy with rfl | hy
          · exact absurd hsel (hnot.2 hit)
          · exact hbefore y hy hit hsel
        | selected z hit hz hsel hbefore =>
          refine .selected z hit (List.mem_cons_of_mem x hz) hsel fun y hy hne hy' => ?_
          rcases List.mem_cons.mp hy with rfl | hy
          · rcases hy' with hbad | ⟨hit', hsel'⟩
            · exact absurd hbad hnot.1
            · exact absurd hsel' (hnot.2 hit')
          · exact hbefore y hy hne hy'
        | exhausted hnone =>
          refine .exhausted fun y hy => ?_
          rcases List.mem_cons.mp hy with rfl | hy
          · exact hnot
          · exact hnone y hy

/-- The walk is refused exactly where a malformed entry is before every entry that matches. -/
theorem WalkEnds.refused_iff {order : List (JVal × Nat)} {R : JVal × Nat → JVal × Nat → Prop}
    {res : Except PyError (Option RuleHit)} (hasymm : ∀ x y, R x y → ¬ R y x)
    (h : WalkEnds hintKeys action payload features order R res) :
    (∃ msg, res = .error (.policyEngine msg)) ↔ ∃ x ∈ order, Malformed x.1 ∧
      ∀ y ∈ order, ∀ hit, SelectsEntry hintKeys action payload features y hit → R x y := by
  cases h with
  | refused x msg hx hbad hbefore => exact ⟨fun _ => ⟨x, hx, hbad, hbefore⟩, fun _ => ⟨msg, rfl⟩⟩
  | selected x hit hx hsel hbefore =>
    refine ⟨fun ⟨_, h⟩ => (nomatch h), ?_⟩
    rintro ⟨y, hy, hbad, hfirst⟩
    have hne : y ≠ x := by
      rintro rfl
      exact not_selects_of_malformed hbad hsel
    exact absurd (hfirst x hx hit hsel) (hasymm x y (hbefore y hy hne (Or.inl hbad)))
  | exhausted hnone =>
    refine ⟨fun ⟨_, h⟩ => (nomatch h), ?_⟩
    rintro ⟨y, hy, hbad, -⟩
    exact absurd hbad (hnone y hy).1

/-! ## Orders that select alike -/

/-- A well-formed rule that names its id is selected as the same hit at any place. -/
theorem ruleHit_of_id {rule : Dict} (h : rule.has "id" = true) (tier : RiskTier) (i j : Nat) :
    ruleHit tier rule i = ruleHit tier rule j := by
  obtain ⟨v, hv⟩ := Option.isSome_iff_exists.mp h
  simp [ruleHit, ruleLabel, Dict.getD, hv]

/-- Well-formed rules that name their ids, in one order, are walked alike from any places. -/
theorem walkRules_congr : ∀ {xs ys : List (JVal × Nat)}, xs.map Prod.fst = ys.map Prod.fst →
    (∀ x ∈ xs, ∃ rule tier, wellFormed? x.1 = some (rule, tier) ∧ rule.has "id" = true) →
      walkRules hintKeys action payload features xs = walkRules hintKeys action payload features ys
  | [], [], _, _ => rfl
  | x :: xs, y :: ys, hmap, hform => by
    obtain ⟨hhead, htail⟩ := List.cons.inj hmap
    obtain ⟨rule, tier, hwell, hid⟩ := hform x List.mem_cons_self
    obtain ⟨hrule, htier⟩ := readTier_of_wellFormed hwell
    have ih := walkRules_congr htail fun z hz => hform z (List.mem_cons_of_mem x hz)
    have hx : x = (.obj rule, x.2) := Prod.ext hrule rfl
    have hy : y = (.obj rule, y.2) := Prod.ext (hhead.symm.trans hrule) rfl
    rw [hx, hy, walkRules, walkRules, htier]
    simp only [Except.ok_bind', ih, ruleHit_of_id hid tier x.2 y.2]

/-- Rules of different priorities are tried in one order, wherever they stand. -/
theorem map_triedOrder_of_perm {rules rules' : List JVal} (hperm : rules.Perm rules')
    (hdistinct : (rules.map entryPriority).Nodup) :
    (triedOrder rules).map Prod.fst = (triedOrder rules').map Prod.fst := by
  have hvalues (rs : List JVal) : ((triedOrder rs).map Prod.fst).Perm rs := by
    have := (List.perm_insertionSort (fun a b : JVal × Nat => entryPriority b.1 ≤ entryPriority a.1)
      rs.zipIdx).map Prod.fst
    rwa [List.zipIdx_map_fst] at this
  have hsorted (rs : List JVal) : ((triedOrder rs).map Prod.fst).Pairwise fun v w =>
      entryPriority w ≤ entryPriority v := by
    rw [List.pairwise_map]
    exact @List.pairwise_insertionSort _
      (fun a b : JVal × Nat => entryPriority b.1 ≤ entryPriority a.1) _
      ⟨fun _ _ => Int.le_total _ _⟩ ⟨fun _ _ _ hab hbc => hbc.trans hab⟩ _
  refine ((hvalues rules).trans (hperm.trans (hvalues rules').symm)).eq_of_pairwise ?_
    (hsorted rules) (hsorted rules')
  intro v w hv hw hle hle'
  exact List.inj_on_of_nodup_map hdistinct ((hvalues rules).subset hv)
    (hperm.symm.subset ((hvalues rules').subset hw)) (by omega)

/-! ## Selection -/

theorem firstMatchingRule_of_documented {rules : List JVal}
    (hdoc : ∀ v ∈ rules, documented v = true)
    {rulesDoc : Dict} (hrules : rulesDoc.get "rules" = .arr rules) :
    firstMatchingRule hintKeys action payload features rulesDoc =
      walkRules hintKeys action payload features (triedOrder rules) := by
  rw [firstMatchingRule, hrules]
  simp only [sortedRules_of_documented hdoc, Except.ok_bind']

theorem Before.asymm {rules : List JVal} {i j : Nat} (h : Before rules i j) :
    ¬ Before rules j i := by
  obtain ⟨v, w, hv, hw, h⟩ := h
  rintro ⟨w', v', hw', hv', h'⟩
  obtain rfl := Option.some.inj (hv.symm.trans hv')
  obtain rfl := Option.some.inj (hw.symm.trans hw')
  omega

theorem selects_iff {rules : List JVal} {i : Nat} {hit : RuleHit} :
    Selects hintKeys action payload features rules i hit ↔
      ∃ x ∈ triedOrder rules, x.2 = i ∧ SelectsEntry hintKeys action payload features x hit := by
  constructor
  · rintro ⟨v, rule, tier, hv, hform, hmatch, rfl⟩
    exact ⟨(v, i), mem_triedOrder.mpr hv, rfl, rule, tier, hform, hmatch, rfl⟩
  · rintro ⟨x, hx, rfl, rule, tier, hform, hmatch, rfl⟩
    exact ⟨x.1, rule, tier, mem_triedOrder.mp hx, hform, hmatch, rfl⟩

theorem malformedFirst_iff {rules : List JVal} :
    MalformedFirst hintKeys action payload features rules ↔
      ∃ x ∈ triedOrder rules, Malformed x.1 ∧ ∀ y ∈ triedOrder rules, ∀ hit,
        SelectsEntry hintKeys action payload features y hit → Before rules x.2 y.2 := by
  constructor
  · rintro ⟨i, v, hv, hbad, hbefore⟩
    exact ⟨(v, i), mem_triedOrder.mpr hv, hbad, fun y hy hit hsel =>
      hbefore y.2 hit (selects_iff.mpr ⟨y, hy, rfl, hsel⟩)⟩
  · rintro ⟨x, hx, hbad, hbefore⟩
    refine ⟨x.2, x.1, mem_triedOrder.mp hx, hbad, fun j hit hsel => ?_⟩
    obtain ⟨y, hy, rfl, hentry⟩ := selects_iff.mp hsel
    exact hbefore y hy hit hentry

/-- Selection is by priority, and needs no order. A list of entries of the documented types
is refused exactly where a malformed entry stands before every rule that matches. Else the
first rule that matches is returned, or none where none does. A list of well-formed rules that
name their ids, no two of one priority, selects the same rule in any order. -/
theorem rule_selection {rules : List JVal} (hdoc : ∀ v ∈ rules, documented v = true)
    {rulesDoc : Dict} (hrules : rulesDoc.get "rules" = .arr rules) :
    ((∃ msg, firstMatchingRule hintKeys action payload features rulesDoc =
        .error (.policyEngine msg)) ↔ MalformedFirst hintKeys action payload features rules) ∧
    (¬ MalformedFirst hintKeys action payload features rules →
      (∃ i hit, Selects hintKeys action payload features rules i hit ∧
        (∀ j hit', Selects hintKeys action payload features rules j hit' → j ≠ i →
          Before rules i j) ∧
        firstMatchingRule hintKeys action payload features rulesDoc = .ok (some hit)) ∨
      ((∀ i hit, ¬ Selects hintKeys action payload features rules i hit) ∧
        firstMatchingRule hintKeys action payload features rulesDoc = .ok none)) ∧
    (∀ (rules' : List JVal) (rulesDoc' : Dict), rulesDoc'.get "rules" = .arr rules' →
      rules.Perm rules' → (∀ v ∈ rules, ∃ rule tier, wellFormed? v = some (rule, tier) ∧
        rule.has "id" = true ∧ rule.has "reason" = true) → (rules.map entryPriority).Nodup →
      firstMatchingRule hintKeys action payload features rulesDoc' =
        firstMatchingRule hintKeys action payload features rulesDoc) := by
  have hwalk : firstMatchingRule hintKeys action payload features rulesDoc =
      walkRules hintKeys action payload features (triedOrder rules) :=
    firstMatchingRule_of_documented hdoc hrules
  have hdocs : ∀ x ∈ triedOrder rules, documented x.1 = true := fun x hx =>
    hdoc x.1 (List.mem_of_getElem? (mem_triedOrder.mp hx))
  have hends : WalkEnds hintKeys action payload features (triedOrder rules)
      (fun x y => Before rules x.2 y.2)
      (walkRules hintKeys action payload features (triedOrder rules)) :=
    walkRules_selects hdocs (before_of_triedOrder rules)
  have hrefused := hends.refused_iff fun x y => Before.asymm
  rw [← malformedFirst_iff, ← hwalk] at hrefused
  rw [← hwalk] at hends
  refine ⟨hrefused, fun hnot => ?_, ?_⟩
  · generalize firstMatchingRule hintKeys action payload features rulesDoc = res at hends hrefused
    cases hends with
    | refused x msg => exact absurd (hrefused.mp ⟨msg, rfl⟩) hnot
    | selected x hit hx hsel hbefore =>
      refine Or.inl ⟨x.2, hit, selects_iff.mpr ⟨x, hx, rfl, hsel⟩, fun j hit' hsel' hne => ?_, rfl⟩
      obtain ⟨y, hy, rfl, hentry⟩ := selects_iff.mp hsel'
      refine hbefore y hy ?_ (Or.inr ⟨hit', hentry⟩)
      rintro rfl
      exact hne rfl
    | exhausted hnone =>
      refine Or.inr ⟨fun i hit hsel => ?_, rfl⟩
      obtain ⟨y, hy, rfl, hentry⟩ := selects_iff.mp hsel
      exact (hnone y hy).2 hit hentry
  · intro rules' rulesDoc' hrules' hperm hform hdistinct
    rw [hwalk, firstMatchingRule_of_documented (fun v hv => hdoc v (hperm.symm.subset hv)) hrules']
    refine walkRules_congr (map_triedOrder_of_perm hperm hdistinct).symm fun x hx => ?_
    have hmem : x.1 ∈ rules :=
      hperm.symm.subset (List.mem_of_getElem? (mem_triedOrder.mp hx))
    obtain ⟨rule, tier, hwell, hid, -⟩ := hform x.1 hmem
    exact ⟨rule, tier, hwell, hid⟩

end Selection

/-! ## A list of three entries -/

section Samples

namespace Sample

def plainFeatures : FeatureVector where
  action := "send"
  citationCount := .int 1
  hasPii := false
  piiLabels := []
  crossBorder := false
  lawfulBasisPresent := false
  prohibitedPhrases := []
  amountAed := none

/-- A rule for an action, a rule for an amount, and an entry that is no rule. -/
def threeRules : List JVal :=
  [.obj [("id", .str "a"), ("reason", .str "r"), ("priority", .int 1),
      ("match", .obj [("action", .str "send")])],
    .obj [("id", .str "b"), ("reason", .str "r"), ("tier", .str "red"), ("priority", .int 2),
      ("match", .obj [("payload_key", .str "amount"), ("gte", .int 10)])],
    .str "note"]

end Sample

open Sample

/-- The rule for the amount is selected before the other, in either order. -/
def Sample.twoRules : List JVal := threeRules.take 2

theorem rule_selection_sample :
    ((∃ msg, @firstMatchingRule .ascii serverHintKeys "send" [("amount", .int 12)]
        plainFeatures [("rules", .arr threeRules)] = .error (.policyEngine msg)) ↔
      @MalformedFirst .ascii serverHintKeys "send" [("amount", .int 12)] plainFeatures
        threeRules) ∧
    @firstMatchingRule .ascii serverHintKeys "send" [("amount", .int 12)] plainFeatures
        [("rules", .arr twoRules.reverse)] =
      @firstMatchingRule .ascii serverHintKeys "send" [("amount", .int 12)] plainFeatures
        [("rules", .arr twoRules)] := by
  obtain ⟨hrefused, -, -⟩ := @rule_selection .ascii serverHintKeys "send" [("amount", .int 12)]
    plainFeatures threeRules (by decide) [("rules", .arr threeRules)] rfl
  obtain ⟨-, -, hany⟩ := @rule_selection .ascii serverHintKeys "send" [("amount", .int 12)]
    plainFeatures twoRules (by decide) [("rules", .arr twoRules)] rfl
  refine ⟨hrefused, hany twoRules.reverse _ rfl (List.reverse_perm _).symm ?_ (by decide)⟩
  intro v hv
  rcases List.mem_cons.mp hv with rfl | hv
  · exact ⟨_, _, rfl, by decide, by decide⟩
  · rw [List.mem_singleton.mp hv]
    exact ⟨_, _, rfl, by decide, by decide⟩

end Samples

end Attest
