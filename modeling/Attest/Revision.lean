import Attest.Softening
import Attest.Resubmission

/-!
# What a suggested revision says

A plan that offers a revision lists the edits it made. The redaction does what its edit says
and touches nothing else. The softening changes three fields, and there only two spellings, so
it does what its edit says if and only if it reaches every phrase of the payload
(`SoftenReaches`, `revision_says_iff`).
-/

set_option linter.unusedSectionVars false

namespace Attest

section Revision

variable [PyUnicode]

/-! ## Softening a payload -/

/-- The fields that are softened. -/
def softenedKeys : List String := ["output", "summary", "prompt"]

def softenValue : JVal → JVal
  | .str text => .str (softened text)
  | v => v

/-- Softening one field. -/
def softenKey (key : String) (payload : Dict) : Dict :=
  payload.map fun item => if item.1 = key then (item.1, softenValue item.2) else item

theorem keys_softenKey (key : String) (payload : Dict) :
    (softenKey key payload).map Prod.fst = payload.map Prod.fst := by
  rw [softenKey, List.map_map]
  refine List.map_congr_left fun item _ => ?_
  simp only [Function.comp_apply]
  split <;> rfl

theorem softenKey_eq {payload : Dict} {key : String} (hkeys : (payload.map Prod.fst).Nodup) :
    (match Dict.get payload key with
      | .str text => setItem payload (key, .str (softened text))
      | _ => payload) = softenKey key payload := by
  have hitem {item : String × JVal} (hmem : item ∈ payload) (hkey : item.1 = key) :
      Dict.get payload key = item.2 := by
    have hfind : payload.find? (fun x => x.1 = key) = some item := by
      cases hfind : payload.find? (fun x => x.1 = key) with
      | none =>
        exact absurd (decide_eq_true hkey) (List.find?_eq_none.mp hfind item hmem)
      | some other =>
        have hother := List.find?_some hfind
        rw [decide_eq_true_eq] at hother
        exact congrArg some (List.inj_on_of_nodup_map hkeys (List.mem_of_find?_eq_some hfind) hmem
          (hother.trans hkey.symm))
    rw [Dict.get, Dict.getD, Dict.get?, hfind]
    rfl
  have hother (hnone : ∀ text, Dict.get payload key ≠ .str text) :
      payload = softenKey key payload := by
    refine (List.map_id _).symm.trans (List.map_congr_left fun item hmem => ?_)
    split
    · rename_i hkey
      have hvalue := hitem hmem hkey
      obtain ⟨k, v⟩ := item
      cases v with
      | str text => exact absurd hvalue (hnone text)
      | _ => rfl
    · rfl
  cases hget : Dict.get payload key with
  | str text =>
    have hany : (payload.any fun x => x.1 = key) = true := by
      by_contra hno
      have hnone : payload.find? (fun x => x.1 = key) = none :=
        List.find?_eq_none.mpr fun x hx hkey => hno (List.any_eq_true.mpr ⟨x, hx, hkey⟩)
      rw [Dict.get, Dict.getD, Dict.get?, hnone] at hget
      cases hget
    simp only [setItem, hany, if_true, softenKey]
    refine List.map_congr_left fun item hmem => ?_
    by_cases hkey : item.1 = key
    · rw [if_pos hkey, if_pos hkey, hkey, ← hitem hmem hkey, hget]
      rfl
    · rw [if_neg hkey, if_neg hkey]
  | _ => exact hother (by simp [hget])

/-- Softening a payload softens the three fields. -/
theorem softenClaims_eq {payload : Dict} (hkeys : (payload.map Prod.fst).Nodup) :
    softenClaims payload = payload.map fun item =>
      if item.1 ∈ softenedKeys then (item.1, softenValue item.2) else item := by
  have hfold : softenClaims payload = softenKey "prompt" (softenKey "summary"
      (softenKey "output" payload)) := by
    have hkeys₁ : ((softenKey "output" payload).map Prod.fst).Nodup := by
      rwa [keys_softenKey]
    have hkeys₂ : ((softenKey "summary" (softenKey "output" payload)).map Prod.fst).Nodup := by
      rwa [keys_softenKey]
    rw [← softenKey_eq hkeys₂, ← softenKey_eq hkeys₁, ← softenKey_eq hkeys]
    rfl
  rw [hfold, softenKey, softenKey, softenKey, List.map_map, List.map_map]
  refine List.map_congr_left fun item _ => ?_
  obtain ⟨key, value⟩ := item
  simp only [Function.comp_apply, softenedKeys, List.mem_cons, List.not_mem_nil, or_false]
  by_cases houtput : key = "output"
  · subst houtput
    simp
  · by_cases hsummary : key = "summary"
    · subst hsummary
      simp
    · by_cases hprompt : key = "prompt"
      · subst hprompt
        simp
      · simp [houtput, hsummary, hprompt]

/-! ## What the plan offers -/

/-- The revision of a plan and its edits. -/
theorem plan_revisedOutput {payload : Dict} {features : FeatureVector}
    {findings : List PackFinding} {reasons : List String} {blocked : Bool} {fix : RemediationPlan}
    {revised : Dict} (h : plan payload features findings reasons blocked = some fix)
    (hrevised : fix.revisedOutput = some revised) :
    revised = plannedRevision payload features ∧
      (features.hasPii = true → detectPiiLabels revised = []) ∧
      fix.edits = (if features.hasPii then [redactEdit features findings] else []) ++
        if !features.prohibitedPhrases.isEmpty then [softenEdit features findings] else [] := by
  simp only [plan, Option.ite_none_left_eq_some, Option.some.injEq] at h
  obtain ⟨-, rfl⟩ := h
  by_cases hleft : (if features.hasPii = true then
      detectPiiLabels (plannedRevision payload features) else []).isEmpty = true
  · have hshape := hleft
    unfold plannedRevision at hshape
    rw [if_pos hshape] at hrevised ⊢
    clear hshape
    obtain ⟨-, hrevised⟩ := Option.ite_none_left_eq_some.mp hrevised
    obtain rfl := Option.some.inj hrevised
    refine ⟨rfl, fun hpii => ?_, rfl⟩
    rw [if_pos hpii] at hleft
    exact List.isEmpty_iff.mp hleft
  · unfold plannedRevision at hleft
    rw [if_neg hleft] at hrevised
    cases hrevised

@[simp]
theorem redactEdit_kind (features : FeatureVector) (findings : List PackFinding) :
    (redactEdit features findings).kind = "redact_pii" := rfl

@[simp]
theorem softenEdit_kind (features : FeatureVector) (findings : List PackFinding) :
    (softenEdit features findings).kind = "soften_phrases" := rfl

/-- The item of a payload, redacted, and softened if its field is. -/
def reviseItem (phrased : Bool) (item : String × JVal) : String × JVal :=
  if phrased ∧ item.1 ∈ softenedKeys then (item.1, softenValue (redactValue item.2).1)
  else (item.1, (redactValue item.2).1)

/-- A revision revises item by item. Where no personal data is detected redaction changes
nothing. -/
theorem plannedRevision_eq {payload : Dict} {features : FeatureVector}
    (hkeys : (payload.map Prod.fst).Nodup)
    (hpii : features.hasPii = !(detectPiiLabels payload).isEmpty) :
    plannedRevision payload features =
      payload.map (reviseItem (!features.prohibitedPhrases.isEmpty)) := by
  have hredacted : (if features.hasPii then (redactPayload payload).1 else payload) =
      payload.map fun item => (item.1, (redactValue item.2).1) := by
    rw [← fst_redactItems, hpii]
    split
    · rfl
    · rename_i hclean
      have hnone : detectPiiLabels payload = [] := by simpa using hclean
      rw [redactItems_of_clean (sortedSet_eq_nil.mp hnone)]
  have hplanned : plannedRevision payload features =
      (if !features.prohibitedPhrases.isEmpty then softenClaims else id)
        (if features.hasPii then (redactPayload payload).1 else payload) := by
    unfold plannedRevision
    cases features.hasPii <;> cases features.prohibitedPhrases.isEmpty <;> rfl
  rw [hplanned, hredacted]
  split
  · rename_i hphrased
    rw [softenClaims_eq, List.map_map]
    · refine List.map_congr_left fun item _ => ?_
      simp only [Function.comp_apply, reviseItem, hphrased, true_and]
    · rwa [List.map_map]
  · rename_i hclear
    refine List.map_congr_left fun item _ => ?_
    rw [reviseItem, if_neg fun hboth => hclear hboth.1]

/-! ## What its edits say -/

/-- A detector finds something in the text. -/
def Detected (text : String) : Prop :=
  labelsOf patterns text ≠ [] ∨ labelsOf prohibitedPhrasePatterns text ≠ []

mutual
/-- The value but for texts in which a detector finds something. -/
def RevisedValue : JVal → JVal → Prop
  | .str old, .str new => new = old ∨ Detected old
  | .arr olds, .arr news => RevisedList olds news
  | .obj olds, .obj news => RevisedItems olds news
  | old, new => new = old

def RevisedList : List JVal → List JVal → Prop
  | [], [] => True
  | v :: vs, w :: ws => RevisedValue v w ∧ RevisedList vs ws
  | _, _ => False

def RevisedItems : List (String × JVal) → List (String × JVal) → Prop
  | [], [] => True
  | (k, v) :: kvs, (k', w) :: kws => k' = k ∧ RevisedValue v w ∧ RevisedItems kvs kws
  | _, _ => False
end

/-- A redaction that is listed left no personal data, a softening that is listed left no phrase,
and nothing else was changed. -/
structure RevisionSays (payload revised : Dict) (edits : List PlanEdit) : Prop where
  redacted : (∃ e ∈ edits, e.kind = "redact_pii") → detectPiiLabels revised = []
  softened : (∃ e ∈ edits, e.kind = "soften_phrases") → detectProhibitedPhrases revised = []
  confined : RevisedItems payload revised

/-- Softening reaches every phrase : in the three fields it leaves none and changes no text
without a match, and elsewhere there is none. -/
def SoftenReaches (payload : Dict) : Prop :=
  ∀ item ∈ payload,
    (∀ text, item.1 ∈ softenedKeys → item.2 = .str text →
      ¬Unsoftened (redactText text).1 ∧
        (Detected text ∨
          PyText.contains text "guaranteed" = false ∧ PyText.contains text "risk-free" = false)) ∧
    ((item.1 ∈ softenedKeys → ∀ text, item.2 ≠ .str text) →
      ∀ text ∈ textsOf item.2, labelsOf prohibitedPhrasePatterns (redactText text).1 = [])

mutual
theorem revisedValue_redactValue : ∀ v : JVal, RevisedValue v (redactValue v).1
  | .str text => by
    by_cases h : labelsOf patterns text = []
    · have hsame : redactText text = (text, []) := redactWith_of_clean h
      exact Or.inl (congrArg Prod.fst hsame)
    · exact Or.inr (Or.inl h)
  | .arr items => revisedList_redactList items
  | .obj items => revisedItems_redactItems items
  | .null => rfl
  | .bool _ => rfl
  | .int _ => rfl
  | .float _ => rfl

theorem revisedList_redactList : ∀ items : List JVal, RevisedList items (redactList items).1
  | [] => trivial
  | v :: vs => ⟨revisedValue_redactValue v, revisedList_redactList vs⟩

theorem revisedItems_redactItems : ∀ items : Dict, RevisedItems items (redactItems items).1
  | [] => trivial
  | (_, v) :: kvs => ⟨rfl, revisedValue_redactValue v, revisedItems_redactItems kvs⟩
end

theorem revisedItems_map {f : String × JVal → String × JVal} (hf : ∀ item, (f item).1 = item.1) :
    ∀ items : Dict, RevisedItems items (items.map f) ↔
      ∀ item ∈ items, RevisedValue item.2 (f item).2
  | [] => ⟨nofun, fun _ => trivial⟩
  | (k, v) :: kvs => by
    rw [List.map_cons, List.forall_mem_cons, ← revisedItems_map hf kvs]
    have hkey := hf (k, v)
    generalize f (k, v) = item at hkey
    obtain ⟨k', w⟩ := item
    exact and_iff_right hkey

theorem softens_eq_self {t s : List Char} (h : Softens t s) : s = t ↔
    t.tails.any (fun u => guaranteed.isPrefixOf u) = false ∧
      t.tails.any (fun u => riskFree.isPrefixOf u) = false := by
  have hfound {w rest : List Char} (hw : w ≠ []) :
      (w ++ rest).tails.any (fun u => w.isPrefixOf u) = true := by
    obtain ⟨c, u, rfl⟩ := List.exists_cons_of_ne_nil hw
    have hpre : (c :: u).isPrefixOf (c :: (u ++ rest)) = true :=
      List.isPrefixOf_iff_prefix.mpr ⟨rest, rfl⟩
    rw [List.cons_append, List.tails_cons, List.any_cons, hpre, Bool.true_or]
  induction h with
  | nil => exact iff_of_true rfl ⟨rfl, rfl⟩
  | keep hg hr hrest ih =>
    have hg' := Bool.eq_false_iff.mpr (mt List.isPrefixOf_iff_prefix.mp hg)
    have hr' := Bool.eq_false_iff.mpr (mt List.isPrefixOf_iff_prefix.mp hr)
    simp only [List.tails_cons, List.any_cons, hg', hr', Bool.false_or]
    refine Iff.trans ?_ ih
    exact ⟨fun heq => (List.cons.inj heq).2, fun heq => by rw [heq]⟩
  | guaranteed hrest ih =>
    refine iff_of_false (fun heq => ?_) fun hboth => ?_
    · exact absurd (List.cons.inj heq).1 (by decide)
    · rw [hfound (by decide)] at hboth
      cases hboth.1
  | riskFree hrest ih =>
    refine iff_of_false (fun heq => ?_) fun hboth => ?_
    · exact absurd (List.cons.inj heq).1 (by decide)
    · rw [hfound (by decide)] at hboth
      cases hboth.2

/-- A softened text is the text where neither of the two stands in it. -/
theorem softened_eq_self (text : String) : softened text = text ↔
    PyText.contains text "guaranteed" = false ∧ PyText.contains text "risk-free" = false := by
  rw [← String.toList_inj]
  exact softens_eq_self (softens_softened text)

/-- What one item says of the revision : its text is clean of phrases, and changed only where
something was detected. -/
theorem reviseItem_says (item : String × JVal) :
    (scan prohibitedPhrasePatterns (reviseItem true item).2 = [] ∧
        RevisedValue item.2 (reviseItem true item).2) ↔
      (∀ text, item.1 ∈ softenedKeys → item.2 = .str text →
        ¬Unsoftened (redactText text).1 ∧
          (Detected text ∨ PyText.contains text "guaranteed" = false ∧
            PyText.contains text "risk-free" = false)) ∧
      ((item.1 ∈ softenedKeys → ∀ text, item.2 ≠ .str text) →
        ∀ text ∈ textsOf item.2, labelsOf prohibitedPhrasePatterns (redactText text).1 = []) := by
  obtain ⟨key, value⟩ := item
  have hkept (v : JVal) : scan prohibitedPhrasePatterns (redactValue v).1 = [] ↔
      ∀ text ∈ textsOf v, labelsOf prohibitedPhrasePatterns (redactText text).1 = [] := by
    rw [scan_eq, (textsOf_redactValue v).1, List.flatMap_eq_nil_iff, List.forall_mem_map]
  by_cases hkey : key ∈ softenedKeys
  · rw [reviseItem, if_pos ⟨rfl, hkey⟩]
    cases value with
    | str text =>
      have hclean : scan prohibitedPhrasePatterns (softenValue (redactValue (.str text)).1) = [] ↔
          ¬Unsoftened (redactText text).1 := labelsOf_softened _
      have hchanged : RevisedValue (.str text) (softenValue (redactValue (.str text)).1) ↔
          Detected text ∨ PyText.contains text "guaranteed" = false ∧
            PyText.contains text "risk-free" = false := by
        change softened (redactText text).1 = text ∨ Detected text ↔ _
        rw [or_comm]
        by_cases hdetected : Detected text
        · simp [hdetected]
        · have hnone : labelsOf patterns text = [] := by
            by_contra hne
            exact hdetected (Or.inl hne)
          have hsame : redactText text = (text, []) := redactWith_of_clean hnone
          rw [hsame, softened_eq_self]
      rw [hclean, hchanged]
      constructor
      · intro hboth
        refine ⟨fun other _ heq => ?_, fun hno => absurd rfl (hno hkey text)⟩
        rwa [← JVal.str.inj heq]
      · exact fun hboth => hboth.1 text hkey rfl
    | _ =>
      refine Iff.trans (and_iff_left (revisedValue_redactValue _)) ((hkept _).trans ?_)
      exact ⟨fun h => ⟨nofun, fun _ => h⟩, fun h => h.2 nofun⟩
  · rw [reviseItem, if_neg fun hboth => hkey hboth.2]
    refine Iff.trans (and_iff_left (revisedValue_redactValue _)) ((hkept _).trans ?_)
    exact ⟨fun h => ⟨fun _ hin => absurd hin hkey, fun _ => h⟩,
      fun h => h.2 fun hin => absurd hin hkey⟩

theorem dedupFirst_eq_nil {labels : List String} : dedupFirst labels = [] ↔ labels = [] := by
  have hkept (rest found : List String) (hne : found ≠ []) :
      rest.foldl (fun found label => if found.contains label then found else found ++ [label])
        found ≠ [] := by
    induction rest generalizing found with
    | nil => exact hne
    | cons label rest ih =>
      refine ih _ ?_
      dsimp only
      split
      · exact hne
      · exact List.append_ne_nil_of_right_ne_nil _ (List.cons_ne_nil _ _)
  cases labels with
  | nil => exact Iff.rfl
  | cons label rest => exact iff_of_false (hkept rest [label] (List.cons_ne_nil _ _)) (by simp)

theorem scanItems_map (table : List LabelledPattern) (f : String × JVal → String × JVal) :
    ∀ items : Dict, scanItems table (items.map f) = [] ↔
      ∀ item ∈ items, scan table (f item).2 = []
  | [] => iff_of_true rfl nofun
  | item :: items => by
    rw [List.forall_mem_cons, ← scanItems_map table f items, List.map_cons]
    exact List.append_eq_nil_iff

/-- A revision says what it should if and only if there was no phrase, or softening reaches
every phrase. -/
theorem revision_says_iff {action : String} {payload : Dict} {features : FeatureVector}
    {findings : List PackFinding} {reasons : List String} {blocked : Bool} {fix : RemediationPlan}
    {revised : Dict} (hkeys : (payload.map Prod.fst).Nodup)
    (hfeatures : extractFeatures action payload = .ok features)
    (hplan : plan payload features findings reasons blocked = some fix)
    (hrevised : fix.revisedOutput = some revised) :
    RevisionSays payload revised fix.edits ↔
      detectProhibitedPhrases payload = [] ∨ SoftenReaches payload := by
  obtain ⟨-, hpii, hphrases, -⟩ := extractFeatures_eq_ok hfeatures
  obtain ⟨hplanned, hcleared, hedits⟩ := plan_revisedOutput hplan hrevised
  rw [plannedRevision_eq hkeys hpii] at hplanned
  have hredacted : (∃ e ∈ fix.edits, e.kind = "redact_pii") → detectPiiLabels revised = [] := by
    rintro ⟨e, he, hkind⟩
    refine hcleared ?_
    rw [hedits] at he
    cases hcase : features.hasPii with
    | true => rfl
    | false =>
      rw [hcase, if_neg Bool.false_ne_true, List.nil_append] at he
      split at he
      · rw [List.mem_singleton.mp he, softenEdit_kind] at hkind
        exact absurd hkind (by decide)
      · cases he
  have hkey (phrased : Bool) (item : String × JVal) : (reviseItem phrased item).1 = item.1 := by
    unfold reviseItem
    split <;> rfl
  by_cases hnone : features.prohibitedPhrases = []
  · refine iff_of_true ⟨hredacted, ?_, ?_⟩ (Or.inl (hphrases ▸ hnone))
    · rintro ⟨e, he, hkind⟩
      rw [hedits, hnone, List.isEmpty_nil, Bool.not_true, if_neg Bool.false_ne_true,
        List.append_nil] at he
      split at he
      · rw [List.mem_singleton.mp he, redactEdit_kind] at hkind
        exact absurd hkind (by decide)
      · cases he
    · rw [hplanned, hnone, revisedItems_map (hkey _)]
      intro item _
      rw [reviseItem, if_neg fun hboth => Bool.false_ne_true hboth.1]
      exact revisedValue_redactValue item.2
  · have hphrased : (!features.prohibitedPhrases.isEmpty) = true := by simpa using hnone
    rw [hphrased] at hplanned hedits
    have hlisted : ∃ e ∈ fix.edits, e.kind = "soften_phrases" := by
      refine ⟨softenEdit features findings, ?_, rfl⟩
      rw [hedits]
      exact List.mem_append_right _ (List.mem_singleton.mpr rfl)
    rw [or_iff_right (hphrases ▸ hnone)]
    have hrevision : RevisionSays payload revised fix.edits ↔
        detectProhibitedPhrases revised = [] ∧ RevisedItems payload revised :=
      ⟨fun h => ⟨h.softened hlisted, h.confined⟩,
        fun h => ⟨hredacted, fun _ => h.1, h.2⟩⟩
    rw [hrevision, detectProhibitedPhrases, dedupFirst_eq_nil, hplanned, scanItems_map,
      revisedItems_map (hkey _), ← forall₂_and]
    exact forall₂_congr fun item _ => reviseItem_says item

end Revision

namespace RevisionSample

scoped instance : PyUnicode := .ascii

def promise (text : String) : Dict := [("output", .str text)]

/-- What is extracted of a promise of guaranteed gains. -/
def promised : FeatureVector where
  action := "send"
  citationCount := .int 0
  hasPii := false
  piiLabels := []
  crossBorder := false
  lawfulBasisPresent := false
  prohibitedPhrases := ["guaranteed_return"]
  amountAed := none

/-- A promise of guaranteed gains is revised. -/
theorem exists_revision (text : String) :
    ∃ fix, plan (promise text) promised [] [] false = some fix ∧
      fix.edits.map PlanEdit.kind = ["soften_phrases"] ∧
      fix.revisedOutput = some (promise (softened text)) :=
  ⟨_, rfl, rfl, rfl⟩

end RevisionSample

open RevisionSample in
/-- A promise in lower case is softened. -/
theorem revision_says_sample : ∃ fix,
    plan (promise "guaranteed gains") promised [] [] false = some fix ∧
      fix.revisedOutput = some (promise "may gains") ∧
      RevisionSays (promise "guaranteed gains") (promise "may gains") fix.edits := by
  obtain ⟨fix, hplan, -, hrevised⟩ := exists_revision "guaranteed gains"
  have hsoftened : softened "guaranteed gains" = "may gains" := by decide +kernel
  have hclean : detectProhibitedPhrases (promise "may gains") = [] := by decide +kernel
  rw [hsoftened] at hrevised
  have hnone : labelsOf prohibitedPhrasePatterns (softened "guaranteed gains") = [] := by
    decide +kernel
  have hsame : (redactText "guaranteed gains").1 = "guaranteed gains" := by decide +kernel
  have hdetected : labelsOf prohibitedPhrasePatterns "guaranteed gains" ≠ [] := by decide +kernel
  refine ⟨fix, hplan, hrevised, ?_⟩
  refine (revision_says_iff (by decide) rfl hplan hrevised).mpr (Or.inr fun item hitem => ?_)
  obtain rfl := List.mem_singleton.mp hitem
  refine ⟨fun text _ htext => ?_, fun hno => absurd rfl (hno (by decide) "guaranteed gains")⟩
  obtain rfl := JVal.str.inj htext
  rw [hsame]
  exact ⟨labelsOf_softened _ |>.mp hnone, Or.inl (Or.inr hdetected)⟩

open RevisionSample in
/-- A promise with a capital is found, its softening is listed, and it stays as it is. -/
theorem shouted_promise_stays : ∃ fix,
    extractFeatures "send" (promise "Guaranteed gains") = .ok promised ∧
      plan (promise "Guaranteed gains") promised [] [] false = some fix ∧
      fix.edits.map PlanEdit.kind = ["soften_phrases"] ∧
      fix.revisedOutput = some (promise "Guaranteed gains") ∧
      detectProhibitedPhrases (promise "Guaranteed gains") = ["guaranteed_return"] ∧
      ¬RevisionSays (promise "Guaranteed gains") (promise "Guaranteed gains") fix.edits := by
  obtain ⟨fix, hplan, hkinds, hrevised⟩ := exists_revision "Guaranteed gains"
  have hsoftened : softened "Guaranteed gains" = "Guaranteed gains" := by decide +kernel
  have hfound : detectProhibitedPhrases (promise "Guaranteed gains") = ["guaranteed_return"] := by
    decide +kernel
  rw [hsoftened] at hrevised
  refine ⟨fix, rfl, hplan, hkinds, hrevised, hfound, fun hrevision => ?_⟩
  have hlisted : "soften_phrases" ∈ fix.edits.map PlanEdit.kind := by
    rw [hkinds]
    exact List.mem_singleton.mpr rfl
  have hnone := hrevision.softened (List.mem_map.mp hlisted)
  rw [hfound] at hnone
  cases hnone

end Attest
