import Attest.Desk
import Attest.Preview

/-!
# Cures

A flagged output comes with a fix, and the client applies the fix unattended when it looks
complete (`completeCure`) : a rewrite that the gate has judged, or the deterministic
revision when nothing is left over.

A revision takes out what the detectors found and leaves the amount and the facts about a
transfer as they were (`Revised.facts`). Whether the gate then finds it compliant is
decided by what is left : `cure_cures_iff` says when a cure that is offered as complete
cures, which a rewrite always does.
-/

set_option linter.unusedSectionVars false

namespace Attest

/-! ## The client's choice -/

inductive CureKind where
  | rewrite
  | deterministic
deriving DecidableEq

/-- The deterministic revision, where it cures everything. -/
def RemediationPlan.deterministicCure (fix : RemediationPlan) : Option (Dict × CureKind) :=
  match fix.revisedOutput with
  | some revised =>
    if !revised.isEmpty && fix.unresolved.isEmpty && fix.requirements.isEmpty then
      some (revised, .deterministic)
    else none
  | none => none

/-- The one cure of a fix that is safe to apply unattended. -/
def RemediationPlan.cure (fix : RemediationPlan) : Option (Dict × CureKind) :=
  match fix.rewrite with
  | some rewrite =>
    if !rewrite.output.isEmpty && !rewrite.reclassified then some (rewrite.output, .rewrite)
    else fix.deterministicCure
  | none => fix.deterministicCure

/-- `_complete_cure(first)`. -/
def completeCure (first : GateOut) : Option (Dict × CureKind) :=
  first.suggestedFix.bind RemediationPlan.cure

theorem RemediationPlan.cure_cases {fix : RemediationPlan} {cure : Dict} {kind : CureKind}
    (h : fix.cure = some (cure, kind)) :
    (kind = .rewrite ∧ ∃ rewrite, fix.rewrite = some rewrite ∧ cure = rewrite.output) ∨
      (kind = .deterministic ∧ fix.revisedOutput = some cure ∧ fix.unresolved = [] ∧
        fix.requirements = []) := by
  have hdeterministic (h : fix.deterministicCure = some (cure, kind)) :
      kind = .deterministic ∧ fix.revisedOutput = some cure ∧ fix.unresolved = [] ∧
        fix.requirements = [] := by
    unfold deterministicCure at h
    split at h
    · rename_i revised hrevised
      obtain ⟨hleft, h⟩ := Option.ite_none_right_eq_some.mp h
      obtain ⟨rfl, rfl⟩ := Prod.mk.inj (Option.some.inj h)
      simp only [Bool.and_eq_true, List.isEmpty_iff] at hleft
      exact ⟨rfl, hrevised, hleft.1.2, hleft.2⟩
    · cases h
  unfold RemediationPlan.cure at h
  split at h
  · rename_i rewrite hrewrite
    split at h
    · obtain ⟨rfl, rfl⟩ := Prod.mk.inj (Option.some.inj h)
      exact Or.inl ⟨rfl, rewrite, hrewrite, rfl⟩
    · exact Or.inr (hdeterministic h)
  · exact Or.inr (hdeterministic h)

/-! ## What a revision keeps -/

section Keeps

variable [PyUnicode]

theorem subFrom_ne_nil {r : Regex} {repl : List Char} (hrepl : repl ≠ []) :
    ∀ {b : Option Char} {cs : List Char}, cs ≠ [] → r.subFrom repl b 0 cs ≠ []
  | _, [], h => absurd rfl h
  | b, c :: cs, _ => by
    rw [Regex.subFrom]
    split
    · exact List.cons_ne_nil _ _
    · simp [hrepl]

/-- A text that is not empty is not emptied. -/
theorem redactWith_eq_empty : ∀ {table : List LabelledPattern} {text : String},
    (redactWith table text).1 = "" ↔ text = ""
  | [], _ => Iff.rfl
  | (label, pattern) :: rest, text => by
    rw [redactWith]
    split
    · show (redactWith rest (pattern.sub ("[REDACTED:" ++ label ++ "]") text)).1 = "" ↔ text = ""
      rw [redactWith_eq_empty]
      constructor
      · intro hempty
        by_contra hne
        have hstays : pattern.subFrom ("[REDACTED:" ++ label ++ "]").toList none 0
            text.toList ≠ [] :=
          subFrom_ne_nil (by simp [String.toList_append]) (by simpa using hne)
        exact hstays (by simpa [Regex.sub] using hempty)
      · rintro rfl
        rfl
    · exact redactWith_eq_empty

theorem isEmpty_redactList (items : List JVal) : (redactList items).1.isEmpty = items.isEmpty := by
  cases items <;> rfl

theorem isEmpty_redactItems (items : Dict) : (redactItems items).1.isEmpty = items.isEmpty := by
  cases items <;> rfl

/-- Redaction keeps what a value is taken for. -/
theorem truthy_redactValue (v : JVal) : (redactValue v).1.truthy = v.truthy := by
  cases v with
  | str text =>
    have hempty : (redactText text).1 = "" ↔ text = "" := redactWith_eq_empty
    rw [Bool.eq_iff_iff]
    simp only [redactValue, JVal.truthy, bne_iff_ne, ne_eq, hempty]
  | arr items => simp [redactValue, JVal.truthy, isEmpty_redactList]
  | obj items => simp [redactValue, JVal.truthy, isEmpty_redactItems]
  | _ => rfl

theorem get?_redactItems (key : String) (items : Dict) :
    Dict.get? (redactItems items).1 key = (items.get? key).map fun v => (redactValue v).1 := by
  induction items with
  | nil => rfl
  | cons item rest ih =>
    obtain ⟨k, v⟩ := item
    simp only [Dict.get?, redactItems, List.find?_cons] at ih ⊢
    by_cases hk : k = key
    · simp [hk]
    · simp [hk, ih]

theorem get_redactItems (key : String) (items : Dict) :
    Dict.get (redactItems items).1 key = (redactValue (items.get key)).1 := by
  rw [Dict.get, Dict.getD, get?_redactItems, Dict.get, Dict.getD]
  cases items.get? key <;> rfl

/-- Two payloads give one amount, and say the same of a transfer. -/
structure SameFacts (payload payload' : Dict) : Prop where
  amount : amountAed payload' = amountAed payload
  truths : ∀ key ∈ ["cross_border", "transfer_abroad", "lawful_basis", "cross_border_lawful_basis"],
    (payload'.get key).truthy = (payload.get key).truthy

theorem SameFacts.refl (payload : Dict) : SameFacts payload payload :=
  ⟨rfl, fun _ _ => rfl⟩

theorem SameFacts.trans {a b c : Dict} (h : SameFacts a b) (h' : SameFacts b c) : SameFacts a c :=
  ⟨h'.amount.trans h.amount, fun key hkey => (h'.truths key hkey).trans (h.truths key hkey)⟩

theorem sameFacts_redactPayload (payload : Dict) : SameFacts payload (redactPayload payload).1 := by
  have hget (key : String) : Dict.get (redactPayload payload).1 key =
      (redactValue (payload.get key)).1 := get_redactItems key payload
  refine ⟨?_, fun key _ => by rw [hget, truthy_redactValue]⟩
  rw [amountAed, amountAed, hget]
  cases payload.get "amount_aed" <;> rfl

theorem get_softenClaims {payload : Dict} {key : String}
    (hkey : key ∉ ["output", "summary", "prompt"]) :
    (softenClaims payload).get key = payload.get key := by
  unfold softenClaims
  generalize ["output", "summary", "prompt"] = keys at hkey ⊢
  induction keys generalizing payload with
  | nil => rfl
  | cons k keys ih =>
    obtain ⟨hk, hkeys⟩ := not_or.mp (mt List.mem_cons.mpr hkey)
    rw [List.foldl_cons, ih hkeys]
    split
    · rw [Dict.get, Dict.getD, get?_setItem_of_ne (Ne.symm hk)]
      rfl
    · rfl

theorem sameFacts_softenClaims (payload : Dict) : SameFacts payload (softenClaims payload) := by
  refine ⟨?_, fun key hkey => ?_⟩
  · rw [amountAed, amountAed, get_softenClaims (by decide)]
  · rw [get_softenClaims]
    simp only [List.mem_cons, List.not_mem_nil, or_false] at hkey ⊢
    rcases hkey with rfl | rfl | rfl | rfl <;> decide

/-! ## The deterministic revision -/

/-- What the planner makes of an output : personal data redacted and absolute claims
softened, where its detectors found any. -/
def plannedRevision (payload : Dict) (features : FeatureVector) : Dict :=
  (applyMitigationIds payload ((if features.hasPii then ["redact_pii_before_send"] else []) ++
    if !features.prohibitedPhrases.isEmpty then ["soften_absolute_claims"] else [])).1

theorem sameFacts_plannedRevision (payload : Dict) (features : FeatureVector) :
    SameFacts payload (plannedRevision payload features) := by
  unfold plannedRevision
  cases features.hasPii <;> cases features.prohibitedPhrases.isEmpty <;>
    simp only [applyMitigationIds, mitigationHandler, if_true, if_false, List.nil_append,
      List.append_nil, List.cons_append, List.foldl_cons, List.foldl_nil, Bool.not_true,
      Bool.not_false, Bool.false_eq_true]
  · exact sameFacts_softenClaims payload
  · exact .refl payload
  · exact (sameFacts_redactPayload payload).trans (sameFacts_softenClaims _)
  · exact sameFacts_redactPayload payload

/-- A plan that revises with nothing left over. -/
structure Revises (payload : Dict) (features : FeatureVector) (findings : List PackFinding)
    (revised : Dict) : Prop where
  revised_eq : revised = plannedRevision payload features
  cleared : features.hasPii = true → detectPiiLabels revised = []
  based : ¬features.NoLawfulBasis
  cured : ∀ f ∈ findings, f.matchedOn.any curedSignals.contains = true

theorem plan_revises {payload : Dict} {features : FeatureVector} {findings : List PackFinding}
    {reasons : List String} {blocked : Bool} {p : RemediationPlan} {revised : Dict}
    (h : plan payload features findings reasons blocked = some p)
    (hrevised : p.revisedOutput = some revised) (hunresolved : p.unresolved = [])
    (hrequirements : p.requirements = []) : Revises payload features findings revised := by
  simp only [plan, Option.ite_none_left_eq_some, Option.some.injEq] at h
  obtain ⟨-, rfl⟩ := h
  by_cases hleft : (if features.hasPii = true then
      detectPiiLabels (plannedRevision payload features) else []).isEmpty = true
  · have hshape := hleft
    unfold plannedRevision at hshape
    rw [if_pos hshape] at hrevised hunresolved hrequirements
    clear hshape
    obtain ⟨-, hrevised⟩ := Option.ite_none_left_eq_some.mp hrevised
    obtain rfl := Option.some.inj hrevised
    refine ⟨rfl, ?_, ?_, ?_⟩
    · intro hpii
      rw [if_pos hpii] at hleft
      exact List.isEmpty_iff.mp hleft
    · rintro ⟨hborder, hbasis⟩
      simp [hborder, hbasis] at hrequirements
    · intro f hf
      by_contra hopen
      simp only [List.append_eq_nil_iff, List.map_eq_nil_iff, List.filter_eq_nil_iff] at hunresolved
      simpa [hopen] using hunresolved.1 f hf
  · unfold plannedRevision at hleft
    rw [if_neg hleft] at hrevised
    cases hrevised

theorem plan_rewrite {payload : Dict} {features : FeatureVector} {findings : List PackFinding}
    {reasons : List String} {blocked : Bool} {p : RemediationPlan}
    (h : plan payload features findings reasons blocked = some p) : p.rewrite = none := by
  simp only [plan, Option.ite_none_left_eq_some, Option.some.injEq] at h
  obtain ⟨-, rfl⟩ := h
  by_cases hleft : (if features.hasPii = true then
      detectPiiLabels (plannedRevision payload features) else []).isEmpty = true
  · unfold plannedRevision at hleft
    rw [if_pos hleft]
  · unfold plannedRevision at hleft
    rw [if_neg hleft]

/-- The plan stays, but for a rewrite that was judged compliant. -/
theorem rewriteLoop_eq_ok {db : Db} {org : Org} {action : String} {policy : Policy}
    {p fix : RemediationPlan} : ∀ {drafts : List (Option RewriteDraft)},
      rewriteLoop db org action policy p drafts = .ok fix →
        fix = p ∨ ∃ draft, unrecordedStatus db org action draft.output policy =
          .ok (some .compliant) ∧ fix = attachRewrite p draft
  | [], h => Or.inl (Except.ok.inj h).symm
  | none :: _, h => Or.inl (Except.ok.inj h).symm
  | some draft :: drafts, h => by
    simp only [rewriteLoop, Except.bind_eq_ok] at h
    obtain ⟨status, hstatus, h⟩ := h
    split at h
    · rename_i hcompliant
      subst hcompliant
      exact Or.inr ⟨draft, hstatus, (Except.ok.inj h).symm⟩
    · exact rewriteLoop_eq_ok h

theorem remediate_eq_some {db : Db} {args : PrecheckArgs} {policy : Policy} {output : PolicyOutput}
    {features : FeatureVector} {findings : List PackFinding} {drafts : List (Option RewriteDraft)}
    {fix : RemediationPlan}
    (h : remediate db args policy output features findings drafts = .ok (some fix)) :
    ∃ p blocked, plan args.payload features findings output.reasons blocked = some p ∧
      (fix = p ∨ ∃ draft, unrecordedStatus db args.org args.action draft.output policy =
        .ok (some .compliant) ∧ fix = attachRewrite p draft) := by
  simp only [remediate] at h
  split at h
  · cases h
  · rename_i p hplanned
    obtain ⟨-, hp⟩ := Option.ite_none_right_eq_some.mp hplanned
    refine ⟨p, _, hp, ?_⟩
    split at h
    · obtain ⟨p', hloop, hfix⟩ := Except.map_eq_ok.mp h
      obtain rfl := Option.some.inj hfix
      exact rewriteLoop_eq_ok hloop
    · exact Or.inl (Option.some.inj (Except.ok.inj h)).symm

/-- What the client applies was judged compliant by the gate, or is the planner's revision
with nothing left over. -/
theorem cure_of_remediate {db : Db} {args : PrecheckArgs} {policy : Policy} {output : PolicyOutput}
    {features : FeatureVector} {findings : List PackFinding} {drafts : List (Option RewriteDraft)}
    {fix : RemediationPlan} {cure : Dict} {kind : CureKind}
    (h : remediate db args policy output features findings drafts = .ok (some fix))
    (hcure : fix.cure = some (cure, kind)) :
    (kind = .rewrite ∧ unrecordedStatus db args.org args.action cure policy =
      .ok (some .compliant)) ∨
    (kind = .deterministic ∧ Revises args.payload features findings cure) := by
  obtain ⟨p, blocked, hp, hfix⟩ := remediate_eq_some h
  rcases fix.cure_cases hcure with ⟨hkind, rewrite, hrewrite, rfl⟩ | ⟨hkind, hrevised, hunresolved,
    hrequirements⟩
  · rcases hfix with rfl | ⟨draft, hdraft, rfl⟩
    · cases hrewrite.symm.trans (plan_rewrite hp)
    · obtain rfl := Option.some.inj hrewrite
      exact Or.inl ⟨hkind, hdraft⟩
  · refine Or.inr ⟨hkind, ?_⟩
    rcases hfix with rfl | ⟨draft, -, rfl⟩
    · exact plan_revises hp hrevised hunresolved hrequirements
    · exact plan_revises hp hrevised hunresolved hrequirements

/-! ## The status of an output -/

/-- The status of an output that the policy gave `output`. -/
def concludedStatus (db : Db) (org : Org) (action : String) (payload : Dict)
    (features : FeatureVector) (output : PolicyOutput) : Except PyError Status := do
  let findings ← evaluatePacks action payload features db org.id
  return deriveStatus output.allowed (combinedTier output.tier findings) findings

/-- The status that the gate gives an output under a policy, recording nothing. -/
def statusOn (db : Db) (org : Org) (action : String) (payload : Dict) (policy : Policy) :
    Except PyError Status := do
  let features ← extractFeatures action payload
  match evaluatePolicyInput (policyInput org action payload policy.version features)
      policy.rules with
  | .error (.policyEngine detail) =>
    if org.failMode = "deny_on_error" then return .blocked
    else concludedStatus db org action payload features (refusedOutput detail)
  | .error e => .error e
  | .ok output => concludedStatus db org action payload features output

theorem statusOn_of_unrecorded {db : Db} {org : Org} {action : String} {payload : Dict}
    {policy : Policy} {status : Status}
    (h : unrecordedStatus db org action payload policy = .ok (some status)) :
    statusOn db org action payload policy = .ok status := by
  simp only [unrecordedStatus, Except.bind_eq_ok] at h
  obtain ⟨features, hfeatures, h⟩ := h
  split at h <;> rename_i heval
  · cases h
  · cases h
  · simp only [Except.bind_eq_ok, Except.pure_eq, Except.ok.injEq, Option.some.injEq,
      tierAllowsAction] at h
    obtain ⟨findings, hfindings, rfl⟩ := h
    simp only [statusOn, hfeatures, Except.ok_bind', heval, concludedStatus, hfindings,
      Except.pure_eq]

/-- The packs of another database that has the same ones. -/
theorem statusOn_congr {db db' : Db} (hpacks : db'.packs = db.packs)
    (horgPacks : db'.orgPacks = db.orgPacks) (org : Org) (action : String) (payload : Dict)
    (policy : Policy) :
    statusOn db' org action payload policy = statusOn db org action payload policy := by
  simp only [statusOn, concludedStatus, evaluatePacks, activePacksForOrg, hpacks, horgPacks]

theorem deriveStatus_eq_compliant {allowed : Bool} {tier : RiskTier} {findings : List PackFinding} :
    deriveStatus allowed tier findings = .compliant ↔
      allowed = true ∧ tier.isFlagging = false ∧ findings = [] := by
  cases allowed with
  | false => simp [deriveStatus]
  | true => cases hflag : tier.isFlagging <;> cases findings <;> simp [deriveStatus, hflag]

/-- Where the packs can be read, an output is compliant when nothing denies or flags it and
no pack cites. -/
theorem concludedStatus_eq_compliant {db : Db} {org : Org} {action : String} {payload : Dict}
    {features : FeatureVector} {output : PolicyOutput} (hread : PacksRead db org.id) :
    concludedStatus db org action payload features output = .ok .compliant ↔
      output.allowed = true ∧ output.tier.isFlagging = false ∧
        citedFindings action payload features db org.id = [] := by
  have hreturns : (evaluatePacks action payload features db org.id).succeeds = true :=
    evaluatePacks_succeeds.mpr hread
  obtain ⟨findings, hfindings⟩ := Except.succeeds_iff.mp hreturns
  have hnone : findings = [] ↔ citedFindings action payload features db org.id = [] := by
    rw [← List.length_eq_zero_iff, ← List.length_eq_zero_iff,
      (perm_citedFindings hfindings).length_eq]
  simp only [concludedStatus, hfindings, Except.ok_bind', Except.pure_eq, Except.ok.injEq,
    deriveStatus_eq_compliant, hnone]
  refine and_congr_right fun _ => and_congr_left fun hcited => ?_
  rw [hnone.mpr hcited]
  rfl

/-! ## What is left of a flag -/

/-- Nothing is left in the planned revision that the gate would flag or deny : no pack cites
it, and the organisation's policy cannot be evaluated on it where that is let pass, or its
rule neither denies nor is orange or red, the amount is not high, and the revision has no
prohibited phrase and no personal data. -/
def RevisionClean (db : Db) (org : Org) (action : String) (payload : Dict)
    (features : FeatureVector) (rules : Dict) : Prop :=
  ∃ features', extractFeatures action (plannedRevision payload features) = .ok features' ∧
    citedFindings action (plannedRevision payload features) features' db org.id = [] ∧
    ((∃ detail, firstMatchingRule serverHintKeys action (plannedRevision payload features) features'
        rules = .error (.policyEngine detail) ∧ org.failMode ≠ "deny_on_error") ∨
      ∃ hit, firstMatchingRule serverHintKeys action (plannedRevision payload features) features'
          rules = .ok hit ∧ customerVerdict org.failMode hit = true ∧
        (∀ h, hit = some h → h.tier.isFlagging = false) ∧ highValueLayer features = none ∧
        detectProhibitedPhrases (plannedRevision payload features) = [] ∧
        detectPiiLabels (plannedRevision payload features) = [])

/-- The features of an output, read one by one. -/
theorem extractFeatures_eq_ok {action : String} {payload : Dict} {features : FeatureVector}
    (h : extractFeatures action payload = .ok features) :
    amountAed payload = .ok features.amountAed ∧
      features.hasPii = !(detectPiiLabels payload).isEmpty ∧
      features.prohibitedPhrases = detectProhibitedPhrases payload ∧
      features.crossBorder =
        ((payload.get "cross_border").orElse (payload.get "transfer_abroad")).truthy ∧
      features.lawfulBasisPresent =
        ((payload.get "lawful_basis").orElse (payload.get "cross_border_lawful_basis")).truthy := by
  simp only [extractFeatures, extractFeaturesWith, Except.bind_eq_ok, Except.pure_eq,
    Except.ok.injEq] at h
  obtain ⟨amount, hamount, rfl⟩ := h
  exact ⟨hamount, rfl, rfl, rfl, rfl⟩

theorem truthy_orElse (a b : JVal) : (a.orElse b).truthy = (a.truthy || b.truthy) := by
  unfold JVal.orElse
  cases h : a.truthy <;> simp [h]

/-- A revision is a high amount or lacks a basis as the output did. -/
theorem SameFacts.features {action : String} {payload payload' : Dict}
    {features features' : FeatureVector} (h : SameFacts payload payload')
    (hfeatures : extractFeatures action payload = .ok features)
    (hfeatures' : extractFeatures action payload' = .ok features') :
    (features'.NoLawfulBasis ↔ features.NoLawfulBasis) ∧
      highValueLayer features' = highValueLayer features := by
  obtain ⟨hamount, -, -, hborder, hbasis⟩ := extractFeatures_eq_ok hfeatures
  obtain ⟨hamount', -, -, hborder', hbasis'⟩ := extractFeatures_eq_ok hfeatures'
  constructor
  · rw [FeatureVector.NoLawfulBasis, FeatureVector.NoLawfulBasis, hborder, hborder',
      hbasis, hbasis']
    simp only [truthy_orElse]
    rw [h.truths "cross_border" (by simp), h.truths "transfer_abroad" (by simp),
      h.truths "lawful_basis" (by simp), h.truths "cross_border_lawful_basis" (by simp)]
  · have hsame : features'.amountAed = features.amountAed :=
      Except.ok.inj (hamount'.symm.trans (h.amount.trans hamount))
    rw [highValueLayer, highValueLayer, hsame]

/-- An evaluation allows and does not flag when the rule that matched neither denies nor
flags and no layer flags. -/
theorem joinOutput_clean {features : FeatureVector} {failMode : String} {hit : Option RuleHit}
    {output : PolicyOutput}
    (houtput : output = joinOutput (runDeterministicLayers features) failMode hit) :
    (output.allowed = true ∧ output.tier.isFlagging = false) ↔
      customerVerdict failMode hit = true ∧ (∀ h, hit = some h → h.tier.isFlagging = false) ∧
        highValueLayer features = none ∧ features.prohibitedPhrases = [] ∧
        features.hasPii = false ∧ ¬features.NoLawfulBasis := by
  have hflag : output.tier.isFlagging = false ↔ (∀ h, hit = some h → h.tier.isFlagging = false) ∧
      highValueLayer features = none ∧ features.prohibitedPhrases = [] ∧ features.hasPii = false ∧
        ¬features.NoLawfulBasis := by
    rw [← Bool.not_eq_true, houtput, joinOutput_flagging, layerFloorTier_flagging]
    constructor
    · intro h
      refine ⟨fun r hr => ?_, ?_, ?_, ?_, ?_⟩
      · by_contra hr'
        exact h (Or.inr ⟨r, hr, by simpa using hr'⟩)
      · by_contra hhigh
        exact h (Or.inl (Or.inr (Or.inr (Or.inr hhigh))))
      · by_contra hphrases
        exact h (Or.inl (Or.inr (Or.inl hphrases)))
      · by_contra hpii
        exact h (Or.inl (Or.inl (by simpa using hpii)))
      · exact fun hbasis => h (Or.inl (Or.inr (Or.inr (Or.inl hbasis))))
    · rintro ⟨hrule, hhigh, hphrases, hpii, hbasis⟩ ((h | h | h | h) | ⟨r, hr, h⟩)
      · simp [hpii] at h
      · exact h hphrases
      · exact hbasis h
      · exact h hhigh
      · simp [hrule r hr] at h
  rw [hflag]
  refine and_congr_left fun hclean => ?_
  rw [houtput, joinOutput_allowed_iff.mpr fun hgates => ?_]
  cases hit with
  | none => exact hgates
  | some h => exact hclean.2.2.2.2 hgates.2.2.1

theorem evaluatePolicyInput_eq (org : Org) (action : String) (payload : Dict) (version : String)
    (features : FeatureVector) (rules : Dict) :
    evaluatePolicyInput (policyInput org action payload version features) rules =
      (firstMatchingRule serverHintKeys action payload features rules).map
        (joinOutput (runDeterministicLayers features) org.failMode) := by
  show (firstMatchingRule serverHintKeys action payload features rules >>= _) = _
  cases firstMatchingRule serverHintKeys action payload features rules <;> rfl

/-- A planned revision is compliant exactly when nothing is left to flag. -/
theorem Revises.compliant_iff {db : Db} {org : Org} {action : String} {payload revised : Dict}
    {features : FeatureVector} {findings : List PackFinding} {policy : Policy}
    (h : Revises payload features findings revised) (hread : PacksRead db org.id)
    (hfeatures : extractFeatures action payload = .ok features) :
    statusOn db org action revised policy = .ok .compliant ↔
      RevisionClean db org action payload features policy.rules := by
  obtain rfl := h.revised_eq
  have hfacts := sameFacts_plannedRevision payload features
  rw [statusOn, Except.bind_eq_ok, RevisionClean]
  refine exists_congr fun features' => and_congr_right fun hfeatures' => ?_
  obtain ⟨hbasis, hamount⟩ := hfacts.features hfeatures hfeatures'
  obtain ⟨-, hpii, hphrases, -, -⟩ := extractFeatures_eq_ok hfeatures'
  rw [evaluatePolicyInput_eq]
  cases hhit : firstMatchingRule serverHintKeys action (plannedRevision payload features) features'
    policy.rules with
  | error e =>
    cases e with
    | policyEngine detail =>
      by_cases hmode : org.failMode = "deny_on_error"
      · simp [Except.map, hmode]
      · simp only [Except.map, if_neg hmode, concludedStatus_eq_compliant hread, refusedOutput]
        simp [hmode, RiskTier.isFlagging]
    | _ => simp [Except.map]
  | ok hit =>
    simp only [Except.map, concludedStatus_eq_compliant hread]
    rw [← and_assoc, joinOutput_clean rfl, hamount, hbasis, ← hphrases]
    have hnone : features'.hasPii = false ↔
        detectPiiLabels (plannedRevision payload features) = [] := by
      rw [hpii, Bool.not_eq_false', List.isEmpty_iff]
    rw [hnone]
    simp only [reduceCtorEq, false_and, exists_false, false_or, Except.ok.injEq, exists_eq_left']
    have hbased := h.based
    tauto

end Keeps

/-! ## The second gate -/

section Regates

variable [KeyUnwrapping] [SignatureScheme] [PyUnicode] {svc : SigningKeyPair} {db db' : Db}

theorem concluded_statusOn {args : PrecheckArgs} {policy : Policy} {features : FeatureVector}
    {output : PolicyOutput} {d : DecisionOut}
    (hfeatures : extractFeatures args.action args.payload = .ok features)
    (hconcludes : Concludes args policy features output)
    (hanswer : ConcludedFrom args policy output d)
    (hfindings : evaluatePacks args.action args.payload features db args.org.id = .ok d.findings) :
    statusOn db args.org args.action args.payload policy = .ok d.status := by
  have hstatus : concludedStatus db args.org args.action args.payload features output =
      .ok d.status := by
    simp only [concludedStatus, hfindings, Except.ok_bind', Except.pure_eq, DecisionOut.status,
      hanswer.allowed_eq, hanswer.tier_eq]
  cases hconcludes with
  | evaluated heval => simp only [statusOn, hfeatures, Except.ok_bind', heval, hstatus]
  | refused heval hmode =>
    simp only [statusOn, hfeatures, Except.ok_bind', heval, if_neg hmode, hstatus]

/-- The gate answers with the status of the output. -/
theorem runGate_statusOn {args : GateArgs} {fresh : GateFresh} {out : GateOut} {policy : Policy}
    (h : runGate svc db args fresh = .ok (db', out))
    (hpolicy : selectPolicy db args.org.id args.policyVersion = some policy) :
    statusOn db args.org args.action args.output policy = .ok out.status := by
  rcases runGate_cases h with hunevaluated | ⟨remediated, db₁, db₂, db₃, d, event, hstages⟩
  · cases hunevaluated.policy.symm.trans hpolicy
  obtain ⟨ts, rfl⟩ := hstages.opened
  obtain ⟨policy', features, hpolicy', hfeatures, hend⟩ := runPrecheck_cases hstages.prechecked
  obtain rfl : policy = policy' := Option.some.inj (hpolicy.symm.trans hpolicy')
  have hstatus : out.status = d.status := by rw [hstages.out_eq, judgedOut]
  rw [hstatus]
  rcases hend with ⟨⟨detail, _, _, hfails, hd⟩, -⟩ | ⟨output, hconcludes, hconcluded⟩
  · have heval := hfails.refused
    have hfeatures' : extractFeatures args.action args.output = .ok features := hfeatures
    have heval' : evaluatePolicyInput (policyInput args.org args.action args.output policy.version
      features) policy.rules = .error (.policyEngine detail) := heval
    have hmode : args.org.failMode = "deny_on_error" := hfails.mode
    simp only [statusOn, hfeatures', Except.ok_bind', heval', if_pos hmode, hd]
    rfl
  · exact concluded_statusOn hfeatures hconcludes hconcluded.answer hconcluded.findings_eq

/-- A compliant output is judged. -/
theorem judges_of_compliant {args : PrecheckArgs} {policy : Policy}
    {drafts : List (Option RewriteDraft)}
    (h : statusOn db args.org args.action args.payload policy = .ok .compliant) :
    Judges db args policy drafts := by
  simp only [statusOn, Except.bind_eq_ok] at h
  obtain ⟨features, hfeatures, h⟩ := h
  have hjudges {output : PolicyOutput} (houtput : Concludes args policy features output)
      (h : concludedStatus db args.org args.action args.payload features output = .ok .compliant) :
      Judges db args policy drafts := by
    simp only [concludedStatus, Except.bind_eq_ok, Except.pure_eq, Except.ok.injEq] at h
    obtain ⟨findings, hfindings, hstatus⟩ := h
    have hplan : remediate db args policy output features findings drafts = .ok none := by
      simp only [remediate, tierAllowsAction, hstatus]
      rfl
    exact .concludes hfeatures houtput hfindings hplan
  split at h <;> rename_i heval
  · split at h <;> rename_i hmode
    · cases h
    · exact hjudges (.refused heval hmode) h
  · cases h
  · exact hjudges (.evaluated heval) h

/-- The place of a second gate call, on a cure of the first : the same trace, organisation
and action, with the policies and packs unchanged. -/
structure Regates (db : Db) (args : GateArgs) (first : GateOut) (cure : Dict) (db₂ : Db)
    (args₂ : GateArgs) (fresh₂ : GateFresh) : Prop where
  org_eq : args₂.org = args.org
  action_eq : args₂.action = args.action
  version_eq : args₂.policyVersion = args.policyVersion
  trace_eq : args₂.traceId = some first.traceId
  output_eq : args₂.output = cure
  policies_eq : db₂.policies = db.policies
  packs_eq : db₂.packs = db.packs
  orgPacks_eq : db₂.orgPacks = db.orgPacks
  stocked : db₂.Stocked
  index : IndexOk db₂
  fits : GateFits db₂ args₂ fresh₂

/-- The version of a policy that gave a verdict was stored, unless the call failed closed. -/
theorem runPrecheck_version {args : PrecheckArgs} {fresh : PrecheckFresh} {d : DecisionOut}
    {policy : Policy} (h : runPrecheck svc db args fresh = .ok (db', d))
    (hpolicy : selectPolicy db args.org.id args.policyVersion = some policy) :
    textOk policy.version = true ∨ d.status = .blocked := by
  have hconcluded {db : Db} {features : FeatureVector} {output : PolicyOutput}
      (h : concludePrecheck svc db args policy features output fresh = .ok (db', d)) :
      textOk policy.version = true := by
    simp only [concludePrecheck, Except.bind_eq_ok] at h
    obtain ⟨_, -, _, -, ⟨_, _⟩, -, _, hsummary, -⟩ := h
    exact (Db.insertSummary_eq_ok.mp hsummary).1.2.1
  simp only [runPrecheck, hpolicy, Except.bind_eq_ok] at h
  obtain ⟨_, -, features, -, h⟩ := h
  split at h <;> rename_i heval
  · split at h <;> rename_i hmode
    · have hfails : FailsClosed args policy features _ := ⟨heval, hmode⟩
      obtain ⟨⟨_, _, _, -, hd⟩, -⟩ := failClosedResponse_cases hfails h
      right
      rw [hd]
      rfl
    · exact Or.inl (hconcluded h)
  · cases h
  · exact Or.inl (hconcluded h)

/-- The deterministic revision of an output is clean, under the policy it was judged by. -/
def RevisionHolds (db : Db) (args : GateArgs) : Prop :=
  ∀ policy features, selectPolicy db args.org.id args.policyVersion = some policy →
    extractFeatures args.action args.output = .ok features →
      RevisionClean db args.org args.action args.output features policy.rules

/-- What is known of a flagged output whose fix the client applies. -/
theorem cure_status {args : GateArgs} {fresh : GateFresh} {first : GateOut} {cure : Dict}
    {kind : CureKind} (hgate : runGate svc db args fresh = .ok (db', first))
    (hflagged : first.status = .flagged) (hcure : completeCure first = some (cure, kind)) :
    ∃ policy, selectPolicy db args.org.id args.policyVersion = some policy ∧
      textOk policy.version = true ∧
      (statusOn db args.org args.action cure policy = .ok .compliant ↔
        (kind = .deterministic → RevisionHolds db args)) := by
  rcases runGate_cases hgate with hunevaluated | ⟨remediated, db₁, db₂, db₃, d, event, hstages⟩
  · obtain ⟨event, hout⟩ := hunevaluated.out_eq
    rw [hout] at hflagged
    cases hflagged
  obtain ⟨ts, rfl⟩ := hstages.opened
  have hstatus : d.status = .flagged := by
    rw [hstages.out_eq] at hflagged
    exact hflagged
  obtain ⟨policy, features, hpolicy, hfeatures, hend⟩ := runPrecheck_cases hstages.prechecked
  have hversion : textOk policy.version = true := by
    refine (runPrecheck_version hstages.prechecked hpolicy).resolve_right ?_
    rw [hstatus]
    decide
  refine ⟨policy, hpolicy, hversion, ?_⟩
  rcases hend with ⟨⟨_, _, _, -, hd⟩, -⟩ | ⟨output, hconcludes, hconcluded⟩
  · rw [hd] at hstatus
    cases hstatus
  have hread : PacksRead db args.org.id :=
    evaluatePacks_succeeds.mp (Except.succeeds_iff.mpr ⟨_, hconcluded.findings_eq⟩)
  obtain ⟨fix, hfix, hcure⟩ := Option.bind_eq_some_iff.mp hcure
  have hplan := hconcluded.plan_eq
  have hsuggested : d.remediationPlan = some fix := by
    rw [hstages.out_eq] at hfix
    exact hfix
  rw [hsuggested] at hplan
  rcases cure_of_remediate hplan hcure with ⟨rfl, hunrecorded⟩ | ⟨rfl, hrevises⟩
  · exact iff_of_true (statusOn_of_unrecorded hunrecorded) nofun
  · have hiff : statusOn db args.org args.action cure policy = .ok .compliant ↔
        RevisionClean db args.org args.action args.output features policy.rules :=
      hrevises.compliant_iff hread hfeatures
    rw [hiff]
    constructor
    · intro hclean _ policy' features' hpolicy' hfeatures'
      obtain rfl : policy = policy' := Option.some.inj (hpolicy.symm.trans hpolicy')
      obtain rfl : features = features' := Except.ok.inj (hfeatures.symm.trans hfeatures')
      exact hclean
    · intro hholds
      exact hholds rfl policy features hpolicy hfeatures

/-- A cure offered as complete cures when it is a rewrite, and when it is the
deterministic revision exactly if that revision is clean. -/
theorem cure_cures_iff {args args₂ : GateArgs} {fresh fresh₂ : GateFresh} {first : GateOut}
    {cure : Dict} {kind : CureKind} {db₂ : Db}
    (hgate : runGate svc db args fresh = .ok (db', first)) (hflagged : first.status = .flagged)
    (hcure : completeCure first = some (cure, kind))
    (hplace : Regates db args first cure db₂ args₂ fresh₂) :
    (∃ db₃ second, runGate svc db₂ args₂ fresh₂ = .ok (db₃, second) ∧
      second.status = .compliant) ↔ (kind = .deterministic → RevisionHolds db args) := by
  obtain ⟨policy, hpolicy, hversion, hstatus⟩ := cure_status hgate hflagged hcure
  rw [← hstatus]
  have hpolicy₂ : selectPolicy db₂ args₂.org.id args₂.policyVersion = some policy := by
    rw [selectPolicy_congr hplace.policies_eq, hplace.org_eq, hplace.version_eq, hpolicy]
  have hsame : statusOn db₂ args₂.org args₂.action args₂.output policy =
      statusOn db args.org args.action cure policy := by
    rw [statusOn_congr hplace.packs_eq hplace.orgPacks_eq, hplace.org_eq, hplace.action_eq,
      hplace.output_eq]
  rw [← hsame]
  constructor
  · rintro ⟨db₃, second, hsecond, hcompliant⟩
    rw [runGate_statusOn hsecond hpolicy₂, hcompliant]
  · intro hcompliant
    have hjudges : Judges db₂ (gatePrecheck db₂ args₂ fresh₂) policy fresh₂.precheck.drafts :=
      judges_of_compliant hcompliant
    obtain ⟨db₃, second, hsecond⟩ := runGate_returns hplace.stocked hplace.index hplace.fits svc
      hpolicy₂ hversion hjudges
    exact ⟨db₃, second, hsecond,
      Except.ok.inj ((runGate_statusOn hsecond hpolicy₂).symm.trans hcompliant)⟩

end Regates

/-! ## Sample cures -/

section Samples

open Sample

/-- An output with an address in it. -/
def sampleMail (address : String) (more : Dict) : Dict :=
  ("output", .str ("write to " ++ address)) :: more

/-- The cure of the fix of a first gate call. -/
def sampleCure (payload : Dict) : Except PyError (Option (Dict × CureKind)) := do
  let features ← extractFeatures "note" payload
  let output ← evaluatePolicyInput
    (policyInput sampleOrg "note" payload samplePolicy.version features) samplePolicy.rules
  let findings ← evaluatePacks "note" payload features (sampleWith samplePolicy) "acme"
  let fix ← remediate (sampleWith samplePolicy) (gatePrecheck (sampleWith samplePolicy)
    (sampleGateArgs "note" payload) sampleGateFresh) samplePolicy output features findings []
  return fix.bind RemediationPlan.cure

theorem completeCure_sample {payload : Dict} {db' : Db} {first : GateOut}
    {cure : Option (Dict × CureKind)}
    (h : runGate sampleKey (sampleWith samplePolicy) (sampleGateArgs "note" payload)
      sampleGateFresh = .ok (db', first))
    (hcure : sampleCure payload = .ok cure) : completeCure first = cure := by
  simp only [sampleCure, Except.bind_eq_ok, Except.pure_eq, Except.ok.injEq] at hcure
  obtain ⟨features, hfeatures, output, houtput, findings, hfindings, fix, hfix, rfl⟩ := hcure
  have hpolicy : selectPolicy (sampleWith samplePolicy) "acme" none = some samplePolicy := rfl
  rcases runGate_cases h with hunevaluated | ⟨remediated, db₁, db₂, db₃, d, event, hstages⟩
  · cases hunevaluated.policy.symm.trans hpolicy
  obtain ⟨ts, rfl⟩ := hstages.opened
  have hconcluded := runPrecheck_evaluated hstages.prechecked hpolicy hfeatures houtput
  have hsame : d.findings = findings :=
    Except.ok.inj (hconcluded.findings_eq.symm.trans hfindings)
  have hplan := hconcluded.plan_eq
  rw [hsame] at hplan
  have hfixed : d.remediationPlan = fix := Except.ok.inj (hplan.symm.trans hfix)
  rw [hstages.out_eq, completeCure, judgedOut, hfixed]

/-- The place of the second call of a sample, on a database where the trace is open. -/
theorem regates_sample {payload cure : Dict} {db' : Db} {first : GateOut}
    (h : runGate sampleKey (sampleWith samplePolicy) (sampleGateArgs "note" payload)
      sampleGateFresh = .ok (db', first)) :
    Regates (sampleWith samplePolicy) (sampleGateArgs "note" payload) first cure (sampleAdvised [])
      { sampleGateArgs "note" cure with traceId := some (Uuid.ofNat 1) } sampleGateFresh where
  org_eq := rfl
  action_eq := rfl
  version_eq := rfl
  trace_eq := congrArg some (runGate_eq_ok h).traceId_eq.symm
  output_eq := rfl
  policies_eq := rfl
  packs_eq := rfl
  orgPacks_eq := rfl
  stocked := stocked_sampleAdvised []
  index := ⟨List.nodup_nil, List.nodup_nil, List.forall_mem_nil _⟩
  fits := {
    org := rfl
    trace := by
      intro t ht _
      obtain rfl := List.mem_singleton.mp ht
      rfl
    named := show PyText.isBlank "note" = false by decide
    texts := show textOk "note" = true ∧ optTextOk none = true by decide
    remediated := ⟨none, rfl⟩
    event := List.forall_mem_nil _
    output := List.forall_mem_nil _
    distinct := by decide
    summary := List.forall_mem_nil _
    approval := List.forall_mem_nil _
    wraps := by
      intro pem hpem
      cases hpem }

/-- A flagged note with an address, and the gate call on its redaction. -/
theorem exists_flagged_sample {payload cure : Dict} {verdict : RiskTier × Bool}
    (hverdict : verdictOn (sampleWith samplePolicy) sampleOrg "note" payload none = .ok verdict)
    (hstatus : statusOn (sampleWith samplePolicy) sampleOrg "note" payload samplePolicy =
      .ok .flagged)
    (hcure : sampleCure payload = .ok (some (cure, .deterministic))) :
    ∃ db' first, runGate sampleKey (sampleWith samplePolicy) (sampleGateArgs "note" payload)
      sampleGateFresh = .ok (db', first) ∧ first.status = .flagged ∧
        completeCure first = some (cure, .deterministic) := by
  obtain ⟨db', first, hgate⟩ := exists_gate_sample sampleKey rfl (by decide) (by decide)
    (Judges.of_verdict rfl hverdict)
  have hpolicy : selectPolicy (sampleWith samplePolicy) "acme" none = some samplePolicy := rfl
  exact ⟨db', first, hgate, Except.ok.inj ((runGate_statusOn hgate hpolicy).symm.trans hstatus),
    completeCure_sample hgate hcure⟩

/-- The redaction of a note is compliant. -/
theorem cure_cures_sample : ∃ db₃ second, runGate sampleKey (sampleAdvised [])
    { sampleGateArgs "note" (sampleMail "[REDACTED:email]" []) with
      traceId := some (Uuid.ofNat 1) } sampleGateFresh = .ok (db₃, second) ∧
        second.status = .compliant := by
  have hverdict : verdictOn (sampleWith samplePolicy) sampleOrg "note" (sampleMail "a@b.ae" [])
      none = .ok (.orange, true) := by
    decide +kernel
  have hcure : sampleCure (sampleMail "a@b.ae" []) =
      .ok (some (sampleMail "[REDACTED:email]" [], .deterministic)) := by
    decide +kernel
  obtain ⟨db', first, hgate, hflagged, hcure⟩ := exists_flagged_sample hverdict
    (by decide +kernel) hcure
  obtain ⟨policy, hpolicy, -, hstatus⟩ := cure_status hgate hflagged hcure
  obtain rfl : samplePolicy = policy := Option.some.inj hpolicy
  exact (cure_cures_iff hgate hflagged hcure (regates_sample hgate)).mpr
    (hstatus.mp (by decide +kernel))

/-- A note with an address and a high amount : its redaction is offered as complete, and
flagged for the amount. -/
theorem high_amount_stays_flagged : ¬∀ (db db' : Db) (args : GateArgs) (fresh : GateFresh)
    (first : GateOut) (cure : Dict) (kind : CureKind) (db₂ : Db) (args₂ : GateArgs)
    (fresh₂ : GateFresh), runGate sampleKey db args fresh = .ok (db', first) →
      first.status = .flagged → completeCure first = some (cure, kind) →
        Regates db args first cure db₂ args₂ fresh₂ → ∃ db₃ second,
          runGate sampleKey db₂ args₂ fresh₂ = .ok (db₃, second) ∧ second.status = .compliant := by
  intro hclaim
  have hverdict : verdictOn (sampleWith samplePolicy) sampleOrg "note"
      (sampleMail "a@b.ae" [("amount_aed", .int 250000)]) none = .ok (.orange, true) := by
    decide +kernel
  have hcure : sampleCure (sampleMail "a@b.ae" [("amount_aed", .int 250000)]) = .ok (some
      (sampleMail "[REDACTED:email]" [("amount_aed", .int 250000)], .deterministic)) := by
    decide +kernel
  obtain ⟨db', first, hgate, hflagged, hcure⟩ := exists_flagged_sample hverdict
    (by decide +kernel) hcure
  obtain ⟨db₃, second, hsecond, hcompliant⟩ := hclaim _ _ _ _ _ _ _ _ _ _ hgate hflagged hcure
    (regates_sample hgate)
  have hpolicy : selectPolicy (sampleAdvised []) "acme" none = some samplePolicy := rfl
  have hstatus := runGate_statusOn hsecond hpolicy
  rw [hcompliant] at hstatus
  have hstays : statusOn (sampleAdvised []) sampleOrg "note"
      (sampleMail "[REDACTED:email]" [("amount_aed", .int 250000)]) samplePolicy =
        .ok .flagged := by
    decide +kernel
  cases hstays.symm.trans hstatus

end Samples

end Attest
