import Attest.Precheck

/-!
# The evaluator of the client

The client carries a copy of the policy evaluator (`evaluateLocal`), and a bundle of rules to
judge by while the service is out of reach (`OfflineBundle.evaluate`). The copy differs from
the evaluator of the service in three places : it finds a phone number only where no
separators are in it (`localPhoneAe`), it reads the classifier's hint from one field alone
(`localHintKeys`), and where no rule matched it denies what the layers raise to red
(`localEvaluation`).

A bundle is evaluated where the amount is one a float can hold, the policy is read and not
refused, and the rules of the packs can be gone through (`OfflineBundle.evaluate_succeeds`).
-/

namespace Attest

/-! ## Features -/

open Regex in
/-- `\b(?:\+?971|0)5\d{8}\b`. -/
def localPhoneAe : Regex :=
  seqs [.bound, .alt (seqs ([.opt (.cls (.lit '+'))] ++ lit "971")) (.cls (.lit '0')),
    .cls (.lit '5'), rep digit 7, .bound]

/-- `PATTERNS` of the client. -/
def localPatterns : List LabelledPattern :=
  [("emirates_id", emiratesId), ("iban_ae", ibanAe), ("email", email), ("phone_ae", localPhoneAe)]

/-- Where the client reads a payload's classifier hint from. -/
def localHintKeys : List String := ["_classifier_tier"]

/-! ## The evaluation of a policy -/

structure LocalEvaluation where
  tier : RiskTier
  decision : PolicyDecision
  allowed : Bool
  reasons : List String
  ruleId : Option String
  riskScore : Int
  mitigations : List String
deriving DecidableEq

/-- The evaluation for the rule that matched and the layers that reported. -/
def localEvaluation (layers : List LayerResult) (failMode : String) :
    Option RuleHit → LocalEvaluation
  | some hit =>
    let tier := maxTier (layerFloorTier layers) hit.tier
    { tier := tier
      decision := hit.decision
      allowed := decisionAllowed tier hit.decision failMode
      reasons := [hit.reason]
      ruleId := some hit.ruleId
      riskScore := tierScore tier
      mitigations := mitigationsByTier tier }
  | none =>
    let tier := layerFloorTier layers
    { tier := tier
      decision := defaultDecision tier
      allowed := decisionAllowed tier (defaultDecision tier) failMode
      reasons := unmatchedReasons layers
      ruleId := none
      riskScore := tierScore tier
      mitigations := mitigationsByTier tier }

/-- `evaluation.tier in ESCALATION_TIERS or not evaluation.allowed`. -/
def needsServerEscalation (evaluation : LocalEvaluation) : Bool :=
  evaluation.tier = .orange || evaluation.tier = .red || !evaluation.allowed

section Evaluate

variable [PyUnicode]

/-- `extract_features(action, payload)` of the client. -/
def localFeatures (action : String) (payload : Dict) : Except PyError FeatureVector :=
  extractFeaturesWith localPatterns action payload

/-- `evaluate_local(..)`. -/
def evaluateLocal (action : String) (payload rulesDoc : Dict) (failMode : String) :
    Except PyError LocalEvaluation := do
  let features ← localFeatures action payload
  let hit ← firstMatchingRule localHintKeys action payload features rulesDoc
  return localEvaluation (runDeterministicLayers features) failMode hit

/-- The features can be read, and the policy is evaluated and not refused. -/
def LocalReads (action : String) (payload rulesDoc : Dict) : Prop :=
  AmountFits payload ∧ ∀ features, localFeatures action payload = .ok features →
    DocReads localHintKeys action payload features rulesDoc ∧
      ¬ DocRejected localHintKeys action payload features rulesDoc

theorem evaluateLocal_succeeds {action : String} {payload rulesDoc : Dict} {failMode : String} :
    (evaluateLocal action payload rulesDoc failMode).succeeds = true ↔
      LocalReads action payload rulesDoc := by
  have hfeatures : (localFeatures action payload).succeeds = true ↔ AmountFits payload :=
    extractFeatures_succeeds
  have hrule (features : FeatureVector) : (do
      let hit ← firstMatchingRule localHintKeys action payload features rulesDoc
      return localEvaluation (runDeterministicLayers features) failMode hit :
        Except PyError LocalEvaluation).succeeds = true ↔
      DocReads localHintKeys action payload features rulesDoc ∧
        ¬ DocRejected localHintKeys action payload features rulesDoc := by
    rw [← (firstMatchingRule_ends rulesDoc).succeeds_iff, Except.succeeds_bind,
      Except.succeeds_iff]
    exact exists_congr fun hit => and_iff_left rfl
  rw [evaluateLocal, Except.succeeds_bind, LocalReads, ← hfeatures, Except.succeeds_iff]
  constructor
  · rintro ⟨features, hread, h⟩
    refine ⟨⟨features, hread⟩, fun features' hread' => ?_⟩
    obtain rfl := Except.ok.inj (hread.symm.trans hread')
    exact (hrule features).mp h
  · rintro ⟨⟨features, hread⟩, h⟩
    exact ⟨features, hread, (hrule features).mpr (h features hread)⟩

end Evaluate

/-! ## The cached bundle -/

/-- A pack of the bundle. `rules` is what its document has under that key. -/
structure OfflinePack where
  code : String
  jurisdiction : String
  instrument : String
  verificationStatus : String
  sourceUrl : Option String
  rules : JVal

/-- `OfflineBundle.data`. -/
structure OfflineBundle where
  policyVersion : Option String
  policyRules : Dict
  packs : List OfflinePack
  failMode : String

/-- The bundle of a client that was never served one. -/
def OfflineBundle.empty : OfflineBundle where
  policyVersion := none
  policyRules := []
  packs := []
  failMode := "deny_on_error"

/-- `is_empty`. -/
def OfflineBundle.isEmpty (bundle : OfflineBundle) : Bool :=
  bundle.policyRules.isEmpty && bundle.packs.isEmpty

/-- A finding of `_pack_findings`. Its `enforcement` is `"advisory"` and its `advisory_only` is
true always. -/
structure OfflineFinding where
  packCode : String
  jurisdiction : String
  instrument : String
  ruleId : JVal
  tier : RiskTier
  reason : JVal
  topic : JVal
  provision : JVal
  guidance : JVal
  sourceUrl : Option String
  verificationStatus : String

/-- What `evaluate` answers. -/
structure OfflineVerdict where
  status : Status
  allowed : Bool
  tier : Option RiskTier
  reasons : List String
  findings : List OfflineFinding
  jurisdictions : List String
  policyVersion : Option String

/-- What a `for` loop over a JSON value goes through. -/
def iterate : JVal → Except PyError (List JVal)
  | .arr items => .ok items
  | .obj items => .ok (items.map fun item => .str item.1)
  | .str text => .ok (text.toList.map fun c => .str (String.singleton c))
  | _ => .error .typeError

def offlineFinding (pack : OfflinePack) (rule : Dict) (tier : RiskTier) : OfflineFinding where
  packCode := pack.code
  jurisdiction := pack.jurisdiction
  instrument := pack.instrument
  ruleId := rule.get "id"
  tier := tier
  reason := rule.getD "reason" (.str "")
  topic := rule.get "topic"
  provision := rule.get "provision"
  guidance := rule.get "guidance"
  sourceUrl := pack.sourceUrl
  verificationStatus := pack.verificationStatus

namespace OfflineBundle

variable [PyUnicode]

/-- One rule of a pack : what its clauses raise is skipped, what looking its tier up raises is
not. -/
def ruleFinding (action : String) (payload : Dict) (features : FeatureVector) (pack : OfflinePack)
    (rule : JVal) : Except PyError (Option OfflineFinding) := do
  let tier ← packRuleTier action payload features localHintKeys rule
  return match rule, tier with
    | .obj rule, some tier => some (offlineFinding pack rule tier)
    | _, _ => none

def findingsOf (action : String) (payload : Dict) (features : FeatureVector) (pack : OfflinePack) :
    Except PyError (List OfflineFinding) := do
  let rules ← iterate pack.rules
  let found ← rules.mapM (ruleFinding action payload features pack)
  return found.filterMap id

/-- `_pack_findings(action, payload)`. -/
def packFindings (bundle : OfflineBundle) (action : String) (payload : Dict) :
    Except PyError (List OfflineFinding) := do
  let features ← localFeatures action payload
  let found ← bundle.packs.mapM (findingsOf action payload features)
  return found.flatten.insertionSort fun f g => g.tier.rank ≤ f.tier.rank

/-- The verdict for an evaluation of the policy and findings of the packs. -/
def verdict (bundle : OfflineBundle) (own : LocalEvaluation) (findings : List OfflineFinding) :
    OfflineVerdict :=
  let tier := findings.foldl (fun tier f => maxTier tier f.tier) own.tier
  { status := deriveStatus own.allowed tier findings
    allowed := own.allowed
    tier := some tier
    reasons := own.reasons
    findings := findings
    jurisdictions := dedupFirst (findings.map OfflineFinding.jurisdiction)
    policyVersion := givenText bundle.policyVersion }

/-- `evaluate(action, payload)`. -/
def evaluate (bundle : OfflineBundle) (action : String) (payload : Dict) :
    Except PyError OfflineVerdict :=
  if bundle.isEmpty then
    .ok {
      status := .unevaluated
      allowed := true
      tier := none
      reasons := ["No cached rules available offline; output recorded only."]
      findings := []
      jurisdictions := []
      policyVersion := none }
  else do
    let own ← evaluateLocal action payload bundle.policyRules bundle.failMode
    let findings ← bundle.packFindings action payload
    return bundle.verdict own findings

/-- The rules of a pack can be gone through, and the tier of each can be looked up. -/
def PackReads (pack : OfflinePack) : Prop :=
  ∃ rules, iterate pack.rules = .ok rules ∧ ∀ rule, JVal.obj rule ∈ rules →
    hashable (ruleTier rule) = true

/-- What evaluating the bundle reads. -/
def Reads (bundle : OfflineBundle) (action : String) (payload : Dict) : Prop :=
  LocalReads action payload bundle.policyRules ∧ ∀ pack ∈ bundle.packs, PackReads pack

theorem findingsOf_succeeds {action : String} {payload : Dict} {features : FeatureVector}
    {pack : OfflinePack} : (findingsOf action payload features pack).succeeds = true ↔
      PackReads pack := by
  have hfinding (rule : JVal) : (ruleFinding action payload features pack rule).succeeds = true ↔
      ∀ r, rule = .obj r → hashable (ruleTier r) = true := by
    rw [ruleFinding, Except.succeeds_bind, ← packRuleTier_succeeds, Except.succeeds_iff]
    exact exists_congr fun tier => and_iff_left rfl
  have hrules (rules : List JVal) : (do
      let found ← rules.mapM (ruleFinding action payload features pack)
      return found.filterMap id : Except PyError (List OfflineFinding)).succeeds = true ↔
        ∀ r, JVal.obj r ∈ rules → hashable (ruleTier r) = true := by
    have hmap : (∃ found, rules.mapM (ruleFinding action payload features pack) = .ok found) ↔
        ∀ r, JVal.obj r ∈ rules → hashable (ruleTier r) = true := by
      rw [← Except.succeeds_iff, Except.succeeds_mapM]
      simp only [hfinding]
      exact ⟨fun h r hr => h _ hr r rfl, fun h v hv r hvr => h r (hvr ▸ hv)⟩
    rw [Except.succeeds_bind, ← hmap]
    exact exists_congr fun found => and_iff_left rfl
  rw [findingsOf, Except.succeeds_bind, PackReads]
  exact exists_congr fun rules => and_congr_right fun _ => hrules rules

/-- A bundle is evaluated where it is empty, and else where all of it is read. -/
theorem evaluate_succeeds {bundle : OfflineBundle} {action : String} {payload : Dict} :
    (bundle.evaluate action payload).succeeds = true ↔
      (bundle.isEmpty = false → bundle.Reads action payload) := by
  unfold evaluate
  cases hempty : bundle.isEmpty with
  | true => simp [Except.succeeds]
  | false =>
    have hpacks (features : FeatureVector) : (do
        let found ← bundle.packs.mapM (findingsOf action payload features)
        return found.flatten.insertionSort fun f g => g.tier.rank ≤ f.tier.rank :
          Except PyError (List OfflineFinding)).succeeds = true ↔
            ∀ pack ∈ bundle.packs, PackReads pack := by
      have hmap : (∃ found, bundle.packs.mapM (findingsOf action payload features) = .ok found) ↔
          ∀ pack ∈ bundle.packs, PackReads pack := by
        rw [← Except.succeeds_iff, Except.succeeds_mapM]
        simp only [findingsOf_succeeds]
      rw [Except.succeeds_bind, ← hmap]
      exact exists_congr fun found => and_iff_left rfl
    have hfeatures : (∃ features, localFeatures action payload = .ok features) ↔
        AmountFits payload := by
      rw [← Except.succeeds_iff]
      exact extractFeatures_succeeds
    have hfindings : (bundle.packFindings action payload).succeeds = true ↔
        AmountFits payload ∧ ∀ pack ∈ bundle.packs, PackReads pack := by
      rw [packFindings, Except.succeeds_bind, ← hfeatures]
      simp only [hpacks, exists_and_right]
    rw [if_neg Bool.false_ne_true, Except.succeeds_bind, Reads, ← evaluateLocal_succeeds,
      Except.succeeds_iff]
    constructor
    · rintro ⟨own, hown, h⟩ -
      have hread := (Except.succeeds_bind.mp h)
      obtain ⟨findings, hfound, -⟩ := hread
      exact ⟨⟨own, hown⟩, (hfindings.mp (Except.succeeds_iff.mpr ⟨findings, hfound⟩)).2⟩
    · intro h
      obtain ⟨⟨own, hown⟩, hall⟩ := h rfl
      have hamount : AmountFits payload :=
        (evaluateLocal_succeeds.mp (Except.succeeds_iff.mpr ⟨own, hown⟩)).1
      obtain ⟨findings, hfound⟩ := Except.succeeds_iff.mp (hfindings.mpr ⟨hamount, hall⟩)
      exact ⟨own, hown, Except.succeeds_bind.mpr ⟨findings, hfound, rfl⟩⟩

end OfflineBundle

end Attest
