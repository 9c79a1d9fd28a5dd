import Attest.FastPath

/-!
# The verdict of the bundle

The bundle endpoint ships the active policy and the enabled packs (`offlineBundle`), so that an
output does not get one answer while the service is up and another while it is down. On an
output that carries the same signals for both evaluators the two verdicts have one status, one
tier, and allow the same, exactly where a policy is active or no pack is enabled, the bundle is
not empty under a policy, and it is not that no rule matched a transfer across borders without a
lawful basis (`offline_agrees_iff`) : the client then denies what the service only flags.
-/

set_option linter.unusedSectionVars false

namespace Attest

/-! ## The bundle endpoint -/

/-- `(pack.rules or {}).get("rules", [])`. -/
def servedRules : JVal → Except PyError JVal
  | .obj doc => .ok (Dict.getD doc "rules" (.arr []))
  | v => if v.truthy then .error .attributeError else .ok (.arr [])

def servedPack (p : RegulationPack × String) : Except PyError OfflinePack := do
  let rules ← servedRules p.1.rules
  return ⟨p.1.code, p.1.jurisdiction, p.1.instrument, p.1.verificationStatus, p.1.sourceUrl, rules⟩

/-- `offline_bundle(org, db)`. -/
def offlineBundle (db : Db) (org : Org) : Except PyError OfflineBundle := do
  let policy := db.getActivePolicy org.id
  let packs ← (activePacksForOrg db org.id).mapM servedPack
  return {
    policyVersion := policy.map Policy.version
    policyRules := (policy.map Policy.rules).getD []
    packs := packs
    failMode := org.failMode }

section Signals

variable [PyUnicode]

/-- Both evaluators find personal data or neither does, and they read one hint. -/
structure SameSignals (payload : Dict) : Prop where
  pii : sortedSet (scanItems localPatterns payload) = [] ↔ detectPiiLabels payload = []
  hint : classifierHint payload localHintKeys = classifierHint payload serverHintKeys

/-- Features that differ in the labels alone. -/
def SameButLabels (f f' : FeatureVector) : Prop :=
  f' = { f with piiLabels := f'.piiLabels }

theorem SameSignals.features {action : String} {payload : Dict} (h : SameSignals payload)
    {seen features : FeatureVector} (hseen : localFeatures action payload = .ok seen)
    (hfeatures : extractFeatures action payload = .ok features) : SameButLabels features seen := by
  simp only [localFeatures, extractFeatures, extractFeaturesWith, Except.bind_eq_ok,
    Except.pure_eq, Except.ok.injEq] at hseen hfeatures
  obtain ⟨amount, hamount, rfl⟩ := hseen
  obtain ⟨amount', hamount', rfl⟩ := hfeatures
  obtain rfl := Except.ok.inj (hamount.symm.trans hamount')
  have hpii : (sortedSet (scanItems localPatterns payload)).isEmpty =
      (sortedSet (scanItems patterns payload)).isEmpty := by
    rw [Bool.eq_iff_iff, List.isEmpty_iff, List.isEmpty_iff]
    exact h.pii
  simp only [SameButLabels, hpii]

/-! ## What the evaluators share -/

theorem layerFloorTier_labels {f f' : FeatureVector} (h : SameButLabels f f') :
    layerFloorTier (runDeterministicLayers f') = layerFloorTier (runDeterministicLayers f) := by
  have htiers (f : FeatureVector) : layerFloorTier (runDeterministicLayers f) =
      ([piiLayer f, citationsLayer f, prohibitedPhrasesLayer f, crossBorderLayer f,
        highValueLayer f].filterMap (Option.map LayerResult.tier)).foldl maxTier .green := by
    rw [layerFloorTier, ← List.foldl_map, runDeterministicLayers, List.map_filterMap]
    rfl
  have hpii : (piiLayer f').map LayerResult.tier = (piiLayer f).map LayerResult.tier := by
    rw [h]
    unfold piiLayer
    cases f.hasPii <;> rfl
  have hrest : [citationsLayer f', prohibitedPhrasesLayer f', crossBorderLayer f',
      highValueLayer f'] = [citationsLayer f, prohibitedPhrasesLayer f, crossBorderLayer f,
        highValueLayer f] := by
    rw [h]
    rfl
  have hfirst (layer : Option LayerResult) (layers : List (Option LayerResult)) :
      (layer :: layers).filterMap (Option.map LayerResult.tier) =
        (layer.map LayerResult.tier).toList ++ layers.filterMap (Option.map LayerResult.tier) := by
    cases layer <;> rfl
  rw [htiers, htiers, hfirst, hfirst (piiLayer f), hpii, hrest]

theorem ruleMatches_signals {action : String} {payload : Dict} (h : SameSignals payload)
    {f f' : FeatureVector} (hf : SameButLabels f f') (rule : Dict) :
    ruleMatches localHintKeys action payload f' rule =
      ruleMatches serverHintKeys action payload f rule := by
  rw [hf]
  unfold ruleMatches matchesClassifier
  rw [h.hint]
  rfl

theorem walkRules_signals {action : String} {payload : Dict} (h : SameSignals payload)
    {f f' : FeatureVector} (hf : SameButLabels f f') : ∀ rules : List (JVal × Nat),
      walkRules localHintKeys action payload f' rules =
        walkRules serverHintKeys action payload f rules
  | [] => rfl
  | (v, index) :: rest => by
    cases v with
    | obj rule => simp only [walkRules, ruleMatches_signals h hf, walkRules_signals h hf rest]
    | _ => rfl

theorem firstMatchingRule_signals {action : String} {payload : Dict} (h : SameSignals payload)
    {f f' : FeatureVector} (hf : SameButLabels f f') (rulesDoc : Dict) :
    firstMatchingRule localHintKeys action payload f' rulesDoc =
      firstMatchingRule serverHintKeys action payload f rulesDoc := by
  unfold firstMatchingRule
  simp only [walkRules_signals h hf]

/-- The tier that a rule of a pack cites. -/
def citedTier (action : String) (payload : Dict) (features : FeatureVector)
    (hintKeys : List String) : JVal → Option RiskTier
  | .obj rule =>
    match namedTier (ruleTier rule), ruleMatches hintKeys action payload features rule with
    | some tier, .ok true => some tier
    | _, _ => none
  | _ => none

theorem packRuleTier_cites {action : String} {payload : Dict} {features : FeatureVector}
    {hintKeys : List String} {v : JVal} {found : Option RiskTier}
    (h : packRuleTier action payload features hintKeys v = .ok found) :
    found = citedTier action payload features hintKeys v := by
  cases v with
  | obj rule =>
    simp only [packRuleTier, Except.bind_eq_ok] at h
    obtain ⟨valid, hvalid, h⟩ := h
    rw [readTier_eq_ok hvalid] at h
    simp only [citedTier]
    cases hnamed : namedTier (ruleTier rule) with
    | none =>
      rw [hnamed] at h
      exact (Except.ok.inj h).symm
    | some t =>
      rw [hnamed] at h
      obtain rfl := Except.ok.inj h
      cases hmatch : ruleMatches hintKeys action payload features rule with
      | error e => rfl
      | ok hit => cases hit <;> rfl
  | _ => exact (Except.ok.inj h).symm

theorem citedTier_signals {action : String} {payload : Dict} (h : SameSignals payload)
    {f f' : FeatureVector} (hf : SameButLabels f f') (v : JVal) :
    citedTier action payload f' localHintKeys v = citedTier action payload f serverHintKeys v := by
  cases v with
  | obj rule => simp only [citedTier, ruleMatches_signals h hf]
  | _ => rfl

/-- The tiers that the packs of an organisation cite. -/
def citedTiers (action : String) (payload : Dict) (features : FeatureVector)
    (packs : List (RegulationPack × String)) : List RiskTier :=
  packs.flatMap fun p =>
    (packRules p.1.rules).filterMap (citedTier action payload features serverHintKeys)

theorem tiers_citedFindings (action : String) (payload : Dict) (features : FeatureVector) (db : Db)
    (orgId : String) : (citedFindings action payload features db orgId).map PackFinding.tier =
      citedTiers action payload features (activePacksForOrg db orgId) := by
  have htier (p : RegulationPack × String) (v : JVal) :
      (citedFinding action payload features p.1 p.2 v).map PackFinding.tier =
        citedTier action payload features serverHintKeys v := by
    cases v with
    | obj rule =>
      simp only [citedFinding, citedTier]
      cases namedTier (ruleTier rule) with
      | none => rfl
      | some tier =>
        cases ruleMatches serverHintKeys action payload features rule with
        | error e => rfl
        | ok hit => cases hit <;> rfl
    | _ => rfl
  simp only [citedFindings, citedTiers, List.map_flatMap, List.map_filterMap, htier]

/-- The values of a list. -/
def listed : JVal → List JVal
  | .arr items => items
  | _ => []

/-- Going through what is no list yields texts alone, and a text cites nothing. -/
theorem filterMap_iterate {g : JVal → Option RiskTier} (hg : ∀ text, g (.str text) = none)
    {v : JVal} {rules : List JVal} (h : iterate v = .ok rules) :
    rules.filterMap g = (listed v).filterMap g := by
  have hnone {α : Type} (f : α → String) (items : List α) :
      (items.map fun item => JVal.str (f item)).filterMap g = [] := by
    rw [List.filterMap_map, List.filterMap_eq_nil_iff]
    exact fun item _ => hg (f item)
  cases v with
  | arr items =>
    obtain rfl := Except.ok.inj h
    rfl
  | obj items =>
    obtain rfl := Except.ok.inj h
    exact hnone Prod.fst items
  | str text =>
    obtain rfl := Except.ok.inj h
    exact hnone String.singleton text.toList
  | _ => cases h

/-- What the endpoint serves of a pack lists the rules of the pack. -/
theorem listed_servedRules {v w : JVal} (h : servedRules v = .ok w) : listed w = packRules v := by
  have hempty (hserved : servedRules v = .ok (.arr [])) : listed w = [] := by
    obtain rfl := Except.ok.inj (hserved.symm.trans h)
    rfl
  cases v with
  | obj doc =>
    obtain rfl := Except.ok.inj h
    simp only [packRules, Dict.get, Dict.getD]
    cases hget : Dict.get? doc "rules" with
    | none => rfl
    | some found => cases found <;> rfl
  | _ =>
    refine hempty ?_
    simp only [servedRules] at h ⊢
    split at h
    · cases h
    · rename_i htruthy
      rw [if_neg htruthy]

/-- The findings of one pack of the bundle have the tiers that the pack cites. -/
theorem findingsOf_tiers {action : String} {payload : Dict} (h : SameSignals payload)
    {f f' : FeatureVector} (hf : SameButLabels f f') {p : RegulationPack × String}
    {pack : OfflinePack} {found : List OfflineFinding} (hserved : servedPack p = .ok pack)
    (hfound : OfflineBundle.findingsOf action payload f' pack = .ok found) :
    found.map OfflineFinding.tier =
      (packRules p.1.rules).filterMap (citedTier action payload f serverHintKeys) := by
  simp only [servedPack, Except.bind_eq_ok, Except.pure_eq, Except.ok.injEq] at hserved
  obtain ⟨w, hw, rfl⟩ := hserved
  simp only [OfflineBundle.findingsOf, Except.bind_eq_ok, Except.pure_eq, Except.ok.injEq] at hfound
  obtain ⟨rules, hrules, founds, hfounds, rfl⟩ := hfound
  have hrule {pack : OfflinePack} (v : JVal) (found : Option OfflineFinding)
      (hfinding : OfflineBundle.ruleFinding action payload f' pack v = .ok found) :
      found.map OfflineFinding.tier = citedTier action payload f serverHintKeys v := by
    simp only [OfflineBundle.ruleFinding, Except.bind_eq_ok, Except.pure_eq,
      Except.ok.injEq] at hfinding
    obtain ⟨tier, htier, rfl⟩ := hfinding
    rw [← citedTier_signals h hf, ← packRuleTier_cites htier]
    cases v with
    | obj rule => cases tier <;> rfl
    | _ =>
      obtain rfl := Except.ok.inj htier
      rfl
  rw [← listed_servedRules hw, ← filterMap_iterate (fun _ => rfl) hrules, List.map_filterMap]
  have hsteps := Except.mapM_eq_ok.mp hfounds
  clear hfounds hrules
  induction hsteps with
  | nil => rfl
  | @cons v found rules founds hfinding _ ih =>
    rw [List.filterMap_cons, List.filterMap_cons, id, ← hrule v found hfinding, ih]

/-- The findings of the bundle have the tiers that the packs cite. -/
theorem packFindings_tiers {action : String} {payload : Dict} (h : SameSignals payload)
    {f : FeatureVector} (hf : extractFeatures action payload = .ok f)
    {ps : List (RegulationPack × String)} {bundle : OfflineBundle}
    (hpacks : ps.mapM servedPack = .ok bundle.packs) {findings : List OfflineFinding}
    (hfindings : bundle.packFindings action payload = .ok findings) :
    (findings.map OfflineFinding.tier).Perm (citedTiers action payload f ps) := by
  simp only [OfflineBundle.packFindings, Except.bind_eq_ok, Except.pure_eq,
    Except.ok.injEq] at hfindings
  obtain ⟨seen, hseen, founds, hfounds, rfl⟩ := hfindings
  have hsame := h.features hseen hf
  refine ((List.perm_insertionSort _ _).map _).trans (List.Perm.of_eq ?_)
  have hserved := Except.mapM_eq_ok.mp hpacks
  have hsteps := Except.mapM_eq_ok.mp hfounds
  clear hpacks hfounds
  generalize bundle.packs = packs at hserved hsteps
  induction hserved generalizing founds with
  | nil =>
    cases hsteps
    rfl
  | @cons p pack ps packs hserved _ ih =>
    cases hsteps with
    | cons hfound hsteps =>
      rw [List.flatten_cons, List.map_append, ih _ hsteps, findingsOf_tiers h hsame hserved hfound]
      rfl

end Signals

/-! ## The two verdicts -/

section Verdicts

/-- Tiers combine to one tier in any order. -/
theorem foldl_maxTier_perm {ts ts' : List RiskTier} (h : ts.Perm ts') (t : RiskTier) :
    ts.foldl maxTier t = ts'.foldl maxTier t := by
  have hcomm : RightCommutative maxTier :=
    ⟨fun s t u => by rw [maxTier_assoc, maxTier_comm t u, ← maxTier_assoc]⟩
  exact h.foldl_eq t

theorem localEvaluation_tier {layers layers' : List LayerResult} (failMode : String)
    (hfloor : layerFloorTier layers' = layerFloorTier layers) :
    ∀ hit : Option RuleHit, (localEvaluation layers' failMode hit).tier =
      (joinOutput layers failMode hit).tier
  | some hit => congrArg (maxTier · hit.tier) hfloor
  | none => hfloor

/-- The client allows what the service allows, but for what no rule matched under a red floor. -/
theorem localEvaluation_allowed {layers layers' : List LayerResult} {failMode : String}
    (hfloor : layerFloorTier layers' = layerFloorTier layers) :
    ∀ {hit : Option RuleHit}, (localEvaluation layers' failMode hit).allowed =
      (joinOutput layers failMode hit).allowed ↔ ¬(hit = none ∧ layerFloorTier layers = .red)
  | some _ => by simp [localEvaluation, joinOutput, hfloor]
  | none => by
    cases hred : layerFloorTier layers <;>
      simp [localEvaluation, joinOutput, hfloor, hred, decisionAllowed, defaultDecision]

/-- The two verdicts agree on the status, on the tier and on what they allow. -/
structure SameVerdict (verdict : OfflineVerdict) (out : GateOut) : Prop where
  status : verdict.status = out.status
  allowed : verdict.allowed = out.allowed
  tier : verdict.tier = out.tier

variable [PyUnicode]

/-- A policy is active or no pack is enabled; under a policy there is something to evaluate, and
it is not that no rule matched a transfer without a lawful basis. -/
def BundleFaithful (db : Db) (org : Org) (action : String) (payload : Dict) : Prop :=
  match db.getActivePolicy org.id with
  | none => activePacksForOrg db org.id = []
  | some policy => (policy.rules ≠ [] ∨ activePacksForOrg db org.id ≠ []) ∧
      ∀ features, extractFeatures action payload = .ok features →
        firstMatchingRule serverHintKeys action payload features policy.rules = .ok none →
          ¬features.NoLawfulBasis

/-- What a bundle of the endpoint holds. -/
structure Bundled (db : Db) (org : Org) (bundle : OfflineBundle) : Prop where
  packs : (activePacksForOrg db org.id).mapM servedPack = .ok bundle.packs
  rules : bundle.policyRules = ((db.getActivePolicy org.id).map Policy.rules).getD []
  failMode : bundle.failMode = org.failMode

theorem offlineBundle_eq_ok {db : Db} {org : Org} {bundle : OfflineBundle}
    (h : offlineBundle db org = .ok bundle) : Bundled db org bundle := by
  simp only [offlineBundle, Except.bind_eq_ok, Except.pure_eq, Except.ok.injEq] at h
  obtain ⟨packs, hpacks, rfl⟩ := h
  exact ⟨hpacks, rfl, rfl⟩

theorem Bundled.packs_eq_nil {db : Db} {org : Org} {bundle : OfflineBundle}
    (h : Bundled db org bundle) : bundle.packs = [] ↔ activePacksForOrg db org.id = [] := by
  have hlength := (Except.mapM_eq_ok.mp h.packs).length_eq
  rw [← List.length_eq_zero_iff, ← List.length_eq_zero_iff, hlength]

/-- A bundle has nothing to judge by where there is no policy with content and no pack. -/
theorem Bundled.isEmpty {db : Db} {org : Org} {bundle : OfflineBundle}
    (h : Bundled db org bundle) : bundle.isEmpty = true ↔
      ((db.getActivePolicy org.id).map Policy.rules).getD [] = [] ∧
        activePacksForOrg db org.id = [] := by
  rw [OfflineBundle.isEmpty, Bool.and_eq_true, List.isEmpty_iff, List.isEmpty_iff, h.packs_eq_nil,
    h.rules]

variable [SignatureScheme] [KeyWrapping] {svc : SigningKeyPair} {db db' : Db} {args : GateArgs}
  {fresh : GateFresh} {out : GateOut} {bundle : OfflineBundle} {verdict : OfflineVerdict}

/-- Without a policy the service records and evaluates nothing, and the bundle judges by the
packs alone. -/
theorem unevaluated_agrees_iff (hbundle : Bundled db args.org bundle)
    (hverdict : bundle.evaluate args.action args.output = .ok verdict)
    (hnone : db.getActivePolicy args.org.id = none)
    (hout : ∃ event, out = unevaluatedOut args (gateTrace args fresh) event) :
    SameVerdict verdict out ↔ activePacksForOrg db args.org.id = [] := by
  obtain ⟨event, rfl⟩ := hout
  have hempty : bundle.isEmpty = true ↔ activePacksForOrg db args.org.id = [] := by
    rw [hbundle.isEmpty, hnone]
    exact and_iff_right rfl
  rw [← hempty]
  unfold OfflineBundle.evaluate at hverdict
  split at hverdict
  · rename_i hblank
    obtain rfl := Except.ok.inj hverdict
    exact iff_of_true ⟨rfl, rfl, rfl⟩ hblank
  · rename_i hjudges
    simp only [Except.bind_eq_ok, Except.pure_eq, Except.ok.injEq] at hverdict
    obtain ⟨own, -, findings, -, rfl⟩ := hverdict
    refine iff_of_false (fun hsame => ?_) hjudges
    cases hsame.tier

/-- Under a policy the verdicts differ where the bundle is empty, and where the client denies what
the service flags. -/
theorem evaluated_agrees_iff {policy : Policy} {d : DecisionOut} {event : EventOut} {db₁ db₂ : Db}
    (hbundle : Bundled db args.org bundle)
    (hverdict : bundle.evaluate args.action args.output = .ok verdict)
    (hpolicy : db.getActivePolicy args.org.id = some policy)
    (hselect : selectPolicy db₁ args.org.id args.policyVersion = some policy)
    (hopened : activePacksForOrg db₁ args.org.id = activePacksForOrg db args.org.id)
    (hcheck : runPrecheck svc db₁ (gatePrecheck db₁ args fresh) fresh.precheck = .ok (db₂, d))
    (hsignals : SameSignals args.output) :
    SameVerdict verdict (judgedOut args d d.status event) ↔
      (policy.rules ≠ [] ∨ activePacksForOrg db args.org.id ≠ []) ∧
        ∀ features, extractFeatures args.action args.output = .ok features →
          firstMatchingRule serverHintKeys args.action args.output features policy.rules =
            .ok none → ¬features.NoLawfulBasis := by
  have hrules : bundle.policyRules = policy.rules := by rw [hbundle.rules, hpolicy]; rfl
  have hempty : bundle.isEmpty = true ↔
      ¬(policy.rules ≠ [] ∨ activePacksForOrg db args.org.id ≠ []) := by
    rw [hbundle.isEmpty, hpolicy, not_or, not_not, not_not]
    rfl
  unfold OfflineBundle.evaluate at hverdict
  split at hverdict
  · rename_i hblank
    obtain rfl := Except.ok.inj hverdict
    refine iff_of_false (fun hsame => ?_) fun h => hempty.mp hblank h.1
    cases hsame.tier
  · rename_i hjudges
    rw [and_iff_right (not_not.mp fun h => hjudges (hempty.mpr h))]
    simp only [Except.bind_eq_ok, Except.pure_eq, Except.ok.injEq] at hverdict
    obtain ⟨own, hown, findings, hfindings, rfl⟩ := hverdict
    simp only [evaluateLocal, Except.bind_eq_ok, Except.pure_eq, Except.ok.injEq, hrules,
      hbundle.failMode] at hown
    obtain ⟨seen, hseen, hit, hhit, rfl⟩ := hown
    obtain ⟨-, features, -, hfeatures, -⟩ := runPrecheck_cases hcheck
    have hsame := hsignals.features hseen hfeatures
    have hfloor := layerFloorTier_labels hsame
    have hserved : firstMatchingRule serverHintKeys args.action args.output features policy.rules =
        .ok hit := (firstMatchingRule_signals hsignals hsame policy.rules).symm.trans hhit
    have houtput : evaluatePolicyInput (policyInput args.org args.action args.output policy.version
        features) policy.rules =
          .ok (joinOutput (runDeterministicLayers features) args.org.failMode hit) := by
      have hread := congrArg (Except.map (joinOutput (runDeterministicLayers features)
        args.org.failMode)) hserved
      exact hread
    have hconcluded := runPrecheck_evaluated hcheck hselect hfeatures houtput
    have hcited := evaluatePacks_eq_ok hconcluded.findings_eq
    have hperm : (findings.map OfflineFinding.tier).Perm (d.findings.map PackFinding.tier) := by
      refine (packFindings_tiers hsignals hfeatures hbundle.packs hfindings).trans ?_
      rw [hcited, ← hopened, ← tiers_citedFindings]
      exact (List.perm_sortByRank.map _).symm
    obtain ⟨hanswer, -⟩ := hconcluded
    have htier : findings.foldl (fun tier f => maxTier tier f.tier)
        (localEvaluation (runDeterministicLayers seen) args.org.failMode hit).tier = d.tier := by
      have hjoined := foldl_maxTier_perm hperm
        (joinOutput (runDeterministicLayers features) args.org.failMode hit).tier
      rw [List.foldl_map, List.foldl_map] at hjoined
      rw [hanswer.tier_eq, localEvaluation_tier args.org.failMode hfloor]
      exact hjoined
    have hallowed : (localEvaluation (runDeterministicLayers seen) args.org.failMode hit).allowed =
        d.allowed ↔ ¬(hit = none ∧ features.NoLawfulBasis) := by
      rw [hanswer.allowed_eq, localEvaluation_allowed hfloor, layerFloorTier_eq_red]
    have hsome : findings.isEmpty = d.findings.isEmpty := by
      have hlength := hperm.length_eq
      rw [List.length_map, List.length_map] at hlength
      rw [Bool.eq_iff_iff, List.isEmpty_iff_length_eq_zero, List.isEmpty_iff_length_eq_zero,
        hlength]
    constructor
    · intro hverdicts features' hfeatures' hunmatched hbasis
      obtain rfl := Except.ok.inj (hfeatures.symm.trans hfeatures')
      obtain rfl := Except.ok.inj (hserved.symm.trans hunmatched)
      exact hallowed.mp hverdicts.allowed ⟨rfl, hbasis⟩
    · intro hfaithful
      have hpermits := hallowed.mpr fun h =>
        hfaithful features hfeatures (hserved.trans (congrArg Except.ok h.1)) h.2
      refine ⟨?_, hpermits, congrArg some htier⟩
      simp only [OfflineBundle.verdict, judgedOut, DecisionOut.status, deriveStatus, htier,
        hpermits, hsome]

/-- On an output with the same signals for both, the verdict of a fresh bundle is the one of the
service exactly where the bundle is faithful. -/
theorem offline_agrees_iff (hactive : givenText args.policyVersion = none)
    (hbundle : offlineBundle db args.org = .ok bundle)
    (hverdict : bundle.evaluate args.action args.output = .ok verdict)
    (hgate : runGate svc db args fresh = .ok (db', out)) (hsignals : SameSignals args.output) :
    SameVerdict verdict out ↔ BundleFaithful db args.org args.action args.output := by
  have hbundled := offlineBundle_eq_ok hbundle
  have hselect (db : Db) : selectPolicy db args.org.id args.policyVersion =
      db.getActivePolicy args.org.id := by
    rw [selectPolicy, hactive]
  rcases runGate_cases hgate with hnone | ⟨remediated, db₁, db₂, db₃, d, event, hstages⟩
  · have hpolicy := (hselect db).symm.trans hnone.policy
    rw [BundleFaithful, hpolicy]
    exact unevaluated_agrees_iff hbundled hverdict hpolicy hnone.out_eq
  · obtain ⟨ts, rfl⟩ := hstages.opened
    obtain ⟨policy, -, hpolicy, -⟩ := runPrecheck_cases hstages.prechecked
    have hactive' : db.getActivePolicy args.org.id = some policy :=
      (hselect { db with traces := ts }).symm.trans hpolicy
    rw [BundleFaithful, hactive', hstages.out_eq]
    exact evaluated_agrees_iff hbundled hverdict hactive' hpolicy rfl hstages.prechecked hsignals

end Verdicts

/-! ## Sample -/

section Samples

open Sample

/-- A transfer with a citation, that the rule of the policy flags for both. -/
theorem offline_agrees_iff_sample : ∃ bundle verdict db' out,
    offlineBundle (sampleWith samplePolicy) sampleOrg = .ok bundle ∧
      bundle.evaluate "transfer" sampleCited = .ok verdict ∧ verdict.tier = some .yellow ∧
        runGate sampleKey (sampleWith samplePolicy) (sampleGateArgs "transfer" sampleCited)
          sampleGateFresh = .ok (db', out) ∧ SameVerdict verdict out := by
  obtain ⟨bundle, hbundle⟩ : ∃ bundle, offlineBundle (sampleWith samplePolicy) sampleOrg =
      .ok bundle := ⟨_, rfl⟩
  obtain ⟨verdict, hverdict, hyellow⟩ : ∃ verdict, bundle.evaluate "transfer" sampleCited =
      .ok verdict ∧ verdict.tier = some .yellow := by
    obtain rfl := Except.ok.inj hbundle
    refine ⟨_, rfl, ?_⟩
    decide +kernel
  have hmatched : firstMatchingRule serverHintKeys "transfer" sampleCited sampleCitedFeatures
      samplePolicy.rules = .ok (some sampleFlag) := by
    decide +kernel
  have houtput : evaluatePolicyInput (policyInput sampleOrg "transfer" sampleCited
      samplePolicy.version sampleCitedFeatures) samplePolicy.rules =
        .ok (joinOutput (runDeterministicLayers sampleCitedFeatures) sampleOrg.failMode
          (some sampleFlag)) :=
    @evaluateOver_of_hit _ (policyInput sampleOrg "transfer" sampleCited samplePolicy.version
      sampleCitedFeatures) samplePolicy.rules (some sampleFlag) hmatched _
  obtain ⟨plan, hplan⟩ := remediate_nil (sampleWith samplePolicy)
    (gatePrecheck (sampleWith samplePolicy) (sampleGateArgs "transfer" sampleCited)
      sampleGateFresh) samplePolicy _ sampleCitedFeatures []
  obtain ⟨db', out, hgate⟩ := exists_gate_sample sampleKey rfl (by decide) (by decide)
    (.concludes extractFeatures_sampleCited (.evaluated houtput) rfl hplan)
  refine ⟨bundle, verdict, db', out, hbundle, hverdict, hyellow, hgate, ?_⟩
  have hsignals : SameSignals sampleCited :=
    ⟨iff_of_true (by decide +kernel) (by decide +kernel), rfl⟩
  refine (offline_agrees_iff rfl hbundle hverdict hgate hsignals).mpr ⟨Or.inl nofun, ?_⟩
  intro read hread hunmatched
  obtain rfl := Except.ok.inj (extractFeatures_sampleCited.symm.trans hread)
  cases hmatched.symm.trans hunmatched

end Samples

end Attest
