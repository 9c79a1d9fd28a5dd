import Attest.LocalPolicy
import Attest.Advisory

/-!
# The local fast path

The client judges an output by its copy of the policy first, and asks the service only where
the copy says orange, red or no (`precheckSmart`). What it answers by itself the service would
say too if and only if the service finds no personal data, no pack of the organisation finds
anything above yellow, and the classifier's documented field leads to no other rule
(`fast_path_agrees_iff`).
-/

set_option linter.unusedSectionVars false

namespace Attest

/-! ## The client's policy -/

/-- `PolicyBundle`. -/
structure PolicyBundle where
  rulesDoc : Dict
  version : String
  failMode : String

/-- What `precheck_smart` answers by itself. Its `approval_id` is `None` and its
`policy_decision_hash` is empty always. -/
structure LocalAnswer where
  evaluation : LocalEvaluation
  traceId : Uuid
  policyVersion : String
  seq : Int

inductive SmartAnswer where
  | answered (answer : LocalAnswer)
  | askService

section Smart

variable [PyUnicode]

/-- `evaluate(action, payload)`. -/
def PolicyBundle.evaluate (bundle : PolicyBundle) (action : String) (payload : Dict) :
    Except PyError LocalEvaluation :=
  evaluateLocal action payload bundle.rulesDoc bundle.failMode

/-- `precheck_smart(trace_id, seq, action, payload)`, up to the call of the service. -/
def precheckSmart (enableLocalPrecheck : Bool) (bundle : PolicyBundle) (traceId : Uuid) (seq : Int)
    (action : String) (payload : Dict) : Except PyError SmartAnswer :=
  if enableLocalPrecheck then do
    let evaluation ← bundle.evaluate action payload
    if needsServerEscalation evaluation then return .askService
    else return .answered ⟨evaluation, traceId, bundle.version, seq⟩
  else .ok .askService

/-- An answer of the client is of an evaluation that was not escalated. -/
theorem precheckSmart_eq_answered {enableLocalPrecheck : Bool} {bundle : PolicyBundle}
    {traceId : Uuid} {seq : Int} {action : String} {payload : Dict} {answer : LocalAnswer}
    (h : precheckSmart enableLocalPrecheck bundle traceId seq action payload =
      .ok (.answered answer)) :
    ∃ features hit, localFeatures action payload = .ok features ∧
      firstMatchingRule localHintKeys action payload features bundle.rulesDoc = .ok hit ∧
      answer.evaluation = localEvaluation (runDeterministicLayers features) bundle.failMode hit ∧
      answer.evaluation.tier.rank ≤ 1 ∧ answer.evaluation.allowed = true := by
  unfold precheckSmart at h
  split at h
  · obtain ⟨evaluation, hevaluation, h⟩ := Except.bind_eq_ok.mp h
    split at h
    · cases h
    · rename_i hstays
      obtain rfl := SmartAnswer.answered.inj (Except.ok.inj h)
      simp only [PolicyBundle.evaluate, evaluateLocal, Except.bind_eq_ok, Except.pure_eq,
        Except.ok.injEq] at hevaluation
      obtain ⟨features, hfeatures, hit, hhit, rfl⟩ := hevaluation
      refine ⟨features, hit, hfeatures, hhit, rfl, ?_⟩
      simp only [needsServerEscalation, Bool.or_eq_true, decide_eq_true_eq, Bool.not_eq_true',
        not_or, Bool.not_eq_false] at hstays
      refine ⟨?_, hstays.2⟩
      generalize (localEvaluation (runDeterministicLayers features) bundle.failMode hit).tier =
        tier at hstays ⊢
      cases tier with
      | green => decide
      | yellow => decide
      | orange => exact absurd rfl hstays.1.1
      | red => exact absurd rfl hstays.1.2
  · cases h

end Smart

/-! ## What the layers see -/

theorem rank_le_layerFloorTier {layers : List LayerResult} {l : LayerResult} (hl : l ∈ layers) :
    l.tier.rank ≤ (layerFloorTier layers).rank :=
  (List.foldl_rank_le fun t (l : LayerResult) => rank_maxTier t l.tier).mp le_rfl |>.2 l hl

/-- Personal data raises the floor above yellow. -/
theorem hasPii_eq_false_of_floor {f : FeatureVector}
    (h : (layerFloorTier (runDeterministicLayers f)).rank ≤ 1) : f.hasPii = false := by
  by_contra hpii
  rw [Bool.not_eq_false] at hpii
  have hlayer : (⟨"pii", .orange, ["PII detected: " ++ PyText.join ", " f.piiLabels]⟩ :
      LayerResult) ∈ runDeterministicLayers f := by
    refine List.mem_filterMap.mpr ⟨piiLayer f, List.mem_cons_self, ?_⟩
    rw [piiLayer, if_pos hpii]
    rfl
  have hrank : 2 ≤ (layerFloorTier (runDeterministicLayers f)).rank :=
    rank_le_layerFloorTier hlayer
  omega

/-- The decision of the rule that matched, or of the floor. -/
def ownDecision (layers : List LayerResult) : Option RuleHit → PolicyDecision
  | some hit => hit.decision
  | none => defaultDecision (layerFloorTier layers)

theorem decisionAllowed_of_rank {tier : RiskTier} {decision : PolicyDecision} {failMode : String}
    (h : tier.rank ≤ 1) : decisionAllowed tier decision failMode = true ↔ decision ≠ .deny := by
  have hred : tier ≠ .red := by
    rintro rfl
    exact absurd h (by decide)
  cases decision with
  | allow => simp [decisionAllowed]
  | deny => simp [decisionAllowed]
  | flag => simp [decisionAllowed, hred]

theorem defaultDecision_ne_deny {tier : RiskTier} (h : tier.rank ≤ 1) :
    defaultDecision tier ≠ .deny := by
  cases tier with
  | green => decide
  | yellow => decide
  | orange => exact absurd h (by decide)
  | red => exact absurd h (by decide)

/-- The client's evaluation decides as the rule, or else the floor. -/
theorem localEvaluation_decision (layers : List LayerResult) (failMode : String) :
    ∀ hit : Option RuleHit, (localEvaluation layers failMode hit).decision = ownDecision layers hit
  | some _ => rfl
  | none => rfl

theorem rank_localEvaluation {layers : List LayerResult} {failMode : String} {n : Nat} :
    ∀ {hit : Option RuleHit}, (localEvaluation layers failMode hit).tier.rank ≤ n ↔
      (layerFloorTier layers).rank ≤ n ∧ ∀ r ∈ hit, r.tier.rank ≤ n
  | some hit => by simp [localEvaluation]
  | none => by simp [localEvaluation]

theorem rank_joinOutput {layers : List LayerResult} {failMode : String} {n : Nat} :
    ∀ {hit : Option RuleHit}, (joinOutput layers failMode hit).tier.rank ≤ n ↔
      (layerFloorTier layers).rank ≤ n ∧ ∀ r ∈ hit, r.tier.rank ≤ n
  | some hit => by simp [joinOutput]
  | none => by simp [joinOutput]

/-- Up to yellow the service decides as the rule, or else the floor. -/
theorem joinOutput_decision {layers : List LayerResult} (failMode : String)
    (hfloor : (layerFloorTier layers).rank ≤ 1) :
    ∀ hit : Option RuleHit, (joinOutput layers failMode hit).decision = ownDecision layers hit
  | some _ => rfl
  | none => if_neg (defaultDecision_ne_deny hfloor)

theorem joinOutput_allowed_of_rank {layers : List LayerResult} {failMode : String} :
    ∀ {hit : Option RuleHit}, (joinOutput layers failMode hit).tier.rank ≤ 1 →
      ownDecision layers hit ≠ .deny → (joinOutput layers failMode hit).allowed = true
  | some _, hrank, hdecision => (decisionAllowed_of_rank hrank).mpr hdecision
  | none, _, _ => rfl

section Agree

variable [PyUnicode]

/-- Features differ by the table they were extracted with in the personal data alone. -/
theorem features_eq_of_no_pii {table table' : List LabelledPattern} {action : String}
    {payload : Dict} {f f' : FeatureVector}
    (hf : extractFeaturesWith table action payload = .ok f)
    (hf' : extractFeaturesWith table' action payload = .ok f')
    (hpii : f.hasPii = false) (hpii' : f'.hasPii = false) : f = f' := by
  simp only [extractFeaturesWith, Except.bind_eq_ok, Except.pure_eq, Except.ok.injEq] at hf hf'
  obtain ⟨amount, hamount, rfl⟩ := hf
  obtain ⟨amount', hamount', rfl⟩ := hf'
  obtain rfl := Except.ok.inj (hamount.symm.trans hamount')
  have hlabels : sortedSet (scanItems table payload) = sortedSet (scanItems table' payload) := by
    rw [List.isEmpty_iff.mp (Bool.not_eq_false' _ |>.mp hpii),
      List.isEmpty_iff.mp (Bool.not_eq_false' _ |>.mp hpii')]
  rw [hlabels]

/-! ## Where the service says the same -/

/-- The service allows the output up to yellow, opens no approval, and decides the same. -/
structure ServiceAgrees (db db' : Db) (d : DecisionOut) (evaluation : LocalEvaluation) : Prop where
  allowed : d.allowed = true
  tier : d.tier = .green ∨ d.tier = .yellow
  approval : db'.approvals = db.approvals
  decision : d.decision = evaluation.decision

/-- What the client does not look at does not matter : there is no personal data, the packs
find nothing above yellow, and the rule that the classifier's documented field leads to is no
other, or decides the same up to yellow. -/
structure FastPathSees (db : Db) (orgId action : String) (payload rulesDoc : Dict)
    (features : FeatureVector) : Prop where
  noPii : detectPiiLabels payload = []
  packs : ∀ f ∈ citedFindings action payload features db orgId, f.tier.rank ≤ 1
  rule : ∀ served cached,
    firstMatchingRule serverHintKeys action payload features rulesDoc = .ok served →
      firstMatchingRule localHintKeys action payload features rulesDoc = .ok cached →
        (∀ hit ∈ served, hit.tier.rank ≤ 1) ∧
          ownDecision (runDeterministicLayers features) served =
            ownDecision (runDeterministicLayers features) cached

theorem rank_le_one {tier : RiskTier} : tier.rank ≤ 1 ↔ tier = .green ∨ tier = .yellow := by
  cases tier <;> decide

theorem approvalsOpened_eq_nil {args : PrecheckArgs} {fresh : PrecheckFresh} {tier : RiskTier}
    (h : tier.rank ≤ 1) : approvalsOpened args fresh tier = [] := by
  rcases rank_le_one.mp h with rfl | rfl <;> rfl

variable [SignatureScheme] [KeyWrapping]

/-- What the client answers by itself the service says too, if and only if it sees nothing that
the client does not look at. -/
theorem fast_path_agrees_iff {svc : SigningKeyPair} {db db' : Db} {args : PrecheckArgs}
    {fresh : PrecheckFresh} {policy : Policy} {features : FeatureVector} {output : PolicyOutput}
    {d : DecisionOut} {enableLocalPrecheck : Bool} {bundle : PolicyBundle} {answer : LocalAnswer}
    (hanswer : precheckSmart enableLocalPrecheck bundle args.traceId args.seq args.action
      args.payload = .ok (.answered answer))
    (hpolicy : selectPolicy db args.org.id args.policyVersion = some policy)
    (hrules : bundle.rulesDoc = policy.rules)
    (hfeatures : extractFeatures args.action args.payload = .ok features)
    (houtput : evaluatePolicyInput (policyInput args.org args.action args.payload policy.version
      features) policy.rules = .ok output)
    (hcheck : runPrecheck svc db args fresh = .ok (db', d)) :
    ServiceAgrees db db' d answer.evaluation ↔
      FastPathSees db args.org.id args.action args.payload policy.rules features := by
  obtain ⟨seen, cached, hseen, hcached, hevaluation, hrank, hallowed⟩ :=
    precheckSmart_eq_answered hanswer
  rw [hrules] at hcached
  obtain ⟨⟨-, htier, -, hdecision, hpermits, -⟩, hfindings, -, -, e, event, -, hadds⟩ :=
    runPrecheck_evaluated hcheck hpolicy hfeatures houtput
  obtain ⟨ts, ps, ks, rfl⟩ := hadds.rows
  have hcited := evaluatePacks_eq_ok hfindings
  obtain ⟨served, hserved, rfl⟩ : ∃ served, firstMatchingRule serverHintKeys args.action
      args.payload features policy.rules = .ok served ∧
        output = joinOutput (runDeterministicLayers features) args.org.failMode served := by
    simp only [evaluatePolicyInput, evaluateOver, Except.bind_eq_ok, Except.pure_eq,
      Except.ok.injEq] at houtput
    obtain ⟨served, hserved, rfl⟩ := houtput
    exact ⟨served, hserved, rfl⟩
  have hlabels : features.hasPii = false ↔ detectPiiLabels args.payload = [] := by
    simp only [extractFeatures, extractFeaturesWith, Except.bind_eq_ok, Except.pure_eq,
      Except.ok.injEq] at hfeatures
    obtain ⟨amount, -, rfl⟩ := hfeatures
    rw [Bool.not_eq_false', List.isEmpty_iff]
    rfl
  have hown : answer.evaluation.decision = ownDecision (runDeterministicLayers seen) cached := by
    rw [hevaluation, localEvaluation_decision]
  have hseenFloor : (layerFloorTier (runDeterministicLayers seen)).rank ≤ 1 := by
    rw [hevaluation] at hrank
    exact (rank_localEvaluation.mp hrank).1
  -- Without personal data both sides read the same features.
  have hsame (hpii : features.hasPii = false) : seen = features :=
    features_eq_of_no_pii hseen hfeatures (hasPii_eq_false_of_floor hseenFloor) hpii
  constructor
  · intro hagrees
    have heffective := rank_le_one.mpr hagrees.tier
    rw [htier, combinedTier_rank_le, rank_joinOutput] at heffective
    obtain ⟨⟨hfloor, hhit⟩, hfound⟩ := heffective
    have hpii := hasPii_eq_false_of_floor hfloor
    obtain rfl := hsame hpii
    refine ⟨hlabels.mp hpii, ?_, ?_⟩
    · intro f hf
      exact hfound f (hcited ▸ List.perm_sortByRank.mem_iff.mpr hf)
    · intro served' cached' hserved' hcached'
      obtain rfl := Except.ok.inj (hserved.symm.trans hserved')
      obtain rfl := Except.ok.inj (hcached.symm.trans hcached')
      refine ⟨hhit, ?_⟩
      rw [← joinOutput_decision args.org.failMode hfloor, ← hdecision,
        hagrees.decision, hown]
  · intro hsees
    obtain rfl := hsame (hlabels.mpr hsees.noPii)
    obtain ⟨hhit, hdecides⟩ := hsees.rule served cached hserved hcached
    have hjoined : (joinOutput (runDeterministicLayers seen) args.org.failMode served).tier.rank ≤
        1 := rank_joinOutput.mpr ⟨hseenFloor, hhit⟩
    have heffective : d.tier.rank ≤ 1 := by
      rw [htier, combinedTier_rank_le]
      refine ⟨hjoined, fun f hf => hsees.packs f ?_⟩
      rw [hcited] at hf
      exact List.perm_sortByRank.mem_iff.mp hf
    have hnotDeny : ownDecision (runDeterministicLayers seen) served ≠ .deny := by
      rw [hdecides, ← localEvaluation_decision _ bundle.failMode]
      intro hdeny
      rw [hevaluation] at hallowed hrank
      cases cached with
      | none => exact defaultDecision_ne_deny hseenFloor hdeny
      | some hit => exact (decisionAllowed_of_rank hrank).mp hallowed hdeny
    refine ⟨?_, rank_le_one.mp heffective, ?_, ?_⟩
    · rw [hpermits]
      exact joinOutput_allowed_of_rank hjoined hnotDeny
    · simp only [approvalsOpened_eq_nil heffective, List.append_nil]
    · rw [hdecision, joinOutput_decision args.org.failMode hseenFloor, hdecides, hown]

end Agree

/-! ## Sample -/

section Samples

open Sample

/-- A copy of the sample policy. -/
def sampleCopy : PolicyBundle := ⟨samplePolicy.rules, samplePolicy.version, "closed"⟩

def sampleCitedFeatures : FeatureVector :=
  { sampleTransferFeatures with citationCount := .int 1, crossBorder := false }

theorem extractFeatures_sampleCited :
    extractFeatures "transfer" sampleCited = .ok sampleCitedFeatures := by
  decide +kernel

/-- A transfer with a citation is flagged by the copy, and by the service too. -/
theorem fast_path_agrees_sample : ∃ answer db' d,
    precheckSmart true sampleCopy (Uuid.ofNat 1) 1 "transfer" sampleCited =
      .ok (.answered answer) ∧ answer.evaluation.decision = .flag ∧
        ServiceAgrees (sampleAdvised []) db' d answer.evaluation := by
  let args := samplePrecheckArgs "transfer" sampleCited
  have hmatched (keys : List String) (hkeys : keys = serverHintKeys ∨ keys = localHintKeys) :
      firstMatchingRule keys "transfer" sampleCited sampleCitedFeatures samplePolicy.rules =
        .ok (some sampleFlag) := by
    rcases hkeys with rfl | rfl <;> decide +kernel
  have houtput : evaluatePolicyInput (policyInput args.org args.action args.payload
      samplePolicy.version sampleCitedFeatures) samplePolicy.rules =
        .ok (joinOutput (runDeterministicLayers sampleCitedFeatures) "deny_on_error"
          (some sampleFlag)) :=
    @evaluateOver_of_hit _ (policyInput args.org args.action args.payload samplePolicy.version
      sampleCitedFeatures) samplePolicy.rules (some sampleFlag) (hmatched _ (Or.inl rfl)) _
  have hlocal : localFeatures args.action args.payload = .ok sampleCitedFeatures := by
    decide +kernel
  have hevaluation : sampleCopy.evaluate args.action args.payload = .ok (localEvaluation
      (runDeterministicLayers sampleCitedFeatures) sampleCopy.failMode (some sampleFlag)) := by
    have hhit : firstMatchingRule localHintKeys args.action args.payload sampleCitedFeatures
        sampleCopy.rulesDoc = .ok (some sampleFlag) := hmatched _ (Or.inr rfl)
    simp only [PolicyBundle.evaluate, evaluateLocal, hlocal, Except.ok_bind', hhit,
      Except.pure_eq]
  have hstays : needsServerEscalation (localEvaluation (runDeterministicLayers
      sampleCitedFeatures) sampleCopy.failMode (some sampleFlag)) = false := by
    decide +kernel
  have hanswer : precheckSmart true sampleCopy args.traceId args.seq args.action args.payload =
      .ok (.answered ⟨localEvaluation (runDeterministicLayers sampleCitedFeatures)
        sampleCopy.failMode (some sampleFlag), args.traceId, sampleCopy.version, args.seq⟩) := by
    rw [precheckSmart, if_pos rfl, hevaluation, Except.ok_bind', hstays]
    rfl
  have hnone : StringTiers (sampleAdvised []) "acme" := List.forall_mem_nil _
  obtain ⟨db', d, hcheck⟩ := (packs_advisory sampleKey args rfl rfl extractFeatures_sampleCited
    houtput hnone hnone).2 _ (Or.inl rfl) _ (stocked_sampleAdvised _)
      (fits_sampleAdvised _ (by decide) _) (by decide) fun _ hdraft =>
        absurd hdraft List.not_mem_nil
  refine ⟨_, db', d, hanswer, by decide +kernel, ?_⟩
  refine (fast_path_agrees_iff hanswer rfl rfl extractFeatures_sampleCited houtput hcheck).mpr
    ⟨by decide +kernel, List.forall_mem_nil _, ?_⟩
  intro served cached hserved hcached
  obtain rfl := Except.ok.inj (hserved.symm.trans (hmatched _ (Or.inl rfl)))
  obtain rfl := Except.ok.inj (hcached.symm.trans (hmatched _ (Or.inr rfl)))
  exact ⟨by decide, rfl⟩

end Samples

end Attest
