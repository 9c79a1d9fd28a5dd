import Attest.Advisory

/-!
# Policy previews

`preview` judges a sample output against a policy and records nothing. It follows the
gate : where it returns, what it shows is what a gate call on the same output returns and
seals, as long as no model writes a rewrite (`gateAgrees_of_preview`).

It does not always return. A flag with nothing in it that a plan can name has no plan, and
the preview reads the shape of that plan all the same; a document that cannot be read
raises too. `preview_agrees` says exactly when it returns. Strings are of Unicode scalar values :
an output with a lone surrogate cannot be hashed, and has no verdict of the gate either.
-/

set_option linter.unusedSectionVars false

namespace Attest

/-! ## The call -/

/-- What `preview` returns : a policy that is refused has the status `none`, for `"error"`,
with its reason. -/
structure PreviewOut where
  status : Option Status
  error : Option String
  tier : Option RiskTier
  policyTier : Option RiskTier
  decision : Option PolicyDecision
  allowed : Option Bool
  reasons : List String
  ruleId : Option String
  findings : List PackFinding
  jurisdictions : List String
  remediationPreview : Option Dict

/-- `chain_summary(plan)` of a plan that may be `None`, which it cannot read. -/
def summaryOfPlan : Option RemediationPlan → Except PyError Dict
  | none => .error .typeError
  | some p => .ok (chainSummary p)

/-- The shape of the plan, for an output that is flagged or blocked. -/
def previewPlan (status : Status) (p : Option RemediationPlan) : Except PyError (Option Dict) :=
  if status = .flagged ∨ status = .blocked then (summaryOfPlan p).map some else .ok none

theorem previewPlan_succeeds {status : Status} {p : Option RemediationPlan} :
    (previewPlan status p).succeeds = true ↔
      (status = .flagged ∨ status = .blocked → p.isSome = true) := by
  by_cases hcause : status = .flagged ∨ status = .blocked
  · rw [previewPlan, if_pos hcause, forall_prop_of_true hcause]
    cases p <;> simp [summaryOfPlan, Except.map, Except.succeeds]
  · rw [previewPlan, if_neg hcause]
    exact iff_of_true rfl fun h => absurd h hcause

section Preview

variable [PyUnicode]

/-- `preview(db, org, action, payload, policy_version, rules)`. -/
def preview (db : Db) (org : Org) (action : String) (payload : Dict) (policyVersion : String)
    (rules : Dict) : Except PyError PreviewOut := do
  let features ← extractFeatures action payload
  match evaluatePolicyInput (policyInput org action payload policyVersion features) rules with
  | .error (.policyEngine detail) =>
    return {
      status := none
      error := some detail
      tier := none
      policyTier := none
      decision := none
      allowed := none
      reasons := []
      ruleId := none
      findings := []
      jurisdictions := []
      remediationPreview := none }
  | .error e => .error e
  | .ok output => do
    let findings ← evaluatePacks action payload features db org.id
    let effectiveTier := combinedTier output.tier findings
    let allowed := tierAllowsAction output.tier org.failMode output.allowed
    let status := deriveStatus allowed effectiveTier findings
    let remediationPreview ←
      previewPlan status (plan payload features findings output.reasons (!allowed))
    return {
      status := some status
      error := none
      tier := some effectiveTier
      policyTier := some output.tier
      decision := some output.decision
      allowed := some allowed
      reasons := output.reasons
      ruleId := output.ruleId
      findings := findings
      jurisdictions := jurisdictionsTouched findings
      remediationPreview := remediationPreview }

/-! ## What a plan can name -/

/-- The output has something that an edit, a requirement or a judgement is about. -/
def Named (features : FeatureVector) (findings : List PackFinding) : Prop :=
  features.hasPii = true ∨ features.prohibitedPhrases ≠ [] ∨ features.NoLawfulBasis ∨
    ∃ f ∈ findings, f.matchedOn.any curedSignals.contains = false

/-- There is a plan for a denial, and for whatever can be named. -/
theorem plan_isSome {payload : Dict} {features : FeatureVector} {findings : List PackFinding}
    {reasons : List String} {blocked : Bool} :
    (plan payload features findings reasons blocked).isSome = true ↔
      blocked = true ∨ Named features findings := by
  have hopen : (findings.filter fun f => !f.matchedOn.any curedSignals.contains).map judgementCall =
      [] ↔ ¬∃ f ∈ findings, f.matchedOn.any curedSignals.contains = false := by
    simp [List.filter_eq_nil_iff]
  unfold plan Named FeatureVector.NoLawfulBasis
  generalize (findings.filter fun f => !f.matchedOn.any curedSignals.contains).map judgementCall =
    calls at hopen ⊢
  rw [← not_iff_not.mpr hopen |>.trans not_not]
  cases hpii : features.hasPii with
  | true =>
    -- either the redaction stays as an edit, or what it left over is unresolved
    simp only [if_true]
    generalize detectPiiLabels _ = leftover
    cases leftover <;> simp
  | false =>
    simp only [Bool.false_eq_true, if_false, List.isEmpty_nil, if_true]
    cases hphrases : features.prohibitedPhrases with
    | cons p ps => simp
    | nil =>
      cases hcross : features.crossBorder <;> cases hbasis : features.lawfulBasisPresent <;>
        cases blocked <;> simp

end Preview

/-! ## What raises a flag -/

/-- No layer, rule or pack raises a flag : no amount is high, the rule that matched is below
orange and no pack cites. -/
structure Quiet (features : FeatureVector) (hit : Option RuleHit) (findings : List PackFinding) :
    Prop where
  amount : highValueLayer features = none
  rule : ∀ h, hit = some h → h.tier.isFlagging = false
  packs : findings = []

/-- The layers raise a flag for what can be named, and for a high amount. -/
theorem layerFloorTier_flagging {f : FeatureVector} :
    (layerFloorTier (runDeterministicLayers f)).isFlagging = true ↔
      f.hasPii = true ∨ f.prohibitedPhrases ≠ [] ∨ f.NoLawfulBasis ∨ highValueLayer f ≠ none := by
  have hfloor : (layerFloorTier (runDeterministicLayers f)).rank ≤ 1 ↔
      ∀ layer ∈ [piiLayer f, citationsLayer f, prohibitedPhrasesLayer f, crossBorderLayer f,
        highValueLayer f], ∀ l, layer = some l → l.tier.rank ≤ 1 := by
    rw [layerFloorTier, List.foldl_rank_le fun t (l : LayerResult) => rank_maxTier t l.tier]
    simp only [runDeterministicLayers, List.mem_filterMap, id, forall_exists_index, and_imp,
      RiskTier.rank, Nat.zero_le, true_and]
    exact ⟨fun h layer hlayer l hl => h l layer hlayer hl, fun h l layer hlayer hl =>
      h layer hlayer l hl⟩
  rw [isFlagging_iff, ← not_lt, Nat.lt_succ_iff, hfloor, not_iff_comm]
  simp only [List.forall_mem_cons, List.not_mem_nil, false_implies, implies_true, and_true]
  have hpii : (∀ l, piiLayer f = some l → l.tier.rank ≤ 1) ↔ ¬f.hasPii = true := by
    unfold piiLayer
    split <;> simp_all [RiskTier.rank]
  have hcitations : ∀ l, citationsLayer f = some l → l.tier.rank ≤ 1 := by
    unfold citationsLayer
    split <;> simp [RiskTier.rank]
  have hphrases : (∀ l, prohibitedPhrasesLayer f = some l → l.tier.rank ≤ 1) ↔
      ¬f.prohibitedPhrases ≠ [] := by
    unfold prohibitedPhrasesLayer
    split <;> simp_all [RiskTier.rank]
  have hborder : (∀ l, crossBorderLayer f = some l → l.tier.rank ≤ 1) ↔ ¬f.NoLawfulBasis := by
    unfold crossBorderLayer FeatureVector.NoLawfulBasis
    split <;> simp_all [RiskTier.rank]
  have hhigh : (∀ l, highValueLayer f = some l → l.tier.rank ≤ 1) ↔ ¬highValueLayer f ≠ none := by
    have htier (l : LayerResult) (h : highValueLayer f = some l) : l.tier = .orange := by
      unfold highValueLayer at h
      split at h
      · split at h <;> cases h
        rfl
      · cases h
    cases hlayer : highValueLayer f with
    | none => simp
    | some l => simp [htier l hlayer, RiskTier.rank]
  rw [hpii, hphrases, hborder, hhigh]
  tauto
theorem joinOutput_flagging {layers : List LayerResult} {failMode : String} {hit : Option RuleHit} :
    (joinOutput layers failMode hit).tier.isFlagging = true ↔
      (layerFloorTier layers).isFlagging = true ∨ ∃ h, hit = some h ∧ h.tier.isFlagging = true := by
  cases hit with
  | none => simp [joinOutput]
  | some hit =>
    simp only [joinOutput, isFlagging_iff, rank_maxTier, Option.some.injEq, exists_eq_left']
    omega

theorem deriveStatus_unclean {allowed : Bool} {tier : RiskTier} {findings : List PackFinding} :
    deriveStatus allowed tier findings = .flagged ∨ deriveStatus allowed tier findings = .blocked ↔
      allowed = false ∨ tier.isFlagging = true ∨ findings ≠ [] := by
  cases allowed with
  | false => simp [deriveStatus]
  | true => by_cases hflag : (tier.isFlagging || !findings.isEmpty) = true <;>
      simp_all [deriveStatus]

/-- A rule of the organisation's own denies, or what flags can be named, or nothing does. -/
def Explained (features : FeatureVector) (failMode : String) (hit : Option RuleHit)
    (findings : List PackFinding) : Prop :=
  customerVerdict failMode hit = false ∨ Named features findings ∨ Quiet features hit findings

/-- What is flagged or blocked is denied or can be named, exactly when it is explained. -/
theorem explained_iff {features : FeatureVector} {failMode : String} {hit : Option RuleHit}
    {findings : List PackFinding} {output : PolicyOutput}
    (houtput : output = joinOutput (runDeterministicLayers features) failMode hit) :
    ((deriveStatus output.allowed (combinedTier output.tier findings) findings = .flagged ∨
      deriveStatus output.allowed (combinedTier output.tier findings) findings = .blocked) →
        output.allowed = false ∨ Named features findings) ↔
      Explained features failMode hit findings := by
  have hverdict : ¬Named features findings → output.allowed = customerVerdict failMode hit := by
    intro hnamed
    rw [houtput]
    refine joinOutput_allowed_iff.mpr fun hgates => ?_
    cases hit with
    | none => exact hgates
    | some h => exact hnamed (Or.inr (Or.inr (Or.inl hgates.2.2.1)))
  have hraised : ¬Named features findings → (output.tier.isFlagging = true ↔
      highValueLayer features ≠ none ∨ ∃ h, hit = some h ∧ h.tier.isFlagging = true) := by
    intro hnamed
    rw [houtput, joinOutput_flagging, layerFloorTier_flagging]
    unfold Named at hnamed
    tauto
  by_cases hnamed : Named features findings
  · exact iff_of_true (fun _ => Or.inr hnamed) (Or.inr (Or.inl hnamed))
  rw [deriveStatus_unclean]
  have hcombined : findings = [] → combinedTier output.tier findings = output.tier := by
    rintro rfl
    rfl
  constructor
  · intro h
    cases hallowed : customerVerdict failMode hit with
    | false => exact Or.inl hallowed
    | true =>
      have hout : output.allowed = true := (hverdict hnamed).trans hallowed
      have hclean := fun hcause => hnamed ((h hcause).resolve_left (by simp [hout]))
      have hpacks : findings = [] := by
        by_contra hne
        exact hclean (Or.inr (Or.inr hne))
      have hquiet : ¬output.tier.isFlagging = true := by
        intro hflag
        rw [← hcombined hpacks] at hflag
        exact hclean (Or.inr (Or.inl hflag))
      rw [hraised hnamed] at hquiet
      refine Or.inr (Or.inr ⟨?_, ?_, hpacks⟩)
      · by_contra hhigh
        exact hquiet (Or.inl hhigh)
      · intro r hr
        by_contra hflag
        exact hquiet (Or.inr ⟨r, hr, by simpa using hflag⟩)
  · rintro (hdenied | hname | hquiet) hcause
    · exact Or.inl ((hverdict hnamed).trans hdenied)
    · exact absurd hname hnamed
    · refine Or.inl (hcause.resolve_right ?_)
      rintro (hflag | hne)
      · rw [hcombined hquiet.packs, hraised hnamed] at hflag
        rcases hflag with hhigh | ⟨r, hr, hflag⟩
        · exact hhigh hquiet.amount
        · simp [hquiet.rule r hr] at hflag
      · exact hne hquiet.packs

/-- What flags is explained by the findings, in whatever order they come. -/
theorem Explained.perm {features : FeatureVector} {failMode : String} {hit : Option RuleHit}
    {findings findings' : List PackFinding} (hperm : findings.Perm findings') :
    Explained features failMode hit findings ↔ Explained features failMode hit findings' := by
  have hnamed : Named features findings ↔ Named features findings' := by
    simp only [Named, hperm.mem_iff]
  have hquiet : Quiet features hit findings ↔ Quiet features hit findings' :=
    ⟨fun h => ⟨h.amount, h.rule, by simpa [h.packs] using hperm⟩,
      fun h => ⟨h.amount, h.rule, by simpa [h.packs] using hperm⟩⟩
  rw [Explained, Explained, hnamed, hquiet]

/-! ## When a preview returns -/

section Returns

variable [PyUnicode]

/-- The document can be read up to the rule that decides, and where it is not refused the
packs can be read and every flag is explained. -/
structure Previewable (db : Db) (org : Org) (action : String) (payload rules : Dict) : Prop where
  amount : AmountFits payload
  reads : ∀ features, extractFeatures action payload = .ok features →
    DocReads serverHintKeys action payload features rules
  judged : ∀ features, extractFeatures action payload = .ok features →
    DocRejected serverHintKeys action payload features rules ∨
      (PacksRead db org.id ∧ ∀ hit,
        firstMatchingRule serverHintKeys action payload features rules = .ok hit →
          Explained features org.failMode hit (citedFindings action payload features db org.id))

/-- A preview of an output whose features are known. -/
theorem preview_succeeds_of_features {db : Db} {org : Org} {action : String}
    {payload rules : Dict} {features : FeatureVector} (policyVersion : String)
    (hfeatures : extractFeatures action payload = .ok features) :
    (preview db org action payload policyVersion rules).succeeds = true ↔
      (∃ detail, evaluatePolicyInput (policyInput org action payload policyVersion features) rules =
        .error (.policyEngine detail)) ∨
      ∃ output findings, evaluatePolicyInput (policyInput org action payload policyVersion features)
          rules = .ok output ∧ evaluatePacks action payload features db org.id = .ok findings ∧
        ((deriveStatus output.allowed (combinedTier output.tier findings) findings = .flagged ∨
          deriveStatus output.allowed (combinedTier output.tier findings) findings = .blocked) →
            output.allowed = false ∨ Named features findings) := by
  simp only [preview, hfeatures, Except.ok_bind']
  cases heval : evaluatePolicyInput (policyInput org action payload policyVersion features)
    rules with
  | error e => cases e <;> simp [Except.succeeds]
  | ok output =>
    simp only [reduceCtorEq, exists_false, false_or, Except.ok.injEq, exists_and_left,
      exists_eq_left', Except.succeeds_bind]
    refine exists_congr fun findings => and_congr_right fun _ => ?_
    have hplan : (plan payload features findings output.reasons (!output.allowed)).isSome = true ↔
        output.allowed = false ∨ Named features findings := by
      rw [plan_isSome, Bool.not_eq_true']
    rw [← hplan, ← previewPlan_succeeds, Except.succeeds_iff]
    exact exists_congr fun shape => and_iff_left rfl

/-- The findings of the packs are those they cite, in another order. -/
theorem perm_citedFindings {db : Db} {orgId action : String} {payload : Dict}
    {features : FeatureVector} {findings : List PackFinding}
    (h : evaluatePacks action payload features db orgId = .ok findings) :
    findings.Perm (citedFindings action payload features db orgId) := by
  rw [evaluatePacks_eq_ok h]
  exact List.perm_sortByRank

/-- A preview returns exactly when its document can be read and its flags are explained. -/
theorem preview_succeeds (db : Db) (org : Org) (action : String) (payload : Dict)
    (policyVersion : String) (rules : Dict) :
    (preview db org action payload policyVersion rules).succeeds = true ↔
      Previewable db org action payload rules := by
  cases hfeatures : extractFeatures action payload with
  | error e =>
    have hnot : ¬AmountFits payload := by
      intro hfits
      obtain ⟨features, h⟩ := Except.succeeds_iff.mp
        (extractFeatures_succeeds.mpr hfits : (extractFeatures action payload).succeeds = true)
      cases hfeatures.symm.trans h
    refine iff_of_false ?_ fun h => hnot h.amount
    simp [preview, hfeatures, Except.succeeds]
  | ok features =>
    have hfits : AmountFits payload := extractFeatures_succeeds.mp
      (Except.succeeds_iff.mpr ⟨features, hfeatures⟩ :
        (extractFeatures action payload).succeeds = true)
    have hsole {P : FeatureVector → Prop} (h : P features) :
        ∀ features', extractFeatures action payload = .ok features' → P features' := by
      intro features' hfeatures'
      rwa [← Except.ok.inj (hfeatures.symm.trans hfeatures')]
    have hends : Ends (firstMatchingRule serverHintKeys action payload features rules)
      (DocReads serverHintKeys action payload features rules)
      (DocRejected serverHintKeys action payload features rules) := firstMatchingRule_ends rules
    rw [preview_succeeds_of_features policyVersion hfeatures]
    cases hhit : firstMatchingRule serverHintKeys action payload features rules with
    | error e =>
      have heval : evaluatePolicyInput (policyInput org action payload policyVersion features)
          rules = .error e := by
        show (firstMatchingRule serverHintKeys action payload features rules >>= _) = _
        rw [hhit]
        rfl
      constructor
      · rintro (⟨detail, h⟩ | ⟨_, _, h, -⟩)
        · obtain rfl := Except.error.inj (heval.symm.trans h)
          obtain ⟨hreads, hrejected⟩ := hends.refused_iff.mp ⟨detail, hhit⟩
          exact ⟨hfits, hsole hreads, hsole (Or.inl hrejected)⟩
        · cases heval.symm.trans h
      · intro h
        have hreads := h.reads features hfeatures
        by_cases hrejected : DocRejected serverHintKeys action payload features rules
        · obtain ⟨detail, hdetail⟩ := hends.refuses hreads hrejected
          obtain rfl := Except.error.inj (hhit.symm.trans hdetail)
          exact Or.inl ⟨detail, heval⟩
        · have hreturns := hends.returns hreads hrejected
          rw [hhit] at hreturns
          cases hreturns
    | ok hit =>
      have heval : evaluatePolicyInput (policyInput org action payload policyVersion features)
          rules = .ok (joinOutput (runDeterministicLayers features) org.failMode hit) := by
        have hsame :
            (policyInput org action payload policyVersion features).firstMatchingRule rules =
              .ok hit := hhit
        exact evaluateOver_of_hit hsame _
      obtain ⟨hreads, hnot⟩ := hends.succeeds_iff.mp (Except.succeeds_iff.mpr ⟨hit, hhit⟩)
      constructor
      · rintro (⟨_, h⟩ | ⟨output, findings, houtput, hfindings, hplanned⟩)
        · cases heval.symm.trans h
        · have houtput := Except.ok.inj (houtput.symm.trans heval)
          refine ⟨hfits, hsole hreads, hsole (Or.inr ⟨?_, ?_⟩)⟩
          · exact evaluatePacks_succeeds.mp (Except.succeeds_iff.mpr ⟨findings, hfindings⟩)
          · intro hit' hhit'
            obtain rfl := Except.ok.inj (hhit.symm.trans hhit')
            exact (Explained.perm (perm_citedFindings hfindings)).mp
              ((explained_iff houtput).mp hplanned)
      · intro h
        obtain ⟨hread, hexplained⟩ := (h.judged features hfeatures).resolve_left hnot
        obtain ⟨findings, hfindings⟩ := Except.succeeds_iff.mp (evaluatePacks_succeeds.mpr hread :
          (evaluatePacks action payload features db org.id).succeeds = true)
        exact Or.inr ⟨_, findings, heval, hfindings, (explained_iff rfl).mpr
          ((Explained.perm (perm_citedFindings hfindings)).mpr (hexplained hit hhit))⟩

end Returns

/-! ## A preview and the gate -/

/-- A sealed payload holds what the preview shows. -/
structure SealedAs (out : PreviewOut) (payload : Dict) : Prop where
  tier : out.tier.map (fun t => JVal.str t.name) = payload.get? "tier"
  policyTier : out.policyTier.map (fun t => JVal.str t.name) = payload.get? "policy_tier"
  decision : out.decision.map (fun d => JVal.str d.name) = payload.get? "decision"
  allowed : out.allowed.map JVal.bool = payload.get? "allowed"
  reasons : payload.get? "reasons" = some (.arr (out.reasons.map JVal.str))
  ruleId : payload.get? "rule_id" = some (optStr out.ruleId)
  findings : payload.get? "regulatory_findings" =
    some (.arr (out.findings.map fun f => .obj f.toDict))
  remediation : out.remediationPreview.map JVal.obj = payload.get? "remediation"

section Agrees

variable [SignatureScheme] [KeyWrapping] [PyUnicode] {svc : SigningKeyPair} {db db' : Db}

/-- What a gate call returned and sealed is what the preview shows. -/
structure GateAgrees (out : PreviewOut) (db' : Db) (gate : GateOut) : Prop where
  status : out.status = some gate.status
  tier : out.tier = gate.tier
  allowed : out.allowed = some gate.allowed
  reasons : out.reasons = gate.reasons
  findings : out.findings = gate.findings
  jurisdictions : out.jurisdictions = gate.jurisdictions
  remediation : out.remediationPreview = gate.suggestedFix.map chainSummary
  sealed : ∃ e ∈ db'.events, ∃ args version payload,
    Event.Records (decisionRecord args version payload) e ∧ gate.decisionSeq = some e.seq ∧
      SealedAs out payload

/-- A gate call on the previewed output, judged by the stored policy, to which no model
writes a rewrite. -/
structure GatesSame (db : Db) (org : Org) (action : String) (payload : Dict) (policy : Policy)
    (args : GateArgs) (fresh : GateFresh) : Prop where
  org_eq : args.org = org
  action_eq : args.action = action
  output_eq : args.output = payload
  policy_eq : selectPolicy db org.id args.policyVersion = some policy
  undrafted : ∀ draft ∈ fresh.precheck.drafts, draft = none

theorem rewriteLoop_undrafted {org : Org} {action : String} {policy : Policy}
    (p : RemediationPlan) :
    ∀ {drafts : List (Option RewriteDraft)}, (∀ draft ∈ drafts, draft = none) →
      rewriteLoop db org action policy p drafts = .ok p
  | [], _ => rfl
  | none :: _, _ => rfl
  | some draft :: _, h => nomatch h (some draft) List.mem_cons_self

/-- Without a rewrite the plan is the planner's. -/
theorem remediate_undrafted {args : PrecheckArgs} {policy : Policy} {output : PolicyOutput}
    {features : FeatureVector} {findings : List PackFinding} {drafts : List (Option RewriteDraft)}
    {status : Status} (h : ∀ draft ∈ drafts, draft = none)
    (hstatus : deriveStatus (tierAllowsAction output.tier args.org.failMode output.allowed)
      (combinedTier output.tier findings) findings = status) :
    remediate db args policy output features findings drafts =
      .ok (if status = .flagged ∨ status = .blocked then
        plan args.payload features findings output.reasons
          (!tierAllowsAction output.tier args.org.failMode output.allowed) else none) := by
  unfold remediate
  simp only [hstatus, rewriteLoop_undrafted _ h]
  split
  · rename_i hnone
    rw [hnone]
  · rename_i p hsome
    rw [hsome]
    split <;> rfl

/-- The decision event of a gate call. -/
theorem GateStages.sealed {args : GateArgs} {fresh : GateFresh} {out : GateOut}
    {remediated : Option PolicyDecisionSummary} {db₁ db₂ db₃ : Db} {d : DecisionOut}
    {event : EventOut} (h : GateStages svc db args fresh db' out remediated db₁ db₂ db₃ d event)
    {e : Event} (he : e ∈ db₂.events) : e ∈ db'.events := by
  obtain ⟨version, hrecord⟩ := h.recorded
  obtain ⟨e', ts, ps, ks, -, -, -, hdb₃⟩ := recordEvent_eq_ok hrecord
  obtain ⟨ss, hdb'⟩ := settleSummaries_eq_ok h.settled
  rw [hdb', hdb₃]
  exact List.mem_append_left _ he

/-- What a preview that returned shows, of an output the policy could judge. -/
structure Shows (db : Db) (org : Org) (payload : Dict) (features : FeatureVector)
    (output : PolicyOutput) (findings : List PackFinding) (out : PreviewOut) : Prop where
  status_eq : out.status = some (deriveStatus output.allowed (combinedTier output.tier findings)
    findings)
  tier_eq : out.tier = some (combinedTier output.tier findings)
  policyTier_eq : out.policyTier = some output.tier
  decision_eq : out.decision = some output.decision
  allowed_eq : out.allowed = some output.allowed
  reasons_eq : out.reasons = output.reasons
  ruleId_eq : out.ruleId = output.ruleId
  findings_eq : out.findings = findings
  jurisdictions_eq : out.jurisdictions = jurisdictionsTouched findings
  remediation_eq : previewPlan (deriveStatus output.allowed (combinedTier output.tier findings)
    findings) (plan payload features findings output.reasons (!output.allowed)) =
      .ok out.remediationPreview

/-- A preview that returned was refused the policy, or shows what it concluded. -/
theorem preview_eq_ok {org : Org} {action : String} {payload : Dict} {policy : Policy}
    {out : PreviewOut}
    (h : preview db org action payload policy.version policy.rules = .ok out) :
    ∃ features, extractFeatures action payload = .ok features ∧
      (((∃ detail, evaluatePolicyInput (policyInput org action payload policy.version features)
          policy.rules = .error (.policyEngine detail)) ∧ out.status = none) ∨
        ∃ output findings, evaluatePolicyInput (policyInput org action payload policy.version
            features) policy.rules = .ok output ∧
          evaluatePacks action payload features db org.id = .ok findings ∧
            Shows db org payload features output findings out) := by
  simp only [preview, Except.bind_eq_ok] at h
  obtain ⟨features, hfeatures, h⟩ := h
  refine ⟨features, hfeatures, ?_⟩
  split at h <;> rename_i heval
  · obtain rfl := Except.ok.inj h
    exact Or.inl ⟨⟨_, heval⟩, rfl⟩
  · cases h
  · simp only [Except.bind_eq_ok, Except.pure_eq, Except.ok.injEq] at h
    obtain ⟨findings, hfindings, shape, hshape, rfl⟩ := h
    exact Or.inr ⟨_, findings, heval, hfindings, rfl, rfl, rfl, rfl, rfl, rfl, rfl,
      rfl, rfl, hshape⟩

/-- The re-check that records nothing gives the status of the preview. -/
theorem unrecordedStatus_of_preview {org : Org} {action : String} {payload : Dict}
    {policy : Policy} {out : PreviewOut}
    (h : preview db org action payload policy.version policy.rules = .ok out) :
    unrecordedStatus db org action payload policy = .ok out.status := by
  obtain ⟨features, hfeatures, ⟨⟨detail, heval⟩, hstatus⟩ | ⟨output, findings, heval, hfindings,
    hshows⟩⟩ := preview_eq_ok h
  · simp only [unrecordedStatus, hfeatures, Except.ok_bind', heval, hstatus, Except.pure_eq]
  · simp only [unrecordedStatus, hfeatures, Except.ok_bind', heval, hfindings, hshows.status_eq,
      Except.pure_eq, tierAllowsAction]

/-- The plan that a preview has read the shape of. -/
theorem previewPlan_eq_ok {status : Status} {p : Option RemediationPlan} {shape : Option Dict}
    (h : previewPlan status p = .ok shape) :
    shape = (if status = .flagged ∨ status = .blocked then p else none).map chainSummary := by
  unfold previewPlan at h
  split at h
  · rename_i hcause
    rw [if_pos hcause]
    cases p with
    | none => cases h
    | some p => exact (Except.ok.inj h).symm
  · rename_i hcause
    rw [if_neg hcause]
    exact (Except.ok.inj h).symm

/-- The payload of the decision holds what the preview shows. -/
theorem Shows.sealedAs {args : PrecheckArgs} {policyVersion : String} {features : FeatureVector}
    {output : PolicyOutput} {findings : List PackFinding} {out : PreviewOut}
    {p : Option RemediationPlan} (h : Shows db args.org args.payload features output findings out)
    (hplan : out.remediationPreview = p.map chainSummary) :
    SealedAs out (decisionPayload args policyVersion output features findings p) := by
  refine ⟨?_, ?_, ?_, ?_, ?_, ?_, ?_, ?_⟩
  · rw [h.tier_eq]
    rfl
  · rw [h.policyTier_eq]
    rfl
  · rw [h.decision_eq]
    rfl
  · rw [h.allowed_eq]
    rfl
  · rw [h.reasons_eq]
    rfl
  · rw [h.ruleId_eq]
    rfl
  · rw [h.findings_eq]
    rfl
  · rw [hplan]
    cases hof : args.remediationOf <;> cases p <;> simp [decisionPayload, hof, Dict.get?]

/-- The gate agrees with a preview that did not report an error. -/
theorem gateAgrees_of_preview {org : Org} {action : String} {payload : Dict} {policy : Policy}
    {out : PreviewOut} {args : GateArgs} {fresh : GateFresh} {gate : GateOut}
    (h : preview db org action payload policy.version policy.rules = .ok out)
    (hstatus : out.status ≠ none) (hsame : GatesSame db org action payload policy args fresh)
    (hgate : runGate svc db args fresh = .ok (db', gate)) : GateAgrees out db' gate := by
  obtain ⟨rfl, rfl, rfl, hpolicy, hdrafts⟩ := hsame
  obtain ⟨features, hfeatures, ⟨-, hnone⟩ | ⟨output, findings, heval, hfindings, hshows⟩⟩ :=
    preview_eq_ok h
  · exact absurd hnone hstatus
  rcases runGate_cases hgate with hunevaluated | ⟨remediated, db₁, db₂, db₃, d, event, hstages⟩
  · cases hunevaluated.policy.symm.trans hpolicy
  obtain ⟨ts, rfl⟩ := hstages.opened
  have hconcluded := runPrecheck_evaluated hstages.prechecked hpolicy hfeatures heval
  have hanswer := hconcluded.answer
  have hsame : d.findings = findings :=
    Except.ok.inj (hconcluded.findings_eq.symm.trans hfindings)
  have hplan : out.remediationPreview = d.remediationPlan.map chainSummary := by
    have hremediate := hconcluded.plan_eq
    rw [hsame, remediate_undrafted hdrafts rfl] at hremediate
    rw [previewPlan_eq_ok hshows.remediation_eq, ← Except.ok.inj hremediate]
    rfl
  obtain ⟨e, told, -, hadds⟩ := hconcluded.adds
  have hevent : e ∈ db'.events := by
    refine hstages.sealed ?_
    obtain ⟨_, _, _, hdb₂⟩ := hadds.rows
    rw [hdb₂]
    exact List.mem_append_right _ (List.mem_singleton_self e)
  rw [hstages.out_eq]
  refine ⟨?_, ?_, ?_, ?_, ?_, ?_, hplan, e, hevent, _, _, _, hadds.records, ?_, ?_⟩
  · rw [hshows.status_eq, judgedOut, DecisionOut.status, hanswer.allowed_eq, hanswer.tier_eq, hsame]
  · rw [hshows.tier_eq, judgedOut, hanswer.tier_eq, hsame]
  · rw [hshows.allowed_eq, judgedOut, hanswer.allowed_eq]
  · rw [hshows.reasons_eq, judgedOut, hanswer.reasons_eq]
  · rw [hshows.findings_eq, judgedOut, hsame]
  · rw [hshows.jurisdictions_eq, judgedOut, hanswer.jurisdictions_eq, hsame]
  · rw [judgedOut, hadds.seq_eq]
  · rw [hsame]
    exact hshows.sealedAs hplan

/-- The preview returns, and where it reports no error the re-check and the gate agree with
it. -/
def PreviewAgrees (svc : SigningKeyPair) (db : Db) (org : Org) (action : String) (payload : Dict)
    (policy : Policy) : Prop :=
  ∃ out, preview db org action payload policy.version policy.rules = .ok out ∧
    (out.status ≠ none → unrecordedStatus db org action payload policy = .ok out.status ∧
      ∀ args fresh db' gate, GatesSame db org action payload policy args fresh →
        runGate svc db args fresh = .ok (db', gate) → GateAgrees out db' gate)

/-- Preview, re-check and gate agree exactly where the preview returns. -/
theorem preview_agrees (svc : SigningKeyPair) (db : Db) (org : Org) (action : String)
    (payload : Dict) (policy : Policy) :
    PreviewAgrees svc db org action payload policy ↔
      Previewable db org action payload policy.rules := by
  rw [← preview_succeeds db org action payload policy.version, Except.succeeds_iff]
  constructor
  · rintro ⟨out, hout, -⟩
    exact ⟨out, hout⟩
  · rintro ⟨out, hout⟩
    exact ⟨out, hout, fun hstatus => ⟨unrecordedStatus_of_preview hout,
      fun args fresh db' gate hsame hgate => gateAgrees_of_preview hout hstatus hsame hgate⟩⟩

end Agrees

/-! ## A sample flag without a plan -/

section Samples

open Sample

/-- A high amount raises a flag that no plan names. -/
theorem high_amount_raises : ¬PreviewAgrees sampleKey (sampleWith samplePolicy) sampleOrg "note"
    [("amount_aed", .int 250000)] samplePolicy := by
  rintro ⟨out, hout, -⟩
  have hraises : (preview (sampleWith samplePolicy) sampleOrg "note" [("amount_aed", .int 250000)]
      samplePolicy.version samplePolicy.rules).succeeds = false := by
    decide +kernel
  rw [hout] at hraises
  cases hraises

end Samples

end Attest
