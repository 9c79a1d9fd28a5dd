import Attest.Lib.Ranked
import Attest.Returning
import Attest.Workflow

/-!
# Packs advise

`citedFindings` are the findings that the rules of an organisation's packs give, one for
each rule whose tier is valid and whose match holds. `evaluatePacks` returns them strictest
first, those of a tier in the order of their rules, whenever it returns, which is when each
tier can be looked up (`evaluatePacks_cites`).

What the packs find reaches the tier, the status and the plan of a decision and nothing
else : under two sets of packs the organisation's own policy gives one answer, and more
packs never lower the tier or clear a flag (`packs_advisory`).
-/

set_option linter.unusedSectionVars false

namespace Attest

/-! ## What the packs cite -/

/-- The tier a value names. -/
def namedTier : JVal → Option RiskTier
  | .str name => RiskTier.ofName? name
  | _ => none

theorem readTier_eq_ok {v : JVal} {found : Option RiskTier} (h : readTier v = .ok found) :
    found = namedTier v := by
  unfold readTier at h
  split at h
  · rw [← Except.ok.inj h]
    cases v <;> rfl
  · cases h

section Cites

variable [PyUnicode] (action : String) (payload : Dict) (features : FeatureVector)

/-- The finding of a rule that is an object with a valid tier and whose match holds without
error. -/
def citedFinding (pack : RegulationPack) (enforcement : String) : JVal → Option PackFinding
  | .obj rule =>
    match namedTier (ruleTier rule), ruleMatches serverHintKeys action payload features rule with
    | some tier, .ok true => some (packFinding pack enforcement rule tier)
    | _, _ => none
  | _ => none

/-- The findings of all rules, in pack and rule order. -/
def citedFindings (db : Db) (orgId : String) : List PackFinding :=
  (activePacksForOrg db orgId).flatMap fun p =>
    (packRules p.1.rules).filterMap (citedFinding action payload features p.1 p.2)

/-- The findings are those expected, by descending tier and within a tier in the order
expected. -/
structure StrictestFirst (expected findings : List PackFinding) : Prop where
  perm : findings.Perm expected
  ordered : findings.Pairwise fun f g => g.tier.rank ≤ f.tier.rank
  stable : ∀ tier, findings.filter (fun f => f.tier = tier) =
    expected.filter fun f => f.tier = tier

variable {action payload features}

theorem ruleFinding_cites {pack : RegulationPack} {enforcement : String} {v : JVal}
    {found : Option PackFinding}
    (h : ruleFinding action payload features pack enforcement v = .ok found) :
    found = citedFinding action payload features pack enforcement v := by
  simp only [ruleFinding, Except.bind_eq_ok, Except.pure_eq, Except.ok.injEq] at h
  obtain ⟨tier, htier, rfl⟩ := h
  cases v with
  | obj rule =>
    simp only [packRuleTier, Except.bind_eq_ok] at htier
    obtain ⟨valid, hvalid, htier⟩ := htier
    rw [readTier_eq_ok hvalid] at htier
    simp only [citedFinding]
    cases hnamed : namedTier (ruleTier rule) with
    | none =>
      rw [hnamed] at htier
      obtain rfl := Except.ok.inj htier
      rfl
    | some t =>
      rw [hnamed] at htier
      obtain rfl := Except.ok.inj htier
      cases hmatch : ruleMatches serverHintKeys action payload features rule with
      | error e => rfl
      | ok hit => cases hit <;> rfl
  | _ =>
    obtain rfl := Except.ok.inj htier
    rfl

/-- The enforcement of a pack is on its findings, and decides none of them. -/
theorem citedFinding_enforcement (pack : RegulationPack) (enforcement enforcement' : String)
    (v : JVal) : citedFinding action payload features pack enforcement' v =
      (citedFinding action payload features pack enforcement v).map fun f =>
        { f with enforcement := enforcement' } := by
  cases v with
  | obj rule =>
    simp only [citedFinding]
    split <;> rfl
  | _ => rfl

theorem packFindings_cites {p : RegulationPack × String} {found : List PackFinding}
    (h : packFindings action payload features p = .ok found) :
    found = (packRules p.1.rules).filterMap (citedFinding action payload features p.1 p.2) := by
  simp only [packFindings, Except.bind_eq_ok, Except.pure_eq, Except.ok.injEq] at h
  obtain ⟨founds, hfounds, rfl⟩ := h
  rw [Except.eq_map_of_mapM hfounds fun _ _ => ruleFinding_cites, List.filterMap_map]
  rfl

/-- The packs that return cite. -/
theorem evaluatePacks_eq_ok {db : Db} {orgId : String} {findings : List PackFinding}
    (h : evaluatePacks action payload features db orgId = .ok findings) :
    findings =
      (citedFindings action payload features db orgId).sortByRank fun f => f.tier.rank := by
  simp only [evaluatePacks, Except.bind_eq_ok, Except.pure_eq, Except.ok.injEq] at h
  obtain ⟨founds, hfounds, rfl⟩ := h
  rw [Except.eq_map_of_mapM hfounds fun _ _ => packFindings_cites, ← List.flatMap_def]
  rfl

theorem strictestFirst_sortByRank (expected : List PackFinding) :
    StrictestFirst expected (expected.sortByRank fun f => f.tier.rank) where
  perm := List.perm_sortByRank
  ordered := List.pairwise_sortByRank
  stable tier := List.filter_sortByRank fun f g hf hg => by
    rw [of_decide_eq_true hf, of_decide_eq_true hg]

/-- The packs return what they cite, strictest first, exactly when each tier of their
rules can be looked up. -/
theorem evaluatePacks_cites (action : String) (payload : Dict) (features : FeatureVector)
    (db : Db) (orgId : String) :
    (∃ findings, evaluatePacks action payload features db orgId = .ok findings ∧
      StrictestFirst (citedFindings action payload features db orgId) findings) ↔
      PacksRead db orgId := by
  rw [← evaluatePacks_succeeds, Except.succeeds_iff]
  constructor
  · rintro ⟨findings, hfindings, -⟩
    exact ⟨findings, hfindings⟩
  · rintro ⟨findings, hfindings⟩
    refine ⟨findings, hfindings, ?_⟩
    rw [evaluatePacks_eq_ok hfindings]
    exact strictestFirst_sortByRank _

end Cites

/-! ## Tiers and status under the packs -/

/-- The combined tier is the least that is at least the policy's and each finding's. -/
theorem combinedTier_rank_le {tier : RiskTier} {findings : List PackFinding} {n : Nat} :
    (combinedTier tier findings).rank ≤ n ↔ tier.rank ≤ n ∧ ∀ f ∈ findings, f.tier.rank ≤ n :=
  List.foldl_rank_le fun t (f : PackFinding) => rank_maxTier t f.tier

theorem rank_le_combinedTier (tier : RiskTier) (findings : List PackFinding) :
    tier.rank ≤ (combinedTier tier findings).rank :=
  (combinedTier_rank_le.mp le_rfl).1

/-- Each finding has its tier among the others. -/
def TiersIn (findings findings' : List PackFinding) : Prop :=
  ∀ f ∈ findings, ∃ g ∈ findings', g.tier = f.tier

theorem TiersIn.combinedTier_le {findings findings' : List PackFinding}
    (h : TiersIn findings findings') (tier : RiskTier) :
    (combinedTier tier findings).rank ≤ (combinedTier tier findings').rank := by
  refine combinedTier_rank_le.mpr ⟨rank_le_combinedTier tier findings', fun f hf => ?_⟩
  obtain ⟨g, hg, htier⟩ := h f hf
  rw [← htier]
  exact (combinedTier_rank_le.mp le_rfl).2 g hg

theorem isFlagging_iff {tier : RiskTier} : tier.isFlagging = true ↔ 2 ≤ tier.rank := by
  cases tier <;> decide

theorem deriveStatus_eq_flagged {tier : RiskTier} {findings : List PackFinding} {allowed : Bool} :
    deriveStatus allowed tier findings = .flagged ↔
      allowed = true ∧ (2 ≤ tier.rank ∨ findings ≠ []) := by
  rw [← isFlagging_iff]
  cases allowed with
  | false => simp [deriveStatus]
  | true => by_cases hflag : (tier.isFlagging || !findings.isEmpty) = true <;>
      simp_all [deriveStatus]

/-- With more findings a flag stays a flag. -/
theorem TiersIn.flagged {findings findings' : List PackFinding} (h : TiersIn findings findings')
    {allowed : Bool} {tier : RiskTier}
    (hflagged : deriveStatus allowed (combinedTier tier findings) findings = .flagged) :
    deriveStatus allowed (combinedTier tier findings') findings' = .flagged := by
  obtain ⟨hallowed, hcause⟩ := deriveStatus_eq_flagged.mp hflagged
  refine deriveStatus_eq_flagged.mpr ⟨hallowed, hcause.imp (h.combinedTier_le tier).trans' ?_⟩
  intro hne
  obtain ⟨f, hf⟩ := List.exists_mem_of_ne_nil _ hne
  obtain ⟨g, hg, -⟩ := h f hf
  exact List.ne_nil_of_mem hg

/-! ## Two sets of packs -/

/-- Each tier of the organisation's packs is a text. -/
def StringTiers (db : Db) (orgId : String) : Prop :=
  ∀ p ∈ activePacksForOrg db orgId, ∀ rule, JVal.obj rule ∈ packRules p.1.rules →
    ∃ name, ruleTier rule = .str name

theorem StringTiers.packsRead {db : Db} {orgId : String} (h : StringTiers db orgId) :
    PacksRead db orgId := by
  intro p hp rule hrule
  obtain ⟨name, hname⟩ := h p hp rule hrule
  rw [hname]
  rfl

/-- The packs of the organisation in one database are among those in the other, with
whatever enforcement. -/
def PacksAmong (db₁ db₂ : Db) (orgId : String) : Prop :=
  ∀ p ∈ activePacksForOrg db₁ orgId, ∃ enforcement,
    (p.1, enforcement) ∈ activePacksForOrg db₂ orgId

/-- Two decisions say the same of the organisation's own policy. -/
structure SameOwnVerdict (d₁ d₂ : DecisionOut) : Prop where
  allowed : d₁.allowed = d₂.allowed
  policyTier : d₁.policyTier = d₂.policyTier
  decision : d₁.decision = d₂.decision
  ruleId : d₁.ruleId = d₂.ruleId
  reasons : d₁.reasons = d₂.reasons

section TwoRuns

variable [PyUnicode]

theorem PacksAmong.tiersIn {db₁ db₂ : Db} {orgId action : String} {payload : Dict}
    {features : FeatureVector} {findings₁ findings₂ : List PackFinding}
    (h : PacksAmong db₁ db₂ orgId)
    (h₁ : evaluatePacks action payload features db₁ orgId = .ok findings₁)
    (h₂ : evaluatePacks action payload features db₂ orgId = .ok findings₂) :
    TiersIn findings₁ findings₂ := by
  intro f hf
  rw [evaluatePacks_eq_ok h₁, List.perm_sortByRank.mem_iff] at hf
  obtain ⟨p, hp, hf⟩ := List.mem_flatMap.mp hf
  obtain ⟨v, hv, hcited⟩ := List.mem_filterMap.mp hf
  obtain ⟨enforcement, hp'⟩ := h p hp
  have hcited' : citedFinding action payload features p.1 enforcement v =
      some { f with enforcement := enforcement } := by
    rw [citedFinding_enforcement p.1 p.2, hcited]
    rfl
  refine ⟨{ f with enforcement := enforcement }, ?_, rfl⟩
  rw [evaluatePacks_eq_ok h₂, List.perm_sortByRank.mem_iff]
  exact List.mem_flatMap.mpr ⟨_, hp', List.mem_filterMap.mpr ⟨v, hv, hcited'⟩⟩

/-- The drafts of the model can be judged. -/
def DraftsJudged (db : Db) (org : Org) (action : String) (policy : Policy)
    (drafts : List (Option RewriteDraft)) : Prop :=
  ∀ draft, some draft ∈ drafts → ∃ status, unrecordedStatus db org action draft.output policy =
    .ok status

theorem DraftsJudged.rewriteLoop_returns {db : Db} {org : Org} {action : String} {policy : Policy}
    (p : RemediationPlan) : ∀ {drafts : List (Option RewriteDraft)},
      DraftsJudged db org action policy drafts →
        ∃ p', rewriteLoop db org action policy p drafts = .ok p'
  | [], _ => ⟨p, rfl⟩
  | none :: _, _ => ⟨p, rfl⟩
  | some draft :: drafts, h => by
    obtain ⟨status, hstatus⟩ := h draft List.mem_cons_self
    simp only [rewriteLoop, hstatus, Except.ok_bind']
    split
    · exact ⟨_, rfl⟩
    · exact rewriteLoop_returns p fun d hd => h d (List.mem_cons_of_mem _ hd)

theorem DraftsJudged.remediate_returns {db : Db} {args : PrecheckArgs} {policy : Policy}
    {drafts : List (Option RewriteDraft)} (h : DraftsJudged db args.org args.action policy drafts)
    (output : PolicyOutput) (features : FeatureVector) (findings : List PackFinding) :
    ∃ plan, remediate db args policy output features findings drafts = .ok plan := by
  unfold remediate
  simp only
  split
  · exact ⟨_, rfl⟩
  · rename_i p _
    split
    · obtain ⟨p', hp'⟩ := h.rewriteLoop_returns p
      exact ⟨some p', by rw [hp']; rfl⟩
    · exact ⟨_, rfl⟩

variable [KeyUnwrapping] [SignatureScheme] {svc : SigningKeyPair}

/-- Two prechecks of one output, the first under the packs of `db₁` and the second under
those of `db₂` : what the packs may change, and what they may not. -/
structure PacksAdvise (db₁ db₂ : Db) (orgId : String) (d₁ d₂ : DecisionOut) : Prop where
  own : SameOwnVerdict d₁ d₂
  floor : ∃ tier, d₁.policyTier = some tier ∧ tier.rank ≤ d₁.tier.rank ∧ tier.rank ≤ d₂.tier.rank
  monotone : PacksAmong db₁ db₂ orgId → d₁.tier.rank ≤ d₂.tier.rank
  flagged : PacksAmong db₁ db₂ orgId → d₁.status = .flagged → d₂.status ≠ .compliant

/-- Packs are advisory. Where the organisation's policy can be evaluated on an output and
the tiers of the packs are texts, two prechecks under different packs say the same of the
policy, the tier is never below the policy's, and more packs never lower it or clear a flag.
Under each set of packs a precheck that is given its place returns. -/
theorem packs_advisory (svc : SigningKeyPair) (args : PrecheckArgs) {db₁ db₂ : Db}
    {policy : Policy} {features : FeatureVector} {output : PolicyOutput}
    (hpolicies : db₁.policies = db₂.policies)
    (hpolicy : selectPolicy db₁ args.org.id args.policyVersion = some policy)
    (hfeatures : extractFeatures args.action args.payload = .ok features)
    (houtput : evaluatePolicyInput (policyInput args.org args.action args.payload policy.version
      features) policy.rules = .ok output)
    (htiers₁ : StringTiers db₁ args.org.id) (htiers₂ : StringTiers db₂ args.org.id) :
    (∀ fresh₁ fresh₂ db₁' db₂' d₁ d₂, runPrecheck svc db₁ args fresh₁ = .ok (db₁', d₁) →
      runPrecheck svc db₂ args fresh₂ = .ok (db₂', d₂) →
        PacksAdvise db₁ db₂ args.org.id d₁ d₂) ∧
      ∀ db, db = db₁ ∨ db = db₂ → ∀ fresh, db.Stocked → PrecheckFits db args fresh →
        textOk policy.version = true → DraftsJudged db args.org args.action policy fresh.drafts →
          ∃ db' d, runPrecheck svc db args fresh = .ok (db', d) := by
  have hpolicy₂ : selectPolicy db₂ args.org.id args.policyVersion = some policy := by
    rw [selectPolicy_congr hpolicies.symm, hpolicy]
  constructor
  · intro fresh₁ fresh₂ db₁' db₂' d₁ d₂ h₁ h₂
    obtain ⟨hfrom₁, hfindings₁, -⟩ := runPrecheck_evaluated h₁ hpolicy hfeatures houtput
    obtain ⟨hfrom₂, hfindings₂, -⟩ := runPrecheck_evaluated h₂ hpolicy₂ hfeatures houtput
    have hallowed : d₁.allowed = d₂.allowed := hfrom₁.allowed_eq.trans hfrom₂.allowed_eq.symm
    refine ⟨⟨hallowed, ?_, ?_, ?_, ?_⟩, ⟨output.tier, hfrom₁.policyTier_eq, ?_, ?_⟩, ?_, ?_⟩
    · exact hfrom₁.policyTier_eq.trans hfrom₂.policyTier_eq.symm
    · exact hfrom₁.decision_eq.trans hfrom₂.decision_eq.symm
    · exact hfrom₁.ruleId_eq.trans hfrom₂.ruleId_eq.symm
    · exact hfrom₁.reasons_eq.trans hfrom₂.reasons_eq.symm
    · rw [hfrom₁.tier_eq]
      exact rank_le_combinedTier _ _
    · rw [hfrom₂.tier_eq]
      exact rank_le_combinedTier _ _
    · intro hamong
      rw [hfrom₁.tier_eq, hfrom₂.tier_eq]
      exact (hamong.tiersIn hfindings₁ hfindings₂).combinedTier_le _
    · intro hamong hflagged hcompliant
      rw [DecisionOut.status, hfrom₁.tier_eq] at hflagged
      have hstays := (hamong.tiersIn hfindings₁ hfindings₂).flagged hflagged
      rw [DecisionOut.status, hfrom₂.tier_eq, ← hallowed, hstays] at hcompliant
      cases hcompliant
  · intro db hdb fresh hstocked hfits hversion hdrafts
    have hread : PacksRead db args.org.id := by
      rcases hdb with rfl | rfl
      · exact htiers₁.packsRead
      · exact htiers₂.packsRead
    have hselect : selectPolicy db args.org.id args.policyVersion = some policy := by
      rcases hdb with rfl | rfl
      · exact hpolicy
      · exact hpolicy₂
    have hreturns : (evaluatePacks args.action args.payload features db args.org.id).succeeds =
        true := evaluatePacks_succeeds.mpr hread
    obtain ⟨findings, hfindings⟩ := Except.succeeds_iff.mp hreturns
    obtain ⟨plan, hplan⟩ := hdrafts.remediate_returns output features findings
    obtain ⟨db', d, h, -⟩ := runPrecheck_returns hstocked hfits svc hselect hversion
      (.concludes hfeatures (.evaluated houtput) hfindings hplan)
    exact ⟨db', d, h⟩

end TwoRuns

/-! ## Sample packs -/

section Samples

open Sample

/-- A pack with one rule, on notes. -/
def samplePack (tier : JVal) : RegulationPack where
  id := Uuid.ofNat 21
  code := "notes"
  jurisdiction := "AE"
  instrument := "Notice"
  sourceUrl := none
  verificationStatus := "draft"
  rules := .obj [("rules", .arr [.obj [("id", .str "note"), ("tier", tier),
    ("match", .obj [("action", .str "note")])]])]
  createdAt := 0

/-- An organisation with an open trace that enables packs. -/
def sampleAdvised (packs : List RegulationPack) : Db :=
  { sampleOpened samplePolicy with
    packs := packs
    orgPacks := packs.map fun p => ⟨"acme", p.id, "advisory", true⟩ }

theorem stocked_sampleAdvised (packs : List RegulationPack) : (sampleAdvised packs).Stocked := by
  have hbare := bare_sampleBlank.stocked
  exact ⟨hbare.orgs, hbare.managed, List.nodup_singleton _, List.forall_mem_nil _,
    ⟨hbare.keyed.payloads,
    hbare.keyed.payloadKeys⟩, hbare.sealed, hbare.keys, hbare.locked, hbare.recorded, hbare.stored⟩

theorem fits_sampleAdvised (packs : List RegulationPack) {action : String}
    (haction : textOk action = true) (payload : Dict) :
    PrecheckFits (sampleAdvised packs) (samplePrecheckArgs action payload) samplePrecheckFresh where
  org := rfl
  there := ⟨_, List.mem_singleton_self _, rfl, rfl⟩
  action := haction
  next := rfl
  event := List.forall_mem_nil _
  summary := List.forall_mem_nil _
  approval := List.forall_mem_nil _
  wraps := by
    intro pem hpem
    cases hpem

/-- A note under no pack and under one that flags it. -/
theorem packs_advisory_sample : ∃ d₁ d₂ : DecisionOut,
    PacksAdvise (sampleAdvised []) (sampleAdvised [samplePack (.str "orange")]) "acme" d₁ d₂ := by
  obtain ⟨features, hfeatures⟩ : ∃ features, extractFeatures "note" [] = .ok features := ⟨_, rfl⟩
  obtain ⟨output, houtput⟩ : ∃ output, evaluatePolicyInput (policyInput sampleOrg "note" []
      samplePolicy.version features) samplePolicy.rules = .ok output := by
    obtain rfl := Except.ok.inj hfeatures
    exact ⟨_, rfl⟩
  have hnone : StringTiers (sampleAdvised []) "acme" := List.forall_mem_nil _
  have htexts : StringTiers (sampleAdvised [samplePack (.str "orange")]) "acme" := by
    intro p hp rule hrule
    obtain rfl := List.mem_singleton.mp hp
    obtain rfl := JVal.obj.inj (List.mem_singleton.mp hrule)
    exact ⟨"orange", rfl⟩
  have hpolicies : (sampleAdvised []).policies =
    (sampleAdvised [samplePack (.str "orange")]).policies := rfl
  obtain ⟨hadvise, hreturns⟩ := packs_advisory sampleKey (samplePrecheckArgs "note" []) hpolicies
    rfl hfeatures houtput hnone htexts
  obtain ⟨db₁', d₁, h₁⟩ := hreturns _ (Or.inl rfl) _ (stocked_sampleAdvised _)
    (fits_sampleAdvised _ (by decide) _) (by decide) nofun
  obtain ⟨db₂', d₂, h₂⟩ := hreturns _ (Or.inr rfl) _ (stocked_sampleAdvised _)
    (fits_sampleAdvised _ (by decide) _) (by decide) nofun
  exact ⟨d₁, d₂, hadvise _ _ _ _ _ _ h₁ h₂⟩

/-- A rule whose tier is a list takes the call down. -/
theorem listed_tier_raises : ∃ features, extractFeatures "note" [] = .ok features ∧
    ¬∃ findings, evaluatePacks "note" [] features
      (sampleAdvised [samplePack (.arr [.str "red"])]) "acme" = .ok findings ∧
        StrictestFirst (citedFindings "note" [] features
          (sampleAdvised [samplePack (.arr [.str "red"])]) "acme") findings := by
  refine ⟨_, rfl, ?_⟩
  rintro ⟨findings, hfindings, -⟩
  cases hfindings

end Samples

end Attest
