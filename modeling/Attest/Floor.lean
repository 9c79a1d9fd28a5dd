import Attest.Advisory
import Attest.Desk

/-!
# The floor of the gate

Recording is the floor of the gate : an output is recorded whatever its verdict. The gate
answers, and has recorded the output, exactly where the amount is one a float can hold, every
value the policy document reaches is one the evaluator can read, and the packs can be gone
through or the policy is refused under `deny_on_error` (`gate_records_iff`). A refusal under that
mode is a red denial with an approval of its own. Strings are of Unicode scalar values : the hash
of a payload with a lone surrogate raises.
-/

set_option linter.unusedSectionVars false

namespace Attest

/-! ## What is read of an output -/

section Reads

variable [PyUnicode]

/-- The features of an output can be extracted, and what the document reaches can be read. -/
structure OutputReads (action : String) (payload rulesDoc : Dict) : Prop where
  amount : AmountFits payload
  doc : ∀ features, extractFeatures action payload = .ok features →
    DocReads serverHintKeys action payload features rulesDoc

/-- The evaluator refuses the document on an output. -/
def RefusesOutput (action : String) (payload rulesDoc : Dict) : Prop :=
  ∃ features, extractFeatures action payload = .ok features ∧
    DocRejected serverHintKeys action payload features rulesDoc

/-- What is made of a value that was read ends as the reading does. -/
theorem Ends.map {α β : Type} {x : Except PyError α} {reads rejects : Prop} (f : α → β)
    (h : Ends x reads rejects) : Ends (do let a ← x; return f a) reads rejects := by
  refine ⟨fun hreads hrejects => ?_, fun hreads hrejects => ?_, fun hreads => ?_⟩
  · obtain ⟨msg, rfl⟩ := h.refuses hreads hrejects
    exact ⟨msg, rfl⟩
  · obtain ⟨a, rfl⟩ := Except.succeeds_iff.mp (h.returns hreads hrejects)
    rfl
  · obtain ⟨e, rfl, hengine⟩ := h.raises hreads
    exact ⟨e, rfl, hengine⟩

/-- An evaluation ends as the walk through the rules does. -/
theorem evaluatePolicyInput_ends (org : Org) (action : String) (payload : Dict) (version : String)
    (features : FeatureVector) (rulesDoc : Dict) :
    Ends (evaluatePolicyInput (policyInput org action payload version features) rulesDoc)
      (DocReads serverHintKeys action payload features rulesDoc)
      (DocRejected serverHintKeys action payload features rulesDoc) :=
  (firstMatchingRule_ends rulesDoc).map (joinOutput (runDeterministicLayers features) org.failMode)

theorem exists_features (action : String) {payload : Dict} :
    (∃ features, extractFeatures action payload = .ok features) ↔ AmountFits payload := by
  rw [← Except.succeeds_iff]
  exact extractFeatures_succeeds

/-- The verdict on an output that is not recorded is worked out where it can be read. -/
theorem OutputReads.unrecordedStatus_returns {db : Db} {org : Org} {action : String}
    {payload : Dict} {policy : Policy} (h : OutputReads action payload policy.rules)
    (hpacks : PacksRead db org.id) :
    ∃ status, unrecordedStatus db org action payload policy = .ok status := by
  obtain ⟨features, hfeatures⟩ := (exists_features action).mpr h.amount
  have hends := evaluatePolicyInput_ends org action payload policy.version features policy.rules
  simp only [unrecordedStatus, hfeatures, Except.ok_bind']
  by_cases hrejects : DocRejected serverHintKeys action payload features policy.rules
  · obtain ⟨msg, hrefused⟩ := hends.refuses (h.doc features hfeatures) hrejects
    rw [hrefused]
    exact ⟨none, rfl⟩
  · obtain ⟨output, houtput⟩ := Except.succeeds_iff.mp (hends.returns (h.doc features hfeatures)
      hrejects)
    have hfound : (evaluatePacks action payload features db org.id).succeeds = true :=
      evaluatePacks_succeeds.mpr hpacks
    obtain ⟨findings, hfindings⟩ := Except.succeeds_iff.mp hfound
    rw [houtput]
    simp only [hfindings, Except.ok_bind']
    exact ⟨_, rfl⟩

/-- The drafts of a rewrite can be judged, where it comes to them. -/
def DraftsFit (db : Db) (args : PrecheckArgs) (policy : Policy)
    (drafts : List (Option RewriteDraft)) : Prop :=
  ∀ features output findings, extractFeatures args.action args.payload = .ok features →
    Concludes args policy features output →
      evaluatePacks args.action args.payload features db args.org.id = .ok findings →
        ∃ plan, remediate db args policy output features findings drafts = .ok plan

/-- Drafts that can be read can be judged. -/
theorem draftsFit_of_reads {db : Db} {args : PrecheckArgs} {policy : Policy}
    {drafts : List (Option RewriteDraft)}
    (hdrafts : ∀ draft, some draft ∈ drafts → OutputReads args.action draft.output policy.rules) :
    DraftsFit db args policy drafts := by
  intro features output findings _ _ hfindings
  have hpacks : PacksRead db args.org.id :=
    evaluatePacks_succeeds.mp (Except.succeeds_iff.mpr ⟨findings, hfindings⟩)
  have hjudged : DraftsJudged db args.org args.action policy drafts := fun draft hdraft =>
    (hdrafts draft hdraft).unrecordedStatus_returns hpacks
  exact hjudged.remediate_returns output features findings

/-- A verdict is worked out where the output can be read, and the packs too, unless the policy is
refused under `deny_on_error`, and where the drafts that are tried can be judged. -/
theorem judges_iff {db : Db} {args : PrecheckArgs} {policy : Policy}
    {drafts : List (Option RewriteDraft)} :
    Judges db args policy drafts ↔ OutputReads args.action args.payload policy.rules ∧
      (PacksRead db args.org.id ∨ (RefusesOutput args.action args.payload policy.rules ∧
        args.org.failMode = "deny_on_error")) ∧ DraftsFit db args policy drafts := by
  have hends (features : FeatureVector) := evaluatePolicyInput_ends args.org args.action
    args.payload policy.version features policy.rules
  -- The features are those that were extracted.
  have hreads {features : FeatureVector}
      (hfeatures : extractFeatures args.action args.payload = .ok features)
      (hdoc : DocReads serverHintKeys args.action args.payload features policy.rules) :
      OutputReads args.action args.payload policy.rules := by
    refine ⟨(exists_features args.action).mp ⟨features, hfeatures⟩, fun features' hread => ?_⟩
    obtain rfl := Except.ok.inj (hfeatures.symm.trans hread)
    exact hdoc
  constructor
  · intro h
    cases h with
    | @failsClosed features detail hfeatures hfails =>
      obtain ⟨hdoc, hrejects⟩ := (hends features).refused_iff.mp ⟨detail, hfails.refused⟩
      refine ⟨hreads hfeatures hdoc, Or.inr ⟨⟨features, hfeatures, hrejects⟩, hfails.mode⟩, ?_⟩
      intro features' output findings hfeatures' hconcludes
      obtain rfl := Except.ok.inj (hfeatures.symm.trans hfeatures')
      exact absurd hconcludes (hfails.not_concludes output)
    | @concludes features output findings plan hfeatures hconcludes hfindings hplan =>
      have hdoc : DocReads serverHintKeys args.action args.payload features policy.rules := by
        cases hconcludes with
        | evaluated houtput =>
          exact ((hends features).succeeds_iff.mp (Except.succeeds_iff.mpr ⟨_, houtput⟩)).1
        | refused hrefused => exact ((hends features).refused_iff.mp ⟨_, hrefused⟩).1
      refine ⟨hreads hfeatures hdoc,
        Or.inl (evaluatePacks_succeeds.mp (Except.succeeds_iff.mpr ⟨findings, hfindings⟩)), ?_⟩
      intro features' output' findings' hfeatures' hconcludes' hfindings'
      obtain rfl := Except.ok.inj (hfeatures.symm.trans hfeatures')
      obtain rfl := hconcludes.unique hconcludes'
      obtain rfl := Except.ok.inj (hfindings.symm.trans hfindings')
      exact ⟨plan, hplan⟩
  · rintro ⟨hreads, hrest, hdrafts⟩
    obtain ⟨features, hfeatures⟩ := (exists_features args.action).mpr hreads.amount
    have hdoc := hreads.doc features hfeatures
    have hconcludes (hpacks : PacksRead db args.org.id) {output : PolicyOutput}
        (h : Concludes args policy features output) : Judges db args policy drafts := by
      have hfound : (evaluatePacks args.action args.payload features db args.org.id).succeeds =
          true := evaluatePacks_succeeds.mpr hpacks
      obtain ⟨findings, hfindings⟩ := Except.succeeds_iff.mp hfound
      obtain ⟨plan, hplan⟩ := hdrafts features output findings hfeatures h hfindings
      exact .concludes hfeatures h hfindings hplan
    by_cases hrejects : DocRejected serverHintKeys args.action args.payload features policy.rules
    · obtain ⟨msg, hrefused⟩ := (hends features).refuses hdoc hrejects
      by_cases hmode : args.org.failMode = "deny_on_error"
      · exact .failsClosed hfeatures ⟨hrefused, hmode⟩
      · refine hconcludes (hrest.resolve_right fun h => hmode h.2) (.refused hrefused hmode)
    · obtain ⟨output, houtput⟩ := Except.succeeds_iff.mp ((hends features).returns hdoc hrejects)
      refine hconcludes (hrest.resolve_right ?_) (.evaluated houtput)
      rintro ⟨⟨features', hfeatures', hrejects'⟩, -⟩
      obtain rfl := Except.ok.inj (hfeatures.symm.trans hfeatures')
      exact hrejects hrejects'

end Reads

/-! ## The gate -/

section Gate

variable [SignatureScheme] [KeyUnwrapping] [PyUnicode] {svc : SigningKeyPair}

/-- The organisation is there, the trace no other's, the action is named, what the call is said to
cure can be cured, and the ids are new. -/
structure GateOpens (db : Db) (args : GateArgs) (fresh : GateFresh) : Prop where
  org : db.hasOrg args.org.id = true
  trace : ∀ t ∈ db.traces, t.id = gateTrace args fresh → t.orgId = args.org.id
  named : PyText.isBlank args.action = false
  remediated : ∃ remediated, remediatedSummary db args = .ok remediated
  event : ∀ x ∈ db.events, x.id ≠ fresh.precheck.event.eventId
  output : ∀ x ∈ db.events, x.id ≠ fresh.output.eventId
  distinct : fresh.precheck.event.eventId ≠ fresh.output.eventId
  summary : ∀ s ∈ db.summaries, s.id ≠ fresh.precheck.summaryId
  approval : ∀ a ∈ db.approvals, a.id ≠ fresh.precheck.approval.id
  wraps : ∀ pem, db.wrapsTo args.org.id = some pem → KeyWrapping.publicKind pem = .usable

theorem GateOpens.fits {db : Db} {args : GateArgs} {fresh : GateFresh} (h : GateOpens db args fresh)
    (htexts : textOk args.action = true ∧ optTextOk args.policyVersion = true) :
    GateFits db args fresh :=
  ⟨⟨h.org, h.trace, h.named, htexts, h.remediated, h.event, h.output, h.distinct, h.summary,
    h.approval⟩, h.wraps⟩

/-- A version that a stored policy was selected by can be stored. -/
theorem optTextOk_of_selectPolicy {db : Db} {orgId : String} {policyVersion : Option String}
    {policy : Policy} (h : selectPolicy db orgId policyVersion = some policy)
    (hversion : textOk policy.version = true) : optTextOk policyVersion = true := by
  cases policyVersion with
  | none => rfl
  | some version =>
    by_cases hempty : version = ""
    · rw [hempty]
      decide
    · rw [selectPolicy, givenText, if_neg hempty] at h
      have hfound : (db.policies.find? fun p => p.orgId = orgId ∧ p.version = version) =
          some policy := h
      have hsame := List.find?_some hfound
      obtain ⟨-, hsame⟩ := of_decide_eq_true hsame
      rw [← hsame]
      exact hversion

/-- A gate call under a policy answers, with its output recorded, exactly where what it reads can
be read, and a refusal of the policy denies it where the fail mode says so. -/
theorem gate_records_iff (svc : SigningKeyPair) {db : Db} {args : GateArgs} {fresh : GateFresh}
    {policy : Policy} (h : db.Stocked) (hindex : IndexOk db) (hopens : GateOpens db args fresh)
    (hpolicy : selectPolicy db args.org.id args.policyVersion = some policy)
    (hversion : textOk policy.version = true)
    (hdrafts : ∀ draft, some draft ∈ fresh.precheck.drafts →
      OutputReads args.action draft.output policy.rules) :
    ((∃ db' out, runGate svc db args fresh = .ok (db', out)) ↔
      textOk args.action = true ∧ OutputReads args.action args.output policy.rules ∧
        (PacksRead db args.org.id ∨ (RefusesOutput args.action args.output policy.rules ∧
          args.org.failMode = "deny_on_error"))) ∧
    ∀ db' out, runGate svc db args fresh = .ok (db', out) → Gated db args fresh db' out ∧
      (RefusesOutput args.action args.output policy.rules →
        args.org.failMode = "deny_on_error" →
          ∃ features d, GateFailedClosed db args fresh db' out policy features d) := by
  have hjudges : Judges db (gatePrecheck db args fresh) policy fresh.precheck.drafts ↔
      OutputReads args.action args.output policy.rules ∧ (PacksRead db args.org.id ∨
        (RefusesOutput args.action args.output policy.rules ∧
          args.org.failMode = "deny_on_error")) := by
    have hfit : DraftsFit db (gatePrecheck db args fresh) policy fresh.precheck.drafts :=
      draftsFit_of_reads hdrafts
    refine judges_iff.trans ⟨fun h => ⟨h.1, h.2.1⟩, fun h => ⟨h.1, h.2, hfit⟩⟩
  constructor
  · constructor
    · rintro ⟨db', out, hgate⟩
      rcases runGate_cases hgate with hnone | ⟨remediated, _, db₂, db₃, d, event, hremediated,
        ⟨ts, rfl⟩, hprecheck, ⟨version, hrecord⟩, hsettle, hout⟩
      · cases hnone.policy.symm.trans hpolicy
      · refine ⟨textOk_of_recordEvent hrecord, hjudges.mp ?_⟩
        obtain ⟨policy', features, hpolicy', hfeatures, hend⟩ := runPrecheck_cases hprecheck
        obtain rfl : policy = policy' := Option.some.inj (hpolicy.symm.trans hpolicy')
        rcases hend with hfailed | ⟨output, hconcludes, hconcluded⟩
        · obtain ⟨detail, _, _, hfails, -⟩ := hfailed.out_eq
          exact .failsClosed hfeatures hfails
        · have hplan := hconcluded.plan_eq
          rw [remediate_traces] at hplan
          exact .concludes hfeatures hconcludes hconcluded.findings_eq hplan
    · rintro ⟨haction, hreads⟩
      exact runGate_returns h hindex (hopens.fits ⟨haction, optTextOk_of_selectPolicy hpolicy
        hversion⟩) svc hpolicy hversion (hjudges.mpr hreads)
  · intro db' out hgate
    refine ⟨runGate_eq_ok hgate, fun hrefuses hmode => ?_⟩
    obtain ⟨features, hfeatures, hrejects⟩ := hrefuses
    have hends := evaluatePolicyInput_ends args.org args.action args.output policy.version features
      policy.rules
    rcases runGate_effect hindex hgate with hnone | ⟨policy', features', d, hfailed⟩ |
      ⟨policy', features', output, remediated, d, row, event, hconcluded⟩
    · cases hnone.policy.symm.trans hpolicy
    · obtain rfl : policy = policy' := Option.some.inj (hpolicy.symm.trans hfailed.policy_eq)
      exact ⟨features', d, hfailed⟩
    · obtain rfl : policy = policy' := Option.some.inj (hpolicy.symm.trans hconcluded.policy_eq)
      obtain rfl := Except.ok.inj (hfeatures.symm.trans hconcluded.features_eq)
      cases hconcluded.concludes with
      | evaluated houtput =>
        exact absurd hrejects (hends.succeeds_iff.mp (Except.succeeds_iff.mpr ⟨_, houtput⟩)).2
      | refused _ hother => exact absurd hmode hother

end Gate

/-! ## A policy that cannot be evaluated -/

section Samples

open Sample

theorem opens_sampleWith (policy : Policy) (action : String) (payload : Dict)
    (haction : PyText.isBlank action = false) :
    GateOpens (sampleWith policy) (sampleGateArgs action payload) sampleGateFresh where
  org := rfl
  trace := List.forall_mem_nil _
  named := haction
  remediated := ⟨none, rfl⟩
  event := List.forall_mem_nil _
  output := List.forall_mem_nil _
  distinct := by decide
  summary := List.forall_mem_nil _
  approval := List.forall_mem_nil _
  wraps := by
    intro pem hpem
    cases hpem

/-- An output under rules that are no list is recorded, and denied. -/
theorem gate_records_iff_sample : ∃ db' out features d,
    GateFailedClosed (sampleWith sampleBrokenPolicy) (sampleGateArgs "note" []) sampleGateFresh db'
      out sampleBrokenPolicy features d := by
  obtain ⟨hanswers, hrecords⟩ := gate_records_iff sampleKey
    (stocked_sampleWith sampleBrokenPolicy) (indexOk_sampleWith _)
    (opens_sampleWith sampleBrokenPolicy "note" [] (by decide)) rfl (by decide) nofun
  have hreads : OutputReads "note" [] sampleBrokenPolicy.rules := ⟨nofun, fun _ _ => nofun⟩
  have hrefuses : RefusesOutput "note" [] sampleBrokenPolicy.rules := ⟨_, rfl, trivial⟩
  obtain ⟨db', out, hgate⟩ := hanswers.mpr ⟨by decide, hreads, Or.inr ⟨hrefuses, rfl⟩⟩
  obtain ⟨features, d, hfailed⟩ := (hrecords db' out hgate).2 hrefuses rfl
  exact ⟨db', out, features, d, hfailed⟩

end Samples

end Attest
