import Attest.Decisions
import Attest.Vault

/-!
# When the gate returns

From a stocked database a precheck or a gate call returns whenever it can judge the
output (`Judges`), finds its organisation and its trace, and is given ids that are new
(`runPrecheck_returns`, `runGate_returns`). What it then answers is said in the specs of
the calls.
-/

set_option linter.unusedSectionVars false

namespace Attest

section Judged

variable [PyUnicode] {db db' : Db}

/-! ## What a precheck decides -/

/-- What a precheck works out before it records. -/
inductive Judges (db : Db) (args : PrecheckArgs) (policy : Policy)
    (drafts : List (Option RewriteDraft)) : Prop
  | failsClosed {features : FeatureVector} {detail : String} :
      extractFeatures args.action args.payload = .ok features →
      FailsClosed args policy features detail → Judges db args policy drafts
  | concludes {features : FeatureVector} {output : PolicyOutput} {findings : List PackFinding}
      {plan : Option RemediationPlan} : extractFeatures args.action args.payload = .ok features →
      Concludes args policy features output →
      evaluatePacks args.action args.payload features db args.org.id = .ok findings →
      remediate db args policy output features findings drafts = .ok plan →
        Judges db args policy drafts

/-- The content of the decision that a precheck records. -/
inductive Decides (db : Db) (args : PrecheckArgs) (policy : Policy)
    (drafts : List (Option RewriteDraft)) : Dict → Prop
  | failsClosed {features : FeatureVector} {detail : String} :
      extractFeatures args.action args.payload = .ok features →
      FailsClosed args policy features detail →
        Decides db args policy drafts (failClosedPayload args.org args.action policy.version detail)
  | concludes {features : FeatureVector} {output : PolicyOutput} {findings : List PackFinding}
      {plan : Option RemediationPlan} : extractFeatures args.action args.payload = .ok features →
      Concludes args policy features output →
      evaluatePacks args.action args.payload features db args.org.id = .ok findings →
      remediate db args policy output features findings drafts = .ok plan →
        Decides db args policy drafts
          (decisionPayload args policy.version output features findings plan)

theorem judges_iff_decides {args : PrecheckArgs} {policy : Policy}
    {drafts : List (Option RewriteDraft)} :
    Judges db args policy drafts ↔ ∃ payload, Decides db args policy drafts payload := by
  constructor
  · rintro (⟨hfeatures, hfails⟩ | ⟨hfeatures, hconcludes, hfindings, hplan⟩)
    · exact ⟨_, .failsClosed hfeatures hfails⟩
    · exact ⟨_, .concludes hfeatures hconcludes hfindings hplan⟩
  · rintro ⟨_, ⟨hfeatures, hfails⟩ | ⟨hfeatures, hconcludes, hfindings, hplan⟩⟩
    · exact .failsClosed hfeatures hfails
    · exact .concludes hfeatures hconcludes hfindings hplan

theorem rewriteLoop_congr (hpacks : db'.packs = db.packs) (horgPacks : db'.orgPacks = db.orgPacks)
    (org : Org) (action : String) (policy : Policy) (p : RemediationPlan) :
    ∀ drafts : List (Option RewriteDraft),
      rewriteLoop db' org action policy p drafts = rewriteLoop db org action policy p drafts
  | [] => rfl
  | none :: _ => rfl
  | some draft :: drafts => by
    have hstatus : unrecordedStatus db' org action draft.output policy =
        unrecordedStatus db org action draft.output policy := by
      simp only [unrecordedStatus, evaluatePacks, activePacksForOrg, hpacks, horgPacks]
    simp only [rewriteLoop, hstatus, rewriteLoop_congr hpacks horgPacks org action policy p drafts]

/-- What is decided hangs on the packs of the database alone, and on no number of a trace. -/
theorem Decides.elsewhere {args args' : PrecheckArgs} {policy : Policy}
    {drafts : List (Option RewriteDraft)} {payload : Dict}
    (h : Decides db args policy drafts payload) (hpacks : db'.packs = db.packs)
    (horgPacks : db'.orgPacks = db.orgPacks)
    (hsame : args' = { args with traceId := args'.traceId, seq := args'.seq }) :
    Decides db' args' policy drafts payload := by
  rw [hsame]
  cases h with
  | failsClosed hfeatures hfails => exact .failsClosed hfeatures ⟨hfails.refused, hfails.mode⟩
  | @concludes features output findings plan hfeatures hconcludes hfindings hplan =>
    have hconcludes' : Concludes { args with traceId := args'.traceId, seq := args'.seq } policy
        features output := by
      cases hconcludes with
      | evaluated houtput => exact .evaluated houtput
      | refused hrefused hmode => exact .refused hrefused hmode
    have hfindings' : evaluatePacks args.action args.payload features db' args.org.id =
        .ok findings := by
      simp only [evaluatePacks, activePacksForOrg, hpacks, horgPacks] at hfindings ⊢
      exact hfindings
    refine .concludes hfeatures hconcludes' hfindings' ?_
    simp only [remediate, rewriteLoop_congr hpacks horgPacks] at hplan ⊢
    exact hplan

/-- An evaluation that was refused and fails closed does not conclude. -/
theorem FailsClosed.not_concludes {args : PrecheckArgs} {policy : Policy}
    {features : FeatureVector} {detail : String} (h : FailsClosed args policy features detail)
    (output : PolicyOutput) : ¬ Concludes args policy features output := by
  rintro (houtput | ⟨-, hmode⟩)
  · cases h.refused.symm.trans houtput
  · exact hmode h.mode

theorem Concludes.unique {args : PrecheckArgs} {policy : Policy} {features : FeatureVector}
    {output output' : PolicyOutput} (h : Concludes args policy features output)
    (h' : Concludes args policy features output') : output = output' := by
  cases h with
  | evaluated houtput =>
    cases h' with
    | evaluated houtput' => exact Except.ok.inj (houtput.symm.trans houtput')
    | refused hrefused' => cases houtput.symm.trans hrefused'
  | refused hrefused =>
    cases h' with
    | evaluated houtput' => cases hrefused.symm.trans houtput'
    | refused hrefused' =>
      have hsame := hrefused.symm.trans hrefused'
      simp only [Except.error.injEq, PyError.policyEngine.injEq] at hsame
      rw [hsame]

/-- One decision is worked out. -/
theorem Decides.unique {args : PrecheckArgs} {policy : Policy}
    {drafts : List (Option RewriteDraft)} {payload payload' : Dict}
    (h : Decides db args policy drafts payload) (h' : Decides db args policy drafts payload') :
    payload = payload' := by
  -- Both read the same features, and end the evaluation in the same way.
  cases h with
  | failsClosed hfeatures hfails =>
    cases h' with
    | failsClosed hfeatures' hfails' =>
      obtain rfl := Except.ok.inj (hfeatures.symm.trans hfeatures')
      have hsame := hfails.refused.symm.trans hfails'.refused
      simp only [Except.error.injEq, PyError.policyEngine.injEq] at hsame
      rw [hsame]
    | concludes hfeatures' hconcludes' =>
      obtain rfl := Except.ok.inj (hfeatures.symm.trans hfeatures')
      exact absurd hconcludes' (hfails.not_concludes _)
  | @concludes features output findings plan hfeatures hconcludes hfindings hplan =>
    cases h' with
    | failsClosed hfeatures' hfails' =>
      obtain rfl := Except.ok.inj (hfeatures.symm.trans hfeatures')
      exact absurd hconcludes (hfails'.not_concludes _)
    | concludes hfeatures' hconcludes' hfindings' hplan' =>
      obtain rfl := Except.ok.inj (hfeatures.symm.trans hfeatures')
      obtain rfl := hconcludes.unique hconcludes'
      obtain rfl := Except.ok.inj (hfindings.symm.trans hfindings')
      obtain rfl := Except.ok.inj (hplan.symm.trans hplan')
      rfl

end Judged

section Growing

variable [KeyUnwrapping] [SignatureScheme] [PyUnicode] {svc : SigningKeyPair} {db db' : Db}
  {orgId : String}

/-! ## What a call leaves as it was -/

/-- The settings are as they were, the traces that were opened are the organisation's, and content
was added only where it can be sealed. -/
structure GrowsFor (orgId : String) (db db' : Db) : Prop where
  orgs : db'.orgs = db.orgs
  policies : db'.policies = db.policies
  packs : db'.packs = db.packs
  orgPacks : db'.orgPacks = db.orgPacks
  opened : ∃ ts, db'.traces = db.traces ++ ts ∧ ∀ t ∈ ts, t.orgId = orgId
  added : ∃ ps, db'.payloads = db.payloads ++ ps ∧
    (ps = [] ∨ ∀ pem, db.wrapsTo orgId = some pem → KeyWrapping.publicKind pem = .usable)

namespace GrowsFor

theorem refl (orgId : String) (db : Db) : GrowsFor orgId db db :=
  ⟨rfl, rfl, rfl, rfl, ⟨[], by simp, nofun⟩, ⟨[], by simp, Or.inl rfl⟩⟩

theorem wrapsTo (h : GrowsFor orgId db db') : db'.wrapsTo orgId = db.wrapsTo orgId := by
  simp only [Db.wrapsTo, Db.getOrgById, h.orgs]

theorem trans {db'' : Db} (h : GrowsFor orgId db db') (h' : GrowsFor orgId db' db'') :
    GrowsFor orgId db db'' where
  orgs := h'.orgs.trans h.orgs
  policies := h'.policies.trans h.policies
  packs := h'.packs.trans h.packs
  orgPacks := h'.orgPacks.trans h.orgPacks
  opened := by
    obtain ⟨ts, hts, hown⟩ := h.opened
    obtain ⟨ts', hts', hown'⟩ := h'.opened
    refine ⟨ts ++ ts', by rw [hts', hts, List.append_assoc], fun t ht => ?_⟩
    exact (List.mem_append.mp ht).elim (hown t) (hown' t)
  added := by
    obtain ⟨ps, hps, hsealed⟩ := h.added
    obtain ⟨ps', hps', hsealed'⟩ := h'.added
    refine ⟨ps ++ ps', by rw [hps', hps, List.append_assoc], ?_⟩
    rw [h.wrapsTo] at hsealed'
    rcases hsealed with rfl | hsealed
    · exact hsealed'
    · exact Or.inr hsealed

/-- Content can be stored after it exactly if it could be before. -/
theorem stores_iff (h : GrowsFor orgId db db') {payload : Dict} :
    db'.Stores orgId payload ↔ db.Stores orgId payload := by
  obtain ⟨ps, hps, hsealed⟩ := h.added
  rw [Db.Stores, Db.Stores, h.wrapsTo, Db.getPayload_isSome, Db.getPayload_isSome, hps]
  constructor
  · rintro (⟨p, hp, hcols⟩ | hwraps)
    · rcases hsealed with rfl | hwraps
      · exact Or.inl ⟨p, by simpa using hp, hcols⟩
      · exact Or.inr hwraps
    · exact Or.inr hwraps
  · rintro (⟨p, hp, hcols⟩ | hwraps)
    · exact Or.inl ⟨p, List.mem_append_left _ hp, hcols⟩
    · exact Or.inr hwraps

/-- A trace is no other organisation's after it exactly if it was none before. -/
theorem owns_iff (h : GrowsFor orgId db db') {traceId : Uuid} :
    (∀ t ∈ db'.traces, t.id = traceId → t.orgId = orgId) ↔
      ∀ t ∈ db.traces, t.id = traceId → t.orgId = orgId := by
  obtain ⟨ts, hts, hown⟩ := h.opened
  rw [hts]
  constructor
  · exact fun hall t ht => hall t (List.mem_append_left _ ht)
  · exact fun hall t ht hid => (List.mem_append.mp ht).elim (fun ht => hall t ht hid) (hown t)

/-- Rows of the index and approvals are none of these. -/
theorem withDecisions (h : GrowsFor orgId db db') (events : List Event)
    (summaries : List PolicyDecisionSummary) (approvals : List Approval) :
    GrowsFor orgId db
      { db' with events := events, summaries := summaries, approvals := approvals } :=
  ⟨h.orgs, h.policies, h.packs, h.orgPacks, h.opened, h.added⟩

end GrowsFor

theorem getOrCreateTrace_growsFor {traceId : Uuid} {pv : Option String}
    (h : getOrCreateTrace db orgId traceId pv = .ok db') : GrowsFor orgId db db' := by
  obtain ⟨opened, hopens, rfl⟩ := getOrCreateTrace_opens h
  exact ⟨rfl, rfl, rfl, rfl, ⟨_, rfl, fun t ht => (hopens.new t (by simpa using ht)).2.1⟩,
    ⟨[], by simp, Or.inl rfl⟩⟩

/-- A call that recorded could store its content. -/
theorem recordEvent_growsFor {args : RecordArgs} {fresh : Fresh} {out : EventOut}
    (h : recordEvent svc db args fresh = .ok (db', out)) :
    GrowsFor args.orgId db db' ∧ db.Stores args.orgId args.payload := by
  obtain ⟨e, hrecorded, -⟩ := recordEvent_recorded h
  have hhash := hrecorded.hash_eq
  obtain ⟨opened, rows, hopens, hrows, rfl⟩ := hrecorded.tables
  have hown : ∃ ts, db.traces ++ opened.toList = db.traces ++ ts ∧
      ∀ t ∈ ts, t.orgId = args.orgId :=
    ⟨_, rfl, fun t ht => (hopens.new t (by simpa using ht)).2.1⟩
  rcases sealPayload_eq_ok.mp hrows with ⟨rfl, hthere⟩ | ⟨-, hwraps, rfl⟩
  · exact ⟨⟨rfl, rfl, rfl, rfl, hown, ⟨[], rfl, Or.inl rfl⟩⟩, Or.inl (hhash ▸ hthere)⟩
  · exact ⟨⟨rfl, rfl, rfl, rfl, hown, ⟨_, rfl, Or.inr hwraps⟩⟩, Or.inr hwraps⟩

/-- What is recorded has a type that the database holds. -/
theorem textOk_of_recordEvent {args : RecordArgs} {fresh : Fresh} {out : EventOut}
    (h : recordEvent svc db args fresh = .ok (db', out)) : textOk args.eventType = true := by
  obtain ⟨e, ts, ps, ks, hrecords, -, -, hdb'⟩ := recordEvent_eq_ok h
  obtain ⟨trace, last, d, -, -, -, -, hcommit⟩ := recordEvent_stages h
  obtain ⟨db₁, hopen, hinsert⟩ := Except.bind_eq_ok.mp hcommit
  obtain ⟨ts', rfl⟩ := insertOpened_eq_ok hopen
  obtain ⟨db₂, hsealed, hevent⟩ := Except.bind_eq_ok.mp hinsert
  obtain ⟨ps', ks', rfl⟩ := insertSealed_eq_ok hsealed
  obtain ⟨⟨htype, -⟩, hdb⟩ := Db.insertEventRow_eq_ok.mp hevent
  obtain rfl : d.event = e := by
    have hevents := congrArg Db.events (hdb.symm.trans hdb')
    exact List.singleton_inj.mp (List.append_cancel_left hevents)
  rw [← hrecords.type_eq]
  exact htype

theorem concludePrecheck_growsFor {args : PrecheckArgs} {fresh : PrecheckFresh} {policy : Policy}
    {features : FeatureVector} {output : PolicyOutput} {d : DecisionOut}
    (hfeatures : extractFeatures args.action args.payload = .ok features)
    (hconcludes : Concludes args policy features output)
    (h : concludePrecheck svc db args policy features output fresh = .ok (db', d)) :
    GrowsFor args.org.id db db' ∧ ∃ payload, Decides db args policy fresh.drafts payload ∧
      db.Stores args.org.id payload := by
  simp only [concludePrecheck, Except.bind_eq_ok, Except.pure_eq, Except.ok.injEq,
    Prod.mk.injEq] at h
  obtain ⟨findings, hfindings, plan, hplan, ⟨db₁, event⟩, hrecord, db₂, hsummary, db₃, hopen, rfl,
    -⟩ := h
  obtain ⟨hgrows, hstores⟩ := recordEvent_growsFor hrecord
  obtain ⟨-, rfl⟩ := Db.insertSummary_eq_ok.mp hsummary
  rw [openApproval_eq_ok hopen]
  exact ⟨hgrows.withDecisions _ _ _, _, .concludes hfeatures hconcludes hfindings hplan, hstores⟩

theorem failClosedResponse_growsFor {args : PrecheckArgs} {fresh : PrecheckFresh} {policy : Policy}
    {features : FeatureVector} {detail : String} {d : DecisionOut}
    (hfeatures : extractFeatures args.action args.payload = .ok features)
    (hfails : FailsClosed args policy features detail)
    (h : failClosedResponse svc db args policy.version detail fresh = .ok (db', d)) :
    GrowsFor args.org.id db db' ∧ ∃ payload, Decides db args policy fresh.drafts payload ∧
      db.Stores args.org.id payload := by
  simp only [failClosedResponse, Except.bind_eq_ok, Except.pure_eq, Except.ok.injEq,
    Prod.mk.injEq] at h
  obtain ⟨db₁, htrace, ⟨db₂, event⟩, hrecord, db₃, happroval, rfl, -⟩ := h
  have hopened := getOrCreateTrace_growsFor htrace
  obtain ⟨hgrows, hstores⟩ := recordEvent_growsFor hrecord
  rw [createApproval_eq_ok rfl happroval]
  exact ⟨(hopened.trans hgrows).withDecisions _ _ _, _, .failsClosed hfeatures hfails,
    hopened.stores_iff.mp hstores⟩

/-- A precheck that returned worked its decision out, and could store it. -/
theorem runPrecheck_decides {args : PrecheckArgs} {fresh : PrecheckFresh} {d : DecisionOut}
    (h : runPrecheck svc db args fresh = .ok (db', d)) :
    GrowsFor args.org.id db db' ∧
      ∃ policy payload, selectPolicy db args.org.id args.policyVersion = some policy ∧
        Decides db args policy fresh.drafts payload ∧ db.Stores args.org.id payload := by
  cases hpolicy : selectPolicy db args.org.id args.policyVersion with
  | none => simp [runPrecheck, hpolicy] at h
  | some policy =>
    simp only [runPrecheck, hpolicy, Except.bind_eq_ok] at h
    obtain ⟨db₁, htrace, features, hfeatures, h⟩ := h
    have hopened := getOrCreateTrace_growsFor htrace
    obtain ⟨ts, rfl⟩ := getOrCreateTrace_eq_ok htrace
    have hcall : GrowsFor args.org.id { db with traces := ts } db' ∧
        ∃ payload, Decides { db with traces := ts } args policy fresh.drafts payload ∧
          Db.Stores { db with traces := ts } args.org.id payload := by
      split at h <;> rename_i heval
      · split at h <;> rename_i hmode
        · exact failClosedResponse_growsFor hfeatures ⟨heval, hmode⟩ h
        · exact concludePrecheck_growsFor hfeatures (.refused heval hmode) h
      · cases h
      · exact concludePrecheck_growsFor hfeatures (.evaluated heval) h
    obtain ⟨hgrows, payload, hdecides, hstores⟩ := hcall
    exact ⟨hopened.trans hgrows, policy, payload, rfl, hdecides.elsewhere rfl rfl rfl,
      hopened.stores_iff.mp hstores⟩

/-- The gate can record the output, and decide on it by the policy in force. -/
structure GateTakes (db : Db) (args : GateArgs) (fresh : GateFresh) : Prop where
  named : PyText.isBlank args.action = false
  action : textOk args.action = true
  trace : ∀ t ∈ db.traces, t.id = gateTrace args fresh → t.orgId = args.org.id
  output : db.Stores args.org.id args.output
  decided : ∀ policy, selectPolicy db args.org.id args.policyVersion = some policy →
    ∃ payload, Decides db (gatePrecheck db args fresh) policy fresh.precheck.drafts payload ∧
      db.Stores args.org.id payload

/-- A call that recorded had a trace that was no other organisation's. -/
theorem owns_of_getOrCreateTrace (hnodup : (db.traces.map Trace.id).Nodup) {traceId : Uuid}
    {pv : Option String} (h : getOrCreateTrace db orgId traceId pv = .ok db') :
    ∀ t ∈ db.traces, t.id = traceId → t.orgId = orgId := by
  intro t ht hid
  obtain ⟨opened, hopens, rfl⟩ := getOrCreateTrace_opens h
  obtain ⟨t', ht', hid', horg'⟩ := hopens.there
  rcases List.mem_append.mp ht' with ht' | ht'
  · rw [List.inj_on_of_nodup_map hnodup ht ht' (hid.trans hid'.symm)]
    exact horg'
  · exact absurd hid ((hopens.new t' (by simpa using ht')).2.2 t ht)

/-- A gate call that returned could take its output. -/
theorem runGate_takes (hnodup : (db.traces.map Trace.id).Nodup) {args : GateArgs}
    {fresh : GateFresh} {out : GateOut} (h : runGate svc db args fresh = .ok (db', out)) :
    GrowsFor args.org.id db db' ∧ GateTakes db args fresh := by
  simp only [runGate, Except.bind_eq_ok] at h
  obtain ⟨_, -, db₁, hopen, ⟨db₂, decision⟩, hdecide, h⟩ := h
  have hopened := getOrCreateTrace_growsFor hopen
  have htrace := owns_of_getOrCreateTrace hnodup hopen
  obtain ⟨ts, rfl⟩ := getOrCreateTrace_eq_ok hopen
  -- With a decision or without, the output is recorded.
  have hrecords {version : Option String} {db₃ : Db} {event : EventOut}
      (hdecided : GrowsFor args.org.id db db₂)
      (hrecord : recordOutput svc db₂ args (gateTrace args fresh) version fresh.output =
        .ok (db₃, event)) : GrowsFor args.org.id db db₃ ∧ PyText.isBlank args.action = false ∧
          textOk args.action = true ∧ db.Stores args.org.id args.output := by
    obtain ⟨hgrows, hstores⟩ := recordEvent_growsFor hrecord
    obtain ⟨_, _, _, htype, -⟩ := recordEvent_stages hrecord
    exact ⟨hdecided.trans hgrows, by simpa using require_eq_ok.mp htype,
      textOk_of_recordEvent hrecord, hdecided.stores_iff.mp hstores⟩
  rcases decideOutput_eq_ok hdecide with ⟨rfl, rfl⟩ | ⟨d, rfl, hprecheck⟩
  · simp only [Except.bind_eq_ok, Except.pure_eq, Except.ok.injEq, Prod.mk.injEq] at h
    obtain ⟨⟨db₃, event⟩, hrecord, rfl, -⟩ := h
    obtain ⟨hgrows, hnamed, haction, hstores⟩ := hrecords hopened hrecord
    refine ⟨hgrows, hnamed, haction, htrace, hstores, fun policy hpolicy => ?_⟩
    have hpolicy' : selectPolicy { db with traces := ts } args.org.id args.policyVersion =
      some policy := hpolicy
    rw [decideOutput, hpolicy'] at hdecide
    obtain ⟨_, -, hpair⟩ := Except.map_eq_ok.mp hdecide
    cases (Prod.mk.inj hpair).2
  · simp only [Except.bind_eq_ok, Except.pure_eq, Except.ok.injEq, Prod.mk.injEq] at h
    obtain ⟨⟨db₃, event⟩, hrecord, db₄, hsettle, rfl, -⟩ := h
    obtain ⟨hdecided, policy, payload, hpolicy, hdecides, hpayload⟩ := runPrecheck_decides hprecheck
    obtain ⟨hgrows, hnamed, haction, hstores⟩ := hrecords (hopened.trans hdecided) hrecord
    obtain ⟨ss, rfl⟩ := settleSummaries_eq_ok hsettle
    refine ⟨hgrows.withDecisions _ _ _, hnamed, haction, htrace, hstores,
      fun policy' hpolicy' => ?_⟩
    obtain rfl : policy = policy' := Option.some.inj (hpolicy.symm.trans hpolicy')
    exact ⟨payload, hdecides.elsewhere rfl rfl rfl, hopened.stores_iff.mp hpayload⟩

end Growing

section Returning

variable [KeyUnwrapping] [SignatureScheme] [PyUnicode] {svc : SigningKeyPair} {db : Db}

/-- The trace is there, and the organisation's. -/
def Db.Traces (db : Db) (orgId : String) (traceId : Uuid) : Prop :=
  ∃ t ∈ db.traces, t.id = traceId ∧ t.orgId = orgId

theorem Db.Stocked.owns (h : db.Stocked) {orgId : String} {traceId : Uuid}
    (hthere : db.Traces orgId traceId) : ∀ t ∈ db.traces, t.id = traceId → t.orgId = orgId := by
  intro t ht hid
  obtain ⟨t', ht', hid', horg'⟩ := hthere
  rw [List.inj_on_of_nodup_map h.traces ht ht' (hid.trans hid'.symm)]
  exact horg'

theorem Db.Stocked.withDecisions (h : db.Stocked) (summaries : List PolicyDecisionSummary)
    (approvals : List Approval) :
    { db with summaries := summaries, approvals := approvals }.Stocked :=
  ⟨h.orgs, h.managed, h.traces, h.owned, ⟨h.keyed.payloads, h.keyed.payloadKeys⟩, h.sealed, h.keys,
    h.locked, h.recorded, h.stored⟩

/-- A trace that is no other organisation's can be opened. -/
theorem Db.Stocked.open_returns (h : db.Stocked) {orgId : String} {traceId : Uuid}
    (pv : Option String) (hpv : optTextOk pv = true) (horg : db.hasOrg orgId = true)
    (htrace : ∀ t ∈ db.traces, t.id = traceId → t.orgId = orgId) :
    ∃ ts, getOrCreateTrace db orgId traceId pv = .ok { db with traces := ts } ∧
      { db with traces := ts }.Stocked ∧ { db with traces := ts }.Traces orgId traceId := by
  obtain ⟨ts, hopen, -, hthere⟩ := getOrCreateTrace_succeeds hpv horg fun t ht =>
    htrace t (Db.mem_of_getTraceById ht).1 (Db.mem_of_getTraceById ht).2
  obtain ⟨opened, hopens, hdb⟩ := getOrCreateTrace_opens hopen
  obtain rfl : ts = db.traces ++ opened.toList := congrArg Db.traces hdb
  refine ⟨_, hopen, ⟨h.orgs, h.managed, ?_, ?_, ⟨h.keyed.payloads, h.keyed.payloadKeys⟩,
    h.sealed, h.keys, h.locked, h.recorded, h.stored⟩, hthere⟩
  · refine nodup_append_opened h.traces fun t ht x hx => ?_
    rw [(hopens.new t ht).1]
    exact (hopens.new t ht).2.2 x hx
  · intro e he
    obtain ⟨t, ht, hcols⟩ := h.owned e he
    exact ⟨t, List.mem_append_left _ ht, hcols⟩

/-- What a call that recorded left behind. -/
structure LeftBy (db : Db) (args : RecordArgs) (fresh : Fresh) (db' : Db) (e : Event) : Prop where
  stocked : db'.Stocked
  there : db'.Traces args.orgId args.traceId
  records : e.Records args
  id_eq : e.id = fresh.eventId
  rows : ∃ ts ps ks, db' = { db with
    traces := ts, payloads := ps, payloadKeys := ks, events := db.events ++ [e] }

/-- A call with the next number of its trace goes through. -/
theorem Db.Stocked.record_returns (h : db.Stocked) (svc : SigningKeyPair) {args : RecordArgs}
    {fresh : Fresh} (hnamed : PyText.isBlank args.eventType = false)
    (htexts : textOk args.eventType = true ∧ optTextOk args.policyVersion = true)
    (horg : db.hasOrg args.orgId = true) (hthere : db.Traces args.orgId args.traceId)
    (hnext : args.seq = nextSeq (db.lastEventForTrace args.orgId args.traceId))
    (hid : ∀ x ∈ db.events, x.id ≠ fresh.eventId) (hstores : db.Stores args.orgId args.payload) :
    ∃ db' e, recordEvent svc db args fresh = .ok (db', EventOut.ofEvent e) ∧
      LeftBy db args fresh db' e := by
  obtain ⟨db', out, hrecord⟩ := recordEvent_succeeds svc
    (h.recordable hnamed htexts horg (h.owns hthere) hnext hid hstores)
  obtain ⟨e, hrecorded, rfl⟩ := recordEvent_recorded hrecord
  refine ⟨db', e, hrecord, hrecorded.stocked h, ?_, hrecorded.records, hrecorded.id_eq,
    hrecorded.others⟩
  obtain ⟨-, -, opened, rows, hopens, -, rfl⟩ := hrecorded
  exact hopens.there

/-- Without drafts a plan is always made. -/
theorem remediate_nil (db : Db) (args : PrecheckArgs) (policy : Policy) (output : PolicyOutput)
    (features : FeatureVector) (findings : List PackFinding) :
    ∃ plan, remediate db args policy output features findings [] = .ok plan := by
  unfold remediate
  simp only [rewriteLoop, Except.map]
  split
  · exact ⟨_, rfl⟩
  · split
    · exact ⟨_, rfl⟩
    · exact ⟨_, rfl⟩

/-- The organisation and the trace are there, and the ids are new. -/
structure PrecheckStands (db : Db) (args : PrecheckArgs) (fresh : PrecheckFresh) : Prop where
  org : db.hasOrg args.org.id = true
  there : db.Traces args.org.id args.traceId
  action : textOk args.action = true
  next : args.seq = nextSeq (db.lastEventForTrace args.org.id args.traceId)
  event : ∀ x ∈ db.events, x.id ≠ fresh.event.eventId
  summary : ∀ s ∈ db.summaries, s.id ≠ fresh.summaryId
  approval : ∀ a ∈ db.approvals, a.id ≠ fresh.approval.id

/-- And content can be sealed. -/
structure PrecheckFits (db : Db) (args : PrecheckArgs) (fresh : PrecheckFresh) : Prop
    extends PrecheckStands db args fresh where
  wraps : ∀ pem, db.wrapsTo args.org.id = some pem → KeyWrapping.publicKind pem = .usable

theorem PrecheckStands.recordDecision_returns {args : PrecheckArgs} {fresh : PrecheckFresh}
    (h : db.Stocked) (hstands : PrecheckStands db args fresh) (svc : SigningKeyPair)
    {policyVersion : String} (hversion : textOk policyVersion = true) {payload : Dict}
    (hstores : db.Stores args.org.id payload) :
    ∃ db' e, recordDecision svc db args policyVersion payload fresh.event =
        .ok (db', EventOut.ofEvent e) ∧
      LeftBy db (decisionRecord args policyVersion payload) fresh.event db' e := by
  have hnamed : PyText.isBlank "policy_decision" = false := by
    simp [PyText.isBlank, PyText.isSpace, PyText.isAscii]
  have htext : textOk "policy_decision" = true := by decide
  exact h.record_returns svc hnamed ⟨htext, hversion⟩ hstands.org hstands.there hstands.next
    hstands.event hstores

/-- The same call once its trace is looked up again. -/
theorem PrecheckStands.reopened {args : PrecheckArgs} {fresh : PrecheckFresh} {ts : List Trace}
    (h : PrecheckStands db args fresh)
    (hthere : { db with traces := ts }.Traces args.org.id args.traceId) :
    PrecheckStands { db with traces := ts } args fresh :=
  ⟨h.org, hthere, h.action, h.next, h.event, h.summary, h.approval⟩

/-- An approval of a decision can be opened. -/
theorem createApproval_returns (db' : Db) {args : PrecheckArgs} {fresh : PrecheckFresh} {e : Event}
    (hstands : PrecheckStands db args fresh) (hthere : db'.Traces args.org.id args.traceId)
    (horgs : db'.orgs = db.orgs) (happrovals : db'.approvals = db.approvals)
    (he : e ∈ db'.events) (hid : e.id = fresh.event.eventId) :
    createApproval db' args.org.id args.traceId (some fresh.event.eventId) fresh.approval =
      .ok { db' with approvals := db'.approvals ++ [openedApproval args fresh] } := by
  obtain ⟨t, ht, htid, -⟩ := hthere
  refine Db.insertApproval_eq_ok.mpr ⟨⟨?_, ?_, ?_, ?_⟩, rfl⟩
  · rw [happrovals]
    exact hstands.approval
  · have horg := hstands.org
    simp only [Db.hasOrg] at horg ⊢
    rw [horgs]
    exact horg
  · exact List.any_eq_true.mpr ⟨t, ht, decide_eq_true htid⟩
  · exact List.any_eq_true.mpr ⟨e, he, decide_eq_true hid⟩

theorem failClosedResponse_returns {args : PrecheckArgs} {fresh : PrecheckFresh} (h : db.Stocked)
    (hstands : PrecheckStands db args fresh) (svc : SigningKeyPair) {policyVersion detail : String}
    (hversion : textOk policyVersion = true) (hstores : db.Stores args.org.id
      (failClosedPayload args.org args.action policyVersion detail)) :
    ∃ db' d, failClosedResponse svc db args policyVersion detail fresh = .ok (db', d) ∧
      db'.Stocked ∧ db'.Traces args.org.id args.traceId := by
  obtain ⟨ts, hopen, hstocked, hthere⟩ := h.open_returns (some policyVersion) hversion
    hstands.org (h.owns hstands.there)
  obtain ⟨db₂, e, hrecord, hleft⟩ := (hstands.reopened hthere).recordDecision_returns hstocked svc
    hversion hstores
  obtain ⟨ts', ps, ks, hdb₂⟩ := hleft.rows
  have happroval := createApproval_returns db₂ hstands hleft.there (by rw [hdb₂]) (by rw [hdb₂])
    (by rw [hdb₂]; exact List.mem_append_right _ (List.mem_singleton_self e)) hleft.id_eq
  have hcall : ∃ d, failClosedResponse svc db args policyVersion detail fresh =
      .ok ({ db₂ with approvals := db₂.approvals ++ [openedApproval args fresh] }, d) := by
    simp only [failClosedResponse, hopen, Except.ok_bind', hrecord, happroval, Except.pure_eq]
    exact ⟨_, rfl⟩
  obtain ⟨d, hd⟩ := hcall
  exact ⟨_, d, hd, hleft.stocked.withDecisions _ _, hleft.there⟩

/-- A precheck that has concluded goes through. -/
theorem concludePrecheck_returns {args : PrecheckArgs} {fresh : PrecheckFresh} (h : db.Stocked)
    (hstands : PrecheckStands db args fresh) (svc : SigningKeyPair) {policy : Policy}
    (hversion : textOk policy.version = true) {features : FeatureVector} {output : PolicyOutput}
    {findings : List PackFinding} {plan : Option RemediationPlan}
    (hfindings : evaluatePacks args.action args.payload features db args.org.id = .ok findings)
    (hplan : remediate db args policy output features findings fresh.drafts = .ok plan)
    (hstores : db.Stores args.org.id
      (decisionPayload args policy.version output features findings plan)) :
    ∃ db' d, concludePrecheck svc db args policy features output fresh = .ok (db', d) ∧
      db'.Stocked ∧ db'.Traces args.org.id args.traceId := by
  obtain ⟨db₂, e, hrecord, hleft⟩ := hstands.recordDecision_returns h svc hversion hstores
  obtain ⟨ts, ps, ks, hdb₂⟩ := hleft.rows
  obtain ⟨row, hrow⟩ : ∃ row, row = decisionSummary args policy.version output findings plan
      (EventOut.ofEvent e) fresh.summaryId := ⟨_, rfl⟩
  have hsummary : db₂.insertSummary row =
      .ok { db₂ with summaries := db₂.summaries ++ [row] } := by
    rw [hrow]
    refine Db.insertSummary_eq_ok.mpr ⟨⟨hstands.action, hversion, ?_, ?_⟩, rfl⟩
    · rw [hdb₂]
      exact hstands.summary
    · rw [hdb₂]
      exact hstands.org
  have happroval := createApproval_returns { db₂ with summaries := db₂.summaries ++ [row] }
    hstands hleft.there (by rw [hdb₂]) (by rw [hdb₂])
    (by rw [hdb₂]; exact List.mem_append_right _ (List.mem_singleton_self e)) hleft.id_eq
  have hopen : ∃ as, openApproval { db₂ with summaries := db₂.summaries ++ [row] } args
      (combinedTier output.tier findings) fresh =
        .ok { db₂ with summaries := db₂.summaries ++ [row], approvals := as } := by
    unfold openApproval
    split
    · exact ⟨_, happroval⟩
    · exact ⟨_, rfl⟩
  obtain ⟨as, hopen⟩ := hopen
  have hcall : ∃ d, concludePrecheck svc db args policy features output fresh =
      .ok ({ db₂ with summaries := db₂.summaries ++ [row], approvals := as }, d) := by
    simp only [concludePrecheck, hfindings, hplan, Except.ok_bind', hrecord, ← hrow,
      hsummary, hopen, Except.pure_eq]
    exact ⟨_, rfl⟩
  obtain ⟨d, hd⟩ := hcall
  exact ⟨_, d, hd, hleft.stocked.withDecisions _ _, hleft.there⟩

/-- A precheck that can judge the output, and store its decision, returns. -/
theorem PrecheckStands.runPrecheck_returns {args : PrecheckArgs} {fresh : PrecheckFresh}
    (h : db.Stocked) (hstands : PrecheckStands db args fresh) (svc : SigningKeyPair)
    {policy : Policy} (hpolicy : selectPolicy db args.org.id args.policyVersion = some policy)
    (hversion : textOk policy.version = true) {payload : Dict}
    (hdecides : Decides db args policy fresh.drafts payload)
    (hstores : db.Stores args.org.id payload) :
    ∃ db' d, runPrecheck svc db args fresh = .ok (db', d) ∧ db'.Stocked ∧
      db'.Traces args.org.id args.traceId := by
  obtain ⟨ts, hopen, hstocked, hthere⟩ := h.open_returns (some policy.version) hversion
    hstands.org (h.owns hstands.there)
  cases hdecides with
  | @failsClosed features detail hfeatures hfails =>
    obtain ⟨db', d, hcall, hleft⟩ := failClosedResponse_returns hstocked (hstands.reopened hthere)
      svc hversion hstores
    refine ⟨db', d, ?_, hleft⟩
    simp only [runPrecheck, hpolicy, hopen, Except.ok_bind', hfeatures, hfails.refused,
      if_pos hfails.mode, hcall]
  | @concludes features output findings plan hfeatures hconcludes hfindings hplan =>
    have hplan' : remediate { db with traces := ts } args policy output features findings
        fresh.drafts = .ok plan := by
      rw [remediate_traces, hplan]
    obtain ⟨db', d, hcall, hleft⟩ := concludePrecheck_returns hstocked (hstands.reopened hthere)
      svc hversion hfindings hplan' hstores
    refine ⟨db', d, ?_, hleft⟩
    cases hconcludes with
    | evaluated houtput =>
      simp only [runPrecheck, hpolicy, hopen, Except.ok_bind', hfeatures, houtput, hcall]
    | refused hrefused hmode =>
      simp only [runPrecheck, hpolicy, hopen, Except.ok_bind', hfeatures, hrefused, if_neg hmode,
        hcall]

/-- Where content can be sealed, a precheck that can judge the output returns. -/
theorem runPrecheck_returns {args : PrecheckArgs} {fresh : PrecheckFresh} (h : db.Stocked)
    (hfits : PrecheckFits db args fresh) (svc : SigningKeyPair) {policy : Policy}
    (hpolicy : selectPolicy db args.org.id args.policyVersion = some policy)
    (hversion : textOk policy.version = true) (hjudges : Judges db args policy fresh.drafts) :
    ∃ db' d, runPrecheck svc db args fresh = .ok (db', d) ∧ db'.Stocked ∧
      db'.Traces args.org.id args.traceId := by
  obtain ⟨payload, hdecides⟩ := judges_iff_decides.mp hjudges
  exact hfits.toPrecheckStands.runPrecheck_returns h svc hpolicy hversion hdecides
    (Or.inr hfits.wraps)

/-- The organisation is there, the trace no other's, and the ids are new. -/
structure GateStands (db : Db) (args : GateArgs) (fresh : GateFresh) : Prop where
  org : db.hasOrg args.org.id = true
  trace : ∀ t ∈ db.traces, t.id = gateTrace args fresh → t.orgId = args.org.id
  named : PyText.isBlank args.action = false
  texts : textOk args.action = true ∧ optTextOk args.policyVersion = true
  remediated : ∃ remediated, remediatedSummary db args = .ok remediated
  event : ∀ x ∈ db.events, x.id ≠ fresh.precheck.event.eventId
  output : ∀ x ∈ db.events, x.id ≠ fresh.output.eventId
  distinct : fresh.precheck.event.eventId ≠ fresh.output.eventId
  summary : ∀ s ∈ db.summaries, s.id ≠ fresh.precheck.summaryId
  approval : ∀ a ∈ db.approvals, a.id ≠ fresh.precheck.approval.id

/-- And content can be sealed. -/
structure GateFits (db : Db) (args : GateArgs) (fresh : GateFresh) : Prop
    extends GateStands db args fresh where
  wraps : ∀ pem, db.wrapsTo args.org.id = some pem → KeyWrapping.publicKind pem = .usable

theorem settleSummaries_returns {args : GateArgs} {d : DecisionOut} (event : EventOut)
    (remediated : Option PolicyDecisionSummary) {found : List PolicyDecisionSummary}
    (hfound : db.summariesOf args.org.id d.traceId d.seq = found) (hsole : found.length ≤ 1) :
    ∃ db', settleSummaries db args remediated d event = .ok db' := by
  have hone : ∃ row, oneOrNone found = .ok row := by
    rcases found with _ | ⟨row, _ | ⟨_, _⟩⟩
    · exact ⟨none, rfl⟩
    · exact ⟨some row, rfl⟩
    · simp at hsole
  obtain ⟨row, hrow⟩ := hone
  rw [settleSummaries, hfound, hrow]
  exact ⟨_, rfl⟩

/-- After a precheck at most one row tells of its decision. -/
theorem runPrecheck_summariesOf {db' : Db} {args : PrecheckArgs} {fresh : PrecheckFresh}
    {d : DecisionOut} (hindex : IndexOk db) (h : runPrecheck svc db args fresh = .ok (db', d)) :
    d.traceId = args.traceId ∧ (db'.summariesOf args.org.id d.traceId d.seq).length ≤ 1 := by
  obtain ⟨policy, features, -, -, hend⟩ := runPrecheck_cases h
  rcases hend with hfailed | ⟨output, -, hconcluded⟩
  · obtain ⟨detail, seq, hash, -, hd⟩ := hfailed.out_eq
    obtain ⟨_, e, hadds⟩ := hfailed.adds
    have htrace : d.traceId = args.traceId := by rw [hd]
    have hnext : d.seq = nextSeq (db.lastEventForTrace args.org.id args.traceId) := by
      rw [hadds.seq_eq, hadds.records.seq_eq]
      exact hadds.next
    obtain ⟨ts, ps, ks, rfl⟩ := hadds.rows
    have hnone := hindex.summariesOf_next args.org.id args.traceId
    refine ⟨htrace, ?_⟩
    rw [htrace, hnext, Db.summariesOf, List.append_nil]
    exact (congrArg List.length hnone).trans_le (Nat.zero_le 1)
  · obtain ⟨told, e, htold, -, hgrows⟩ := hconcluded.grows
    have hrow := hgrows.summariesOf_new hindex rfl
    refine ⟨hconcluded.answer.traceId_eq, ?_⟩
    rw [hconcluded.answer.traceId_eq, ← htold.1]
    exact (congrArg List.length hrow).le

/-- The arguments of the `record_event` of an output. -/
def outputRecord (db : Db) (args : GateArgs) (fresh : GateFresh) (policyVersion : Option String) :
    RecordArgs where
  orgId := args.org.id
  traceId := gateTrace args fresh
  seq := db.nextSeqOf args.org.id (gateTrace args fresh)
  eventType := args.action
  payload := args.output
  policyVersion := policyVersion

/-- A gate call whose output can be judged, and stored with the decision on it, returns. -/
theorem GateStands.runGate_returns {args : GateArgs} {fresh : GateFresh} (h : db.Stocked)
    (hindex : IndexOk db) (hstands : GateStands db args fresh) (svc : SigningKeyPair)
    {policy : Policy} (hpolicy : selectPolicy db args.org.id args.policyVersion = some policy)
    (hversion : textOk policy.version = true) {payload : Dict}
    (hdecides : Decides db (gatePrecheck db args fresh) policy fresh.precheck.drafts payload)
    (hstores : db.Stores args.org.id payload) (houtput : db.Stores args.org.id args.output) :
    ∃ db' out, runGate svc db args fresh = .ok (db', out) ∧ db'.Stocked := by
  obtain ⟨remediated, hremediated⟩ := hstands.remediated
  obtain ⟨ts, hopen, hstocked, hthere⟩ :=
    h.open_returns args.policyVersion hstands.texts.2 hstands.org hstands.trace
  have hdecides' : Decides { db with traces := ts }
      (gatePrecheck { db with traces := ts } args fresh) policy fresh.precheck.drafts payload :=
    hdecides.elsewhere rfl rfl rfl
  have hstands' : PrecheckStands { db with traces := ts }
      (gatePrecheck { db with traces := ts } args fresh) fresh.precheck :=
    ⟨hstands.org, hthere, hstands.texts.1, rfl, hstands.event, hstands.summary, hstands.approval⟩
  obtain ⟨db₂, d, hprecheck, hstocked₂, hthere₂⟩ :=
    hstands'.runPrecheck_returns hstocked svc hpolicy hversion hdecides' hstores
  have hpv : d.policyVersion = policy.version := by
    obtain ⟨policy', features, hpolicy', -, hend⟩ := runPrecheck_cases hprecheck
    obtain rfl : policy = policy' := Option.some.inj (hpolicy.symm.trans hpolicy')
    rcases hend with hfailed | ⟨output, -, hconcluded⟩
    · obtain ⟨_, _, _, -, hd⟩ := hfailed.out_eq
      rw [hd]
    · exact hconcluded.answer.policyVersion_eq
  have hindex' : IndexOk { db with traces := ts } := ⟨hindex.ids, hindex.keys, hindex.told⟩
  obtain ⟨htrace, hsole⟩ := runPrecheck_summariesOf hindex' hprecheck
  obtain ⟨⟨e, ts₂, ps, ks, ss, ⟨-, -, -, -, hid⟩, hdb₂⟩, -, -⟩ := runPrecheck_eq_ok hprecheck
  obtain ⟨version, hrecordVersion, hvtext⟩ : ∃ version : Option String, version =
      (if d.policyVersion = "" then args.policyVersion else some d.policyVersion) ∧
        optTextOk version = true := by
    refine ⟨_, rfl, ?_⟩
    split
    · exact hstands.texts.2
    · rw [hpv]
      exact hversion
  have hids : ∀ x ∈ db₂.events, x.id ≠ fresh.output.eventId := by
    intro x hx
    rw [hdb₂] at hx
    rcases List.mem_append.mp hx with hx | hx
    · exact hstands.output x hx
    · obtain rfl := List.mem_singleton.mp hx
      rw [hid]
      exact hstands.distinct
  have horg₂ : db₂.hasOrg args.org.id = true := by
    rw [hdb₂]
    exact hstands.org
  have hstores₂ : db₂.Stores args.org.id args.output :=
    ((getOrCreateTrace_growsFor hopen).trans (runPrecheck_decides hprecheck).1).stores_iff.mpr
      houtput
  obtain ⟨db₃, e', hrecord, hleft⟩ : ∃ db₃ e', recordOutput svc db₂ args (gateTrace args fresh)
      version fresh.output = .ok (db₃, EventOut.ofEvent e') ∧
        LeftBy db₂ (outputRecord db₂ args fresh version) fresh.output db₃ e' :=
    hstocked₂.record_returns svc hstands.named ⟨hstands.texts.1, hvtext⟩
      horg₂ hthere₂ rfl hids hstores₂
  obtain ⟨ts₃, ps₃, ks₃, hdb₃⟩ := hleft.rows
  have hsole₃ : (db₃.summariesOf args.org.id d.traceId d.seq).length ≤ 1 := by
    rw [hdb₃]
    exact hsole
  obtain ⟨db₄, hsettle⟩ := settleSummaries_returns (EventOut.ofEvent e') remediated rfl hsole₃
  obtain ⟨ss, hdb₄⟩ := settleSummaries_eq_ok hsettle
  have hstocked₄ : db₄.Stocked := by
    rw [hdb₄]
    exact hleft.stocked.withDecisions ss db₃.approvals
  refine ⟨db₄, judgedOut args d d.status (EventOut.ofEvent e'), ?_, hstocked₄⟩
  have hdecide : decideOutput svc { db with traces := ts } args fresh = .ok (db₂, some d) := by
    have hpolicy' : selectPolicy { db with traces := ts } args.org.id args.policyVersion =
      some policy := hpolicy
    rw [decideOutput, hpolicy']
    exact congrArg (Except.map fun r => (r.1, some r.2)) hprecheck
  have hrecord' : recordOutput svc db₂ args (gateTrace args fresh)
      (if d.policyVersion = "" then args.policyVersion else some d.policyVersion) fresh.output =
        .ok (db₃, EventOut.ofEvent e') := by
    rw [← hrecordVersion, hrecord]
  simp only [runGate, hremediated, Except.ok_bind', hopen, hdecide, hrecord', hsettle,
    Except.pure_eq]

/-- A gate call without a policy returns where its output can be stored. -/
theorem runGate_unevaluated_returns {args : GateArgs} {fresh : GateFresh} (h : db.Stocked)
    (svc : SigningKeyPair) (hremediates : args.remediates = none)
    (hpolicy : selectPolicy db args.org.id args.policyVersion = none)
    (horg : db.hasOrg args.org.id = true)
    (htrace : ∀ t ∈ db.traces, t.id = gateTrace args fresh → t.orgId = args.org.id)
    (hnamed : PyText.isBlank args.action = false)
    (htexts : textOk args.action = true ∧ optTextOk args.policyVersion = true)
    (hid : ∀ x ∈ db.events, x.id ≠ fresh.output.eventId)
    (hstores : db.Stores args.org.id args.output) :
    ∃ db' e, runGate svc db args fresh =
        .ok (db', unevaluatedOut args (gateTrace args fresh) (EventOut.ofEvent e)) ∧
      db'.Stocked ∧ e.id = fresh.output.eventId ∧ ∃ ts ps ks, db' = { db with
        traces := ts, payloads := ps, payloadKeys := ks, events := db.events ++ [e] } := by
  obtain ⟨ts, hopen, hstocked, hthere⟩ := h.open_returns args.policyVersion htexts.2 horg htrace
  obtain ⟨db', e, hrecord, hleft⟩ : ∃ db' e, recordOutput svc { db with traces := ts } args
      (gateTrace args fresh) args.policyVersion fresh.output = .ok (db', EventOut.ofEvent e) ∧
        LeftBy { db with traces := ts } (outputRecord { db with traces := ts } args fresh
          args.policyVersion) fresh.output db' e :=
    hstocked.record_returns svc hnamed htexts horg hthere rfl hid hstores
  have hdecide : decideOutput svc { db with traces := ts } args fresh =
      .ok ({ db with traces := ts }, none) := by
    have hpolicy' : selectPolicy { db with traces := ts } args.org.id args.policyVersion = none :=
      hpolicy
    rw [decideOutput, hpolicy']
  have hremediated : remediatedSummary db args = .ok none := by
    rw [remediatedSummary, hremediates]
  obtain ⟨ts', ps, ks, hdb'⟩ := hleft.rows
  refine ⟨db', e, ?_, hleft.stocked, hleft.id_eq, ts', ps, ks, hdb'⟩
  simp only [runGate, hremediated, hopen, Except.ok_bind', hdecide, hrecord, Except.pure_eq]

/-- Where content can be sealed, a gate call whose output can be judged returns. -/
theorem runGate_returns {args : GateArgs} {fresh : GateFresh} (h : db.Stocked)
    (hindex : IndexOk db) (hfits : GateFits db args fresh) (svc : SigningKeyPair) {policy : Policy}
    (hpolicy : selectPolicy db args.org.id args.policyVersion = some policy)
    (hversion : textOk policy.version = true)
    (hjudges : Judges db (gatePrecheck db args fresh) policy fresh.precheck.drafts) :
    ∃ db' out, runGate svc db args fresh = .ok (db', out) := by
  obtain ⟨payload, hdecides⟩ := judges_iff_decides.mp hjudges
  obtain ⟨db', out, hgate, -⟩ := hfits.toGateStands.runGate_returns h hindex svc hpolicy hversion
    hdecides (Or.inr hfits.wraps) (Or.inr hfits.wraps)
  exact ⟨db', out, hgate⟩

/-! ## Sample calls -/

/-- One organisation with a policy, and nothing else. -/
def sampleWith (policy : Policy) : Db := { sampleBlank with policies := [policy] }

/-- An output with a citation. -/
def sampleCited : Dict := [("citations", .arr [.str "Art. 9"])]

def sampleGateArgs (action : String) (payload : Dict) : GateArgs where
  org := sampleOrg
  action := action
  output := payload
  traceId := none
  policyVersion := none
  remediates := none

def sampleGateFresh : GateFresh where
  traceId := Uuid.ofNat 1
  precheck := {
    event := sampleFresh
    summaryId := Uuid.ofNat 3
    approval := ⟨Uuid.ofNat 4, 0⟩
    drafts := [] }
  output := sampleFreshOf 5

theorem indexOk_sampleWith (policy : Policy) : IndexOk (sampleWith policy) :=
  ⟨List.nodup_nil, List.nodup_nil, List.forall_mem_nil _⟩

theorem stocked_sampleWith (policy : Policy) : (sampleWith policy).Stocked :=
  have hbare := bare_sampleBlank.stocked
  ⟨hbare.orgs, hbare.managed, hbare.traces, hbare.owned, ⟨hbare.keyed.payloads,
    hbare.keyed.payloadKeys⟩, hbare.sealed, hbare.keys, hbare.locked, hbare.recorded, hbare.stored⟩

/-- The place of the first output of an organisation, on whatever trace. -/
theorem fits_sampleWith {policy : Policy} {args : GateArgs} (horg : args.org = sampleOrg)
    (hversion : args.policyVersion = none) (hremediates : args.remediates = none)
    (haction : PyText.isBlank args.action = false ∧ textOk args.action = true) :
    GateFits (sampleWith policy) args sampleGateFresh where
  org := by
    rw [horg]
    rfl
  trace := List.forall_mem_nil _
  named := haction.1
  texts := by
    rw [hversion]
    exact ⟨haction.2, rfl⟩
  remediated := ⟨none, by rw [remediatedSummary, hremediates]⟩
  event := List.forall_mem_nil _
  output := List.forall_mem_nil _
  distinct := by decide
  summary := List.forall_mem_nil _
  approval := List.forall_mem_nil _
  wraps := by
    intro pem hpem
    rw [horg] at hpem
    cases hpem

/-- The first output of an organisation with a policy that can judge it is recorded. -/
theorem exists_gate_sample (svc : SigningKeyPair) {policy : Policy} {action : String}
    {payload : Dict} (hpolicy : selectPolicy (sampleWith policy) "acme" none = some policy)
    (hversion : textOk policy.version = true)
    (haction : PyText.isBlank action = false ∧ textOk action = true)
    (hjudges : Judges (sampleWith policy) (gatePrecheck (sampleWith policy)
      (sampleGateArgs action payload) sampleGateFresh) policy []) :
    ∃ db' out, runGate svc (sampleWith policy) (sampleGateArgs action payload) sampleGateFresh =
      .ok (db', out) :=
  runGate_returns (stocked_sampleWith policy) (indexOk_sampleWith policy)
    (fits_sampleWith rfl rfl rfl haction) svc hpolicy hversion hjudges

end Returning

end Attest
