import Attest.Evaluable

/-!
# The provisions a publication fills in

What the extractor confirms goes to the publisher by rule id. A rule takes the citation
that its id maps to, whatever it had : `publishesOwn_iff` is when each rule that takes one
is the rule that declared it and had none.
-/

set_option linter.unusedSectionVars false

namespace Attest

section Watch

variable [PyUnicode] [PyCasefold]

/-! ## Rules -/

/-- What may become of a rule : it stays as it was, or it had no provision and gains its own
candidate, that is in the text. -/
inductive GainsOwn (snapshot : String) : JVal → JVal → Prop
  | same (rule : JVal) : GainsOwn snapshot rule rule
  | unchanged {rule rule' : Dict} : (∀ key, rule'.get? key = rule.get? key) →
    GainsOwn snapshot (.obj rule) (.obj rule')
  | gained {rule rule' : Dict} : (rule.get "provision").truthy = false →
    (rule.get "provision_candidate").truthy = true →
    appearsVerbatim (PyText.str (rule.get "provision_candidate")) snapshot = true →
    rule'.get? "provision" = some (.str (PyText.str (rule.get "provision_candidate"))) →
    (∀ key, key ≠ "provision" → key ≠ "provision_source" → key ≠ "provision_confirmed_at" →
      rule'.get? key = rule.get? key) →
    GainsOwn snapshot (.obj rule) (.obj rule')

/-- A rule that had a provision stays as it was. -/
theorem GainsOwn.kept {snapshot : String} {rule rule' : JVal} (h : GainsOwn snapshot rule rule')
    {r r' : Dict} (hrule : rule = .obj r) (hrule' : rule' = .obj r')
    (hprovision : (r.get "provision").truthy = true) (key : String) : r'.get? key = r.get? key := by
  cases h with
  | same =>
    obtain rfl := JVal.obj.inj (hrule.symm.trans hrule')
    rfl
  | unchanged hsame =>
    obtain rfl := JVal.obj.inj hrule
    obtain rfl := JVal.obj.inj hrule'
    exact hsame key
  | gained hnone =>
    obtain rfl := JVal.obj.inj hrule
    rw [hprovision] at hnone
    cases hnone

/-- The citation is the rule's own candidate, and it has none. -/
def OwnCitation (rule : Dict) (citation : String) : Prop :=
  (rule.get "provision").truthy = false ∧ (rule.get "provision_candidate").truthy = true ∧
    PyText.str (rule.get "provision_candidate") = citation

/-- The rule reads as if the citation had been filled in. -/
def ReadsFilled (rule : Dict) (citation url confirmedAt : String) : Prop :=
  rule.get? "provision" = some (.str citation) ∧ rule.get? "provision_source" = some (.str url) ∧
    rule.get? "provision_confirmed_at" = some (.str confirmedAt)

/-- No rule takes a citation that is not its own. -/
def NoneTakes (rules : List JVal) (confirmed : List (String × String)) (url confirmedAt : String) :
    Prop :=
  ∀ rule, .obj rule ∈ rules → ∀ item ∈ confirmed, Dict.get rule "id" = .str item.1 →
    OwnCitation rule item.2 ∨ ReadsFilled rule item.2 url confirmedAt

theorem filledRule_get? (rule : Dict) (citation url confirmedAt : String) :
    (filledRule rule citation url confirmedAt).get? "provision" = some (.str citation) ∧
    (filledRule rule citation url confirmedAt).get? "provision_source" = some (.str url) ∧
    (filledRule rule citation url confirmedAt).get? "provision_confirmed_at" =
      some (.str confirmedAt) ∧
    ∀ key, key ≠ "provision" → key ≠ "provision_source" → key ≠ "provision_confirmed_at" →
      (filledRule rule citation url confirmedAt).get? key = rule.get? key := by
  unfold filledRule
  refine ⟨?_, ?_, get?_setItem_self _ _ _, fun key h₁ h₂ h₃ => ?_⟩
  · rw [get?_setItem_of_ne (by simp), get?_setItem_of_ne (by simp), get?_setItem_self]
  · rw [get?_setItem_of_ne (by simp), get?_setItem_self]
  · rw [get?_setItem_of_ne (Ne.symm h₃), get?_setItem_of_ne (Ne.symm h₂),
      get?_setItem_of_ne (Ne.symm h₁)]

/-- A rule that a citation is filled into gains its own exactly where it is its own, or
nothing changes. -/
theorem gainsOwn_filledRule_iff {snapshot citation url confirmedAt : String} {rule : Dict}
    (happears : appearsVerbatim citation snapshot = true) :
    GainsOwn snapshot (.obj rule) (.obj (filledRule rule citation url confirmedAt)) ↔
      OwnCitation rule citation ∨ ReadsFilled rule citation url confirmedAt := by
  obtain ⟨hprovision, hsource, hat, hothers⟩ := filledRule_get? rule citation url confirmedAt
  constructor
  · intro h
    generalize hfilled : filledRule rule citation url confirmedAt = rule'
      at h hprovision hsource hat
    cases h with
    | same => exact Or.inr ⟨hprovision, hsource, hat⟩
    | unchanged hsame =>
      rw [hsame] at hprovision hsource hat
      exact Or.inr ⟨hprovision, hsource, hat⟩
    | gained hnone hcandidate _ hgained _ =>
      rw [hprovision] at hgained
      exact Or.inl ⟨hnone, hcandidate, (JVal.str.inj (Option.some.inj hgained)).symm⟩
  · rintro (⟨hnone, hcandidate, rfl⟩ | ⟨hprovision', hsource', hat'⟩)
    · exact .gained hnone hcandidate happears hprovision hothers
    · refine .unchanged fun key => ?_
      by_cases h₁ : key = "provision"
      · rw [h₁, hprovision, hprovision']
      by_cases h₂ : key = "provision_source"
      · rw [h₂, hsource, hsource']
      by_cases h₃ : key = "provision_confirmed_at"
      · rw [h₃, hat, hat']
      exact hothers key h₁ h₂ h₃

/-! ## Confirmations -/

/-- What is confirmed is the candidate of the rule, and is in the text. -/
theorem confirmable_spec {snapshot : String} {rule : JVal} {item : String × String}
    (h : confirmable snapshot rule = some item) : ∃ r, rule = .obj r ∧
      PyText.str (Dict.get r "id") = item.1 ∧
      PyText.str (Dict.get r "provision_candidate") = item.2 ∧
      appearsVerbatim item.2 snapshot = true := by
  unfold confirmable at h
  split at h
  · rename_i r
    split at h
    · rename_i hcond
      simp only [Bool.and_eq_true] at hcond
      obtain rfl := Option.some.inj h
      exact ⟨r, rfl, rfl, rfl, hcond.2⟩
    · cases h
  · cases h

theorem extractConfirmations_eq_ok {pack : PackVersion} {snapshot : String}
    {confirmed : List (String × String)} :
    extractConfirmations pack snapshot = .ok confirmed ↔
      ∃ rules, iterRules pack.doc = .ok rules ∧
        confirmed = dictOf (rules.filterMap (confirmable snapshot)) := by
  rw [extractConfirmations, Except.bind_eq_ok]
  constructor
  · rintro ⟨rules, hrules, h⟩
    exact ⟨rules, hrules, (Except.ok.inj h).symm⟩
  · rintro ⟨rules, hrules, rfl⟩
    exact ⟨rules, hrules, rfl⟩

theorem extractConfirmations_spec {pack : PackVersion} {snapshot : String}
    {confirmed : List (String × String)} (h : extractConfirmations pack snapshot = .ok confirmed) :
    (confirmed.map Prod.fst).Nodup ∧
      ∀ item ∈ confirmed, appearsVerbatim item.2 snapshot = true := by
  obtain ⟨rules, -, rfl⟩ := extractConfirmations_eq_ok.mp h
  refine ⟨nodup_keys_dictOf _, fun item hitem => ?_⟩
  obtain ⟨rule, -, hrule⟩ := List.mem_filterMap.mp (mem_of_mem_dictOf hitem)
  obtain ⟨r, -, -, -, happears⟩ := confirmable_spec hrule
  exact happears

/-- A rule is filled in where its id was confirmed, and is left alone elsewhere. -/
theorem confirmRule_eq_ok {confirmed : List (String × String)} {url confirmedAt : String}
    {rule rule' : JVal} (h : confirmRule confirmed url confirmedAt rule = .ok rule') :
    (∃ r, ∃ item ∈ confirmed, rule = .obj r ∧ Dict.get r "id" = .str item.1 ∧
      rule' = .obj (filledRule r item.2 url confirmedAt)) ∨
    rule' = rule ∧ ∀ r, rule = .obj r → ∀ item ∈ confirmed, Dict.get r "id" ≠ .str item.1 := by
  cases rule with
  | obj r =>
    unfold confirmRule at h
    dsimp only at h
    have hother : (∀ id, Dict.get r "id" ≠ .str id) → ∀ r', JVal.obj r = .obj r' →
        ∀ item ∈ confirmed, Dict.get r' "id" ≠ .str item.1 := by
      rintro hid r' heq item -
      obtain rfl := JVal.obj.inj heq
      exact hid _
    cases hid : Dict.get r "id" with
    | str id =>
      simp only [hid] at h
      cases hfind : confirmed.find? fun item => item.1 = id with
      | some item =>
        rw [hfind] at h
        obtain rfl : item.1 = id := by simpa using List.find?_some hfind
        exact Or.inl ⟨r, item, List.mem_of_find?_eq_some hfind, rfl, hid, (Except.ok.inj h).symm⟩
      | none =>
        rw [hfind] at h
        refine Or.inr ⟨(Except.ok.inj h).symm, fun r' heq item hitem hid' => ?_⟩
        obtain rfl := JVal.obj.inj heq
        rw [hid] at hid'
        exact List.find?_eq_none.mp hfind item hitem (decide_eq_true (JVal.str.inj hid').symm)
    | arr items =>
      simp only [hid] at h
      cases h
    | obj items =>
      simp only [hid] at h
      cases h
    | _ =>
      simp only [hid] at h
      exact Or.inr ⟨(Except.ok.inj h).symm, hother (by rw [hid]; nofun)⟩
  | _ => exact Or.inr ⟨(Except.ok.inj h).symm, nofun⟩

theorem noneTakes_cons {confirmed : List (String × String)} {url confirmedAt : String} {rule : JVal}
    {rules : List JVal} : NoneTakes (rule :: rules) confirmed url confirmedAt ↔
      NoneTakes [rule] confirmed url confirmedAt ∧ NoneTakes rules confirmed url confirmedAt := by
  simp only [NoneTakes, List.mem_cons, List.not_mem_nil, or_false, or_imp, forall_and]

theorem gainsOwn_confirmRule_iff {confirmed : List (String × String)}
    {snapshot url confirmedAt : String} {rule rule' : JVal}
    (hnodup : (confirmed.map Prod.fst).Nodup)
    (happears : ∀ item ∈ confirmed, appearsVerbatim item.2 snapshot = true)
    (h : confirmRule confirmed url confirmedAt rule = .ok rule') :
    GainsOwn snapshot rule rule' ↔ NoneTakes [rule] confirmed url confirmedAt := by
  rcases confirmRule_eq_ok h with ⟨r, item, hitem, rfl, hid, rfl⟩ | ⟨rfl, hother⟩
  · rw [gainsOwn_filledRule_iff (happears item hitem)]
    constructor
    · intro hown r' hr' item' hitem' hid'
      obtain rfl := JVal.obj.inj (List.mem_singleton.mp hr')
      have hkey : item'.1 = item.1 := JVal.str.inj (hid'.symm.trans hid)
      obtain rfl := List.inj_on_of_nodup_map hnodup hitem' hitem hkey
      exact hown
    · exact fun hnone => hnone r (List.mem_singleton_self _) item hitem hid
  · refine iff_of_true (.same _) fun r hr item hitem hid => ?_
    exact absurd hid (hother r (List.mem_singleton.mp hr).symm item hitem)

/-- Every rule gains its own in the version that is published, exactly where none takes
another's. -/
theorem forall₂_gainsOwn_iff {confirmed : List (String × String)}
    {snapshot url confirmedAt : String} {rules rules' : List JVal}
    (hnodup : (confirmed.map Prod.fst).Nodup)
    (happears : ∀ item ∈ confirmed, appearsVerbatim item.2 snapshot = true)
    (h : List.Forall₂ (fun rule rule' => confirmRule confirmed url confirmedAt rule = .ok rule')
      rules rules') :
    List.Forall₂ (GainsOwn snapshot) rules rules' ↔ NoneTakes rules confirmed url confirmedAt := by
  induction h with
  | nil => exact iff_of_true .nil (fun _ hrule => by cases hrule)
  | cons hrule _ ih =>
    rw [List.forall₂_cons, noneTakes_cons, gainsOwn_confirmRule_iff hnodup happears hrule, ih]

/-! ## Publications -/

/-- What a call says it published has the rules of the version before it, where each may
have gained its own candidate, in the snapshot that is kept. -/
def PublishesOwn (db db' : WatchDb) (source : RegulationSource) (changes : List RegulationChange) :
    Prop :=
  ∀ c ∈ changes, c.status = .autoPublished → ∃ base version row rules rules' snapshot,
    db.latestPack source.packCode = some base ∧ c.publishedVersion = some version ∧
      db'.getVersion base.code version = some row ∧ iterRules base.doc = .ok rules ∧
      iterRules row.doc = .ok rules' ∧
      (db'.getSource source.packCode source.url).bind RegulationSource.snapshot = some snapshot ∧
      List.Forall₂ (GainsOwn snapshot) rules rules'

/-- Where the call publishes, no rule takes the citation of another. -/
def ConfirmsOwn (db : WatchDb) (source : RegulationSource) (call : WatchCall) (fresh : WatchFresh) :
    Prop :=
  ∀ text base confirmed rules, call.text = some text → ¬ Waits source text call.confirmDrift →
    call.autoPublish = true → db.latestPack source.packCode = some base →
    extractConfirmations base (snapshotOf text) = .ok confirmed → iterRules base.doc = .ok rules →
    NoneTakes rules confirmed source.url fresh.nowIso

/-- A call that returns publishes nothing but the citations that the rules declare, each in
its own rule, exactly where no rule takes the citation of another. -/
theorem publishesOwn_iff {db db' : WatchDb} {source : RegulationSource} {call : WatchCall}
    {fresh : WatchFresh} {changes : List RegulationChange}
    (hsource : db.getSource source.packCode source.url = some source)
    (h : call.run db source fresh = .ok (db', changes)) :
    PublishesOwn db db' source changes ↔ ConfirmsOwn db source call fresh := by
  constructor
  · intro hown text base confirmed rules htext hsettles hauto hlatest hextracted hrules
    by_cases hempty : confirmed = []
    · intro rule _ item hitem
      rw [hempty] at hitem
      cases hitem
    obtain ⟨c, hc, hstatus⟩ := WatchCall.exists_published h htext hsettles hauto hlatest hextracted
      hempty
    obtain ⟨text', base', row, confirmed', rules₁, rules₁', hpublishes, _, -, rfl⟩ :=
      WatchCall.publishes_of_mem h hc hstatus
    obtain ⟨base₂, version, row₂, rules₂, rules₂', snapshot, hlatest₂, hversion₂, hrow₂, hrules₂,
      hrules₂', hsnapshot, hgains⟩ := hown _ hc hstatus
    obtain rfl := Option.some.inj (htext.symm.trans hpublishes.fetched)
    obtain rfl := Option.some.inj (hlatest.symm.trans hpublishes.latest)
    obtain rfl := Option.some.inj (hlatest.symm.trans hlatest₂)
    obtain rfl := Except.ok.inj (hextracted.symm.trans hpublishes.extracted)
    obtain rfl := Except.ok.inj (hrules.symm.trans hpublishes.iterated)
    obtain rfl := Except.ok.inj (hrules.symm.trans hrules₂)
    obtain rfl := Option.some.inj hversion₂
    obtain ⟨hrow, hrules'⟩ := hpublishes.row_rules
    obtain rfl := Option.some.inj (hrow.symm.trans hrow₂)
    obtain rfl := Except.ok.inj (hrules'.symm.trans hrules₂')
    obtain rfl : snapshotOf text = snapshot :=
      Option.some.inj ((hpublishes.snapshot (Option.isSome_iff_exists.mpr ⟨_, hsource⟩)).symm.trans
        hsnapshot)
    obtain ⟨hnodup, happears⟩ := extractConfirmations_spec hextracted
    exact (forall₂_gainsOwn_iff hnodup happears (Except.mapM_eq_ok.mp hpublishes.filled)).mp hgains
  · intro hnone c hc hstatus
    obtain ⟨text, base, row, confirmed, rules, rules', hpublishes, _, -, rfl⟩ :=
      WatchCall.publishes_of_mem h hc hstatus
    obtain ⟨hrow, hrules'⟩ := hpublishes.row_rules
    obtain ⟨hnodup, happears⟩ := extractConfirmations_spec hpublishes.extracted
    refine ⟨base, row.version, row, rules, rules', snapshotOf text, hpublishes.latest, rfl, hrow,
      hpublishes.iterated, hrules', hpublishes.snapshot (Option.isSome_iff_exists.mpr ⟨_, hsource⟩),
      ?_⟩
    exact (forall₂_gainsOwn_iff hnodup happears (Except.mapM_eq_ok.mp hpublishes.filled)).mpr
      (hnone text base confirmed rules hpublishes.fetched hpublishes.settles hpublishes.autoPublish
        hpublishes.latest hpublishes.extracted hpublishes.iterated)

end Watch

/-! ## Samples -/

section Samples

open Sample

namespace Sample

/-- A rule with the id of another, that has its provision. -/
def settledRule : JVal :=
  .obj [("id", .str "R1"), ("provision", .str "Art. 1")]

def repeatedDb : WatchDb :=
  { watchDb "1" with packs := [{ watchedPack "1" with
      rules := .obj [("rules", .arr [watchedRule, settledRule])] }] }

/-- The rule that had its provision after the check. -/
def overwrittenRule : JVal :=
  .obj [("id", .str "R1"), ("provision", .str "Art. 9"), ("provision_source", .str "u"),
    ("provision_confirmed_at", .str "2026-01-01T00:00:00+00:00")]

theorem not_gainsOwn_overwritten (snapshot : String) :
    ¬ GainsOwn snapshot settledRule overwrittenRule := by
  intro h
  have hkept := h.kept rfl rfl (by decide) "provision"
  revert hkept
  decide

end Sample

theorem publishesOwn_iff_sample : ∃ db' changes,
    (WatchCall.check (.answered 200 "Art. 9") true).run (watchDb "1") (RegulationSource.new "p" "u")
      watchFresh = .ok (db', changes) ∧
      (PublishesOwn (watchDb "1") db' (RegulationSource.new "p" "u") changes ↔
        ConfirmsOwn (watchDb "1") (RegulationSource.new "p" "u")
          (.check (.answered 200 "Art. 9") true) watchFresh) := by
  have hruns : (checkSource (watchDb "1") (RegulationSource.new "p" "u")
    (.answered 200 "Art. 9") true watchFresh).succeeds = true := by decide +kernel
  obtain ⟨⟨db', changes⟩, hrun⟩ := Except.succeeds_iff.mp hruns
  exact ⟨db', changes, hrun, publishesOwn_iff (by decide) hrun⟩

/-- A rule with the id of one that is confirmed loses the provision it had. -/
theorem not_publishesOwn_sample :
    repeatedDb.getSource "p" "u" = some (RegulationSource.new "p" "u") ∧ ∃ db' changes,
      (WatchCall.check (.answered 200 "Art. 9") true).run repeatedDb (RegulationSource.new "p" "u")
        watchFresh = .ok (db', changes) ∧
        ¬ PublishesOwn repeatedDb db' (RegulationSource.new "p" "u") changes := by
  have hruns : (checkSource repeatedDb (RegulationSource.new "p" "u") (.answered 200 "Art. 9") true
      watchFresh).map (fun out => (out.2.map fun c => (c.status, c.publishedVersion),
        (out.1.getVersion "p" "1+sv20260101000000").map fun p => (iterRules p.doc).toOption.map
          List.tail)) = .ok ([(.autoPublished, some "1+sv20260101000000")],
            some (some [overwrittenRule])) := by
    decide +kernel
  obtain ⟨⟨db', changes⟩, hrun, hout⟩ := Except.map_eq_ok.mp hruns
  refine ⟨by decide, db', changes, hrun, fun hown => ?_⟩
  obtain ⟨hchanges, hrow⟩ := Prod.mk.inj hout
  obtain ⟨c, _, rfl, hc, -⟩ := List.map_eq_cons_iff.mp hchanges
  obtain ⟨base, version, row, rules, rules', snapshot, hlatest, hversion, hrow', hrules, hrules', -,
    hgains⟩ := hown c (by simp) (congrArg Prod.fst hc)
  obtain rfl : _ = base := Option.some.inj
    ((show repeatedDb.latestPack "p" = some _ from rfl).symm.trans hlatest)
  obtain rfl : [watchedRule, settledRule] = rules := Except.ok.inj hrules
  obtain rfl : "1+sv20260101000000" = version :=
    Option.some.inj ((congrArg Prod.snd hc).symm.trans hversion)
  rw [show db'.getVersion "p" "1+sv20260101000000" = some row from hrow', Option.map_some,
    hrules'] at hrow
  obtain ⟨first, _, -, hrest, rfl⟩ := List.forall₂_cons_left_iff.mp hgains
  obtain ⟨second, _, hsecond, -, rfl⟩ := List.forall₂_cons_left_iff.mp hrest
  obtain ⟨rfl, -⟩ := List.cons.inj (Option.some.inj (Option.some.inj hrow))
  exact not_gainsOwn_overwritten snapshot hsecond

end Samples

end Attest
