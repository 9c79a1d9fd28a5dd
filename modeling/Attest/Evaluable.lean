import Attest.Vault
import Attest.Watching

/-!
# When a text can be evaluated

A call of the watch raises where the database cannot store what it writes, or where the
document of the pack is not as the loops take it to be. `Evaluable` says on what a text, a
source and a pack a check goes through (`evaluateSnapshot_returns`). The version string is
what limits it : `VARCHAR(32)` holds a published version of one of at most fifteen
characters.
-/

set_option linter.unusedSectionVars false

namespace Attest

/-! ## Texts -/

theorem textOk_append (s t : String) : textOk (s ++ t) = (textOk s && textOk t) := by
  simp only [textOk, String.toList_append, List.contains_eq_any_beq, List.any_append, Bool.not_or]

theorem textOk_of_digits {s : String} (h : s.toList.all Char.isDigit = true) : textOk s = true := by
  simp only [textOk, Bool.not_eq_true', List.contains_eq_any_beq, List.any_eq_false]
  intro c hc
  have hdigit := List.all_eq_true.mp h c hc
  rintro heq
  obtain rfl : Char.ofNat 0 = c := by simpa using heq
  revert hdigit
  decide

theorem textOk_toString (n : Nat) : textOk (toString n) = true := by
  refine textOk_of_digits (List.all_eq_true.mpr fun c hc => ?_)
  rw [Nat.toString_eq_repr, Nat.repr_eq_ofList_toDigits, String.toList_ofList] at hc
  exact Nat.isDigit_of_mem_toDigits (by decide) (by decide) hc

theorem versionOk_length {version : String} (h : versionOk version = true) :
    version.length ≤ 32 := by
  simp only [versionOk, Bool.and_eq_true, decide_eq_true_eq] at h
  exact h.2

section Watch

variable [PyUnicode] [PyCasefold]

/-! ## Publications -/

/-- The row of a version as the database holds it. -/
structure PackVersion.Stored (p : PackVersion) : Prop where
  code : textOk p.code = true
  jurisdiction : versionOk p.jurisdiction = true
  name : textOk p.name = true
  version : versionOk p.version = true
  instrument : textOk p.instrument = true
  instrumentNotes : optTextOk p.instrumentNotes = true
  sourceUrl : optTextOk p.sourceUrl = true
  effectiveDate : p.effectiveDate.all versionOk = true

/-- A version can be published after this one : its rules have ids that can be hashed, and
its version string leaves room for the marker and the stamp. -/
structure Publishable (db : WatchDb) (pack : PackVersion) (fresh : WatchFresh) : Prop where
  ids : ∀ rules, iterRules pack.doc = .ok rules → ∀ rule, .obj rule ∈ rules →
    (∀ items, Dict.get rule "id" ≠ .arr items) ∧ ∀ items, Dict.get rule "id" ≠ .obj items
  version : pack.version.length + 17 ≤ 32
  fresh : ∀ p ∈ db.packs, p.id ≠ fresh.pack.id

theorem publishedVersion_length (pack : PackVersion) (source : RegulationSource)
    (fresh : WatchFresh) :
    (publishedVersion pack source fresh).length = pack.version.length + 17 := by
  have hmarker : (versionMarker source).length = 2 := by
    unfold versionMarker
    split <;> rfl
  simp only [publishedVersion, String.length_append, hmarker, fresh.stamp.length_eq]
  rfl

theorem confirmRule_returns {confirmed : List (String × String)}
    {url confirmedAt : String} {rule : JVal} (h : ∀ r, rule = .obj r →
      (∀ items, Dict.get r "id" ≠ .arr items) ∧ ∀ items, Dict.get r "id" ≠ .obj items) :
    (confirmRule confirmed url confirmedAt rule).succeeds = true := by
  cases rule with
  | obj r =>
    obtain ⟨harr, hobj⟩ := h r rfl
    cases hid : Dict.get r "id" with
    | arr items => exact absurd hid (harr items)
    | obj items => exact absurd hid (hobj items)
    | str id =>
      simp only [confirmRule, hid]
      split <;> rfl
    | _ =>
      simp only [confirmRule, hid]
      rfl
  | _ => rfl

theorem publishedStatus_ok (source : RegulationSource) :
    versionOk (publishedStatus source) = true := by
  unfold publishedStatus
  split <;> decide

theorem publishedVersion_ok {pack : PackVersion} (source : RegulationSource) (fresh : WatchFresh)
    (hstored : pack.Stored) (hlength : pack.version.length + 17 ≤ 32) :
    versionOk (publishedVersion pack source fresh) = true := by
  have hversion := hstored.version
  unfold versionOk at hversion ⊢
  simp only [Bool.and_eq_true, decide_eq_true_eq] at hversion ⊢
  refine ⟨?_, (publishedVersion_length pack source fresh).le.trans hlength⟩
  have hmarker : textOk (versionMarker source) = true := by
    unfold versionMarker
    split <;> decide
  have hplus : textOk "+" = true := by decide
  simp only [publishedVersion, textOk_append, hversion.1, hplus, hmarker,
    textOk_of_digits fresh.stamp.digits, Bool.and_self]

theorem confirmedDoc_textsOk {pack : PackVersion} (rules : List JVal) (source : RegulationSource)
    (fresh : WatchFresh) (hstored : pack.Stored) :
    (confirmedDoc pack rules source fresh).textsOk = true := by
  simp only [PackDoc.textsOk, confirmedDoc, hstored.name, hstored.instrument,
    hstored.instrumentNotes, hstored.sourceUrl, hstored.effectiveDate, publishedStatus_ok,
    Bool.and_self]

/-- The row of a version whose string fits is written. -/
theorem upsertPack_returns {db : WatchDb} {pack : PackVersion} {rules : List JVal}
    {source : RegulationSource} {fresh : WatchFresh} (hstored : pack.Stored)
    (hlength : pack.version.length + 17 ≤ 32) (hfresh : ∀ p ∈ db.packs, p.id ≠ fresh.pack.id) :
    ∃ db', upsertPack db (confirmedDoc pack rules source fresh) fresh.pack = .ok db' := by
  have htexts := confirmedDoc_textsOk rules source fresh hstored
  unfold upsertPack
  split
  · simp only [htexts, require, if_true, Except.ok_bind', Except.pure_eq]
    exact ⟨_, rfl⟩
  · have hversion : versionOk (confirmedDoc pack rules source fresh).version = true :=
      publishedVersion_ok source fresh hstored hlength
    have hcode : textOk (confirmedDoc pack rules source fresh).code = true := hstored.code
    have hjurisdiction : versionOk (confirmedDoc pack rules source fresh).jurisdiction = true :=
      hstored.jurisdiction
    have hnew : (db.packs.any fun p => p.id = fresh.pack.id) = false := by
      simpa using hfresh
    simp only [htexts, hcode, hjurisdiction, hversion, hnew, require, Bool.and_self, Bool.not_false,
      if_true, Except.ok_bind', Except.pure_eq]
    exact ⟨_, rfl⟩

/-- The version string of a row that was published is one that its column holds. -/
theorem Publication.version_ok {db db' : WatchDb} {source : RegulationSource} {call : WatchCall}
    {fresh : WatchFresh} {text : String} {base row : PackVersion}
    {confirmed : List (String × String)} {rules rules' : List JVal}
    (h : Publication db db' source call fresh text base row confirmed rules rules')
    (hversion : ∀ p ∈ db.packs, versionOk p.version = true) : versionOk row.version = true := by
  obtain ⟨source', _, _, -, hpacks, -, hupserted⟩ := h.upserted
  rcases hupserted.others row (getVersion_spec hupserted.found).1 with
    hrow | ⟨-, q, hq, -, hrow⟩ | ⟨-, -, -, hok⟩
  · exact hversion row (hpacks ▸ hrow)
  · rw [hrow]
    exact hversion q (hpacks ▸ hq)
  · exact hok

/-- A publishable version is published. -/
theorem publishConfirmations_returns {db : WatchDb} {pack : PackVersion}
    {confirmed : List (String × String)} {source : RegulationSource} {fresh : WatchFresh}
    {rules : List JVal} (hrules : iterRules pack.doc = .ok rules) (hstored : pack.Stored)
    (h : Publishable db pack fresh) :
    ∃ db', publishConfirmations db pack confirmed source fresh =
      .ok (db', publishedVersion pack source fresh) := by
  have hsteps : ∀ rule ∈ rules,
      (confirmRule confirmed source.url fresh.nowIso rule).succeeds = true :=
    fun rule hrule => confirmRule_returns fun r hr => h.ids rules hrules r (hr ▸ hrule)
  obtain ⟨rules', hconfirm⟩ := Except.succeeds_iff.mp (Except.succeeds_mapM.mpr hsteps)
  obtain ⟨db', hupsert⟩ : ∃ db', upsertPack db (confirmedDoc pack rules' source fresh) fresh.pack =
      .ok db' := upsertPack_returns hstored h.version h.fresh
  refine ⟨db', ?_⟩
  simp only [publishConfirmations, hrules, hconfirm, hupsert, Except.ok_bind', Except.pure_eq]

/-! ## Evaluations -/

/-- A text can be evaluated. Where it is settled, it has no character that cannot be stored
in the part that is kept, and the latest version of the pack has rules to go through, and
can be followed by another version if something is to be published. -/
structure Evaluable (db : WatchDb) (source : RegulationSource) (text : String)
    (autoPublish confirmDrift : Bool) (fresh : WatchFresh) : Prop where
  snapshot : ¬ Waits source text confirmDrift → textOk (snapshotOf text) = true
  rules : ¬ Waits source text confirmDrift → ∀ pack, db.latestPack source.packCode = some pack →
    ∃ rules, iterRules pack.doc = .ok rules
  publishable : ¬ Waits source text confirmDrift → autoPublish = true →
    ∀ pack, db.latestPack source.packCode = some pack → ∀ confirmed,
      extractConfirmations pack (snapshotOf text) = .ok confirmed → confirmed ≠ [] →
        Publishable db pack fresh

theorem recordChange_returns {db : WatchDb} {c : RegulationChange} (h : textOk c.summary = true) :
    db.recordChange c = .ok (db.withChange c) :=
  WatchDb.recordChange_eq_ok.mpr ⟨h, rfl⟩

theorem tellDrift_returns (db : WatchDb) (source : RegulationSource) (text newHash : String)
    (moved : Option String) : ∃ db', tellDrift db source text moved newHash =
      .ok (db', (moved.map fun previous => driftChange source text previous newHash).toList) ∧
        db'.packs = db.packs := by
  cases moved with
  | none => exact ⟨db, rfl, rfl⟩
  | some previous =>
    have htext : textOk (driftChange source text previous newHash).summary = true := by
      simp only [driftChange, textOk_append]
      decide +kernel
    refine ⟨db.withChange (driftChange source text previous newHash), ?_, rfl⟩
    simp only [tellDrift, recordChange_returns htext, Except.ok_bind', Except.pure_eq]
    rfl

theorem textOk_attestedBy {source : RegulationSource} (h : source.textsOk = true) :
    textOk (source.attestedBy.getD "None") = true := by
  simp only [RegulationSource.textsOk, Bool.and_eq_true] at h
  cases hby : source.attestedBy with
  | none => decide
  | some name =>
    rw [hby] at h
    exact h.1.2

theorem textOk_publishedSummary {pack : PackVersion} {source : RegulationSource}
    {fresh : WatchFresh}
    (confirmed : List (String × String)) (newHash : String) (hstored : pack.Stored)
    (hlength : pack.version.length + 17 ≤ 32) (hsource : source.textsOk = true) :
    textOk (publishedChange source confirmed newHash (publishedVersion pack source fresh)).summary =
      true := by
  have hversion := publishedVersion_ok source fresh hstored hlength
  simp only [versionOk, Bool.and_eq_true] at hversion
  have hattested := textOk_attestedBy hsource
  simp only [publishedChange]
  split <;> simp only [textOk_append, textOk_toString, hversion.1, hattested, Bool.and_true,
    Bool.and_eq_true] <;> decide

theorem settleConfirmations_returns {db : WatchDb} {pack : PackVersion} {source : RegulationSource}
    {confirmed : List (String × String)} {autoPublish : Bool} (newHash : String)
    {fresh : WatchFresh}
    {rules : List JVal} (hrules : iterRules pack.doc = .ok rules) (hstored : pack.Stored)
    (hsource : source.textsOk = true)
    (h : autoPublish = true → confirmed ≠ [] → Publishable db pack fresh) :
    ∃ db' changes, settleConfirmations db pack source confirmed true autoPublish newHash fresh =
      .ok (db', changes) := by
  unfold settleConfirmations
  by_cases hempty : confirmed = []
  · simp only [hempty, List.isEmpty_nil, if_true]
    exact ⟨_, _, rfl⟩
  have hnonempty : confirmed.isEmpty = false := by simpa using hempty
  simp only [hnonempty, Bool.false_eq_true, if_false, Bool.not_true]
  cases autoPublish with
  | true =>
    have hpublishable := h rfl hempty
    obtain ⟨db₁, hpublish⟩ : ∃ db₁, publishConfirmations db pack confirmed source fresh =
        .ok (db₁, publishedVersion pack source fresh) :=
      publishConfirmations_returns hrules hstored hpublishable
    have htext : textOk (publishedChange source confirmed newHash
        (publishedVersion pack source fresh)).summary = true :=
      textOk_publishedSummary confirmed newHash hstored hpublishable.version hsource
    simp only [if_true, hpublish, Except.ok_bind', recordChange_returns htext, Except.pure_eq]
    exact ⟨_, _, rfl⟩
  | false =>
    have htext : textOk (quarantinedChange source
        (toString confirmed.length ++ " citation(s) provable; auto-publish is off.")
        [("confirmed", textDict confirmed)] newHash).summary = true := by
      have hrest : textOk " citation(s) provable; auto-publish is off." = true := by decide
      simp only [quarantinedChange, textOk_append, textOk_toString, hrest, Bool.and_self]
    simp only [Bool.false_eq_true, if_false, Except.ok_bind', recordChange_returns htext,
      Except.pure_eq]
    exact ⟨_, _, rfl⟩

/-- A text that can be evaluated is. -/
theorem evaluateSnapshot_returns {db : WatchDb} {source : RegulationSource} {text : String}
    {autoPublish confirmDrift : Bool} {fresh : WatchFresh} (hsource : source.textsOk = true)
    (hstored : ∀ p ∈ db.packs, p.Stored)
    (h : Evaluable db source text autoPublish confirmDrift fresh) :
    ∃ db' changes, evaluateSnapshot db source text autoPublish confirmDrift fresh =
      .ok (db', changes) := by
  by_cases hwaits : Waits source text confirmDrift
  · obtain ⟨hmoved, hconfirm, hpending⟩ := hwaits
    have hput : db.putSource { source with pendingHash := some (contentHash text) } = .ok _ :=
      WatchDb.putSource_eq_ok.mpr ⟨hsource, rfl⟩
    simp only [evaluateSnapshot, hmoved, hconfirm, ne_eq, hpending, not_false_iff, decide_true,
      Bool.and_self, if_true, hput, Except.ok_bind', Except.pure_eq]
    exact ⟨_, _, rfl⟩
  have hcond : ((movedFrom source (contentHash text)).isSome && confirmDrift &&
      decide (source.pendingHash ≠ some (contentHash text))) = false := by
    rw [Bool.eq_false_iff]
    intro hcond
    simp only [Bool.and_eq_true, decide_eq_true_eq] at hcond
    exact hwaits ⟨hcond.1.1, hcond.1.2, hcond.2⟩
  have hsettled : (source.settled text).textsOk = true := by
    simp only [RegulationSource.textsOk, Bool.and_eq_true] at hsource ⊢
    exact ⟨⟨⟨h.snapshot hwaits, hsource.1.1.2⟩, hsource.1.2⟩, hsource.2⟩
  have hput : db.putSource (source.settled text) = .ok (db.withSource (source.settled text)) :=
    WatchDb.putSource_eq_ok.mpr ⟨hsettled, rfl⟩
  have hlatest : (db.withSource (source.settled text)).latestPack source.packCode =
      db.latestPack source.packCode := WatchDb.latestPack_congr rfl _
  unfold evaluateSnapshot
  dsimp only
  rw [hcond, if_neg Bool.false_ne_true]
  have hcode : (source.settled text).packCode = source.packCode := rfl
  simp only [hput, Except.ok_bind', hcode, hlatest]
  cases hpack : db.latestPack source.packCode with
  | none => exact ⟨_, _, rfl⟩
  | some pack =>
    obtain ⟨rules, hrules⟩ := h.rules hwaits pack hpack
    obtain ⟨db₁, hdrift, hpacks⟩ := tellDrift_returns (db.withSource (source.settled text))
      (source.settled text) text (contentHash text) (movedFrom source (contentHash text))
    have hextract : extractConfirmations pack (snapshotOf text) =
        .ok (dictOf (rules.filterMap (confirmable (snapshotOf text)))) := by
      simp only [extractConfirmations, hrules, Except.ok_bind', Except.pure_eq]
    have hmem := (WatchDb.latestPack_spec hpack).1
    obtain ⟨db₂, rest, hsettle⟩ := @settleConfirmations_returns _ _ db₁ pack (source.settled text)
      (dictOf (rules.filterMap (confirmable (snapshotOf text)))) autoPublish (contentHash text)
      fresh rules hrules (hstored pack hmem) hsettled fun hauto hne =>
        have hp := h.publishable hwaits hauto pack hpack _ hextract hne
        ⟨hp.ids, hp.version, hpacks ▸ hp.fresh⟩
    simp only [hdrift, hextract, reproducible_eq, Except.map, hsettle, Except.ok_bind',
      Except.pure_eq]
    exact ⟨_, _, rfl⟩

/-- What is asked of a text is the same where the source has the same content and the packs are
the same. -/
theorem Evaluable.congr {db db₁ : WatchDb} {source source₁ : RegulationSource} {text : String}
    {autoPublish confirmDrift : Bool} {fresh : WatchFresh}
    (h : Evaluable db source text autoPublish confirmDrift fresh)
    (hsame : KeepsContent source source₁) (hpacks : db₁.packs = db.packs) :
    Evaluable db₁ source₁ text autoPublish confirmDrift fresh := by
  have hlatest : db₁.latestPack source₁.packCode = db.latestPack source.packCode := by
    rw [hsame.packCode, WatchDb.latestPack_congr hpacks]
  refine ⟨fun hwaits => ?_, fun hwaits => ?_, fun hwaits hauto => ?_⟩
  · exact h.snapshot fun hw => hwaits ((hsame.waits _ _).mpr hw)
  · rw [hlatest]
    exact h.rules fun hw => hwaits ((hsame.waits _ _).mpr hw)
  · rw [hlatest]
    intro pack hpack confirmed hconfirmed hne
    have hp := h.publishable (fun hw => hwaits ((hsame.waits _ _).mpr hw))
      hauto pack hpack confirmed hconfirmed hne
    exact ⟨hp.ids, hp.version, hpacks ▸ hp.fresh⟩

/-! ## Calls -/

/-- The row of the source can be written, by a check as it is and by a supply with a named
attestor. -/
def WatchCall.Writes (source : RegulationSource) (fresh : WatchFresh) : WatchCall → Prop
  | .check _ _ => source.textsOk = true
  | .supply args => (PyText.isBlank args.attestedBy = false ∧ PyText.isBlank args.text = false) ∧
      (source.attested args fresh).textsOk = true

theorem checkSource_returns {db : WatchDb} {source : RegulationSource} {statusCode : Int}
    {text : String} {autoPublish : Bool} {fresh : WatchFresh} (hok : ¬ 400 ≤ statusCode)
    (htexts : source.textsOk = true) (hstored : ∀ p ∈ db.packs, p.Stored)
    (h : Evaluable db source text autoPublish true fresh) :
    ∃ db' changes, checkSource db source (.answered statusCode text) autoPublish fresh =
      .ok (db', changes) := by
  let answered (mode : CheckMode) : RegulationSource :=
    { source with nextCheckAt := some (fresh.now + checkInterval)
                  lastCheckedAt := some fresh.now
                  lastStatus := some (toString statusCode)
                  lastError := none
                  consecutiveFailures := 0
                  checkMode := mode }
  have htexts₁ (mode : CheckMode) : (answered mode).textsOk = true := by
    simp only [RegulationSource.textsOk, Bool.and_eq_true] at htexts ⊢
    exact ⟨⟨⟨htexts.1.1.1, rfl⟩, htexts.1.2⟩, htexts.2⟩
  have hsame (mode : CheckMode) : KeepsContent source (answered mode) := ⟨rfl, rfl, rfl, rfl, rfl⟩
  obtain ⟨db₁, recovered, hrecover, hpacks⟩ : ∃ db₁ recovered,
      recover db (answered source.checkMode) = .ok (db₁, answered .auto, recovered) ∧
        db₁.packs = db.packs := by
    cases hmode : source.checkMode with
    | auto => exact ⟨db, [], rfl, rfl⟩
    | manual =>
      have hput : db.putSource (answered .auto) = .ok (db.withSource (answered .auto)) :=
        WatchDb.putSource_eq_ok.mpr ⟨htexts₁ .auto, rfl⟩
      have htext : textOk (recoveredChange (answered .auto)).summary = true := by
        simp only [recoveredChange, textOk_append]
        decide +kernel
      have hrecord := @recordChange_returns _ _ (db.withSource (answered .auto)) _ htext
      refine ⟨(db.withSource (answered .auto)).withChange (recoveredChange (answered .auto)),
        [recoveredChange (answered .auto)], ?_, rfl⟩
      have hmanual : recover db (answered .manual) = (do
          let db ← db.putSource (answered .auto)
          let db ← db.recordChange (recoveredChange (answered .auto))
          return (db, answered .auto, [recoveredChange (answered .auto)])) := rfl
      simp only [hmanual, hput, Except.ok_bind', hrecord, Except.pure_eq]
  obtain ⟨db', changes, hevaluate⟩ := evaluateSnapshot_returns (htexts₁ .auto)
    (hpacks ▸ hstored) (h.congr (hsame .auto) hpacks)
  refine ⟨db', recovered ++ changes, ?_⟩
  have hanswered : checkSource db source (.answered statusCode text) autoPublish fresh =
      recover db (answered source.checkMode) >>= fun r =>
        evaluateSnapshot r.1 r.2.1 text autoPublish true fresh >>= fun e =>
          .ok (e.1, r.2.2 ++ e.2) := by
    rw [checkSource]
    exact if_neg hok
  simp only [hanswered, hrecover, Except.ok_bind', hevaluate]

theorem supplyText_returns {db : WatchDb} {source : RegulationSource} {args : SupplyArgs}
    {fresh : WatchFresh} (hwrites : (WatchCall.supply args).Writes source fresh)
    (hstored : ∀ p ∈ db.packs, p.Stored)
    (h : Evaluable db source args.text args.autoPublish false fresh) :
    ∃ db' changes, supplyText db source args fresh = .ok (db', changes) := by
  obtain ⟨⟨hnamed, hgiven⟩, htexts⟩ := hwrites
  have hput : db.putSource (source.attested args fresh) =
      .ok (db.withSource (source.attested args fresh)) := WatchDb.putSource_eq_ok.mpr ⟨htexts, rfl⟩
  have htext : textOk (suppliedChange (source.attested args fresh) args fresh).summary = true := by
    have hattested := textOk_attestedBy htexts
    simp only [suppliedChange, textOk_append, hattested, Bool.and_true, Bool.and_eq_true]
    decide +kernel
  have hrecord := @recordChange_returns _ _ (db.withSource (source.attested args fresh)) _ htext
  obtain ⟨db', changes, hevaluate⟩ := @evaluateSnapshot_returns _ _
    ((db.withSource (source.attested args fresh)).withChange
      (suppliedChange (source.attested args fresh) args fresh)) (source.attested args fresh)
    args.text args.autoPublish false fresh htexts hstored (h.congr ⟨rfl, rfl, rfl, rfl, rfl⟩ rfl)
  refine ⟨db', suppliedChange (source.attested args fresh) args fresh :: changes, ?_⟩
  simp only [supplyText, hnamed, hgiven, Bool.not_false, require, if_true, Except.ok_bind', hput,
    hrecord, hevaluate, Except.pure_eq]

/-- A call on a text that can be evaluated returns. -/
theorem WatchCall.run_returns {db : WatchDb} {source : RegulationSource} {call : WatchCall}
    {fresh : WatchFresh} {text : String} (htext : call.text = some text)
    (hwrites : call.Writes source fresh) (hstored : ∀ p ∈ db.packs, p.Stored)
    (h : Evaluable db source text call.autoPublish call.confirmDrift fresh) :
    ∃ db' changes, call.run db source fresh = .ok (db', changes) := by
  cases call with
  | check outcome autoPublish =>
    cases outcome with
    | raised message => cases htext
    | answered statusCode text' =>
      by_cases hfailed : 400 ≤ statusCode
      · rw [WatchCall.text, if_pos hfailed] at htext
        cases htext
      · rw [WatchCall.text, if_neg hfailed] at htext
        obtain rfl := Option.some.inj htext
        exact checkSource_returns hfailed hwrites hstored h
  | supply args =>
    obtain rfl := Option.some.inj htext
    exact supplyText_returns hwrites hstored h

end Watch

/-! ## Samples -/

namespace Sample

scoped instance : PyCasefold := PyCasefold.ascii

/-- A rule with a citation to confirm. -/
def watchedRule : JVal :=
  .obj [("id", .str "R1"), ("provision_candidate", .str "Art. 9")]

def watchedPack (version : String) : PackVersion where
  id := Uuid.ofNat 1
  code := "p"
  jurisdiction := "AE"
  instrument := "Law"
  sourceUrl := none
  verificationStatus := "unverified"
  rules := .obj [("rules", .arr [watchedRule])]
  createdAt := 0
  name := "Pack"
  version := version
  instrumentNotes := none
  effectiveDate := none

def watchFresh : WatchFresh where
  now := 0
  nowIso := "2026-01-01T00:00:00+00:00"
  stamp := ⟨"20260101000000", by decide, by decide⟩
  pack := ⟨Uuid.ofNat 2, 0⟩

def watchDb (version : String) : WatchDb where
  packs := [watchedPack version]
  sources := [RegulationSource.new "p" "u"]
  changes := []

theorem watchDb_stored {version : String} (h : versionOk version = true) :
    ∀ p ∈ (watchDb version).packs, p.Stored := by
  intro p hp
  obtain rfl := List.mem_singleton.mp hp
  exact ⟨show textOk "p" = true by decide, show versionOk "AE" = true by decide,
    show textOk "Pack" = true by decide, h, show textOk "Law" = true by decide, rfl, rfl, rfl⟩

end Sample

end Attest
