import Attest.Watch

/-!
# What a call of the watch does

Either call of the watch is a `WatchCall`. One that returns had no text to evaluate, and
then only says so, or evaluated its text (`WatchCall.run_ran`). An evaluation waits for
the text to be seen again, or settles it as the snapshot of the source and publishes what
it confirms (`evaluateSnapshot_evaluates`). What it publishes is read off the state
(`WatchCall.publishes_of_mem`).
-/

set_option linter.unusedSectionVars false

namespace Attest

/-! ## Rows -/

namespace WatchDb

variable {db db' : WatchDb}

@[simp] theorem withSource_packs (db : WatchDb) (s : RegulationSource) :
    (db.withSource s).packs = db.packs := rfl

@[simp] theorem withChange_packs (db : WatchDb) (c : RegulationChange) :
    (db.withChange c).packs = db.packs := rfl

@[simp] theorem withChange_sources (db : WatchDb) (c : RegulationChange) :
    (db.withChange c).sources = db.sources := rfl

theorem putSource_eq_ok {s : RegulationSource} :
    db.putSource s = .ok db' ↔ s.textsOk = true ∧ db' = db.withSource s := by
  rw [putSource, Except.bind_eq_ok]
  constructor
  · rintro ⟨_, htexts, hdb⟩
    exact ⟨require_eq_ok.mp htexts, (Except.ok.inj hdb).symm⟩
  · rintro ⟨htexts, rfl⟩
    exact ⟨(), require_eq_ok.mpr htexts, rfl⟩

theorem recordChange_eq_ok {c : RegulationChange} :
    db.recordChange c = .ok db' ↔ textOk c.summary = true ∧ db' = db.withChange c := by
  rw [recordChange, Except.bind_eq_ok]
  constructor
  · rintro ⟨_, htext, hdb⟩
    exact ⟨require_eq_ok.mp htext, (Except.ok.inj hdb).symm⟩
  · rintro ⟨htext, rfl⟩
    exact ⟨(), require_eq_ok.mpr htext, rfl⟩

/-- The row that was written is read back. -/
theorem getSource_withSource {s old : RegulationSource}
    (h : db.getSource s.packCode s.url = some old) :
    (db.withSource s).getSource s.packCode s.url = some s := by
  unfold getSource withSource at *
  have hkey : ((fun x : RegulationSource => decide (x.packCode = s.packCode ∧ x.url = s.url)) ∘
      fun x => if x.packCode = s.packCode ∧ x.url = s.url then s else x) =
        fun x => decide (x.packCode = s.packCode ∧ x.url = s.url) := by
    funext x
    by_cases hx : x.packCode = s.packCode ∧ x.url = s.url
    · simp [hx]
    · rw [Function.comp_apply, if_neg hx]
  have hold : old.packCode = s.packCode ∧ old.url = s.url := by simpa using List.find?_some h
  rw [List.find?_map, hkey, h]
  simp [hold]

theorem getSource_congr (h : db'.sources = db.sources) (packCode url : String) :
    db'.getSource packCode url = db.getSource packCode url := by
  rw [getSource, getSource, h]

theorem latestPack_congr (h : db'.packs = db.packs) (code : String) :
    db'.latestPack code = db.latestPack code := by
  rw [latestPack, latestPack, h]

theorem getVersion_congr (h : db'.packs = db.packs) (code version : String) :
    db'.getVersion code version = db.getVersion code version := by
  rw [getVersion, getVersion, h]

theorem latestPack_spec {code : String} {p : PackVersion} (h : db.latestPack code = some p) :
    p ∈ db.packs ∧ p.code = code := by
  simpa using mem_of_latestBy h

theorem exists_latestPack {p : PackVersion} (hp : p ∈ db.packs) :
    ∃ latest, db.latestPack p.code = some latest := by
  rw [← Option.ne_none_iff_exists']
  intro hnone
  have hempty := latestBy_eq_none.mp hnone
  have hmem : p ∈ db.packs.filter fun q => q.code = p.code := by simp [hp]
  rw [hempty] at hmem
  cases hmem

end WatchDb

section Watch

variable [PyUnicode] [PyCasefold]

/-! ## Upserts -/

/-- A version was published : `row` is its row, the only one that is written. -/
structure Upserted (db db' : WatchDb) (doc : PackDoc) (fresh : PackFresh) (row : PackVersion) :
    Prop where
  sources : db'.sources = db.sources
  changes : db'.changes = db.changes
  found : db'.getVersion doc.code doc.version = some row
  rules : row.rules = .obj doc.rulesDoc
  status : row.verificationStatus = doc.verificationStatus
  codes : ∀ p ∈ db.packs, ∃ q ∈ db'.packs, q.code = p.code
  ids : (db.packs.map fun p => p.id).Nodup → (db'.packs.map fun p => p.id).Nodup
  others : ∀ p ∈ db'.packs, p ∈ db.packs ∨ p.id = row.id ∧ (∃ q ∈ db.packs, q.id = p.id ∧
    p = doc.refresh q) ∨ p = row ∧ p = doc.row fresh ∧ (∀ q ∈ db.packs, q.id ≠ p.id) ∧
      versionOk p.version = true

theorem getVersion_spec {db : WatchDb} {code version : String} {p : PackVersion}
    (h : db.getVersion code version = some p) :
    p ∈ db.packs ∧ p.code = code ∧ p.version = version :=
  ⟨List.mem_of_find?_eq_some h, by simpa using List.find?_some h⟩

theorem upsertPack_upserted {db db' : WatchDb} {doc : PackDoc} {fresh : PackFresh}
    (h : upsertPack db doc fresh = .ok db') : ∃ row, Upserted db db' doc fresh row := by
  unfold upsertPack at h
  cases hget : db.getVersion doc.code doc.version with
  | some existing =>
    rw [hget] at h
    simp only [Except.bind_eq_ok, Except.pure_eq, Except.ok.injEq] at h
    obtain ⟨_, -, rfl⟩ := h
    obtain ⟨hmem, hcode, hversion⟩ := getVersion_spec hget
    refine ⟨doc.refresh existing,
      ⟨rfl, rfl, ?_, rfl, rfl, fun p hp => ?_, fun hids => ?_, fun p hp => ?_⟩⟩
    · have hkey : ((fun p : PackVersion => decide (p.code = doc.code ∧ p.version = doc.version)) ∘
          fun p => if p.id = existing.id then doc.refresh p else p) =
            fun p => decide (p.code = doc.code ∧ p.version = doc.version) := by
        funext p
        by_cases hp : p.id = existing.id <;> simp [hp, PackDoc.refresh]
      unfold WatchDb.getVersion at hget ⊢
      rw [List.find?_map, hkey, hget]
      simp
    · exact ⟨_, List.mem_map_of_mem hp, by split <;> rfl⟩
    · have hkeep : ((fun p : PackVersion => p.id) ∘
          fun p => if p.id = existing.id then doc.refresh p else p) = fun p => p.id := by
        funext p
        by_cases hp : p.id = existing.id <;> simp [hp, PackDoc.refresh]
      rw [List.map_map, hkeep]
      exact hids
    · obtain ⟨q, hq, rfl⟩ := List.mem_map.mp hp
      by_cases hid : q.id = existing.id
      · simp only [hid, if_true]
        exact Or.inr (Or.inl ⟨hid, q, hq, rfl, rfl⟩)
      · simp only [hid, if_false]
        exact Or.inl hq
  | none =>
    rw [hget] at h
    simp only [Except.bind_eq_ok, Except.pure_eq, Except.ok.injEq, require_eq_ok] at h
    obtain ⟨_, htexts, _, hnew, rfl⟩ := h
    refine ⟨doc.row fresh, ⟨rfl, rfl, ?_, rfl, rfl, fun p hp => ?_, fun hids => ?_, fun p hp => ?_⟩⟩
    · unfold WatchDb.getVersion at hget ⊢
      rw [List.find?_append, hget]
      simp [PackDoc.row]
    · exact ⟨p, List.mem_append_left _ hp, rfl⟩
    · rw [List.map_append]
      refine hids.append (List.nodup_singleton _) fun id hid hrow => ?_
      obtain ⟨q, hq, rfl⟩ := List.mem_map.mp hid
      have heq : q.id = (doc.row fresh).id := by simpa using hrow
      simp only [Bool.not_eq_true', List.any_eq_false, decide_eq_true_eq] at hnew
      exact hnew q hq heq
    · rcases List.mem_append.mp hp with hp | hp
      · exact Or.inl hp
      · obtain rfl := List.mem_singleton.mp hp
        have hother : ∀ q ∈ db.packs, q.id ≠ fresh.id := by simpa using hnew
        refine Or.inr (Or.inr ⟨rfl, rfl, hother, ?_⟩)
        simp only [Bool.and_eq_true] at htexts
        exact htexts.2

/-! ## Extraction -/

/-- The extraction is determined by the text. -/
theorem reproducible_eq (extract : Except PyError (List (String × String))) :
    reproducible extract = extract.map fun confirmed => (confirmed, true) := by
  cases extract with
  | error e => rfl
  | ok confirmed =>
    simp [reproducible, reproducibilityRuns, List.replicate, Except.map]

/-! ## Settling -/

/-- A publication of the confirmed rules of a version, with its row. -/
structure PublishesVersion (db db' : WatchDb) (pack : PackVersion)
    (confirmed : List (String × String))
    (source : RegulationSource) (fresh : WatchFresh) (row : PackVersion) : Prop where
  some : confirmed ≠ []
  rules : ∃ rules rules', iterRules pack.doc = .ok rules ∧
    rules.mapM (confirmRule confirmed source.url fresh.nowIso) = .ok rules' ∧
      Upserted db db' (confirmedDoc pack rules' source fresh) fresh.pack row

/-- What the last part of an evaluation did. -/
inductive Settles (db : WatchDb) (pack : PackVersion) (source : RegulationSource)
    (confirmed : List (String × String)) (autoPublish : Bool) (newHash : String)
    (fresh : WatchFresh) : WatchDb → List RegulationChange → Prop
  | nothing : confirmed = [] → Settles db pack source confirmed autoPublish newHash fresh db []
  | published {db' : WatchDb} {row : PackVersion} : autoPublish = true →
    PublishesVersion db db' pack confirmed source fresh row →
    Settles db pack source confirmed autoPublish newHash fresh
      (db'.withChange (publishedChange source confirmed newHash
        (publishedVersion pack source fresh)))
      [publishedChange source confirmed newHash (publishedVersion pack source fresh)]
  | kept {summary : String} {evidence : Dict} : confirmed ≠ [] → autoPublish = false →
    Settles db pack source confirmed autoPublish newHash fresh
      (db.withChange (quarantinedChange source summary evidence newHash))
      [quarantinedChange source summary evidence newHash]

theorem settleConfirmations_settles {db db' : WatchDb} {pack : PackVersion}
    {source : RegulationSource} {confirmed : List (String × String)} {autoPublish : Bool}
    {newHash : String} {fresh : WatchFresh} {changes : List RegulationChange}
    (h : settleConfirmations db pack source confirmed true autoPublish newHash fresh =
      .ok (db', changes)) :
    Settles db pack source confirmed autoPublish newHash fresh db' changes := by
  unfold settleConfirmations at h
  by_cases hempty : confirmed = []
  · simp only [hempty, List.isEmpty_nil, if_true, Except.ok.injEq, Prod.mk.injEq] at h
    obtain ⟨rfl, rfl⟩ := h
    exact .nothing hempty
  have hnonempty : confirmed.isEmpty = false := by simpa using hempty
  simp only [hnonempty, Bool.false_eq_true, if_false, Bool.not_true] at h
  cases autoPublish with
  | true =>
    simp only [if_true, publishConfirmations, Except.bind_eq_ok, Except.pure_eq, Except.ok.injEq,
      Prod.mk.injEq, WatchDb.recordChange_eq_ok] at h
    obtain ⟨⟨db₁, version⟩, ⟨rules, hrules, rules', hconfirm, db₂, hupsert, rfl, rfl⟩, db₃,
      ⟨-, rfl⟩, rfl, rfl⟩ := h
    obtain ⟨row, hrow⟩ := upsertPack_upserted hupsert
    exact .published rfl ⟨hempty, rules, rules', hrules, hconfirm, hrow⟩
  | false =>
    simp only [Bool.false_eq_true, if_false, Except.bind_eq_ok, Except.pure_eq, Except.ok.injEq,
      Prod.mk.injEq, WatchDb.recordChange_eq_ok] at h
    obtain ⟨db₁, ⟨-, rfl⟩, rfl, rfl⟩ := h
    exact .kept hempty rfl

/-! ## Evaluation -/

/-- The text has to be seen again before it is settled. -/
def Waits (source : RegulationSource) (text : String) (confirmDrift : Bool) : Prop :=
  (movedFrom source (contentHash text)).isSome ∧ confirmDrift = true ∧
    source.pendingHash ≠ some (contentHash text)

/-- The changes that tell the drift to a text, none or one. -/
def driftOf (source : RegulationSource) (text : String) : List RegulationChange :=
  ((movedFrom source (contentHash text)).map fun previous =>
    driftChange (source.settled text) text previous (contentHash text)).toList

/-- What an evaluation did. -/
inductive Evaluates (db : WatchDb) (source : RegulationSource) (text : String)
    (autoPublish confirmDrift : Bool) (fresh : WatchFresh) : WatchDb → List RegulationChange → Prop
  | waited : Waits source text confirmDrift → source.textsOk = true →
    Evaluates db source text autoPublish confirmDrift fresh
      (db.withSource { source with pendingHash := some (contentHash text) }) []
  | unpublished : ¬ Waits source text confirmDrift → (source.settled text).textsOk = true →
    db.latestPack source.packCode = none →
    Evaluates db source text autoPublish confirmDrift fresh (db.withSource (source.settled text)) []
  | settled {db₁ db' : WatchDb} {pack : PackVersion} {confirmed : List (String × String)}
    {changes : List RegulationChange} : ¬ Waits source text confirmDrift →
    (source.settled text).textsOk = true → db.latestPack source.packCode = some pack →
    extractConfirmations pack (snapshotOf text) = .ok confirmed →
    db₁.packs = db.packs → db₁.sources = (db.withSource (source.settled text)).sources →
    Settles db₁ pack (source.settled text) confirmed autoPublish (contentHash text)
      fresh db' changes →
    Evaluates db source text autoPublish confirmDrift fresh db' (driftOf source text ++ changes)

theorem tellDrift_eq_ok {db db' : WatchDb} {source : RegulationSource} {text newHash : String}
    {moved : Option String} {changes : List RegulationChange}
    (h : tellDrift db source text moved newHash = .ok (db', changes)) :
    changes = (moved.map fun previous => driftChange source text previous newHash).toList ∧
      db'.packs = db.packs ∧ db'.sources = db.sources := by
  cases moved with
  | none =>
    obtain ⟨rfl, rfl⟩ := Prod.mk.inj (Except.ok.inj h)
    exact ⟨rfl, rfl, rfl⟩
  | some previous =>
    simp only [tellDrift, Except.bind_eq_ok, Except.pure_eq, Except.ok.injEq, Prod.mk.injEq,
      WatchDb.recordChange_eq_ok] at h
    obtain ⟨_, ⟨-, rfl⟩, rfl, rfl⟩ := h
    exact ⟨rfl, rfl, rfl⟩

theorem evaluateSnapshot_evaluates {db db' : WatchDb} {source : RegulationSource} {text : String}
    {autoPublish confirmDrift : Bool} {fresh : WatchFresh} {changes : List RegulationChange}
    (h : evaluateSnapshot db source text autoPublish confirmDrift fresh = .ok (db', changes)) :
    Evaluates db source text autoPublish confirmDrift fresh db' changes := by
  unfold evaluateSnapshot at h
  dsimp only at h
  split at h
  · rename_i hwaits
    simp only [Except.bind_eq_ok, Except.pure_eq, Except.ok.injEq, Prod.mk.injEq,
      WatchDb.putSource_eq_ok] at h
    obtain ⟨_, ⟨htexts, rfl⟩, rfl, rfl⟩ := h
    simp only [Bool.and_eq_true, decide_eq_true_eq] at hwaits
    exact .waited ⟨hwaits.1.1, hwaits.1.2, hwaits.2⟩ htexts
  · rename_i hwaits
    have hwaits : ¬ Waits source text confirmDrift := by
      rintro ⟨hmoved, hconfirm, hpending⟩
      exact hwaits (by simp [hmoved, hconfirm, hpending])
    simp only [Except.bind_eq_ok, WatchDb.putSource_eq_ok] at h
    obtain ⟨db₀, ⟨htexts, rfl⟩, h⟩ := h
    have hlatest : ((db.withSource (source.settled text)).latestPack source.packCode) =
        db.latestPack source.packCode := WatchDb.latestPack_congr rfl _
    split at h
    · rename_i hnone
      obtain ⟨rfl, rfl⟩ := Prod.mk.inj (Except.ok.inj h)
      exact .unpublished hwaits htexts (hlatest.symm.trans hnone)
    · rename_i pack hpack
      simp only [Except.bind_eq_ok, Except.pure_eq, Except.ok.injEq, Prod.mk.injEq,
        reproducible_eq, Except.map_eq_ok] at h
      obtain ⟨⟨db₁, drift⟩, hdrift, ⟨confirmed, isReproducible⟩, ⟨_, hconfirmed, rfl, rfl⟩,
        ⟨db₂, rest⟩, hsettle, rfl, rfl⟩ := h
      obtain ⟨rfl, hpacks, hsources⟩ := tellDrift_eq_ok hdrift
      exact .settled hwaits htexts (hlatest.symm.trans hpack) hconfirmed hpacks hsources
        (settleConfirmations_settles hsettle)

/-! ## Calls -/

/-- A call on a source. -/
inductive WatchCall where
  | check (outcome : FetchOutcome) (autoPublish : Bool)
  | supply (args : SupplyArgs)

namespace WatchCall

def run (db : WatchDb) (source : RegulationSource) (fresh : WatchFresh) :
    WatchCall → Except PyError (WatchDb × List RegulationChange)
  | .check outcome autoPublish => checkSource db source outcome autoPublish fresh
  | .supply args => supplyText db source args fresh

/-- The text the call has to evaluate : what was fetched or what was supplied. -/
def text : WatchCall → Option String
  | .check (.answered statusCode text) _ => if 400 ≤ statusCode then none else some text
  | .check (.raised _) _ => none
  | .supply args => some args.text

def autoPublish : WatchCall → Bool
  | .check _ autoPublish => autoPublish
  | .supply args => args.autoPublish

/-- Only a check asks for a change of the content to be seen twice. -/
def confirmDrift : WatchCall → Bool
  | .check _ _ => true
  | .supply _ => false

/-- How the source is maintained once the call had its text. -/
def mode : WatchCall → CheckMode
  | .check _ _ => .auto
  | .supply _ => .manual

end WatchCall

/-- What the watch knows of the content of a source is as it was. -/
structure KeepsContent (source source' : RegulationSource) : Prop where
  packCode : source'.packCode = source.packCode
  url : source'.url = source.url
  contentHash : source'.contentHash = source.contentHash
  pendingHash : source'.pendingHash = source.pendingHash
  snapshot : source'.snapshot = source.snapshot

theorem KeepsContent.movedFrom {source source' : RegulationSource} (h : KeepsContent source source')
    (newHash : String) : Attest.movedFrom source' newHash = Attest.movedFrom source newHash := by
  rw [Attest.movedFrom, Attest.movedFrom, h.contentHash]

theorem KeepsContent.waits {source source' : RegulationSource} (h : KeepsContent source source')
    (text : String) (confirmDrift : Bool) :
    Waits source' text confirmDrift ↔ Waits source text confirmDrift := by
  rw [Waits, Waits, h.movedFrom, h.pendingHash]

/-- The changes of a call that are not of its evaluation. -/
def RegulationChange.Incidental (c : RegulationChange) : Prop :=
  c.changeType ≠ .sourceDrift ∧ c.changeType ≠ .provisionConfirmed ∧ c.status ≠ .autoPublished

/-- What a call that returned did. -/
inductive Ran (db : WatchDb) (source : RegulationSource) (call : WatchCall) (fresh : WatchFresh) :
    WatchDb → List RegulationChange → Prop
  | failed {db' : WatchDb} {source' : RegulationSource} {changes : List RegulationChange} :
    call.text = none → db'.packs = db.packs → db'.sources = (db.withSource source').sources →
    source'.textsOk = true → KeepsContent source source' → source'.checkMode = source.checkMode →
    (∀ c ∈ changes, c.Incidental) →
    Ran db source call fresh db' changes
  | evaluated {db₁ db' : WatchDb} {source₁ : RegulationSource} {text : String}
    {before changes : List RegulationChange} : call.text = some text →
    Evaluates db₁ source₁ text call.autoPublish call.confirmDrift fresh db' changes →
    KeepsContent source source₁ → source₁.checkMode = call.mode → db₁.packs = db.packs →
    (∀ s, (db₁.withSource s).sources = (db.withSource s).sources ∨ s.packCode ≠ source.packCode ∨
      s.url ≠ source.url) →
    (∀ c ∈ before, c.Incidental) →
    Ran db source call fresh db' (before ++ changes)

/-- Writing the row of a source twice is writing it once. -/
theorem withSource_withSource {db : WatchDb} {s s' : RegulationSource}
    (hcode : s'.packCode = s.packCode) (hurl : s'.url = s.url) :
    ((db.withSource s).withSource s').sources = (db.withSource s').sources := by
  simp only [WatchDb.withSource, List.map_map]
  refine List.map_congr_left fun x _ => ?_
  by_cases hx : x.packCode = s.packCode ∧ x.url = s.url
  · simp [hx, hcode, hurl]
  · rw [Function.comp_apply, if_neg hx]

theorem failed_incidental {source : RegulationSource} {changeType : ChangeType} {summary : String}
    {evidence : Dict} (hdrift : changeType ≠ .sourceDrift)
    (hconfirmed : changeType ≠ .provisionConfirmed) :
    ∀ c ∈ [failedChange source changeType summary evidence], c.Incidental := by
  intro c hc
  obtain rfl := List.mem_singleton.mp hc
  exact ⟨hdrift, hconfirmed, nofun⟩

theorem failureOf_type (source : RegulationSource) (statusCode : Int) :
    (failureOf source statusCode).1 ≠ .sourceDrift ∧
      (failureOf source statusCode).1 ≠ .provisionConfirmed := by
  unfold failureOf
  split_ifs <;> exact ⟨nofun, nofun⟩

theorem checkSource_ran {db db' : WatchDb} {source : RegulationSource} {outcome : FetchOutcome}
    {autoPublish : Bool} {fresh : WatchFresh} {changes : List RegulationChange}
    (h : checkSource db source outcome autoPublish fresh = .ok (db', changes)) :
    Ran db source (.check outcome autoPublish) fresh db' changes := by
  cases outcome with
  | raised message =>
    simp only [checkSource] at h
    split at h
    · simp only [Except.bind_eq_ok, Except.pure_eq, Except.ok.injEq, Prod.mk.injEq,
        WatchDb.putSource_eq_ok] at h
      obtain ⟨_, ⟨htexts, rfl⟩, rfl, rfl⟩ := h
      exact .failed rfl rfl rfl htexts ⟨rfl, rfl, rfl, rfl, rfl⟩ rfl (by simp)
    · simp only [Except.bind_eq_ok, Except.pure_eq, Except.ok.injEq, Prod.mk.injEq,
        WatchDb.putSource_eq_ok, WatchDb.recordChange_eq_ok] at h
      obtain ⟨_, ⟨htexts, rfl⟩, _, ⟨-, rfl⟩, rfl, rfl⟩ := h
      exact .failed rfl rfl rfl htexts ⟨rfl, rfl, rfl, rfl, rfl⟩ rfl (failed_incidental nofun nofun)
  | answered statusCode text =>
    simp only [checkSource] at h
    by_cases hfailed : 400 ≤ statusCode
    · have htext : (WatchCall.check (.answered statusCode text) autoPublish).text = none :=
        if_pos hfailed
      rw [if_pos hfailed] at h
      split at h
      · simp only [Except.bind_eq_ok, Except.pure_eq, Except.ok.injEq, Prod.mk.injEq,
          WatchDb.putSource_eq_ok] at h
        obtain ⟨_, ⟨htexts, rfl⟩, rfl, rfl⟩ := h
        exact .failed htext rfl rfl htexts ⟨rfl, rfl, rfl, rfl, rfl⟩ rfl (by simp)
      · simp only [Except.bind_eq_ok, Except.pure_eq, Except.ok.injEq, Prod.mk.injEq,
          WatchDb.putSource_eq_ok, WatchDb.recordChange_eq_ok] at h
        obtain ⟨_, ⟨htexts, rfl⟩, _, ⟨-, rfl⟩, rfl, rfl⟩ := h
        exact .failed htext rfl rfl htexts ⟨rfl, rfl, rfl, rfl, rfl⟩ rfl
          (failed_incidental (failureOf_type _ _).1 (failureOf_type _ _).2)
    · have htext : (WatchCall.check (.answered statusCode text) autoPublish).text = some text :=
        if_neg hfailed
      rw [if_neg hfailed] at h
      simp only [Except.bind_eq_ok, Except.pure_eq, Except.ok.injEq, Prod.mk.injEq] at h
      obtain ⟨⟨db₁, source₁, recovered⟩, hrecover, ⟨db₂, rest⟩, hevaluate, rfl, rfl⟩ := h
      have hevaluates := evaluateSnapshot_evaluates hevaluate
      unfold recover at hrecover
      split at hrecover
      · simp only [Except.bind_eq_ok, Except.pure_eq, Except.ok.injEq, Prod.mk.injEq,
          WatchDb.putSource_eq_ok, WatchDb.recordChange_eq_ok] at hrecover
        obtain ⟨_, ⟨-, rfl⟩, _, ⟨-, rfl⟩, rfl, rfl, rfl⟩ := hrecover
        refine .evaluated htext hevaluates ⟨rfl, rfl, rfl, rfl, rfl⟩ rfl rfl (fun s => ?_) ?_
        · by_cases hs : s.packCode = source.packCode ∧ s.url = source.url
          · exact Or.inl (withSource_withSource hs.1 hs.2)
          · exact Or.inr (not_and_or.mp hs)
        · intro c hc
          obtain rfl := List.mem_singleton.mp hc
          exact ⟨nofun, nofun, nofun⟩
      · rename_i hmode
        obtain ⟨rfl, rfl, rfl⟩ : db = db₁ ∧ _ = source₁ ∧ [] = recovered := by
          simpa using hrecover
        refine .evaluated htext hevaluates ⟨rfl, rfl, rfl, rfl, rfl⟩ ?_ rfl (fun s => Or.inl rfl)
          (by simp)
        show source.checkMode = .auto
        cases hcm : source.checkMode with
        | auto => rfl
        | manual => exact absurd hcm hmode

theorem supplyText_ran {db db' : WatchDb} {source : RegulationSource} {args : SupplyArgs}
    {fresh : WatchFresh} {changes : List RegulationChange}
    (h : supplyText db source args fresh = .ok (db', changes)) :
    Ran db source (.supply args) fresh db' changes := by
  simp only [supplyText, Except.bind_eq_ok, Except.pure_eq, Except.ok.injEq, Prod.mk.injEq,
    WatchDb.putSource_eq_ok, WatchDb.recordChange_eq_ok] at h
  obtain ⟨_, -, _, -, _, ⟨-, rfl⟩, _, ⟨-, rfl⟩, ⟨db₁, rest⟩, hevaluate, rfl, rfl⟩ := h
  have hran : Ran db source (.supply args) fresh db₁
      ([suppliedChange (source.attested args fresh) args fresh] ++ rest) := by
    refine .evaluated rfl (evaluateSnapshot_evaluates hevaluate) ⟨rfl, rfl, rfl, rfl, rfl⟩ rfl rfl
      (fun s => ?_) ?_
    · by_cases hs : s.packCode = source.packCode ∧ s.url = source.url
      · exact Or.inl (withSource_withSource hs.1 hs.2)
      · exact Or.inr (not_and_or.mp hs)
    · intro c hc
      obtain rfl := List.mem_singleton.mp hc
      exact ⟨nofun, nofun, nofun⟩
  exact hran

/-- A call that returns did one of two things. -/
theorem WatchCall.run_ran {db db' : WatchDb} {source : RegulationSource} {call : WatchCall}
    {fresh : WatchFresh} {changes : List RegulationChange}
    (h : call.run db source fresh = .ok (db', changes)) : Ran db source call fresh db' changes := by
  cases call with
  | check outcome autoPublish => exact checkSource_ran h
  | supply args => exact supplyText_ran h

/-! ## Publications -/

/-- A call settled `text` and published `row` after `base`, with the citations in
`confirmed`. -/
structure Publication (db db' : WatchDb) (source : RegulationSource) (call : WatchCall)
    (fresh : WatchFresh) (text : String) (base row : PackVersion)
    (confirmed : List (String × String)) (rules rules' : List JVal) : Prop where
  fetched : call.text = some text
  settles : ¬ Waits source text call.confirmDrift
  autoPublish : call.autoPublish = true
  latest : db.latestPack source.packCode = some base
  extracted : extractConfirmations base (snapshotOf text) = .ok confirmed
  nonempty : confirmed ≠ []
  iterated : iterRules base.doc = .ok rules
  filled : rules.mapM (confirmRule confirmed source.url fresh.nowIso) = .ok rules'
  upserted : ∃ source' db₁ db₂, source'.checkMode = call.mode ∧ db₁.packs = db.packs ∧
    db₂.packs = db'.packs ∧ Upserted db₁ db₂ (confirmedDoc base rules' source' fresh) fresh.pack row
  snapshot : (db.getSource source.packCode source.url).isSome →
    (db'.getSource source.packCode source.url).bind RegulationSource.snapshot =
      some (snapshotOf text)

/-- The row that was published is read back with the rules that were filled in. -/
theorem Publication.row_rules {db db' : WatchDb} {source : RegulationSource} {call : WatchCall}
    {fresh : WatchFresh} {text : String} {base row : PackVersion}
    {confirmed : List (String × String)} {rules rules' : List JVal}
    (h : Publication db db' source call fresh text base row confirmed rules rules') :
    db'.getVersion base.code row.version = some row ∧ iterRules row.doc = .ok rules' := by
  obtain ⟨source', db₁, db₂, -, -, hpacks, hupserted⟩ := h.upserted
  have hversion := (getVersion_spec hupserted.found).2.2
  constructor
  · rw [← WatchDb.getVersion_congr hpacks, hversion]
    exact hupserted.found
  · rw [PackVersion.doc, hupserted.rules]
    rfl

theorem found_withSource {db : WatchDb} {source source' : RegulationSource} {packCode url : String}
    (hfound : db.getSource packCode url = some source) (hcode : source'.packCode = packCode)
    (hurl : source'.url = url) : (db.withSource source').getSource packCode url = some source' := by
  subst hcode hurl
  exact WatchDb.getSource_withSource hfound

/-- A change that says a version was published says so of what the call published. -/
theorem WatchCall.publishes_of_mem {db db' : WatchDb} {source : RegulationSource} {call : WatchCall}
    {fresh : WatchFresh} {changes : List RegulationChange} {c : RegulationChange}
    (h : call.run db source fresh = .ok (db', changes)) (hc : c ∈ changes)
    (hstatus : c.status = .autoPublished) : ∃ text base row confirmed rules rules',
      Publication db db' source call fresh text base row confirmed rules rules' ∧
        ∃ source', source'.checkMode = call.mode ∧
          c = publishedChange source' confirmed (contentHash text) row.version := by
  cases WatchCall.run_ran h with
  | failed _ _ _ _ _ _ hincidental => exact absurd hstatus (hincidental c hc).2.2
  | @evaluated db₁ _ source₁ text before rest htext hevaluates hsame hmode hpacks hsources
      hincidental =>
    rcases List.mem_append.mp hc with hc | hc
    · exact absurd hstatus (hincidental c hc).2.2
    cases hevaluates with
    | waited => cases hc
    | unpublished => cases hc
    | @settled db₂ _ base confirmed changes hwaits _ hbase hconfirmed hpacks₂ hsources₂ hsettles =>
      rcases List.mem_append.mp hc with hc | hc
      · obtain ⟨previous, -, rfl⟩ :
          ∃ previous, movedFrom source₁ (contentHash text) = some previous ∧
          driftChange (source₁.settled text) text previous (contentHash text) = c := by
          simpa [driftOf] using hc
        cases hstatus
      cases hsettles with
      | nothing => cases hc
      | kept =>
        obtain rfl := List.mem_singleton.mp hc
        cases hstatus
      | @published db₃ row hauto hpublishes =>
        obtain rfl := List.mem_singleton.mp hc
        obtain ⟨rules, rules', hrules, hfilled, hupserted⟩ := hpublishes.rules
        have hversion := (getVersion_spec hupserted.found).2.2
        rw [hsame.waits] at hwaits
        refine ⟨text, base, row, confirmed, rules, rules', {
          fetched := htext
          settles := hwaits
          autoPublish := hauto
          latest := ?_
          extracted := hconfirmed
          nonempty := hpublishes.some
          iterated := hrules
          filled := ?_
          upserted := ⟨source₁.settled text, db₂, db₃, hmode, hpacks₂.trans hpacks, rfl, hupserted⟩
          snapshot := ?_ }, ?_⟩
        · rw [← hbase, hsame.packCode]
          exact (WatchDb.latestPack_congr hpacks _).symm
        · rw [← hsame.url]
          exact hfilled
        · intro hsource
          obtain ⟨s, hs⟩ := Option.isSome_iff_exists.mp hsource
          rcases hsources (source₁.settled text) with hwrite | hne | hne
          · have hsaved : (db₃.withChange (publishedChange (source₁.settled text) confirmed
                (contentHash text) (publishedVersion base (source₁.settled text) fresh))).sources =
                (db.withSource (source₁.settled text)).sources :=
              (hupserted.sources.trans hsources₂).trans hwrite
            rw [WatchDb.getSource_congr hsaved,
              found_withSource hs (show (source₁.settled text).packCode = _ from hsame.packCode)
                (show (source₁.settled text).url = _ from hsame.url)]
            rfl
          · exact absurd hsame.packCode hne
          · exact absurd hsame.url hne
        · exact ⟨source₁.settled text, hmode, by rw [hversion]; rfl⟩

/-- A call that settles a text and confirms something in it says that it published, where it
may. -/
theorem WatchCall.exists_published {db db' : WatchDb} {source : RegulationSource} {call : WatchCall}
    {fresh : WatchFresh} {changes : List RegulationChange} {text : String} {base : PackVersion}
    {confirmed : List (String × String)} (h : call.run db source fresh = .ok (db', changes))
    (htext : call.text = some text) (hsettles : ¬ Waits source text call.confirmDrift)
    (hauto : call.autoPublish = true) (hlatest : db.latestPack source.packCode = some base)
    (hextracted : extractConfirmations base (snapshotOf text) = .ok confirmed)
    (hne : confirmed ≠ []) : ∃ c ∈ changes, c.status = .autoPublished := by
  cases WatchCall.run_ran h with
  | failed hnone =>
    rw [htext] at hnone
    cases hnone
  | @evaluated db₁ _ source₁ text' before rest htext' hevaluates hsame hmode hpacks =>
    obtain rfl := Option.some.inj (htext.symm.trans htext')
    have hbase : db₁.latestPack source₁.packCode = some base := by
      rw [hsame.packCode, WatchDb.latestPack_congr hpacks, hlatest]
    cases hevaluates with
    | waited hwaits => exact absurd (hsame.waits _ _ |>.mp hwaits) hsettles
    | unpublished _ _ hnone =>
      rw [hbase] at hnone
      cases hnone
    | settled _ _ hbase' hextracted' _ _ hsettles =>
      obtain rfl := Option.some.inj (hbase.symm.trans hbase')
      obtain rfl := Except.ok.inj (hextracted.symm.trans hextracted')
      cases hsettles with
      | nothing hempty => exact absurd hempty hne
      | kept _ hoff =>
        rw [hauto] at hoff
        cases hoff
      | published =>
        exact ⟨_, List.mem_append_right _
          (List.mem_append_right _ (List.mem_singleton_self _)), rfl⟩

/-- A call that says nothing was published leaves the packs alone. -/
theorem WatchCall.packs_of_unpublished {db db' : WatchDb} {source : RegulationSource}
    {call : WatchCall} {fresh : WatchFresh} {changes : List RegulationChange}
    (h : call.run db source fresh = .ok (db', changes))
    (hnone : ∀ c ∈ changes, c.status ≠ .autoPublished) : db'.packs = db.packs := by
  cases WatchCall.run_ran h with
  | failed _ hpacks => exact hpacks
  | evaluated _ hevaluates _ _ hpacks =>
    cases hevaluates with
    | waited => exact hpacks
    | unpublished => exact hpacks
    | settled _ _ _ _ hpacks₁ _ hsettles =>
      cases hsettles with
      | nothing => exact hpacks₁.trans hpacks
      | kept => exact hpacks₁.trans hpacks
      | published => exact absurd rfl (hnone _ (List.mem_append_right _
          (List.mem_append_right _ (List.mem_singleton_self _))))

end Watch

end Attest
