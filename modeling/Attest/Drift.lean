import Attest.Evaluable

/-!
# Drift

A source has drifted when its content is another than the one that was settled last.
Drift is to be told and left to a person, and yet the call that tells it goes on to
publish what it confirms in the new text : `toldApart_iff` is when a call does not do both.

Over a run of checks of a new source, a change of content is settled when two successful
fetches in turn gave it (`driftLaw_of_run`), as long as every fetched text could be
evaluated. A check that raises is rolled back with what it fetched.
-/

set_option linter.unusedSectionVars false

namespace Attest

section Watch

variable [PyUnicode] [PyCasefold]

/-! ## Drift and publication -/

def TellsDrift (changes : List RegulationChange) : Prop :=
  ∃ c ∈ changes, c.changeType = .sourceDrift

def TellsPublication (changes : List RegulationChange) : Prop :=
  ∃ c ∈ changes, c.status = .autoPublished

/-- The call finds the content settled to be another, the pack is there, and something is
confirmed in the new text that may be published. -/
def PublishesOnDrift (db : WatchDb) (source : RegulationSource) (call : WatchCall) : Prop :=
  ∃ text pack confirmed, call.text = some text ∧ (movedFrom source (contentHash text)).isSome ∧
    (call.confirmDrift = true → source.pendingHash = some (contentHash text)) ∧
    call.autoPublish = true ∧ db.latestPack source.packCode = some pack ∧
    extractConfirmations pack (snapshotOf text) = .ok confirmed ∧ confirmed ≠ []

theorem Settles.tells {db db' : WatchDb} {pack : PackVersion} {source : RegulationSource}
    {confirmed : List (String × String)} {autoPublish : Bool} {newHash : String}
    {fresh : WatchFresh} {changes : List RegulationChange}
    (h : Settles db pack source confirmed autoPublish newHash fresh db' changes) :
    ¬ TellsDrift changes ∧
      (TellsPublication changes ↔ confirmed ≠ [] ∧ autoPublish = true) := by
  cases h with
  | nothing hempty => simp [TellsDrift, TellsPublication, hempty]
  | published hauto hpublishes =>
    simp [TellsDrift, TellsPublication, publishedChange, hauto, hpublishes.some]
  | kept hne hauto => simp [TellsDrift, TellsPublication, quarantinedChange, hauto]

theorem tellsDrift_driftOf (source : RegulationSource) (text : String) :
    (TellsDrift (driftOf source text) ↔ (movedFrom source (contentHash text)).isSome) ∧
      ¬ TellsPublication (driftOf source text) := by
  unfold driftOf TellsDrift TellsPublication
  cases movedFrom source (contentHash text) with
  | none => simp
  | some previous => simp [driftChange]

theorem tells_append (xs ys : List RegulationChange) :
    (TellsDrift (xs ++ ys) ↔ TellsDrift xs ∨ TellsDrift ys) ∧
      (TellsPublication (xs ++ ys) ↔ TellsPublication xs ∨ TellsPublication ys) := by
  simp only [TellsDrift, TellsPublication, List.mem_append, or_and_right, exists_or, and_self]

theorem not_tells_of_incidental {changes : List RegulationChange}
    (h : ∀ c ∈ changes, c.Incidental) :
    ¬ TellsDrift changes ∧ ¬ TellsPublication changes :=
  ⟨fun ⟨c, hc, htype⟩ => (h c hc).1 htype, fun ⟨c, hc, hstatus⟩ => (h c hc).2.2 hstatus⟩

/-- No call both tells of a drift and publishes, exactly where it does not confirm and
publish on a content that has moved. -/
theorem toldApart_iff {db db' : WatchDb} {source : RegulationSource} {call : WatchCall}
    {fresh : WatchFresh} {changes : List RegulationChange}
    (h : call.run db source fresh = .ok (db', changes)) :
    ¬ (TellsDrift changes ∧ TellsPublication changes) ↔ ¬ PublishesOnDrift db source call := by
  rw [not_iff_not]
  cases WatchCall.run_ran h with
  | failed htext _ _ _ _ _ hincidental =>
    obtain ⟨hdrift, -⟩ := not_tells_of_incidental hincidental
    constructor
    · exact fun htells => absurd htells.1 hdrift
    · rintro ⟨text, _, _, hsome, -⟩
      rw [htext] at hsome
      cases hsome
  | @evaluated db₁ _ source₁ text before rest htext hevaluates hsame _ hpacks _ hincidental =>
    obtain ⟨hdrift, hpublication⟩ := not_tells_of_incidental hincidental
    have hlatest : db₁.latestPack source₁.packCode = db.latestPack source.packCode := by
      rw [hsame.packCode]
      exact WatchDb.latestPack_congr hpacks _
    rw [(tells_append before rest).1, (tells_append before rest).2, or_iff_right hdrift,
      or_iff_right hpublication]
    cases hevaluates with
    | waited hwaits _ =>
      rw [hsame.waits] at hwaits
      constructor
      · rintro ⟨⟨_, hmem, -⟩, -⟩
        cases hmem
      · rintro ⟨text', _, _, htext', -, hpending, -⟩
        obtain rfl := Option.some.inj (htext.symm.trans htext')
        exact absurd (hpending hwaits.2.1) hwaits.2.2
    | unpublished _ _ hnone =>
      constructor
      · rintro ⟨⟨_, hmem, -⟩, -⟩
        cases hmem
      · rintro ⟨_, pack, _, -, -, -, -, hpack, -⟩
        rw [← hlatest, hnone] at hpack
        cases hpack
    | @settled _ _ pack confirmed changes hwaits _ hpack hconfirmed _ _ hsettles =>
      obtain ⟨hdrift, hpublication⟩ := hsettles.tells
      obtain ⟨hmoved, hnot⟩ := tellsDrift_driftOf source₁ text
      rw [(tells_append _ changes).1, (tells_append _ changes).2, or_iff_left hdrift,
        or_iff_right hnot, hmoved, hpublication, hsame.movedFrom]
      rw [hsame.waits] at hwaits
      constructor
      · rintro ⟨hmoved, hne, hauto⟩
        refine ⟨text, pack, confirmed, htext, hmoved, fun hconfirm => ?_, hauto,
          hlatest.symm.trans hpack, hconfirmed, hne⟩
        by_contra hpending
        exact hwaits ⟨hmoved, hconfirm, hpending⟩
      · rintro ⟨text', pack', confirmed', htext', hmoved, -, hauto, hpack', hconfirmed', hne⟩
        obtain rfl := Option.some.inj (htext.symm.trans htext')
        obtain rfl := Option.some.inj (hpack.symm.trans (hlatest.trans hpack'))
        obtain rfl := Except.ok.inj (hconfirmed.symm.trans hconfirmed')
        exact ⟨hmoved, hne, hauto⟩

/-! ## Runs of checks -/

/-- One check of a source. -/
structure Check where
  outcome : FetchOutcome
  autoPublish : Bool
  fresh : WatchFresh

/-- The text a check fetched. -/
def Check.text (check : Check) : Option String :=
  (WatchCall.check check.outcome check.autoPublish).text

variable (packCode url : String)

/-- The state after a check, with its changes. A check that raises is rolled back. -/
def Check.run (db : WatchDb) (check : Check) : WatchDb × List RegulationChange :=
  match db.getSource packCode url with
  | none => (db, [])
  | some source =>
    match checkSource db source check.outcome check.autoPublish check.fresh with
    | .ok out => out
    | .error _ => (db, [])

/-- A property of every check of a run, in terms of the texts fetched before it and of the
state it finds. -/
def EveryCheck (P : List String → WatchDb → Check → Prop) :
    List String → WatchDb → List Check → Prop
  | _, _, [] => True
  | texts, db, check :: checks =>
    P texts db check ∧
      EveryCheck P (texts ++ check.text.toList) (check.run packCode url db).1 checks

def WatchDb.hashOf (db : WatchDb) : Option String :=
  (db.getSource packCode url).bind RegulationSource.contentHash

def WatchDb.sourceSnapshot (db : WatchDb) : Option String :=
  (db.getSource packCode url).bind RegulationSource.snapshot

/-- The content was the first to be fetched, or two successful fetches in turn gave it. -/
def Seen (texts : List String) (hash : String) : Prop :=
  texts.head?.map contentHash = some hash ∨
    ∃ before a b after, texts = before ++ a :: b :: after ∧ contentHash a = hash ∧
      contentHash b = hash

/-- What a check does to the content of its source, and what it tells of it. -/
structure DriftLaw (texts : List String) (db : WatchDb) (check : Check) : Prop where
  /-- Before anything is fetched there is no hash, then it is of a content that was seen. -/
  hash : (check.run packCode url db).1.hashOf packCode url = none ∧
    texts ++ check.text.toList = [] ∨
    ∃ h, (check.run packCode url db).1.hashOf packCode url = some h ∧
      Seen (texts ++ check.text.toList) h
  /-- Drift is told exactly where the hash moves. -/
  drift : TellsDrift (check.run packCode url db).2 ↔ ∃ h h', db.hashOf packCode url = some h ∧
    (check.run packCode url db).1.hashOf packCode url = some h' ∧ h ≠ h'
  /-- What is reported as drift or published from was seen. -/
  told : TellsDrift (check.run packCode url db).2 ∨ TellsPublication (check.run packCode url db).2 ∨
      (check.run packCode url db).1.packs ≠ db.packs →
    ∃ text, check.text = some text ∧ Seen (texts ++ check.text.toList) (contentHash text)
  /-- The snapshot is of a content that was seen. -/
  snapshot : ∀ s, (check.run packCode url db).1.sourceSnapshot packCode url = some s →
    ∃ text ∈ texts ++ check.text.toList, s = snapshotOf text ∧
      Seen (texts ++ check.text.toList) (contentHash text)

/-- The text that a check fetched can be evaluated. -/
def Check.Evaluable (db : WatchDb) (check : Check) : Prop :=
  ∀ source text, db.getSource packCode url = some source → check.text = some text →
    Attest.Evaluable db source text check.autoPublish true check.fresh

/-! ## The invariant -/

/-- What holds between checks. -/
structure Watched (texts : List String) (db : WatchDb) (source : RegulationSource) : Prop where
  found : db.getSource packCode url = some source
  mode : source.checkMode = .auto
  textsOk : source.textsOk = true
  blank : texts = [] → source.contentHash = none ∧ source.snapshot = none
  /-- The hash and the snapshot are of one content, that was seen. -/
  seen : texts ≠ [] → ∃ text ∈ texts, source.contentHash = some (contentHash text) ∧
    source.snapshot = some (snapshotOf text) ∧ Seen texts (contentHash text)
  /-- A hash that waits is of the content that was fetched last. -/
  pending : ∀ hash, source.pendingHash = some hash →
    ∃ last, texts.getLast? = some last ∧ contentHash last = hash
  stored : ∀ p ∈ db.packs, p.Stored
  pack : ∃ p ∈ db.packs, p.code = packCode

theorem Seen.append {texts : List String} {hash : String} (h : Seen texts hash)
    (more : List String) : Seen (texts ++ more) hash := by
  rcases h with h | ⟨before, a, b, after, rfl, ha, hb⟩
  · refine Or.inl ?_
    cases texts with
    | nil => cases h
    | cons text texts => exact h
  · exact Or.inr ⟨before, a, b, after ++ more, by simp, ha, hb⟩

/-- A content fetched right after itself was seen. -/
theorem seen_of_getLast? {texts : List String} {last text : String}
    (hlast : texts.getLast? = some last) (h : contentHash last = contentHash text) :
    Seen (texts ++ [text]) (contentHash text) := by
  obtain ⟨before, rfl⟩ := List.getLast?_eq_some_iff.mp hlast
  exact Or.inr ⟨before, last, text, [], by simp, h, rfl⟩

variable {packCode url}

theorem getSource_key {db : WatchDb} {source : RegulationSource}
    (h : db.getSource packCode url = some source) :
    source.packCode = packCode ∧ source.url = url := by
  simpa using List.find?_some h

/-- A publication keeps the rows as the database holds them, and the codes there are. -/
theorem PublishesVersion.stored {db db' : WatchDb} {pack row : PackVersion}
    {confirmed : List (String × String)} {source : RegulationSource} {fresh : WatchFresh}
    (h : PublishesVersion db db' pack confirmed source fresh row) (hpack : pack.Stored)
    (hstored : ∀ p ∈ db.packs, p.Stored) : ∀ p ∈ db'.packs, p.Stored := by
  obtain ⟨rules, rules', -, -, hupserted⟩ := h.rules
  intro p hp
  rcases hupserted.others p hp with hp | ⟨-, q, hq, -, rfl⟩ | ⟨-, rfl, -, hversion⟩
  · exact hstored p hp
  · have hq := hstored q hq
    exact ⟨hq.code, hq.jurisdiction, hpack.name, hq.version, hpack.instrument,
      hpack.instrumentNotes, hpack.sourceUrl, hpack.effectiveDate⟩
  · exact ⟨hpack.code, hpack.jurisdiction, hpack.name, hversion, hpack.instrument,
      hpack.instrumentNotes, hpack.sourceUrl, hpack.effectiveDate⟩

theorem Settles.stored {db db' : WatchDb} {pack : PackVersion} {source : RegulationSource}
    {confirmed : List (String × String)} {autoPublish : Bool} {newHash : String}
    {fresh : WatchFresh} {changes : List RegulationChange}
    (h : Settles db pack source confirmed autoPublish newHash fresh db' changes)
    (hpack : pack.Stored) (hstored : ∀ p ∈ db.packs, p.Stored) :
    (∀ p ∈ db'.packs, p.Stored) ∧ db'.sources = db.sources ∧
      (∀ p ∈ db.packs, ∃ q ∈ db'.packs, q.code = p.code) ∧
      (TellsPublication changes ∨ db'.packs = db.packs) := by
  cases h with
  | nothing => exact ⟨hstored, rfl, fun p hp => ⟨p, hp, rfl⟩, Or.inr rfl⟩
  | published hauto hpublishes =>
    have hupserted := hpublishes.rules
    obtain ⟨rules, rules', -, -, hupserted⟩ := hupserted
    exact ⟨hpublishes.stored hpack hstored, hupserted.sources, hupserted.codes,
      Or.inl ⟨_, List.mem_singleton_self _, rfl⟩⟩
  | kept => exact ⟨hstored, rfl, fun p hp => ⟨p, hp, rfl⟩, Or.inr rfl⟩

/-! ## One check -/

section Step

variable {texts : List String} {db db' : WatchDb} {source source' : RegulationSource}
    {check : Check}

/-- What keeps the content of the source keeps the invariant. -/
theorem Watched.keep (h : Watched packCode url texts db source)
    (hfound : db'.getSource packCode url = some source') (hsame : KeepsContent source source')
    (hmode : source'.checkMode = source.checkMode) (htexts : source'.textsOk = true)
    (hpacks : db'.packs = db.packs) : Watched packCode url texts db' source' where
  found := hfound
  mode := hmode.trans h.mode
  textsOk := htexts
  blank := by
    rw [hsame.contentHash, hsame.snapshot]
    exact h.blank
  seen := by
    rw [hsame.contentHash, hsame.snapshot]
    exact h.seen
  pending := by
    rw [hsame.pendingHash]
    exact h.pending
  stored := hpacks ▸ h.stored
  pack := hpacks ▸ h.pack

/-- The hash and the snapshot of the invariant. -/
theorem Watched.law (h : Watched packCode url texts db source) :
    (db.hashOf packCode url = none ∧ texts = [] ∨ ∃ hash, db.hashOf packCode url = some hash ∧
      Seen texts hash) ∧
    ∀ s, db.sourceSnapshot packCode url = some s → ∃ text ∈ texts, s = snapshotOf text ∧
      Seen texts (contentHash text) := by
  simp only [WatchDb.hashOf, WatchDb.sourceSnapshot, h.found, Option.bind_some]
  by_cases hempty : texts = []
  · obtain ⟨hhash, hsnapshot⟩ := h.blank hempty
    rw [hhash, hsnapshot]
    exact ⟨Or.inl ⟨rfl, hempty⟩, nofun⟩
  · obtain ⟨text, hmem, hhash, hsnapshot, hseen⟩ := h.seen hempty
    refine ⟨Or.inr ⟨_, hhash, hseen⟩, fun s hs => ⟨text, hmem, ?_, hseen⟩⟩
    rw [hsnapshot] at hs
    exact (Option.some.inj hs).symm

/-- A check that fetched nothing, or that waits, leaves the content alone and tells nothing
of it. -/
theorem driftLaw_of_kept {changes : List RegulationChange}
    (hrun : check.run packCode url db = (db', changes))
    (hafter : Watched packCode url (texts ++ check.text.toList) db' source')
    (hhash : db'.hashOf packCode url = db.hashOf packCode url) (hpacks : db'.packs = db.packs)
    (hincidental : ∀ c ∈ changes, c.Incidental) : DriftLaw packCode url texts db check := by
  obtain ⟨hdrift, hpublication⟩ := not_tells_of_incidental hincidental
  obtain ⟨hlaw, hsnapshot⟩ := hafter.law
  refine ⟨?_, ?_, ?_, ?_⟩ <;> rw [hrun]
  · exact hlaw
  · refine iff_of_false hdrift ?_
    rintro ⟨h, h', hbefore, hafter', hne⟩
    rw [hhash] at hafter'
    exact hne (Option.some.inj (hbefore.symm.trans hafter'))
  · rintro (htells | htells | hchanged)
    · exact absurd htells hdrift
    · exact absurd htells hpublication
    · exact absurd hpacks hchanged
  · exact hsnapshot

/-- A content that is settled was seen : it is the first, the one that was settled, or the
one that was fetched last. -/
theorem Watched.seen_of_not_waits (h : Watched packCode url texts db source) {text : String}
    (hwaits : ¬ Waits source text true) : Seen (texts ++ [text]) (contentHash text) := by
  by_cases hempty : texts = []
  · subst hempty
    exact Or.inl rfl
  obtain ⟨settled, -, hhash, -, hseen⟩ := h.seen hempty
  by_cases hsame : contentHash settled = contentHash text
  · exact hsame ▸ hseen.append [text]
  · have hpending : source.pendingHash = some (contentHash text) := by
      by_contra hpending
      exact hwaits ⟨by simp [movedFrom, hhash, hsame], rfl, hpending⟩
    obtain ⟨last, hlast, heq⟩ := h.pending _ hpending
    exact seen_of_getLast? hlast heq

theorem Check.answered_of_text {text : String} (h : check.text = some text) :
    ∃ statusCode, check.outcome = .answered statusCode text ∧ ¬ 400 ≤ statusCode := by
  unfold Check.text at h
  cases houtcome : check.outcome with
  | raised message =>
    rw [houtcome] at h
    cases h
  | answered statusCode fetched =>
    rw [houtcome] at h
    by_cases hfailed : 400 ≤ statusCode
    · rw [WatchCall.text, if_pos hfailed] at h
      cases h
    · rw [WatchCall.text, if_neg hfailed] at h
      obtain rfl := Option.some.inj h
      exact ⟨statusCode, rfl, hfailed⟩

/-- A text that can be evaluated is not lost with its check. -/
theorem Watched.returns (h : Watched packCode url texts db source)
    (hgoes : check.Evaluable packCode url db) {e : PyError}
    (herror : checkSource db source check.outcome check.autoPublish check.fresh = .error e) :
    check.text = none := by
  rw [Option.eq_none_iff_forall_ne_some]
  intro text htext
  obtain ⟨statusCode, houtcome, hok⟩ := Check.answered_of_text htext
  obtain ⟨db', changes, hreturns⟩ := checkSource_returns hok h.textsOk h.stored
    (hgoes source text h.found htext)
  rw [houtcome, hreturns] at herror
  cases herror

/-- A check that waits for its text to be seen again. -/
theorem Watched.wait (h : Watched packCode url texts db source) {text : String}
    {changes : List RegulationChange} (hpending : source'.pendingHash = some (contentHash text))
    (hrun : check.run packCode url db = (db', changes)) (htext : check.text = some text)
    (hwaits : Waits source text true) (hhash : source'.contentHash = source.contentHash)
    (hsnapshot : source'.snapshot = source.snapshot) (hmode : source'.checkMode = .auto)
    (htexts : source'.textsOk = true) (hfound : db'.getSource packCode url = some source')
    (hpacks : db'.packs = db.packs) (hincidental : ∀ c ∈ changes, c.Incidental) :
    (∃ source', Watched packCode url (texts ++ check.text.toList) (check.run packCode url db).1
      source') ∧ DriftLaw packCode url texts db check := by
  have hne : texts ≠ [] := by
    intro hempty
    have hmoved := hwaits.1
    rw [movedFrom, (h.blank hempty).1] at hmoved
    cases hmoved
  obtain ⟨settled, hmem, hsettled, hkept, hseen⟩ := h.seen hne
  have hafter : Watched packCode url (texts ++ check.text.toList) db' source' := {
    found := hfound
    mode := hmode
    textsOk := htexts
    blank := fun hempty => absurd (List.append_eq_nil_iff.mp hempty).1 hne
    seen := fun _ => ⟨settled, List.mem_append_left _ hmem, hhash.trans hsettled,
      hsnapshot.trans hkept, hseen.append _⟩
    pending := fun hash hwaiting => ⟨text, by rw [htext]; exact List.getLast?_concat,
      Option.some.inj (hpending.symm.trans hwaiting)⟩
    stored := hpacks ▸ h.stored
    pack := hpacks ▸ h.pack }
  refine ⟨⟨source', by rw [hrun]; exact hafter⟩, driftLaw_of_kept hrun hafter ?_ hpacks hincidental⟩
  simp only [WatchDb.hashOf, hfound, h.found, Option.bind_some, hhash]

/-- A check that settles its text. -/
theorem Watched.settle (h : Watched packCode url texts db source) {text : String}
    {changes : List RegulationChange} (hrun : check.run packCode url db = (db', changes))
    (htext : check.text = some text) (hwaits : ¬ Waits source text true)
    (hmode : source'.checkMode = .auto)
    (htexts : (source'.settled text).textsOk = true)
    (hfound : db'.getSource packCode url = some (source'.settled text))
    (hdrift : TellsDrift changes ↔ (movedFrom source (contentHash text)).isSome)
    (hstored : ∀ p ∈ db'.packs, p.Stored) (hpack : ∃ p ∈ db'.packs, p.code = packCode) :
    (∃ source', Watched packCode url (texts ++ check.text.toList) (check.run packCode url db).1
      source') ∧ DriftLaw packCode url texts db check := by
  have hseen := h.seen_of_not_waits hwaits
  have hafter : Watched packCode url (texts ++ [text]) db' (source'.settled text) := {
    found := hfound
    mode := hmode
    textsOk := htexts
    blank := fun hempty => by simp at hempty
    seen := fun _ => ⟨text, by simp, rfl, rfl, hseen⟩
    pending := nofun
    stored := hstored
    pack := hpack }
  have hlist : check.text.toList = [text] := by rw [htext, Option.toList_some]
  refine ⟨⟨_, by rw [hrun, hlist]; exact hafter⟩, ?_⟩
  obtain ⟨hlaw, hsnapshot⟩ := hafter.law
  refine ⟨?_, ?_, ?_, ?_⟩ <;> rw [hrun]
  · rw [hlist]
    exact hlaw
  · have hhash : db'.hashOf packCode url = some (contentHash text) := by
      rw [WatchDb.hashOf, hfound]
      rfl
    simp only [hdrift, WatchDb.hashOf, h.found, Option.bind_some] at hhash ⊢
    rw [hhash]
    unfold movedFrom
    cases source.contentHash with
    | none => simp
    | some hash => simp [Option.filter]
  · rw [hlist]
    exact fun _ => ⟨text, htext, hseen⟩
  · rw [hlist]
    exact hsnapshot

/-- One check keeps the invariant and the law. -/
theorem Watched.step (h : Watched packCode url texts db source)
    (hgoes : check.Evaluable packCode url db) :
    (∃ source', Watched packCode url (texts ++ check.text.toList) (check.run packCode url db).1
      source') ∧ DriftLaw packCode url texts db check := by
  obtain ⟨hcode, hurl⟩ := getSource_key h.found
  cases hchecked : checkSource db source check.outcome check.autoPublish check.fresh with
  | error e =>
    have hrun : check.run packCode url db = (db, []) := by
      simp only [Check.run, h.found, hchecked]
    have hafter : Watched packCode url (texts ++ check.text.toList) db source := by
      rw [h.returns hgoes hchecked, Option.toList_none, List.append_nil]
      exact h
    exact ⟨⟨source, by rw [hrun]; exact hafter⟩, driftLaw_of_kept hrun hafter rfl rfl (by simp)⟩
  | ok out =>
    obtain ⟨db', changes⟩ := out
    have hrun : check.run packCode url db = (db', changes) := by
      simp only [Check.run, h.found, hchecked]
    cases checkSource_ran hchecked with
    | @failed _ source' _ htext hpacks hsources htexts hsame hmode hincidental =>
      have hfound : db'.getSource packCode url = some source' := by
        rw [WatchDb.getSource_congr hsources]
        exact found_withSource h.found (hsame.packCode.trans hcode) (hsame.url.trans hurl)
      have hafter : Watched packCode url (texts ++ check.text.toList) db' source' := by
        rw [show check.text = none from htext, Option.toList_none, List.append_nil]
        exact h.keep hfound hsame hmode htexts hpacks
      refine ⟨⟨source', by rw [hrun]; exact hafter⟩,
        driftLaw_of_kept hrun hafter ?_ hpacks hincidental⟩
      simp only [WatchDb.hashOf, hfound, h.found, Option.bind_some, hsame.contentHash]
    | @evaluated db₁ _ source₁ text before rest htext hevaluates hsame hmode hpacks hsources
        hincidental =>
      have htext : check.text = some text := htext
      have hwrite : ∀ s : RegulationSource, s.packCode = source.packCode → s.url = source.url →
          (db₁.withSource s).sources = (db.withSource s).sources := by
        intro s hs hs'
        rcases hsources s with heq | hne | hne
        · exact heq
        · exact absurd hs hne
        · exact absurd hs' hne
      obtain ⟨hdrift, hpublication⟩ := not_tells_of_incidental hincidental
      cases hevaluates with
      | waited hwaits htexts =>
        rw [hsame.waits] at hwaits
        have hpending : ({ source₁ with pendingHash := some (contentHash text) } :
            RegulationSource).pendingHash = some (contentHash text) := rfl
        refine h.wait hpending hrun htext hwaits hsame.contentHash hsame.snapshot hmode htexts ?_
          hpacks ?_
        · rw [WatchDb.getSource_congr
            (hwrite { source₁ with pendingHash := some (contentHash text) }
            hsame.packCode hsame.url)]
          exact found_withSource h.found (hsame.packCode.trans hcode) (hsame.url.trans hurl)
        · rw [List.append_nil]
          exact hincidental
      | unpublished hwaits htexts hnone =>
        obtain ⟨p, hp, hpcode⟩ := h.pack
        obtain ⟨latest, hlatest⟩ := WatchDb.exists_latestPack (hpacks ▸ hp)
        rw [hsame.packCode, hcode, ← hpcode, hlatest] at hnone
        cases hnone
      | @settled db₂ _ pack confirmed changes hwaits htexts hpack hconfirmed hpacks₂ hsources₂
          hsettles =>
        rw [hsame.waits] at hwaits
        obtain ⟨hstored, hkept, hcodes, -⟩ := hsettles.stored
          (h.stored pack (hpacks ▸ (WatchDb.latestPack_spec hpack).1))
          (show ∀ p ∈ db₂.packs, p.Stored from hpacks₂ ▸ hpacks ▸ h.stored)
        obtain ⟨hmoved, -⟩ := tellsDrift_driftOf source₁ text
        obtain ⟨p, hp, hpcode⟩ := h.pack
        obtain ⟨q, hq, hqcode⟩ := hcodes p (hpacks₂ ▸ hpacks ▸ hp)
        refine h.settle hrun htext hwaits hmode htexts ?_ ?_ hstored ⟨q, hq, hqcode.trans hpcode⟩
        · rw [WatchDb.getSource_congr ((hkept.trans hsources₂).trans
            (hwrite (source₁.settled text) hsame.packCode hsame.url))]
          exact found_withSource h.found (hsame.packCode.trans hcode) (hsame.url.trans hurl)
        · rw [(tells_append before _).1, or_iff_right hdrift, (tells_append _ changes).1,
            or_iff_left hsettles.tells.1, hmoved, hsame.movedFrom]

end Step

/-! ## Runs -/

theorem watched_new {db : WatchDb}
    (hnew : db.getSource packCode url = some (RegulationSource.new packCode url))
    (hstored : ∀ p ∈ db.packs, p.Stored) (hpack : ∃ p ∈ db.packs, p.code = packCode) :
    Watched packCode url [] db (RegulationSource.new packCode url) where
  found := hnew
  mode := rfl
  textsOk := rfl
  blank := fun _ => ⟨rfl, rfl⟩
  seen := fun h => absurd rfl h
  pending := nofun
  stored := hstored
  pack := hpack

theorem Watched.run : ∀ {texts : List String} {db : WatchDb} {source : RegulationSource}
    (checks : List Check), Watched packCode url texts db source →
    EveryCheck packCode url (fun _ db check => check.Evaluable packCode url db) texts db checks →
    EveryCheck packCode url (DriftLaw packCode url) texts db checks
  | _, _, _, [], _, _ => trivial
  | _, _, _, _ :: checks, h, ⟨hgoes, hrest⟩ => by
    obtain ⟨⟨_, hafter⟩, hlaw⟩ := h.step hgoes
    exact ⟨hlaw, hafter.run checks hrest⟩

/-- In a run of checks of a new source, where every text that is fetched can be evaluated,
each check keeps the law of drift. -/
theorem driftLaw_of_run {db : WatchDb} {checks : List Check}
    (hnew : db.getSource packCode url = some (RegulationSource.new packCode url))
    (hstored : ∀ p ∈ db.packs, p.Stored) (hpack : ∃ p ∈ db.packs, p.code = packCode)
    (hgoes : EveryCheck packCode url (fun _ db check => check.Evaluable packCode url db)
      [] db checks) :
    EveryCheck packCode url (DriftLaw packCode url) [] db checks :=
  (watched_new hnew hstored hpack).run checks hgoes

end Watch

/-! ## Samples -/

section Samples

open Sample

namespace Sample

def watchCheck (text : String) : Check := ⟨.answered 200 text, true, watchFresh⟩

/-- A source whose content was another, and is seen to have changed for the first time. -/
def movingSource : RegulationSource :=
  { RegulationSource.new "p" "u" with
    contentHash := some (contentHash "Art. 1")
    pendingHash := some (contentHash "Art. 9") }

def movingDb : WatchDb := { watchDb "1" with sources := [movingSource] }

/-- The changes that the next check of it records. -/
theorem movingSource_changes : ∃ db' drift published,
    (WatchCall.check (.answered 200 "Art. 9") true).run movingDb movingSource watchFresh =
      .ok (db', [drift, published]) ∧ drift.changeType = .sourceDrift ∧
        published.status = .autoPublished := by
  have hrun : (checkSource movingDb movingSource (.answered 200 "Art. 9") true watchFresh).map
      (fun out => out.2.map fun c => (c.changeType, c.status)) =
        .ok [(.sourceDrift, .quarantined), (.provisionConfirmed, .autoPublished)] := by
    decide +kernel
  obtain ⟨⟨db', changes⟩, hchecked, hchanges⟩ := Except.map_eq_ok.mp hrun
  obtain ⟨drift, _, rfl, hdrift, hrest⟩ := List.map_eq_cons_iff.mp hchanges
  obtain ⟨published, _, rfl, hpublished, hnil⟩ := List.map_eq_cons_iff.mp hrest
  obtain rfl := List.map_eq_nil_iff.mp hnil
  exact ⟨db', drift, published, hchecked, congrArg Prod.fst hdrift, congrArg Prod.snd hpublished⟩

end Sample

theorem toldApart_iff_sample : ∃ db' changes,
    (WatchCall.check (.answered 200 "Art. 9") true).run movingDb movingSource watchFresh =
      .ok (db', changes) ∧
      (¬ (TellsDrift changes ∧ TellsPublication changes) ↔
        ¬ PublishesOnDrift movingDb movingSource (.check (.answered 200 "Art. 9") true)) := by
  obtain ⟨db', drift, published, hrun, -, -⟩ := movingSource_changes
  exact ⟨db', _, hrun, toldApart_iff hrun⟩

/-- The check that tells of the drift publishes from the new text. -/
theorem not_toldApart_sample : ∃ db' changes,
    (WatchCall.check (.answered 200 "Art. 9") true).run movingDb movingSource watchFresh =
      .ok (db', changes) ∧ TellsDrift changes ∧ TellsPublication changes := by
  obtain ⟨db', drift, published, hrun, hdrift, hpublished⟩ := movingSource_changes
  exact ⟨db', _, hrun, ⟨drift, by simp, hdrift⟩, ⟨published, by simp, hpublished⟩⟩

/-- A text that confirms nothing. -/
theorem watchCheck_evaluable {db : WatchDb} {text : String} {pack : PackVersion}
    (hlatest : db.latestPack "p" = some pack) (htext : textOk (snapshotOf text) = true)
    (hnothing : extractConfirmations pack (snapshotOf text) = .ok []) :
    (watchCheck text).Evaluable "p" "u" db := by
  intro source text' hsource htext'
  obtain rfl : text = text' := Option.some.inj htext'
  obtain ⟨hcode, -⟩ := getSource_key hsource
  rw [← hcode] at hlatest
  refine ⟨fun _ => htext, fun _ pack' hpack' => ?_,
    fun _ _ pack' hpack' confirmed hconfirmed hne => ?_⟩
  · obtain rfl := Option.some.inj (hlatest.symm.trans hpack')
    obtain ⟨rules, hrules, -⟩ := Except.bind_eq_ok.mp hnothing
    exact ⟨rules, hrules⟩
  · obtain rfl := Option.some.inj (hlatest.symm.trans hpack')
    exact absurd (Except.ok.inj (hconfirmed.symm.trans hnothing)) hne

/-- The source is seen, a fetch of it fails, and then it is seen changed, twice. -/
def Sample.driftingChecks : List Check :=
  [watchCheck "Art. 1", ⟨.answered 503 "", true, watchFresh⟩, watchCheck "Art. 2",
    watchCheck "Art. 2"]

theorem driftLaw_of_run_sample :
    EveryCheck "p" "u" (DriftLaw "p" "u") [] (watchDb "1") driftingChecks := by
  have hfirst : (watchDb "1").latestPack "p" = some (watchedPack "1") := by decide
  refine driftLaw_of_run (by decide) (watchDb_stored (by decide)) (by decide)
    ⟨watchCheck_evaluable hfirst (by decide) (by decide +kernel), ?_, ?_, ?_, trivial⟩
  · rintro source text - htext
    cases htext
  all_goals
    exact watchCheck_evaluable (show _ = some (watchedPack "1") by decide +kernel) (by decide)
      (by decide +kernel)

/-- The latest version was published by the watch, and the next cannot be stored : the
check is rolled back with what it fetched. -/
theorem not_driftLaw_sample :
    (watchDb "1+sv20250101000000").getSource "p" "u" = some (RegulationSource.new "p" "u") ∧
      (∀ p ∈ (watchDb "1+sv20250101000000").packs, p.Stored) ∧
      (∃ p ∈ (watchDb "1+sv20250101000000").packs, p.code = "p") ∧
      ¬ EveryCheck "p" "u" (DriftLaw "p" "u") [] (watchDb "1+sv20250101000000")
        [watchCheck "Art. 9"] := by
  refine ⟨by decide, watchDb_stored (by decide), by decide, fun ⟨hlaw, _⟩ => ?_⟩
  have hraised : checkSource (watchDb "1+sv20250101000000") (RegulationSource.new "p" "u")
      (.answered 200 "Art. 9") true watchFresh = .error .dataError := by decide +kernel
  have hrun : (watchCheck "Art. 9").run "p" "u" (watchDb "1+sv20250101000000") =
      (watchDb "1+sv20250101000000", []) := by
    have hfound : (watchDb "1+sv20250101000000").getSource "p" "u" =
        some (RegulationSource.new "p" "u") := by decide
    simp only [Check.run, hfound, watchCheck, hraised]
  have hhash := hlaw.hash
  rw [hrun] at hhash
  rcases hhash with ⟨-, hempty⟩ | ⟨hash, hsome, -⟩
  · cases hempty
  · cases hsome

end Samples

end Attest
