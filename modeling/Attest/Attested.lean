import Attest.Evaluable

/-!
# Attested provenance

A provision that the watch confirmed was confirmed against a text it fetched or against one
a person supplied. A version is labelled by how its source was maintained when it was
published, and it takes over the provisions of the version before it, so a `source_verified`
version could carry what a person supplied. It never does (`attested_never_promoted`) : a
version the watch published has a version string of at least seventeen characters, and
none can be published after it, because a `VARCHAR(32)` does not hold the next one.
-/

set_option linter.unusedSectionVars false

namespace Attest

section Watch

variable [PyUnicode] [PyCasefold]

/-! ## Origins -/

/-- Where the text of a call is from. -/
inductive TextOrigin where
  | fetched
  | supplied
deriving DecidableEq

def WatchCall.origin : WatchCall → TextOrigin
  | .check _ _ => .fetched
  | .supply _ => .supplied

/-- The origin of the provision of a rule that the watch confirmed last, by the row of the
version and the index of the rule. -/
abbrev Origins := Uuid → Nat → Option TextOrigin

/-- A rule takes a citation where its id was confirmed. -/
def takesCitation (confirmed : List (String × String)) : JVal → Bool
  | .obj rule =>
    match Dict.get rule "id" with
    | .str id => confirmed.any fun item => item.1 = id
    | _ => false
  | _ => false

/-- A version is published : its rules have the origins of the version before, where they
do not take a citation. -/
def Origins.publish (origins : Origins) (base row : PackVersion) (rules : List JVal)
    (confirmed : List (String × String)) (origin : TextOrigin) : Origins := fun id i =>
  if id = row.id then
    if (rules[i]?).any (takesCitation confirmed) then some origin else origins base.id i
  else origins id i

/-- The version that the changes of a call say was published. -/
def publishedIn (changes : List RegulationChange) : Option String :=
  changes.findSome? fun c => if c.status = .autoPublished then c.publishedVersion else none

/-- The origins after a call. -/
def Origins.after (origins : Origins) (db db' : WatchDb) (source : RegulationSource)
    (call : WatchCall) (changes : List RegulationChange) : Origins :=
  match publishedIn changes, call.text, db.latestPack source.packCode with
  | some version, some text, some base =>
    match db'.getVersion base.code version, iterRules base.doc,
      extractConfirmations base (snapshotOf text) with
    | some row, .ok rules, .ok confirmed => origins.publish base row rules confirmed call.origin
    | _, _, _ => origins
  | _, _, _ => origins

/-! ## Runs -/

/-- A call of a run, with the source it is of. -/
structure WatchStep where
  packCode : String
  url : String
  call : WatchCall
  fresh : WatchFresh

/-- The database with the origins of what was confirmed. -/
structure WatchState where
  db : WatchDb
  origins : Origins

/-- A call that raises is rolled back. -/
def WatchState.step (s : WatchState) (t : WatchStep) : WatchState :=
  match s.db.getSource t.packCode t.url with
  | none => s
  | some source =>
    match t.call.run s.db source t.fresh with
    | .ok (db', changes) => ⟨db', s.origins.after s.db db' source t.call changes⟩
    | .error _ => s

def WatchState.run (s : WatchState) (steps : List WatchStep) : WatchState :=
  steps.foldl WatchState.step s

/-! ## The invariant -/

/-- What holds between calls. -/
structure LabelHolds (s : WatchState) : Prop where
  ids : (s.db.packs.map fun p => p.id).Nodup
  version : ∀ p ∈ s.db.packs, versionOk p.version = true
  /-- A version with a confirmed provision was published by the watch. -/
  long : ∀ p ∈ s.db.packs, ∀ i origin, s.origins p.id i = some origin → 17 ≤ p.version.length
  label : ∀ p ∈ s.db.packs, p.verificationStatus = "source_verified" →
    ∀ i origin, s.origins p.id i = some origin → origin = .fetched

/-- What a call does to the packs and to the origins. -/
theorem after_cases {db db' : WatchDb} {source : RegulationSource} {call : WatchCall}
    {fresh : WatchFresh} {changes : List RegulationChange} (origins : Origins)
    (h : call.run db source fresh = .ok (db', changes)) :
    db'.packs = db.packs ∧ origins.after db db' source call changes = origins ∨
    ∃ text base row confirmed rules rules',
      Publication db db' source call fresh text base row confirmed rules rules' ∧
      origins.after db db' source call changes =
        origins.publish base row rules confirmed call.origin := by
  cases hpublished : publishedIn changes with
  | none =>
    refine Or.inl ⟨WatchCall.packs_of_unpublished h fun c hc hstatus => ?_, ?_⟩
    · obtain ⟨_, _, row, _, _, _, -, _, -, rfl⟩ := WatchCall.publishes_of_mem h hc hstatus
      have hnone := List.findSome?_eq_none_iff.mp hpublished _ hc
      rw [if_pos hstatus] at hnone
      cases hnone
    · rw [Origins.after, hpublished]
  | some version =>
    obtain ⟨c, hc, hversion⟩ := List.exists_of_findSome?_eq_some hpublished
    by_cases hstatus : c.status = .autoPublished
    · rw [if_pos hstatus] at hversion
      obtain ⟨text, base, row, confirmed, rules, rules', hpublication, _, -, rfl⟩ :=
        WatchCall.publishes_of_mem h hc hstatus
      obtain rfl := Option.some.inj hversion
      refine Or.inr ⟨text, base, row, confirmed, rules, rules', hpublication, ?_⟩
      simp only [Origins.after, hpublished, hpublication.fetched, hpublication.latest,
        hpublication.row_rules.1, hpublication.iterated, hpublication.extracted]
    · rw [if_neg hstatus] at hversion
      cases hversion

/-- Nothing was confirmed in a version that another is published after. -/
theorem LabelHolds.base_unconfirmed {s : WatchState} (h : LabelHolds s) {db' : WatchDb}
    {source : RegulationSource} {call : WatchCall} {fresh : WatchFresh} {text : String}
    {base row : PackVersion} {confirmed : List (String × String)} {rules rules' : List JVal}
    (hpublication : Publication s.db db' source call fresh text base row confirmed rules rules') :
    row.version.length = base.version.length + 17 ∧ versionOk row.version = true ∧
      ∀ i, s.origins base.id i = none := by
  obtain ⟨source', _, _, -, -, -, hupserted⟩ := hpublication.upserted
  have hversion : row.version = publishedVersion base source' fresh :=
    (getVersion_spec hupserted.found).2.2
  have hlength : row.version.length = base.version.length + 17 := by
    rw [hversion, publishedVersion_length]
  have hok := hpublication.version_ok h.version
  refine ⟨hlength, hok, fun i => ?_⟩
  cases horigin : s.origins base.id i with
  | none => rfl
  | some origin =>
    have hlong := h.long base (WatchDb.latestPack_spec hpublication.latest).1 i origin horigin
    have hshort := versionOk_length hok
    omega

/-- Only what was fetched is labelled `source_verified`. -/
theorem origin_of_sourceVerified {source : RegulationSource} {call : WatchCall}
    (hmode : source.checkMode = call.mode) (hstatus : publishedStatus source = "source_verified") :
    call.origin = .fetched := by
  cases call with
  | check => rfl
  | supply =>
    rw [publishedStatus, if_pos (show source.checkMode = .manual from hmode)] at hstatus
    exact absurd hstatus (by decide)

/-- A call keeps the invariant. -/
theorem LabelHolds.after {s : WatchState} (h : LabelHolds s) {db' : WatchDb}
    {source : RegulationSource}
    {call : WatchCall} {fresh : WatchFresh} {changes : List RegulationChange}
    (hrun : call.run s.db source fresh = .ok (db', changes)) :
    LabelHolds ⟨db', s.origins.after s.db db' source call changes⟩ := by
  rcases after_cases s.origins hrun with ⟨hpacks, horigins⟩ |
    ⟨text, base, row, confirmed, rules, rules', hpublication, horigins⟩
  · rw [horigins]
    exact ⟨hpacks ▸ h.ids, hpacks ▸ h.version, hpacks ▸ h.long, hpacks ▸ h.label⟩
  obtain ⟨hlength, hok, hunconfirmed⟩ := h.base_unconfirmed hpublication
  obtain ⟨source', db₁, db₂, hmode, hpacks, hpacks', hupserted⟩ := hpublication.upserted
  have hids : (db'.packs.map fun p => p.id).Nodup := hpacks' ▸ hupserted.ids (hpacks ▸ h.ids)
  have hrow : row ∈ db'.packs := hpacks' ▸ (getVersion_spec hupserted.found).1
  -- the row that was published is the only one with its id, the others are as they were
  have hcases : ∀ p ∈ db'.packs, p = row ∨ p.id ≠ row.id ∧ p ∈ s.db.packs := by
    intro p hp
    by_cases hid : p.id = row.id
    · exact Or.inl (List.inj_on_of_nodup_map hids hp hrow hid)
    · refine Or.inr ⟨hid, ?_⟩
      rcases hupserted.others p (hpacks' ▸ hp) with hold | ⟨heq, -⟩ | ⟨rfl, -⟩
      · exact hpacks ▸ hold
      · exact absurd heq hid
      · exact absurd rfl hid
  have horigin : ∀ i origin, s.origins.publish base row rules confirmed call.origin row.id i =
      some origin → origin = call.origin := by
    intro i origin hsome
    rw [Origins.publish, if_pos rfl, hunconfirmed i] at hsome
    split at hsome
    · exact (Option.some.inj hsome).symm
    · cases hsome
  have hother : ∀ p : PackVersion, p.id ≠ row.id → ∀ i,
      s.origins.publish base row rules confirmed call.origin p.id i = s.origins p.id i :=
    fun p hid i => if_neg hid
  rw [horigins]
  refine ⟨hids, fun p hp => ?_, fun p hp i origin hsome => ?_,
    fun p hp hstatus i origin hsome => ?_⟩
  · rcases hcases p hp with rfl | ⟨-, hold⟩
    · exact hok
    · exact h.version p hold
  · rcases hcases p hp with rfl | ⟨hid, hold⟩
    · omega
    · exact h.long p hold i origin ((hother p hid i).symm.trans hsome)
  · rcases hcases p hp with rfl | ⟨hid, hold⟩
    · rw [horigin i origin hsome]
      exact origin_of_sourceVerified hmode (hupserted.status.symm.trans hstatus)
    · exact h.label p hold hstatus i origin ((hother p hid i).symm.trans hsome)

theorem LabelHolds.run {s : WatchState} (h : LabelHolds s) (steps : List WatchStep) :
    LabelHolds (s.run steps) := by
  induction steps generalizing s with
  | nil => exact h
  | cons t steps ih =>
    refine ih ?_
    unfold WatchState.step
    split
    · exact h
    · split
      · rename_i hrun
        exact h.after hrun
      · exact h

/-- In every run of checks and supplied texts, what the watch confirmed in a version labelled
`source_verified` was confirmed against a text it fetched. -/
theorem attested_never_promoted {db : WatchDb} (hids : (db.packs.map fun p => p.id).Nodup)
    (hversion : ∀ p ∈ db.packs, versionOk p.version = true) (steps : List WatchStep) :
    ∀ p ∈ ((WatchState.mk db fun _ _ => none).run steps).db.packs,
      p.verificationStatus = "source_verified" → ∀ i origin,
        ((WatchState.mk db fun _ _ => none).run steps).origins p.id i = some origin →
          origin = .fetched := by
  have hstart : LabelHolds (WatchState.mk db fun _ _ => none) := {
    ids := hids
    version := hversion
    long := fun _ _ _ _ hsome => by cases hsome
    label := fun _ _ _ _ _ hsome => by cases hsome }
  exact (hstart.run steps).label

end Watch

/-! ## Samples -/

section Samples

open Sample

namespace Sample

/-- Two packs, the first with a candidate in either of its sources. -/
def watchedPacks : WatchDb where
  packs := [
    { watchedPack "1" with createdAt := -1, rules := .obj [("rules", .arr [watchedRule,
      .obj [("id", .str "R2"), ("provision_candidate", .str "Art. 7")]])] },
    { watchedPack "1" with id := Uuid.ofNat 9, code := "q", createdAt := -1 }]
  sources := [.new "p" "u", .new "p" "v", .new "q" "w"]
  changes := []

/-- A person supplies a page of the first pack, and pages of both are fetched after it. -/
def watchSteps : List WatchStep :=
  [⟨"p", "u", .supply ⟨"Art. 9", "A. Operator", none, true⟩, watchFresh⟩,
    ⟨"p", "v", .check (.answered 200 "Art. 7") true,
      { watchFresh with now := 1, pack := ⟨Uuid.ofNat 3, 1⟩ }⟩,
    ⟨"q", "w", .check (.answered 200 "Art. 9") true,
      { watchFresh with now := 2, pack := ⟨Uuid.ofNat 4, 2⟩ }⟩]

def suppliedThenFetched : WatchState :=
  (WatchState.mk watchedPacks fun _ _ => none).run watchSteps

end Sample

/-- The version that was supplied stays attested, and the one that was fetched is the only one
that is verified. -/
theorem attested_never_promoted_sample :
    (suppliedThenFetched.db.packs.map fun p =>
      (p.version, p.verificationStatus, suppliedThenFetched.origins p.id 0)) =
        [("1", "unverified", none), ("1", "unverified", none),
          ("1+av20260101000000", "attested_verified", some .supplied),
          ("1+sv20260101000000", "source_verified", some .fetched)] ∧
    ∀ p ∈ suppliedThenFetched.db.packs, p.verificationStatus = "source_verified" →
      ∀ i origin, suppliedThenFetched.origins p.id i = some origin → origin = .fetched := by
  have hids : (watchedPacks.packs.map fun p => p.id).Nodup := by decide
  have hversion : ∀ p ∈ watchedPacks.packs, versionOk p.version = true := by decide
  have hlabel := attested_never_promoted hids hversion watchSteps
  rw [show (WatchState.mk watchedPacks fun _ _ => none).run watchSteps = suppliedThenFetched
    from rfl] at hlabel
  exact ⟨by decide +kernel, hlabel⟩

end Samples

end Attest
