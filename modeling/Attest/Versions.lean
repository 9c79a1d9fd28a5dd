import Attest.Evaluable

/-!
# The version strings of a pack

Each publication of the watch appends seventeen characters to the version string it
follows, and the column holds thirty-two. `publication_fits_iff` is when the next one fits and
the call that publishes it returns : no string of the bundled form leaves room for two.
-/

set_option linter.unusedSectionVars false

namespace Attest

section Watch

variable [PyUnicode] [PyCasefold]

/-- The version string after `n` publications in turn. -/
inductive Republished (version : String) : Nat → String → Prop
  | start : Republished version 0 version
  | next {n : Nat} (pack : PackVersion) (source : RegulationSource) (fresh : WatchFresh) :
    Republished version n pack.version →
    Republished version (n + 1) (publishedVersion pack source fresh)

theorem Republished.length {version version' : String} {n : Nat}
    (h : Republished version n version') :
    version'.length = version.length + 17 * n := by
  induction h with
  | start => rfl
  | next pack source fresh _ ih =>
    rw [publishedVersion_length, ih]
    omega

/-- The row of a publication has the next version string. -/
theorem Publication.republished {db db' : WatchDb} {source : RegulationSource} {call : WatchCall}
    {fresh : WatchFresh} {text version : String} {base row : PackVersion}
    {confirmed : List (String × String)} {rules rules' : List JVal} {n : Nat}
    (h : Publication db db' source call fresh text base row confirmed rules rules')
    (hbase : Republished version n base.version) : Republished version (n + 1) row.version := by
  obtain ⟨source', _, _, -, -, -, hupserted⟩ := h.upserted
  rw [(getVersion_spec hupserted.found).2.2]
  exact hbase.next base source' fresh

/-- The call comes to publish from a pack : its text is settled and confirms something, and
publications are on. -/
structure ComesToPublish (db : WatchDb) (source : RegulationSource) (call : WatchCall)
    (text : String) (pack : PackVersion) : Prop where
  fetched : call.text = some text
  settles : ¬ Waits source text call.confirmDrift
  autoPublish : call.autoPublish = true
  latest : db.latestPack source.packCode = some pack
  confirms : ∃ confirmed, extractConfirmations pack (snapshotOf text) = .ok confirmed ∧
    confirmed ≠ []

/-- Everything that the call writes can be stored, the version string apart. -/
structure Storable (db : WatchDb) (source : RegulationSource) (call : WatchCall)
    (fresh : WatchFresh) (text : String) (pack : PackVersion) : Prop where
  writes : call.Writes source fresh
  snapshot : textOk (snapshotOf text) = true
  packs : ∀ p ∈ db.packs, p.Stored
  ids : ∀ rules, iterRules pack.doc = .ok rules → ∀ rule, .obj rule ∈ rules →
    (∀ items, Dict.get rule "id" ≠ .arr items) ∧ ∀ items, Dict.get rule "id" ≠ .obj items
  fresh : ∀ p ∈ db.packs, p.id ≠ fresh.pack.id

theorem ComesToPublish.evaluable {db : WatchDb} {source : RegulationSource} {call : WatchCall}
    {fresh : WatchFresh} {text : String} {pack : PackVersion}
    (h : ComesToPublish db source call text pack)
    (hstorable : Storable db source call fresh text pack) (hroom : pack.version.length + 17 ≤ 32) :
    Evaluable db source text call.autoPublish call.confirmDrift fresh where
  snapshot := fun _ => hstorable.snapshot
  rules := by
    intro _ p hp
    obtain rfl := Option.some.inj (h.latest.symm.trans hp)
    obtain ⟨confirmed, hextract, -⟩ := h.confirms
    obtain ⟨rules, hrules, -⟩ := Except.bind_eq_ok.mp hextract
    exact ⟨rules, hrules⟩
  publishable := by
    intro _ _ p hp _ _ _
    obtain rfl := Option.some.inj (h.latest.symm.trans hp)
    exact ⟨hstorable.ids, hroom, hstorable.fresh⟩

/-- The version string of the next publication fits its column, and the call that comes to it
returns, exactly where the first string leaves room for all the publications. -/
theorem publication_fits_iff {db : WatchDb} {version : String} {n : Nat} {pack : PackVersion}
    {source : RegulationSource} {call : WatchCall} {fresh : WatchFresh} {text : String}
    (h : Republished version n pack.version) (hcomes : ComesToPublish db source call text pack)
    (hstorable : Storable db source call fresh text pack) :
    ((publishedVersion pack { source with checkMode := call.mode } fresh).length ≤ 32 ↔
      version.length + 17 * (n + 1) ≤ 32) ∧
    ((∃ db' changes, call.run db source fresh = .ok (db', changes)) ↔
      version.length + 17 * (n + 1) ≤ 32) := by
  have hn := h.length
  constructor
  · rw [publishedVersion_length]
    omega
  constructor
  · rintro ⟨db', changes, hrun⟩
    obtain ⟨confirmed, hextracted, hne⟩ := hcomes.confirms
    obtain ⟨c, hc, hstatus⟩ := WatchCall.exists_published hrun hcomes.fetched hcomes.settles
      hcomes.autoPublish hcomes.latest hextracted hne
    obtain ⟨text', base, row, _, _, _, hpublication, -⟩ :=
      WatchCall.publishes_of_mem hrun hc hstatus
    obtain rfl := Option.some.inj (hcomes.latest.symm.trans hpublication.latest)
    rw [← (hpublication.republished h).length]
    exact versionOk_length (hpublication.version_ok fun p hp => (hstorable.packs p hp).version)
  · intro hroom
    exact WatchCall.run_returns hcomes.fetched hstorable.writes hstorable.packs
      (hcomes.evaluable hstorable (by omega))

end Watch

/-! ## Samples -/

section Samples

open Sample

namespace Sample

/-- A pack of the bundled form, with a citation in either of its two sources. -/
def bundledPack : PackVersion :=
  { watchedPack "2026.1-draft" with createdAt := -1, rules := .obj [("rules", .arr [watchedRule,
      .obj [("id", .str "R2"), ("provision_candidate", .str "Art. 7")]])] }

def bundledDb : WatchDb where
  packs := [bundledPack]
  sources := [RegulationSource.new "p" "u", RegulationSource.new "p" "v"]
  changes := []

/-- A later call. -/
def laterFresh : WatchFresh :=
  { watchFresh with now := 1, pack := ⟨Uuid.ofNat 3, 1⟩ }

end Sample

theorem publication_fits_iff_sample :
    ((publishedVersion bundledPack (RegulationSource.new "p" "u") watchFresh).length ≤ 32 ↔
      "2026.1-draft".length + 17 * (0 + 1) ≤ 32) ∧
    ((∃ db' changes, (WatchCall.check (.answered 200 "Art. 9") true).run bundledDb
      (RegulationSource.new "p" "u") watchFresh = .ok (db', changes)) ↔
      "2026.1-draft".length + 17 * (0 + 1) ≤ 32) := by
  refine @publication_fits_iff _ _ bundledDb "2026.1-draft" 0 bundledPack
    (RegulationSource.new "p" "u")
    (.check (.answered 200 "Art. 9") true) watchFresh "Art. 9" .start ?_ ?_
  · exact ⟨rfl, fun hwaits => absurd hwaits.1 (by decide +kernel), rfl, by decide +kernel,
      [("R1", "Art. 9")], by decide +kernel, by decide⟩
  · refine ⟨show (RegulationSource.new "p" "u").textsOk = true by decide, by decide +kernel, ?_, ?_,
      by decide⟩
    · intro p hp
      obtain rfl := List.mem_singleton.mp hp
      exact ⟨by decide, by decide, by decide, by decide, by decide, rfl, rfl, rfl⟩
    · intro rules hrules rule hrule
      obtain rfl := Except.ok.inj ((show iterRules bundledPack.doc = .ok [watchedRule,
        .obj [("id", .str "R2"), ("provision_candidate", .str "Art. 7")]] by rfl).symm.trans hrules)
      rcases List.mem_pair.mp hrule with hrule | hrule <;> obtain rfl := JVal.obj.inj hrule <;>
        refine ⟨?_, ?_⟩ <;> intro _ hid <;> cases hid

/-- The second source of the pack is checked after the first one was published from. -/
theorem not_publication_fits_sample :
    (checkSource bundledDb (RegulationSource.new "p" "u") (.answered 200 "Art. 9") true
      watchFresh).succeeds = true ∧
    ((checkSource bundledDb (RegulationSource.new "p" "u") (.answered 200 "Art. 9") true
      watchFresh).bind fun out => checkSource out.1 (RegulationSource.new "p" "v")
        (.answered 200 "Art. 7") true laterFresh) = .error .dataError ∧
    ∃ version, Republished "2026.1-draft" 2 version ∧ ¬ version.length ≤ 32 := by
  have hfirst := Republished.start.next bundledPack (RegulationSource.new "p" "u") watchFresh
  have hsecond := hfirst.next { bundledPack with version := _ }
    (RegulationSource.new "p" "v") laterFresh
  refine ⟨by decide +kernel, by decide +kernel, _, hsecond, ?_⟩
  rw [hsecond.length]
  decide

end Samples

end Attest
