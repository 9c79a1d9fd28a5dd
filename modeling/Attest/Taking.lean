import Attest.Accepting
import Attest.Floor

/-!
# When an item is taken

The gate takes the output of an item where it can record it and decide on it
(`GateTakes.runGate_returns`), and the round of the item goes through exactly there
(`graftItem_iff`). What a round leaves is ready for the next one (`graftItem_leavesReady`): the
settings, what can be stored and whose the traces are stay as they were, and only the ids of
the round are used up.
-/

set_option linter.unusedSectionVars false

namespace Attest

/-! ## Signatures -/

/-- The digits that `bytes.fromhex` reads are characters a database stores. -/
theorem ne_nul_of_fromHexChars : ∀ {cs : List Char} {b : Bytes}, Bytes.fromHexChars cs = some b →
    ∀ c ∈ cs, c ≠ Char.ofNat 0
  | [], _, _, _, hc => absurd hc List.not_mem_nil
  | c :: cs, b, h, x, hx => by
    have hspace : Bytes.isHexSpace (Char.ofNat 0) = false := by decide
    have hval : Bytes.hexVal (Char.ofNat 0) = none := by decide
    unfold Bytes.fromHexChars at h
    split at h
    · rename_i hc
      rcases List.mem_cons.mp hx with rfl | hx
      · rintro rfl
        rw [hspace] at hc
        cases hc
      · exact ne_nul_of_fromHexChars h x hx
    · split at h
      · cases h
      · rename_i d ds
        split at h
        · rename_i hi lo rest hchi hdlo hrest
          rcases List.mem_cons.mp hx with rfl | hx
          · rintro rfl
            rw [hval] at hchi
            cases hchi
          rcases List.mem_cons.mp hx with rfl | hx
          · rintro rfl
            rw [hval] at hdlo
            cases hdlo
          · exact ne_nul_of_fromHexChars hrest x hx
        · cases h

/-- A signature that verifies can be stored. -/
theorem textOk_of_verifyHex [SignatureScheme] {publicPem messageHex signatureHex : String}
    (h : verifyHex publicPem messageHex signatureHex = .ok true) : textOk signatureHex = true := by
  obtain ⟨_, -, h⟩ := Except.bind_eq_ok.mp h
  obtain ⟨b, hsignature, -⟩ := Except.bind_eq_ok.mp h
  have hchars := ne_nul_of_fromHexChars (fromHex_eq_ok.mp hsignature)
  rw [textOk, Bool.not_eq_true', List.contains_eq_mem, decide_eq_false_iff_not]
  exact fun hmem => hchars _ hmem rfl

section Rounds

variable [KeyUnwrapping] [SignatureScheme] [PyUnicode] [IsoReader] {svc : SigningKeyPair}
  {db db' : Db} {org : Org}

/-! ## Decisions -/

/-- A decision is worked out and can be stored. -/
theorem decides_stores_iff {orgId : String} {args : PrecheckArgs} {policy : Policy}
    {drafts : List (Option RewriteDraft)} :
    (∃ payload, Decides db args policy drafts payload ∧ db.Stores orgId payload) ↔
      Judges db args policy drafts ∧
        ∀ payload, Decides db args policy drafts payload → db.Stores orgId payload := by
  rw [judges_iff_decides]
  constructor
  · rintro ⟨payload, hdecides, hstores⟩
    refine ⟨⟨payload, hdecides⟩, fun payload' hdecides' => ?_⟩
    rw [← hdecides.unique hdecides']
    exact hstores
  · rintro ⟨⟨payload, hdecides⟩, hstores⟩
    exact ⟨payload, hdecides, hstores payload hdecides⟩

/-! ## What a round needs -/

/-- The rows are as calls leave them, and the organisation is there. -/
structure Ready (db : Db) (org : Org) : Prop where
  stocked : db.Stocked
  index : IndexOk db
  there : db.hasOrg org.id = true
  versions : ∀ p ∈ db.policies, textOk p.version = true

/-- The ids of the events of a round. -/
def GateFresh.eventIds (g : GateFresh) : List Uuid :=
  [g.precheck.event.eventId, g.output.eventId]

/-- No two rounds are given one id, and none has an id that was taken. -/
structure NewIds (db : Db) (orgId : String) (rounds : List GateFresh) : Prop where
  events : (rounds.flatMap GateFresh.eventIds).Nodup
  summaries : (rounds.map fun g => g.precheck.summaryId).Nodup
  approvals : (rounds.map fun g => g.precheck.approval.id).Nodup
  event : ∀ g ∈ rounds, ∀ id ∈ g.eventIds, ∀ e ∈ db.events, e.id ≠ id
  summary : ∀ g ∈ rounds, ∀ s ∈ db.summaries, s.id ≠ g.precheck.summaryId
  approval : ∀ g ∈ rounds, ∀ a ∈ db.approvals, a.id ≠ g.precheck.approval.id
  trace : ∀ g ∈ rounds, ∀ t ∈ db.traces, t.id = g.traceId → t.orgId = orgId

/-- Only ids of the round were taken. -/
structure UsesIds (db db' : Db) (g : GateFresh) : Prop where
  events : ∀ e ∈ db'.events, (∃ x ∈ db.events, x.id = e.id) ∨ e.id ∈ g.eventIds
  summaries : ∀ s ∈ db'.summaries, (∃ x ∈ db.summaries, x.id = s.id) ∨
    s.id = g.precheck.summaryId
  approvals : ∀ a ∈ db'.approvals, a ∈ db.approvals ∨ a.id = g.precheck.approval.id

/-- The ids of the rounds to come are still new. -/
theorem NewIds.later {g : GateFresh} {rounds : List GateFresh} {orgId : String}
    (h : NewIds db orgId (g :: rounds)) (huses : UsesIds db db' g)
    (hgrows : GrowsFor orgId db db') : NewIds db' orgId rounds where
  events := by
    have hevents := h.events
    rw [List.flatMap_cons] at hevents
    exact (List.nodup_append.mp hevents).2.1
  summaries := (List.nodup_cons.mp h.summaries).2
  approvals := (List.nodup_cons.mp h.approvals).2
  event g' hg' id hid e he := by
    have hevents := h.events
    rw [List.flatMap_cons] at hevents
    rcases huses.events e he with ⟨x, hx, hxid⟩ | htaken
    · rw [← hxid]
      exact h.event g' (List.mem_cons_of_mem _ hg') id hid x hx
    · exact (List.nodup_append.mp hevents).2.2 e.id htaken id
        (List.mem_flatMap.mpr ⟨g', hg', hid⟩)
  summary g' hg' s hs := by
    rcases huses.summaries s hs with ⟨x, hx, hxid⟩ | htaken
    · rw [← hxid]
      exact h.summary g' (List.mem_cons_of_mem _ hg') x hx
    · rw [htaken]
      exact fun hsame => (List.nodup_cons.mp h.summaries).1 (List.mem_map.mpr ⟨g', hg', hsame.symm⟩)
  approval g' hg' a ha := by
    rcases huses.approvals a ha with ha | htaken
    · exact h.approval g' (List.mem_cons_of_mem _ hg') a ha
    · rw [htaken]
      exact fun hsame => (List.nodup_cons.mp h.approvals).1 (List.mem_map.mpr ⟨g', hg', hsame.symm⟩)
  trace g' hg' := hgrows.owns_iff.mpr (h.trace g' (List.mem_cons_of_mem _ hg'))

theorem runGate_usesIds (hindex : IndexOk db) {args : GateArgs} {fresh : GateFresh} {out : GateOut}
    (h : runGate svc db args fresh = .ok (db', out)) : UsesIds db db' fresh where
  events := by
    obtain ⟨decided, ts, ps, ks, ss, e, ⟨-, -, -, hid, -⟩, hdecided, rfl⟩ := (runGate_eq_ok h).rows
    intro x hx
    rw [List.append_assoc] at hx
    rcases List.mem_append.mp hx with hx | hx
    · exact Or.inl ⟨x, hx, rfl⟩
    refine Or.inr ?_
    rcases List.mem_append.mp hx with hx | hx
    · rw [(hdecided x hx).2.2.2]
      exact List.mem_cons_self
    · rw [List.mem_singleton.mp hx, hid]
      exact List.mem_cons_of_mem _ List.mem_cons_self
  summaries := by
    intro s hs
    rcases runGate_effect hindex h with hnone | ⟨policy, features, d, hfailed⟩ |
      ⟨policy, features, output, remediated, d, row, event, hconcluded⟩
    · obtain ⟨e, ts, ps, ks, -, rfl⟩ := hnone.rows
      exact Or.inl ⟨s, hs, rfl⟩
    · rw [hfailed.summaries_eq] at hs
      exact Or.inl ⟨s, hs, rfl⟩
    · rw [hconcluded.summaries_eq] at hs
      rcases List.mem_append.mp hs with hs | hs
      · obtain ⟨x, hx, rfl⟩ := List.mem_map.mp hs
        refine Or.inl ⟨x, hx, ?_⟩
        rw [closedBy_same remediated d x]
      · obtain ⟨told, -, hrow⟩ := hconcluded.row_eq
        rw [List.mem_singleton.mp hs, hrow]
        exact Or.inr rfl
  approvals := by
    obtain ⟨decided, ts, ps, ks, ss, e, -, -, rfl⟩ := (runGate_eq_ok h).rows
    intro a ha
    rcases List.mem_append.mp ha with ha | ha
    · exact Or.inl ha
    split at ha
    · rw [List.mem_singleton.mp ha]
      exact Or.inr rfl
    · cases ha

/-! ## Gate calls -/

theorem version_of_selectPolicy (hready : Ready db org) {policy : Policy}
    (h : selectPolicy db org.id none = some policy) : textOk policy.version = true := by
  have hactive : db.getActivePolicy org.id = some policy := h
  exact hready.versions policy (List.mem_filter.mp (mem_of_latestBy hactive)).1

theorem GateTakes.stands (hready : Ready db org) {item payload : Dict} {traceId : Option Uuid}
    {fresh : GateFresh} {rounds : List GateFresh} (hnew : NewIds db org.id (fresh :: rounds))
    (h : GateTakes db (itemGate org item payload traceId) fresh) :
    GateStands db (itemGate org item payload traceId) fresh where
  org := hready.there
  trace := h.trace
  named := h.named
  texts := ⟨h.action, rfl⟩
  remediated := ⟨none, rfl⟩
  event := hnew.event fresh List.mem_cons_self _ List.mem_cons_self
  output := hnew.event fresh List.mem_cons_self _ (List.mem_cons_of_mem _ List.mem_cons_self)
  distinct := by
    have hevents := hnew.events
    rw [List.flatMap_cons, List.nodup_append] at hevents
    simpa [GateFresh.eventIds] using hevents.1
  summary := hnew.summary fresh List.mem_cons_self
  approval := hnew.approval fresh List.mem_cons_self

/-- The gate takes an output that it can record and decide on. -/
theorem GateTakes.runGate_returns (hready : Ready db org) {item payload : Dict}
    {traceId : Option Uuid} {fresh : GateFresh} {rounds : List GateFresh}
    (hnew : NewIds db org.id (fresh :: rounds))
    (h : GateTakes db (itemGate org item payload traceId) fresh) (svc : SigningKeyPair) :
    ∃ db' out, runGate svc db (itemGate org item payload traceId) fresh = .ok (db', out) ∧
      db'.Stocked := by
  have hstands := h.stands hready hnew
  cases hpolicy : selectPolicy db org.id none with
  | none =>
    obtain ⟨db', e, hgate, hstocked, -⟩ :=
      @runGate_unevaluated_returns _ _ _ db (itemGate org item payload traceId) fresh
        hready.stocked svc rfl hpolicy hready.there h.trace h.named ⟨h.action, rfl⟩ hstands.output
        h.output
    exact ⟨db', _, hgate, hstocked⟩
  | some policy =>
    obtain ⟨decision, hdecides, hstores⟩ := h.decided policy hpolicy
    exact hstands.runGate_returns hready.stocked hready.index svc hpolicy
      (version_of_selectPolicy hready hpolicy) hdecides hstores h.output

/-! ## Rounds -/

/-- What a round leaves. -/
structure LeavesReady (db : Db) (org : Org) (fresh : GateFresh) (db' : Db) : Prop where
  ready : Ready db' org
  grows : GrowsFor org.id db db'
  uses : UsesIds db db' fresh

theorem runGate_leavesReady (hready : Ready db org) {item payload : Dict} {traceId : Option Uuid}
    {fresh : GateFresh} {rounds : List GateFresh} {out : GateOut}
    (hnew : NewIds db org.id (fresh :: rounds))
    (h : runGate svc db (itemGate org item payload traceId) fresh = .ok (db', out)) :
    LeavesReady db org fresh db' := by
  obtain ⟨hgrows, htakes⟩ := runGate_takes hready.stocked.traces h
  obtain ⟨db₁, out₁, hgate, hstocked⟩ := htakes.runGate_returns hready hnew svc
  obtain ⟨rfl, -⟩ := Prod.mk.inj (Except.ok.inj (hgate.symm.trans h))
  obtain ⟨relink, added, es, hindex⟩ := runGate_grows hready.index h
  refine ⟨⟨hstocked, hindex.indexOk hready.index, ?_, ?_⟩, hgrows, runGate_usesIds hready.index h⟩
  · have hthere := hready.there
    simp only [Db.hasOrg] at hthere ⊢
    rw [hgrows.orgs]
    exact hthere
  · rw [hgrows.policies]
    exact hready.versions

/-- Events that are marked leave a database ready. -/
theorem LeavesReady.mark {fresh : GateFresh} (h : LeavesReady db org fresh db')
    (id : Uuid) (occurredAt deviceId signature : String) :
    LeavesReady db org fresh
      { db' with events := db'.events.map (deferRow id occurredAt deviceId signature) } where
  ready := by
    have hkeeps := deferRow_keeps id occurredAt deviceId signature
    refine ⟨h.ready.stocked.mark fun x => (hkeeps x).2, ⟨h.ready.index.ids, h.ready.index.keys,
      fun s hs => ?_⟩, h.ready.there, h.ready.versions⟩
    obtain ⟨e, he, horg, htrace, hseq⟩ := h.ready.index.told s hs
    refine ⟨_, List.mem_map_of_mem he, (hkeeps e).2.1.trans horg, (hkeeps e).2.2.1.trans htrace, ?_⟩
    rw [← hseq, deferRow]
    split <;> rfl
  grows := h.grows.withDecisions _ _ _
  uses := by
    refine ⟨fun e he => ?_, h.uses.summaries, h.uses.approvals⟩
    obtain ⟨x, hx, rfl⟩ := List.mem_map.mp he
    rw [(deferRow_keeps id occurredAt deviceId signature x).1]
    exact h.uses.events x hx

/-- The round of an item goes through exactly where the gate takes its output. -/
theorem graftItem_iff (hready : Ready db org) {device : SdkDevice} {item : Dict}
    (claim : OfflineClaim) {fresh : GateFresh} {rounds : List GateFresh}
    (hnew : NewIds db org.id (fresh :: rounds))
    (htexts : textOk device.deviceId = true ∧ textOk (clientSignature item) = true)
    (svc : SigningKeyPair) :
    (∃ db' out, graftItem svc db org device item claim fresh = .ok (db', out)) ↔
      ∃ payload traceId, item.get "output" = .obj payload ∧ itemTrace item = .ok traceId ∧
        GateTakes db (itemGate org item payload traceId) fresh := by
  constructor
  · rintro ⟨db', out, hgraft⟩
    obtain ⟨decided, e, ⟨payload, traceId, db₁, gate, htrace, hpayload, hgate, -⟩⟩ :=
      graftItem_eq_ok hgraft
    exact ⟨payload, traceId, hpayload, htrace, (runGate_takes hready.stocked.traces hgate).2⟩
  · rintro ⟨payload, traceId, hpayload, htrace, htakes⟩
    obtain ⟨db₁, gate, hgate, -⟩ := htakes.runGate_returns hready hnew svc
    obtain ⟨decided, e, hwrites⟩ := runGate_writes hgate
    have hmark := markDeferred_returns hwrites.events_eq (runGate_apart hgate hwrites).output
      claim.occurredAt htexts
    rw [hwrites.orgId_eq, hwrites.traceId_eq, hwrites.seq_eq] at hmark
    refine ⟨{ db₁ with events := db₁.events.map (deferRow e.id claim.occurredAt device.deviceId
      (clientSignature item)) }, graftOut item claim gate, ?_⟩
    rw [graftItem, htrace, Except.ok_bind', hpayload]
    simp only [hgate, Except.ok_bind']
    rw [show (itemGate org item payload traceId).org.id = org.id from rfl] at hmark
    rw [hmark]
    rfl

theorem graftItem_leavesReady (hready : Ready db org) {device : SdkDevice} {item : Dict}
    {claim : OfflineClaim} {fresh : GateFresh} {rounds : List GateFresh} {out : GraftOut}
    (hnew : NewIds db org.id (fresh :: rounds))
    (h : graftItem svc db org device item claim fresh = .ok (db', out)) :
    LeavesReady db org fresh db' := by
  obtain ⟨traceId, -, h⟩ := Except.bind_eq_ok.mp h
  split at h
  · rename_i payload hpayload
    simp only [Except.bind_eq_ok, Except.pure_eq, Except.ok.injEq, Prod.mk.injEq] at h
    obtain ⟨⟨db₁, gate⟩, hgate, db₂, hmark, rfl, -⟩ := h
    have hleaves := runGate_leavesReady hready hnew hgate
    obtain ⟨found, -, hmark⟩ := Except.bind_eq_ok.mp hmark
    cases found with
    | none =>
      obtain rfl := Except.ok.inj hmark
      exact hleaves
    | some e =>
      obtain ⟨_, -, hdb⟩ := Except.bind_eq_ok.mp hmark
      obtain rfl := Except.ok.inj hdb
      exact hleaves.mark e.id claim.occurredAt device.deviceId (clientSignature item)
  · cases h

end Rounds

end Attest
