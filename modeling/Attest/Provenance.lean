import Attest.Tamper

/-!
# Whose record a verified trace is

Replay for an organisation looks the trace up under the organisation's id, and verifies
each row under the key it names. Neither the envelope nor the lookup of the key says
whose event it is. So a writer to the database may hand a whole trace to another
organisation, where it replays as before (`moveTrace_verified`).

What verification does bind is the trace. Rows that verify under a trace id were
recorded on that trace, so they were recorded for the organisation that asks exactly
when the trace is its own (`verified_recordedFor_iff`).
-/

namespace Attest

/-- The row states an event that was recorded for the organisation. -/
def RecordedFor (db : Db) (orgId : String) (row : Event) : Prop :=
  ∃ e ∈ db.events, e.orgId = orgId ∧ row.facts = e.facts

/-- `t.org_id = org_id`. -/
def Trace.move (traceId : Uuid) (orgId : String) (t : Trace) : Trace :=
  if t.id = traceId then { t with orgId := orgId } else t

/-- `e.org_id = org_id`. -/
def Event.move (traceId : Uuid) (orgId : String) (e : Event) : Event :=
  if e.traceId = traceId then { e with orgId := orgId } else e

/-- The trace and its events, given to another organisation. -/
def Db.moveTrace (db : Db) (traceId : Uuid) (orgId : String) : Db :=
  { db with
    traces := db.traces.map (Trace.move traceId orgId)
    events := db.events.map (Event.move traceId orgId) }

section Move

variable {traceId : Uuid} {orgId : String}

@[simp] theorem Trace.move_id (t : Trace) : (t.move traceId orgId).id = t.id := by
  unfold Trace.move
  split <;> rfl

/-- The move sets the organisation and nothing else. -/
theorem Event.move_eq (e : Event) :
    e.move traceId orgId = { e with orgId := (e.move traceId orgId).orgId } := by
  unfold Event.move
  split <;> rfl

@[simp] theorem Event.move_id (e : Event) : (e.move traceId orgId).id = e.id := by
  rw [Event.move_eq]

@[simp] theorem Event.move_traceId (e : Event) : (e.move traceId orgId).traceId = e.traceId := by
  rw [Event.move_eq]

@[simp] theorem Event.move_signature (e : Event) :
    (e.move traceId orgId).signature = e.signature := by
  rw [Event.move_eq]

@[simp] theorem Event.move_facts (e : Event) : (e.move traceId orgId).facts = e.facts := by
  rw [Event.move_eq]
  rfl

/-- A trace keeps its events as they are, up to their organisation. -/
theorem chain_moveTrace (db : Db) (t : Uuid) :
    (db.moveTrace traceId orgId).chain t = (db.chain t).map (Event.move traceId orgId) := by
  change (db.events.map (Event.move traceId orgId)).filter _ = _
  rw [List.filter_map]
  simp [Function.comp_def, Db.chain]

end Move

section Verified

variable [SignatureScheme] {svc : SigningKeyPair}

/-- What a writer to the database may make of it without the private keys : any rows, so
long as the keys stay and no signature is forged. -/
structure EditOf (svc : SigningKeyPair) (db edited : Db) : Prop where
  signingKeys_eq : edited.signingKeys = db.signingKeys
  onlyStored : OnlyStored svc db edited.events
  collisionFree : CollisionFreeOn (hashed db edited.events)

/-- `replay_trace` reports all rows verified. -/
def ReplayVerified (svc : SigningKeyPair) (db : Db) (orgId : String) (traceId : Uuid) : Prop :=
  ∃ r, replayTrace svc db orgId traceId = .ok r ∧ r.allVerified = true

/-- The keys that the rows of an edited database resolve to are the service's. -/
theorem EditOf.genuineKeys {db edited : Db} (h : EditOf svc db edited) (hsound : Sound svc db)
    (rows : List Event) : GenuineKeys svc db rows (resolveKey svc edited) := by
  intro row _ pem hpem
  cases hid : row.signingKeyId with
  | none =>
    have hnone : row.verifiable.signingKeyId = none := hid
    rw [resolveKey, hnone, Except.ok.injEq] at hpem
    exact ⟨svc, ⟨none, rfl⟩, hpem.symm⟩
  | some keyId =>
    have hsome : row.verifiable.signingKeyId = some keyId := hid
    rw [resolveKey, hsome] at hpem
    unfold publicPemForKey at hpem
    cases hkey : edited.getSigningKey keyId with
    | none => simp [hkey] at hpem
    | some k =>
      have hk : k ∈ db.signingKeys := by
        rw [← h.signingKeys_eq]
        exact List.mem_of_find?_eq_some hkey
      obtain ⟨pair, hpriv, hpub⟩ := hsound.managed k hk
      simp only [hkey, Except.ok.injEq] at hpem
      exact ⟨pair, ⟨some k.keyId, k, hk, rfl, hpriv, hpub⟩, hpem.symm.trans hpub⟩

/-- Verified rows of a trace state events recorded on it. -/
theorem EditOf.states_events {db edited : Db} (hideal : SignatureScheme.Ideal)
    (h : EditOf svc db edited) (hsound : Sound svc db) (hsealed : Sealed svc db) {orgId : String}
    {traceId : Uuid} (hverified : ReplayVerified svc edited orgId traceId) :
    ∀ row ∈ edited.eventsForTrace orgId traceId,
      ∃ e ∈ db.events, e.traceId = traceId ∧ row.facts = e.facts := by
  intro row hrow
  obtain ⟨r, hr, hall⟩ := hverified
  simp only [replayTrace, Except.bind_eq_ok] at hr
  obtain ⟨-, -, hr⟩ := hr
  have hne : edited.eventsForTrace orgId traceId ≠ [] := List.ne_nil_of_mem hrow
  rw [if_neg (by simpa using hne)] at hr
  obtain ⟨rs, hrs, hr⟩ := Except.bind_eq_ok.mp hr
  obtain rfl := Except.ok.inj hr
  obtain ⟨hrows, -⟩ := verifyRows_all_verified hrs hall
  obtain ⟨pem, hpem, hok⟩ := hrows row.verifiable (List.mem_map_of_mem hrow)
  obtain ⟨pair, hpair, rfl⟩ := h.genuineKeys hsound [row] row List.mem_cons_self pem hpem
  rw [Db.eventsForTrace, List.mem_insertionSort] at hrow
  obtain ⟨hmem, -, htrace⟩ := Db.mem_traceRows.mp hrow
  obtain ⟨e, he, hfacts⟩ := hok.exists_event hideal hsound hsealed h.collisionFree h.onlyStored
    hmem hpair
  exact ⟨e, he, (congrArg EventFacts.traceId hfacts).symm.trans htrace, hfacts⟩

/-! ## Moving a trace -/

/-- A moved trace is an edit. -/
theorem editOf_moveTrace {db : Db} (hfree : CollisionFreeOn (hashed db [])) (hsound : Sound svc db)
    (traceId : Uuid) (orgId : String) : EditOf svc db (db.moveTrace traceId orgId) where
  signingKeys_eq := rfl
  onlyStored := by
    rintro row hrow pair - m hm
    obtain ⟨e, he, rfl⟩ := List.mem_map.mp hrow
    rw [Event.move_signature] at hm
    exact Or.inl ⟨e, he, hm⟩
  collisionFree := by
    refine hfree.mono ?_
    rintro b (h | h | ⟨row, hrow, rfl⟩)
    · exact Or.inl h
    · exact Or.inr (Or.inl h)
    · obtain ⟨e, he, rfl⟩ := List.mem_map.mp hrow
      rw [Event.move_facts, (hsound.signed e he).facts_eq.2.1]
      exact Or.inl ⟨e, he, rfl⟩

/-- The move of a trace keeps the database sound. -/
theorem Sound.moveTrace {db : Db} (h : Sound svc db) (traceId : Uuid) (orgId : String) :
    Sound svc (db.moveTrace traceId orgId) where
  traces_nodup := by
    have hids : (db.moveTrace traceId orgId).traces.map Trace.id = db.traces.map Trace.id := by
      simp [Db.moveTrace, Function.comp_def]
    rw [hids]
    exact h.traces_nodup
  keys_nodup := h.keys_nodup
  managed := h.managed
  ids_nodup := by
    have hids : (db.moveTrace traceId orgId).events.map Event.id = db.events.map Event.id := by
      simp [Db.moveTrace, Function.comp_def]
    rw [hids]
    exact h.ids_nodup
  signed := by
    intro x hx
    obtain ⟨e, he, rfl⟩ := List.mem_map.mp hx
    obtain ⟨henvelope, hhash, halg, hsig⟩ := h.signed e he
    rw [Event.move_eq]
    exact ⟨henvelope, hhash, halg, hsig⟩
  traced := by
    intro x hx
    obtain ⟨e, he, rfl⟩ := List.mem_map.mp hx
    obtain ⟨t, ht, hid, horg⟩ := h.traced e he
    refine ⟨t.move traceId orgId, List.mem_map_of_mem ht, by simpa using hid, ?_⟩
    by_cases htrace : e.traceId = traceId
    · simp [Trace.move, Event.move, hid, htrace]
    · simp [Trace.move, Event.move, hid, htrace, horg]
  chained := by
    intro t
    rw [chain_moveTrace]
    refine (h.chained t).map _ ?_
    intro e
    rw [Event.move_eq]
    exact ⟨rfl, rfl, rfl⟩

/-- Replay for the organisation a trace was moved to reports it verified, row for row. -/
theorem moveTrace_verified {db : Db} (hideal : SignatureScheme.Ideal) (hsound : Sound svc db)
    {e : Event} (he : e ∈ db.events) (orgId : String) :
    ReplayVerified svc (db.moveTrace e.traceId orgId) orgId e.traceId ∧
      e.move e.traceId orgId ∈ (db.moveTrace e.traceId orgId).eventsForTrace orgId e.traceId := by
  have hmoved := hsound.moveTrace e.traceId orgId
  obtain ⟨t, ht, hid, -⟩ := hsound.traced e he
  have htrace : t.move e.traceId orgId ∈ (db.moveTrace e.traceId orgId).traces :=
    List.mem_map_of_mem ht
  have hid' : (t.move e.traceId orgId).id = e.traceId := by simpa using hid
  have horg' : (t.move e.traceId orgId).orgId = orgId := by simp [Trace.move, hid]
  have hrow : e.move e.traceId orgId ∈
      (db.moveTrace e.traceId orgId).eventsForTrace orgId e.traceId := by
    have hevents := hmoved.eventsForTrace htrace
    rw [hid', horg'] at hevents
    rw [hevents, mem_chain]
    exact ⟨List.mem_map_of_mem he, by simp⟩
  have hreplay := hmoved.replayTrace hideal htrace
  rw [hid', horg'] at hreplay
  obtain ⟨r, hr, hall, -⟩ := hreplay (List.ne_nil_of_mem hrow)
  exact ⟨⟨r, hr, hall⟩, hrow⟩

variable [KeyWrapping] [PyUnicode]

/-- Whatever is edited, rows that replay verifies for an organisation were recorded for
it, exactly when the trace asked for holds no event of another organisation. -/
theorem verified_recordedFor_iff (hideal : SignatureScheme.Ideal) {w : World}
    (h : (ledger svc).Reachable w) (hfree : CollisionFreeOn (hashed w.db []))
    (orgId : String) (traceId : Uuid) :
    (∀ edited, EditOf svc w.db edited → ReplayVerified svc edited orgId traceId →
        ∀ row ∈ edited.eventsForTrace orgId traceId, RecordedFor w.db orgId row) ↔
      ∀ e ∈ w.db.events, e.traceId = traceId → e.orgId = orgId := by
  have hsound := sound_of_reachable h
  have hsealed := sealed_of_reachable h
  constructor
  · rintro hclaim e he rfl
    obtain ⟨hverified, hrow⟩ := moveTrace_verified hideal hsound he orgId
    obtain ⟨e', he', horg, hfacts⟩ := hclaim _ (editOf_moveTrace hfree hsound e.traceId orgId)
      hverified _ hrow
    rw [Event.move_facts] at hfacts
    -- Both events are of the trace, and a trace is of one organisation.
    obtain ⟨t, ht, hid, htorg⟩ := hsound.traced e he
    obtain ⟨t', ht', hid', htorg'⟩ := hsound.traced e' he'
    have hsame : t' = t := by
      refine List.inj_on_of_nodup_map hsound.traces_nodup ht' ht ?_
      rw [hid, hid']
      exact (congrArg EventFacts.traceId hfacts).symm
    rw [← htorg, ← hsame, htorg', horg]
  · intro hown edited hedit hverified row hrow
    obtain ⟨e, he, htrace, hfacts⟩ := hedit.states_events hideal hsound hsealed hverified row hrow
    exact ⟨e, he, hown e he htrace, hfacts⟩

end Verified

/-! ## A ledger of two events -/

/-- What is hashed for the two events of a ledger does not collide. -/
theorem TwoEvents.collisionFree {w : World} {e e' : Event} (h : TwoEvents w e e') :
    CollisionFreeOn (hashed w.db []) := by
  refine (h.retimed Event.createdAt).2.2.1.mono ?_
  rintro b (hevent | hbatch | ⟨row, hrow, -⟩)
  · exact Or.inl hevent
  · exact Or.inr (Or.inl hbatch)
  · cases hrow

theorem verified_recordedFor_iff_sample : ∃ (w : World) (traceId : Uuid),
    (w.db.events.filter fun e => e.traceId = traceId).length = 2 ∧
      ((∀ edited, @EditOf .transparent sampleKey w.db edited →
          @ReplayVerified .transparent sampleKey edited "acme" traceId →
          ∀ row ∈ edited.eventsForTrace "acme" traceId, RecordedFor w.db "acme" row) ↔
        ∀ e ∈ w.db.events, e.traceId = traceId → e.orgId = "acme") := by
  obtain ⟨w, e, e', htwo⟩ := exists_twoEvents
  exact ⟨w, e.traceId, by simp [htwo.events, htwo.trace], @verified_recordedFor_iff .transparent
    sampleKey .lenient .ascii SignatureScheme.ideal_transparent w htwo.reach htwo.collisionFree
    "acme" e.traceId⟩

/-- A trace moved to another organisation verifies there, and nothing was recorded for
it. -/
theorem moved_trace_verified : ¬ ∀ (w : World) (edited : Db) (orgId : String) (traceId : Uuid),
    (@ledger .transparent .lenient .ascii sampleKey).Reachable w →
      @EditOf .transparent sampleKey w.db edited →
      @ReplayVerified .transparent sampleKey edited orgId traceId →
        ∀ row ∈ edited.eventsForTrace orgId traceId, RecordedFor w.db orgId row := by
  intro hclaim
  obtain ⟨w, e, e', htwo⟩ := exists_twoEvents
  have hmem : e ∈ w.db.events := by simp [htwo.events]
  obtain ⟨orgId, horg⟩ : ∃ orgId, orgId ≠ e.orgId := exists_ne e.orgId
  obtain ⟨hverified, hrow⟩ := @moveTrace_verified .transparent sampleKey w.db
    SignatureScheme.ideal_transparent htwo.sound e hmem orgId
  have hedit := @editOf_moveTrace .transparent sampleKey w.db htwo.collisionFree
    htwo.sound e.traceId orgId
  obtain ⟨x, hx, hxorg, hfacts⟩ := hclaim w _ orgId e.traceId htwo.reach hedit hverified _ hrow
  -- Both events of the ledger are of the organisation that recorded them.
  obtain ⟨t, ht, hid, htorg⟩ := (@Sound.traced .transparent sampleKey w.db htwo.sound) e hmem
  obtain ⟨t', ht', hid', htorg'⟩ := (@Sound.traced .transparent sampleKey w.db htwo.sound) x hx
  have hxtrace : x.traceId = e.traceId := by
    rw [htwo.events, List.mem_cons, List.mem_singleton] at hx
    rcases hx with rfl | rfl
    · rfl
    · exact htwo.trace
  have hsame : t' = t := List.inj_on_of_nodup_map
    (@Sound.traces_nodup .transparent sampleKey w.db htwo.sound) ht' ht
    (by rw [hid, hid', hxtrace])
  refine horg (hxorg.symm.trans ?_)
  rw [← htorg', hsame, htorg]

end Attest
