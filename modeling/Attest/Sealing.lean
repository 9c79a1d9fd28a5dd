import Attest.Ledger

/-!
# What batches hold

In every reachable state each batch has the Merkle root of its events' hashes and the
service's signature over it, and an event that names a batch is one of its events
(`Sealed`, `sealed_of_reachable`). Later states keep the leaves a batch was made of
(`Batch.Rooted.later`).
-/

namespace Attest

/-! ## Leaves -/

theorem batchLeafHashes_eq_ok {db : Db} {ids : List Uuid} {hashes : List String} :
    batchLeafHashes db ids = .ok hashes ↔
      List.Forall₂ (fun id hash => ∃ e, (db.events.find? fun e => e.id = id) = some e ∧
        e.hash = hash) ids hashes := by
  unfold batchLeafHashes
  rw [Except.mapM_eq_ok]
  refine iff_of_eq (congrArg (fun R => List.Forall₂ R ids hashes) ?_)
  funext id hash
  cases db.events.find? fun e => e.id = id <;> simp

/-- The leaves of some events' ids are their hashes. -/
theorem batchLeafHashes_of_mem {db : Db} (hnodup : (db.events.map Event.id).Nodup)
    {events : List Event} (h : ∀ e ∈ events, ∃ e' ∈ db.events, e'.core = e.core) :
    batchLeafHashes db (events.map Event.id) = .ok (events.map Event.hash) := by
  rw [batchLeafHashes_eq_ok, List.forall₂_map_left_iff, List.forall₂_map_right_iff,
    List.forall₂_same]
  intro e he
  obtain ⟨e', he', hcore⟩ := h e he
  have hid : e'.id = e.id := by rw [Event.eq_of_core hcore]
  have hhash : e'.hash = e.hash := by rw [Event.eq_of_core hcore]
  exact ⟨e', by rw [← hid]; exact find?_of_nodup hnodup he', hhash⟩

/-- Later states have the same leaves. -/
theorem batchLeafHashes_later {db db' : Db} (hlater : Later db db')
    (hnodup : (db'.events.map Event.id).Nodup) {ids : List Uuid} {hashes : List String}
    (h : batchLeafHashes db ids = .ok hashes) : batchLeafHashes db' ids = .ok hashes := by
  rw [batchLeafHashes_eq_ok] at h ⊢
  refine h.imp ?_
  rintro id hash ⟨e, he, rfl⟩
  obtain ⟨e', he', hcore⟩ := hlater.events e (List.mem_of_find?_eq_some he)
  have hid : e'.id = id := by
    have : e.id = id := by simpa using List.find?_some he
    rw [← this, Event.eq_of_core hcore]
  have hhash : e'.hash = e.hash := by rw [Event.eq_of_core hcore]
  exact ⟨e', by rw [← hid]; exact find?_of_nodup hnodup he', hhash⟩

/-- A leaf is the hash of an event. -/
theorem mem_of_batchLeafHashes {db : Db} {ids : List Uuid} {hashes : List String}
    (h : batchLeafHashes db ids = .ok hashes) {hash : String} (hmem : hash ∈ hashes) :
    ∃ e ∈ db.events, e.hash = hash := by
  rw [batchLeafHashes_eq_ok] at h
  obtain ⟨id, -, e, he, hhash⟩ := exists_of_forall₂ h hmem
  exact ⟨e, List.mem_of_find?_eq_some he, hhash⟩

theorem UnbatchedEvents.mem {db : Db} {events : List Event} (h : UnbatchedEvents db events)
    {e : Event} : e ∈ events ↔ e ∈ db.events ∧ e.batchId = none := by
  rw [h.perm.mem_iff]
  simp

theorem UnbatchedEvents.nodup {db : Db} {events : List Event} (h : UnbatchedEvents db events)
    (hnodup : (db.events.map Event.id).Nodup) : (events.map Event.id).Nodup := by
  rw [(h.perm.map Event.id).nodup_iff]
  exact hnodup.sublist (List.filter_sublist.map Event.id)

/-! ## The invariant -/

section Invariant

variable [SignatureScheme] {svc : SigningKeyPair}

/-- The batch has the root of its events' hashes, signed with the service's key. -/
structure Batch.Rooted (svc : SigningKeyPair) (db : Db) (b : Batch) : Prop where
  ids_nodup : b.eventIds.Nodup
  rooted : ∃ leaves : List Bytes, leaves ≠ [] ∧
    batchLeafHashes db b.eventIds = .ok (leaves.map Bytes.hex) ∧
      merkleRoot (leaves.map Bytes.hex) = .ok b.root
  signed : signHex svc.privatePem b.root = .ok b.signature

/-- What holds of the batches whatever the writers did. -/
structure Sealed (svc : SigningKeyPair) (db : Db) : Prop where
  anchors_nil : db.anchors = []
  batches_nodup : (db.batches.map Batch.id).Nodup
  rooted : ∀ b ∈ db.batches, b.Rooted svc db
  batched : ∀ e ∈ db.events, ∀ batchId, e.batchId = some batchId →
    ∃ b ∈ db.batches, b.id = batchId ∧ e.id ∈ b.eventIds

/-- A batch keeps its leaves. -/
theorem Batch.Rooted.later {db db' : Db} (hlater : Later db db') (hsound : Sound svc db')
    {b : Batch} (h : b.Rooted svc db) : b.Rooted svc db' := by
  obtain ⟨leaves, hne, hleaves, hroot⟩ := h.rooted
  exact ⟨h.ids_nodup, ⟨leaves, hne, batchLeafHashes_later hlater hsound.ids_nodup hleaves, hroot⟩,
    h.signed⟩

theorem Blank.sealed {w : World} (h : Blank w) : Sealed svc w.db :=
  ⟨h.anchors, by simp [h.batches], by simp [h.batches], by simp [h.events]⟩

/-- The database with a batch inserted, and its events assigned to it. -/
def Db.addBatch (db : Db) (b : Batch) : Db :=
  { db with batches := db.batches ++ [b]
            events := db.events.map (Event.assign b.eventIds b.id) }

theorem Sound.addBatch {db : Db} (h : Sound svc db) (b : Batch) :
    Sound svc (db.addBatch b) ∧ Later db (db.addBatch b) :=
  h.assignBatch b.eventIds b.id rfl rfl rfl

/-- The batch made of some events is rooted where they still are, whatever batch they are
in by then. -/
theorem Sound.rooted {db : Db} (h : Sound svc db) {events : List Event}
    (hne : events ≠ []) (hnodup : (events.map Event.id).Nodup)
    (hmem : ∀ e ∈ events, ∃ e' ∈ db.events, e'.core = e.core) {b : Batch}
    (hids : b.eventIds = events.map Event.id)
    (hroot : merkleRoot (events.map Event.hash) = .ok b.root)
    (hsign : signHex svc.privatePem b.root = .ok b.signature) : b.Rooted svc db := by
  have hhashes : events.map Event.hash =
      (events.map fun e => sha256 (canonicalBytes e.envelope)).map Bytes.hex := by
    rw [List.map_map]
    refine List.map_congr_left fun e he => ?_
    obtain ⟨e', he', hcore⟩ := hmem e he
    exact ((h.signed e' he').of_core hcore.symm).hash_eq
  refine ⟨by rwa [hids], ⟨events.map fun e => sha256 (canonicalBytes e.envelope),
    by simpa using hne, ?_, ?_⟩, hsign⟩
  · rw [hids, ← hhashes]
    exact batchLeafHashes_of_mem h.ids_nodup hmem
  · rw [← hhashes]
    exact hroot

/-- A rooted batch is added, and its events are assigned to it. -/
theorem Sealed.addBatch {db : Db} (h : Sealed svc db) (hsound : Sound svc db) {b : Batch}
    (hb : b.Rooted svc db) (hfresh : ∀ x ∈ db.batches, x.id ≠ b.id) :
    Sealed svc (db.addBatch b) := by
  obtain ⟨hsound', hlater⟩ := hsound.addBatch b
  refine ⟨h.anchors_nil, nodup_map_concat h.batches_nodup hfresh, ?_, ?_⟩
  · intro x hx
    rcases List.mem_append.mp hx with hx | hx
    · exact (h.rooted x hx).later hlater hsound'
    · rw [List.mem_singleton.mp hx]
      exact hb.later hlater hsound'
  · intro e he id hid
    obtain ⟨e₀, he₀, rfl⟩ := List.mem_map.mp he
    unfold Event.assign at hid ⊢
    split at hid
    · rename_i hin
      obtain rfl : b.id = id := by simpa using hid
      exact ⟨b, List.mem_append_right _ (List.mem_singleton.mpr rfl), rfl, by simp [hin]⟩
    · rename_i hnot
      obtain ⟨x, hx, hxid, hein⟩ := h.batched e₀ he₀ id hid
      exact ⟨x, List.mem_append_left _ hx, hxid, by simpa [hnot] using hein⟩

/-- Sealing adds a rooted batch, and assigns its events to it. -/
theorem Sealed.sealBatch {db db' : Db} {events : List Event} {batchId : Uuid} {now : String}
    {result : Option SealedBatchResult} (h : Sealed svc db) (hsound : Sound svc db)
    (hevents : UnbatchedEvents db events)
    (hseal : sealBatch svc db events batchId now = .ok (db', result)) : Sealed svc db' := by
  rcases sealBatch_eq_ok hseal with ⟨-, rfl⟩ | ⟨root, signature, hne, hroot, hsign, hfresh, rfl⟩
  · exact h
  have hrooted : Batch.Rooted svc db
      ⟨batchId, soleOrg events, root, signature, events.map Event.id, now⟩ :=
    hsound.rooted hne (hevents.nodup hsound.ids_nodup)
      (fun e he => ⟨e, (hevents.mem.mp he).1, rfl⟩) rfl hroot hsign
  exact h.addBatch hsound hrooted hfresh

/-- Other steps leave the batches, and the events in one. -/
theorem Sealed.of_later {db db' : Db} (h : Sealed svc db) (hlater : Later db db')
    (hsound : Sound svc db') (ha : db'.anchors = db.anchors)
    (hb : db'.batches = db.batches)
    (he : ∀ e ∈ db'.events, e.batchId = none ∨ e ∈ db.events) : Sealed svc db' := by
  refine ⟨by rw [ha]; exact h.anchors_nil, by rw [hb]; exact h.batches_nodup, ?_, ?_⟩
  · intro b hmem
    rw [hb] at hmem
    exact (h.rooted b hmem).later hlater hsound
  · intro e hmem id hid
    rw [hb]
    rcases he e hmem with hnone | hold
    · rw [hnone] at hid
      cases hid
    · exact h.batched e hold id hid

/-- A call adds an event of no batch. -/
theorem Sealed.commitCall {db db' : Db} {trace : Option Trace} {draft : Draft} (h : Sealed svc db)
    (hlater : Later db db') (hsound : Sound svc db') (hnone : draft.event.batchId = none)
    (hcommit : commitCall db trace draft = .ok db') : Sealed svc db' := by
  obtain ⟨ts, ps, ks, rfl⟩ := commitCall_eq_ok hcommit
  refine h.of_later hlater hsound rfl rfl fun e he => ?_
  rcases List.mem_append.mp he with he | he
  · exact Or.inr he
  · rw [List.mem_singleton.mp he]
    exact Or.inl hnone

variable [KeyWrapping] [PyUnicode]

/-- One step keeps what holds of the batches. -/
theorem Sealed.step {w w' : World} (h : Sealed svc w.db) (hok : WorldOk svc w)
    (hstep : Step svc w w') : Sealed svc w'.db := by
  obtain ⟨hok', hlater⟩ := hok.step_later hstep
  cases hstep with
  | begin => exact h
  | readTip => exact h
  | draft => exact h
  | rollback => exact h
  | commit hcommit =>
    obtain ⟨-, -, hfollows⟩ := hok.calls _ (List.mem_append_right _ List.mem_cons_self)
    exact h.commitCall hlater hok'.sound hfollows.batchId_eq hcommit
  | provision hprov =>
    obtain ⟨-, rfl⟩ := provisionManagedSigningKey_eq_ok hprov
    exact h.of_later hlater hok'.sound rfl rfl fun e he => Or.inr he
  | sealBatch hevents hseal => exact h.sealBatch hok.sound hevents hseal
  | customerKey hmode =>
    unfold enableCustomerKeyMode at hmode
    split at hmode
    · cases hmode
    · obtain rfl := Except.ok.inj hmode
      exact h.of_later hlater hok'.sound rfl rfl fun e he => Or.inr he

theorem sealed_of_reachable {w : World} (h : (ledger svc).Reachable w) : Sealed svc w.db :=
  TransitionSystem.invariant_of (P := fun w => Sealed svc w.db)
    (fun _ hinit => Blank.sealed hinit)
    (fun _ _ hreach hs hstep => hs.step (worldOk_of_reachable hreach) hstep) h

end Invariant

end Attest
