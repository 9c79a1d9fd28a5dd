import Attest.Disclosure
import Attest.Vault
import Attest.Lib.ReadCommitted

/-!
# Batches under concurrent seals

Any number of `record_event` and `seal_batch` transactions run at once. A seal reads the
events of no batch, inserts a batch made of what it read, assigns those events to it and
commits; two seals may have read the same events, and the one that commits last keeps
them.

What a seal read stays true of the events whatever commits in between, but for the batch
they are in (`Sound.rooted`). So in every committed state an event that names a batch is
in it once, the batch is rooted and signed, and the export of the event's trace proves
the event against the root (`batched_proved`).
-/

set_option linter.unusedSectionVars false

namespace Attest

/-! ## The transactions -/

/-- A transaction in flight : a `record_event`, or a `seal_batch` that has read events,
inserted its batch or assigned the events to it. -/
inductive Writer where
  | record (call : Call)
  | read (events : List Event)
  | inserted (batch : Batch)
  | assigned (batch : Batch)

/-- The id it holds in the primary key of the batches. -/
def Writer.batchLock : Writer → Option Uuid
  | .inserted b => some b.id
  | .assigned b => some b.id
  | _ => none

/-- The events whose rows it has locked. -/
def Writer.rowLocks : Writer → List Uuid
  | .assigned b => b.eventIds
  | _ => []

/-- The transactions hold one lock. -/
def Writer.Excludes (x y : Writer) : Prop :=
  (∃ id, x.batchLock = some id ∧ y.batchLock = some id) ∨ ∃ id ∈ x.rowLocks, id ∈ y.rowLocks

section Batched

variable [SignatureScheme] [KeyWrapping] [PyUnicode]

/-- The first statement of a transaction. -/
inductive WriterStart (db : Db) : Writer → Prop where
  | open {args : RecordArgs} {trace : Option Trace} : checkEventType args.eventType = .ok () →
      openTrace db args.orgId args.traceId args.policyVersion = .ok trace →
        WriterStart db (.record ⟨args, .opened trace⟩)
  | read {events : List Event} : UnbatchedEvents db events → WriterStart db (.read events)

/-- One statement of a transaction. -/
inductive WriterStatement (svc : SigningKeyPair) (db : Db) : Writer → Writer → Prop where
  | readTip {args : RecordArgs} {trace : Option Trace} {last : Option Event} :
      readTip db args.orgId args.traceId args.seq = .ok last →
        WriterStatement svc db (.record ⟨args, .opened trace⟩) (.record ⟨args, .tipRead trace last⟩)
  | draft {args : RecordArgs} {trace : Option Trace} {last : Option Event} {fresh : Fresh}
      {draft : Draft} : draftEvent svc db args last fresh = .ok draft →
        WriterStatement svc db (.record ⟨args, .tipRead trace last⟩)
          (.record ⟨args, .drafted trace last draft⟩)
  | insertBatch {events : List Event} {batchId : Uuid} {root signature now : String} :
      events ≠ [] → merkleRoot (events.map Event.hash) = .ok root →
      signHex svc.privatePem root = .ok signature → (∀ b ∈ db.batches, b.id ≠ batchId) →
        WriterStatement svc db (.read events)
          (.inserted ⟨batchId, soleOrg events, root, signature, events.map Event.id, now⟩)
  | assign {b : Batch} : WriterStatement svc db (.inserted b) (.assigned b)

/-- The writes of a transaction, at its commit. A seal with nothing to seal has none, and
ends as one that is rolled back. -/
inductive WriterCommit : Db → Writer → Db → Prop where
  | record {db db' : Db} {args : RecordArgs} {trace : Option Trace} {last : Option Event}
      {draft : Draft} : commitCall db trace draft = .ok db' →
        WriterCommit db (.record ⟨args, .drafted trace last draft⟩) db'
  | batch {db : Db} {b : Batch} : WriterCommit db (.assigned b) (db.addBatch b)

/-- `record_event` and `seal_batch`, as transactions. -/
def batching (svc : SigningKeyPair) : ReadCommitted.Protocol Db Writer where
  start := WriterStart
  statement := WriterStatement svc
  commit := WriterCommit
  Excludes := Writer.Excludes
  excludes_symm := by
    rintro x y (⟨id, hx, hy⟩ | ⟨id, hx, hy⟩)
    · exact Or.inl ⟨id, hy, hx⟩
    · exact Or.inr ⟨id, hy, hx⟩

/-- A database with nothing recorded. -/
def Db.Unrecorded (db : Db) : Prop :=
  Blank ⟨db, []⟩

/-! ## What holds in every interleaving -/

/-- What holds of the committed state. -/
structure BatchingOk (svc : SigningKeyPair) (db : Db) : Prop where
  sound : Sound svc db
  sealed : Sealed svc db

/-- What a transaction relies on. -/
def WriterOk (svc : SigningKeyPair) (db : Db) : Writer → Prop
  | .record call => CallOk svc db call
  | .read events => (events.map Event.id).Nodup ∧ ∀ e ∈ events, ∃ e' ∈ db.events, e'.core = e.core
  | .inserted b => b.Rooted svc db ∧ ∀ x ∈ db.batches, x.id ≠ b.id
  | .assigned b => b.Rooted svc db ∧ ∀ x ∈ db.batches, x.id ≠ b.id

variable {svc : SigningKeyPair}

theorem WriterStart.ok {db : Db} {x : Writer} (hdb : BatchingOk svc db) (h : WriterStart db x) :
    WriterOk svc db x := by
  cases h with
  | «open» _ hopen => exact openedOk_of_openTrace hopen
  | read hevents =>
    exact ⟨hevents.nodup hdb.sound.ids_nodup, fun e he => ⟨e, (hevents.mem.mp he).1, rfl⟩⟩

theorem WriterStatement.ok {db : Db} {x x' : Writer} (hdb : BatchingOk svc db)
    (hx : WriterOk svc db x) (h : WriterStatement svc db x x') : WriterOk svc db x' := by
  cases h with
  | readTip htip => exact ⟨hx, tipOk_of_readTip htip⟩
  | draft hdraft => exact ⟨hx.1, hx.2, draftEvent_follows hdb.sound.managed hdraft⟩
  | insertBatch hne hroot hsign hfresh =>
    exact ⟨hdb.sound.rooted hne hx.1 hx.2 rfl hroot hsign, hfresh⟩
  | assign => exact hx

/-- What a transaction relies on stays, where the batches that were added are not its own. -/
theorem WriterOk.later {db db' : Db} {y : Writer} (h : WriterOk svc db y) (hlater : Later db db')
    (hsound : Sound svc db')
    (hbatches : ∀ id, y.batchLock = some id → ∀ b ∈ db'.batches, b ∈ db.batches ∨ b.id ≠ id) :
    WriterOk svc db' y := by
  have hrooted {b : Batch} (hb : b.Rooted svc db ∧ ∀ x ∈ db.batches, x.id ≠ b.id)
      (hlock : y.batchLock = some b.id) : b.Rooted svc db' ∧ ∀ x ∈ db'.batches, x.id ≠ b.id := by
    refine ⟨hb.1.later hlater hsound, fun x hx => ?_⟩
    rcases hbatches b.id hlock x hx with hold | hne
    · exact hb.2 x hold
    · exact hne
  cases y with
  | record call => exact CallOk.later hlater h
  | read events =>
    refine ⟨h.1, fun e he => ?_⟩
    obtain ⟨e₁, he₁, hcore₁⟩ := h.2 e he
    obtain ⟨e₂, he₂, hcore₂⟩ := hlater.events e₁ he₁
    exact ⟨e₂, he₂, hcore₂.trans hcore₁⟩
  | inserted b => exact hrooted h rfl
  | assigned b => exact hrooted h rfl

/-- A commit keeps the state, and what the other transactions rely on. -/
theorem WriterCommit.ok {db db' : Db} {x : Writer} (hdb : BatchingOk svc db)
    (hx : WriterOk svc db x) (h : WriterCommit db x db') : BatchingOk svc db' ∧
      ∀ y, WriterOk svc db y → ¬ x.Excludes y → WriterOk svc db' y := by
  cases h with
  | record hcommit =>
    obtain ⟨hopened, htip, hfollows⟩ := hx
    obtain ⟨hsound, hlater⟩ := hdb.sound.commitCall hopened htip hfollows hcommit
    refine ⟨⟨hsound, hdb.sealed.commitCall hlater hsound hfollows.batchId_eq hcommit⟩, ?_⟩
    intro y hy _
    refine hy.later hlater hsound fun id _ b hb => Or.inl ?_
    obtain ⟨ts, ps, ks, rfl⟩ := commitCall_eq_ok hcommit
    exact hb
  | @batch b =>
    obtain ⟨hrooted, hfresh⟩ := hx
    obtain ⟨hsound, hlater⟩ := hdb.sound.addBatch b
    refine ⟨⟨hsound, hdb.sealed.addBatch hdb.sound hrooted hfresh⟩, ?_⟩
    intro y hy hfree
    refine hy.later hlater hsound fun id hlock x hx => ?_
    rcases List.mem_append.mp hx with hx | hx
    · exact Or.inl hx
    · right
      rw [List.mem_singleton.mp hx]
      rintro rfl
      exact hfree (Or.inl ⟨b.id, rfl, hlock⟩)

/-- Every committed state is sound, and its batches are what they say. -/
theorem batchingOk_of_reachable {w : ReadCommitted.World Db Writer}
    (h : ((batching svc).system Db.Unrecorded).Reachable w) : BatchingOk svc w.state := by
  have hinit (db : Db) (hdb : db.Unrecorded) : BatchingOk svc db :=
    ⟨(Blank.worldOk hdb).sound, Blank.sealed hdb⟩
  have hinv := ReadCommitted.Protocol.invariant (p := batching svc) hinit (J := WriterOk svc)
    (fun hs hx => WriterStart.ok hs hx) (fun hs hx hstep => WriterStatement.ok hs hx hstep)
    (fun hs hx hcommit => WriterCommit.ok hs hx hcommit) h
  exact hinv.state

/-! ## Proofs in the export -/

/-- The batch holds the event once, has the signed root of its events' hashes, and the
export of the event's trace proves the event at its place. -/
structure ProvedBy (svc : SigningKeyPair) (db : Db) (e : Event) (b : Batch) : Prop where
  once : b.eventIds.count e.id = 1
  rooted : ∃ hashes, batchLeafHashes db b.eventIds = .ok hashes ∧ merkleRoot hashes = .ok b.root
  signed : verifyHex svc.publicPem b.root b.signature = .ok true
  proved : ∀ batches, BatchesForEvents db (db.eventsForTrace e.orgId e.traceId) batches →
    ∃ bundle, buildEvidenceBundle svc db e.orgId e.traceId batches = .ok bundle ∧
      ∃ y ∈ bundle.batches, y.batchId = b.id.str ∧ ∃ proof,
        Verifier.lookup y.merkleProofs e.id.str = some proof ∧
          verifyMerkleProof e.hash (b.eventIds.idxOf e.id) proof b.root = .ok true

theorem lookup_of_mem_keys {α : Type} {d : List (String × α)} {key : String}
    (h : key ∈ d.map Prod.fst) :
    ∃ value, Verifier.lookup d key = some value ∧ (key, value) ∈ d := by
  obtain ⟨x, hx, rfl⟩ := List.mem_map.mp h
  obtain ⟨y, hy⟩ : ∃ y, (d.find? fun item => item.1 = x.1) = some y := by
    rw [← Option.isSome_iff_exists, List.find?_isSome]
    exact ⟨x, hx, by simp⟩
  have hkey : y.1 = x.1 := by simpa using List.find?_some hy
  refine ⟨y.2, by rw [Verifier.lookup, hy]; rfl, ?_⟩
  rw [← hkey]
  exact List.mem_of_find?_eq_some hy

/-- An event of the batch that is one of the trace has a proof. -/
theorem mem_keys_merkleProofs {ids : List Uuid} {leafHashes traceEventIds : List String}
    {proofs : List (String × List String)}
    (h : merkleProofs ids leafHashes traceEventIds = .ok proofs) {id : Uuid} (hid : id ∈ ids)
    (htrace : id.str ∈ traceEventIds) : id.str ∈ proofs.map Prod.fst := by
  obtain ⟨qs, hqs, hdict⟩ := Except.bind_eq_ok.mp h
  obtain rfl := Except.ok.inj hdict
  obtain ⟨i, hi, hget⟩ := List.mem_iff_getElem.mp hid
  have hplace : (id, i) ∈ ids.zipIdx.filter fun p => traceEventIds.contains p.1.str := by
    refine List.mem_filter.mpr ⟨List.mk_mem_zipIdx_iff_getElem?.mpr ?_, by simpa using htrace⟩
    rw [List.getElem?_eq_getElem hi, hget]
  obtain ⟨q, hq, hmap⟩ := exists_of_forall₂ (Except.mapM_eq_ok.mp hqs).flip hplace
  obtain ⟨proof, -, rfl⟩ := Except.map_eq_ok.mp hmap
  exact mem_keys_dictOf.mpr (List.mem_map_of_mem hq)

/-- The entry of a rooted batch proves each of its events that is of the trace. -/
theorem Batch.Rooted.proves {db : Db} (hsound : Sound svc db) {b : Batch} (h : b.Rooted svc db)
    {e : Event} (he : e ∈ db.events) (hin : e.id ∈ b.eventIds) {traceEventIds : List String}
    (htrace : e.id.str ∈ traceEventIds) {y : BundleBatch}
    (hy : Attest.serializeBatch db b traceEventIds = .ok y) : y.batchId = b.id.str ∧ ∃ proof,
      Verifier.lookup y.merkleProofs e.id.str = some proof ∧
        verifyMerkleProof e.hash (b.eventIds.idxOf e.id) proof b.root = .ok true := by
  obtain ⟨leaves, -, hleaves, hroot⟩ := h.rooted
  obtain ⟨proofs, hproofs, hall⟩ := @merkleProofs_eq_ok b.eventIds leaves traceEventIds
  simp only [Attest.serializeBatch, hleaves, hproofs, Except.ok_bind', Except.pure_eq,
    Except.ok.injEq] at hy
  subst hy
  obtain ⟨proof, hlookup, hmem⟩ := lookup_of_mem_keys (mem_keys_merkleProofs hproofs hin htrace)
  refine ⟨rfl, proof, hlookup, ?_⟩
  -- The id occurs once, so its proof is the one of its place.
  obtain ⟨id, i, hget, -, hkey, hproof⟩ := hall _ hmem
  obtain rfl : e.id = id := Uuid.str_injective hkey
  have hindex : b.eventIds.idxOf e.id = i := by
    obtain ⟨hi, hplace⟩ := List.getElem?_eq_some_iff.mp hget
    rw [← hplace]
    exact h.ids_nodup.idxOf_getElem i hi
  rw [hindex, (hsound.signed e he).hash_eq]
  exact verifyMerkleProof_merkleProof (hsound.leaf_eq hleaves hget he) hroot hproof

/-- In every committed state, an event that names a batch is proved by it. -/
theorem batched_proved (hideal : SignatureScheme.Ideal) {w : ReadCommitted.World Db Writer}
    (h : ((batching svc).system Db.Unrecorded).Reachable w) : ∀ e ∈ w.state.events, ∀ batchId,
      e.batchId = some batchId → ∃ b ∈ w.state.batches, b.id = batchId ∧
        (∀ x ∈ w.state.batches, x.id = batchId → x = b) ∧ ProvedBy svc w.state e b := by
  obtain ⟨hsound, hsealed⟩ := batchingOk_of_reachable h
  intro e he batchId hbatch
  obtain ⟨b, hb, rfl, hin⟩ := hsealed.batched e he batchId hbatch
  have hrooted := hsealed.rooted b hb
  obtain ⟨leaves, -, hleaves, hroot⟩ := hrooted.rooted
  refine ⟨b, hb, rfl, fun x hx hid => List.inj_on_of_nodup_map hsealed.batches_nodup hx hb hid,
    ?_, ⟨_, hleaves, hroot⟩, verifyHex_of_signHex hideal hrooted.signed, ?_⟩
  · exact List.count_eq_one_of_mem hrooted.ids_nodup hin
  · intro batches hbatches
    obtain ⟨t, ht, hid, horg⟩ := hsound.traced e he
    rw [← hid, ← horg] at hbatches ⊢
    have hmem : e ∈ w.state.eventsForTrace t.orgId t.id := by
      rw [Db.eventsForTrace, List.mem_insertionSort]
      exact Db.mem_traceRows.mpr ⟨he, horg.symm, hid.symm⟩
    obtain ⟨x, -, hbundle⟩ := hsound.exists_exported hideal hsealed ht
      (List.ne_nil_of_mem hmem) hbatches
    obtain ⟨-, hserialized, -⟩ := buildEvidenceBundle_eq_ok hbundle
    have hexported : b ∈ batches := by
      refine hbatches.mem_iff.mpr (List.mem_filter.mpr ⟨hb, List.any_eq_true.mpr ⟨e, hmem, ?_⟩⟩)
      simpa using hbatch
    obtain ⟨y, hy, hser⟩ := exists_of_forall₂ hserialized.flip hexported
    exact ⟨x.bundle, hbundle, y, hy,
      hrooted.proves hsound he hin (List.mem_map.mpr ⟨e, hmem, rfl⟩) hser⟩

/-! ## Runs -/

/-- A `record_event` that runs on its own. -/
theorem run_batchingRecord {db db' : Db} {args : RecordArgs} {fresh : Fresh} {out : EventOut}
    (h : recordEvent svc db args fresh = .ok (db', out)) :
    ((batching svc).system Db.Unrecorded).Run ⟨db, []⟩ ⟨db', []⟩ := by
  obtain ⟨trace, last, d, htype, hopen, htip, hdraft, hcommit⟩ := recordEvent_stages h
  have hfree (x : Writer) : (batching svc).Free x [] := fun y hy => by cases hy
  have hmove {x x' : Writer} (hx : WriterStatement svc db x x') :
      (batching svc).Step ⟨db, [] ++ x :: []⟩ ⟨db, [] ++ x' :: []⟩ := .statement hx (hfree x')
  have hwrite : (batching svc).Step ⟨db, [] ++ .record ⟨args, .drafted trace last d⟩ :: []⟩
      ⟨db', [] ++ []⟩ := .commit (.record hcommit)
  refine .head (.start (.open htype hopen) (hfree _)) ?_
  exact ((Relation.ReflTransGen.single (hmove (.readTip htip))).tail (hmove (.draft hdraft))).tail
    hwrite

/-- A seal that has read goes on to its commit while the others have only read. -/
theorem run_seal {db : Db} {events : List Event} {batchId : Uuid} {root signature now : String}
    {rest : List Writer} (hrest : ∀ y ∈ rest, y.batchLock = none ∧ y.rowLocks = [])
    (hne : events ≠ []) (hroot : merkleRoot (events.map Event.hash) = .ok root)
    (hsign : signHex svc.privatePem root = .ok signature)
    (hfresh : ∀ b ∈ db.batches, b.id ≠ batchId) :
    ((batching svc).system Db.Unrecorded).Run ⟨db, .read events :: rest⟩
      ⟨db.addBatch ⟨batchId, soleOrg events, root, signature, events.map Event.id, now⟩, rest⟩ := by
  have hfree (x : Writer) : (batching svc).Free x rest := by
    intro y hy
    obtain ⟨hlock, hrows⟩ := hrest y hy
    rintro (⟨id, -, hid⟩ | ⟨id, -, hid⟩)
    · rw [hlock] at hid
      cases hid
    · rw [hrows] at hid
      cases hid
  have hmove {x x' : Writer} (hx : WriterStatement svc db x x') :
      (batching svc).Step ⟨db, [] ++ x :: rest⟩ ⟨db, [] ++ x' :: rest⟩ := .statement hx (hfree x')
  have hwrite (b : Batch) : (batching svc).Step ⟨db, [] ++ .assigned b :: rest⟩
      ⟨db.addBatch b, [] ++ rest⟩ := .commit .batch
  refine .head (hmove (@WriterStatement.insertBatch _ _ _ svc db events batchId root signature
    now hne hroot hsign hfresh)) ?_
  exact .head (hmove .assign) (.single (hwrite _))

end Batched

/-! ## Two seals of one event -/

section Samples

open Sample

/-- The batch a seal makes of one event. -/
def sampleSeal (batchId : Uuid) (e : Event) (root signature : String) : Batch :=
  ⟨batchId, soleOrg [e], root, signature, [e.id], sampleFresh.now⟩

/-- Two seals read the one event, and both commit : it is in the second batch, which
proves it. -/
theorem batched_proved_sample : ∃ (db : Db) (e : Event) (b : Batch), db.events = [e] ∧
    db.batches.length = 2 ∧ e.batchId = some b.id ∧ ProvedBy sampleKey db e b := by
  obtain ⟨db, out, hrecord⟩ := exists_recordEvent_sample
  have hrun := @run_batchingRecord _ _ _ sampleKey _ _ _ _ _ hrecord
  obtain ⟨e, _, _, _, hrecords, -, -, hdb⟩ := recordEvent_eq_ok hrecord
  have hevents : db.events = [e] := by
    rw [hdb]
    rfl
  have hbatches : db.batches = [] := by
    rw [hdb]
    rfl
  have hunbatched : UnbatchedEvents db [e] := by
    refine ⟨?_, List.pairwise_singleton _ _⟩
    rw [hevents, List.filter_eq_self.mpr fun x hx => by
      simpa [List.mem_singleton.mp hx] using hrecords.batchId_eq]
  have hinit : (⟨sampleBlank, []⟩ : ReadCommitted.World Db Writer).state.Unrecorded :=
    ⟨rfl, rfl, rfl, rfl, rfl, rfl⟩
  have hok : BatchingOk sampleKey db := batchingOk_of_reachable ⟨_, ⟨hinit, rfl⟩, hrun⟩
  have hhash : e.hash = Bytes.hex (sha256 (canonicalBytes e.envelope)) :=
    (hok.sound.signed e (by simp [hevents])).hash_eq
  obtain ⟨root, hroot⟩ : ∃ root, merkleRoot ([e].map Event.hash) = .ok (Bytes.hex root) := by
    rw [List.map_singleton, hhash]
    exact ⟨_, merkleRoot_hex [_]⟩
  obtain ⟨signature, hsign⟩ : ∃ signature, signHex sampleKey.privatePem (Bytes.hex root) =
      .ok signature := ⟨_, signHex_hex sampleKey.isEd25519 root⟩
  have hfree (x y : Writer) (hy : y = .read [e]) : ¬ x.Excludes y := by
    rw [hy]
    rintro (⟨id, -, hid⟩ | ⟨id, -, hid⟩)
    · cases hid
    · cases hid
  have hread (xs : List Writer) (hxs : ∀ y ∈ xs, y = .read [e]) :
      (batching sampleKey).Step ⟨db, xs⟩ ⟨db, .read [e] :: xs⟩ :=
    .start (.read hunbatched) fun y hy => hfree _ y (hxs y hy)
  have hseal (db' : Db) (batchId : Uuid) (rest : List Writer) (hrest : ∀ y ∈ rest, y = .read [e])
      (hfresh : ∀ b ∈ db'.batches, b.id ≠ batchId) :
      ((batching sampleKey).system Db.Unrecorded).Run ⟨db', .read [e] :: rest⟩
        ⟨db'.addBatch (sampleSeal batchId e (Bytes.hex root) signature), rest⟩ := by
    refine run_seal (fun y hy => ?_) (List.cons_ne_nil e []) hroot hsign hfresh
    rw [hrest y hy]
    exact ⟨rfl, rfl⟩
  have hfirst := hseal db (Uuid.ofNat 5) [.read [e]] (fun y hy => List.mem_singleton.mp hy)
    (by simp [hbatches])
  have hnone (y : Writer) (hy : y ∈ []) : y = .read [e] := by cases hy
  have hsecond := hseal (db.addBatch (sampleSeal (Uuid.ofNat 5) e (Bytes.hex root) signature))
    (Uuid.ofNat 6) [] hnone fun b hb => by
      rw [Db.addBatch, hbatches] at hb
      rw [List.mem_singleton.mp hb]
      exact (by decide : Uuid.ofNat 5 ≠ Uuid.ofNat 6)
  have hreads := (hrun.tail (hread [] hnone)).tail (hread _ fun y hy => List.mem_singleton.mp hy)
  have hreach : ((batching sampleKey).system Db.Unrecorded).Reachable _ :=
    ⟨_, ⟨hinit, rfl⟩, (hreads.trans hfirst).trans hsecond⟩
  have hassigned : (e.assign [e.id] (Uuid.ofNat 5)).assign [e.id] (Uuid.ofNat 6) =
      { e with batchId := some (Uuid.ofNat 6) } := by
    simp [Event.assign]
  have hlast : (((db.addBatch (sampleSeal (Uuid.ofNat 5) e (Bytes.hex root) signature)).addBatch
      (sampleSeal (Uuid.ofNat 6) e (Bytes.hex root) signature)).events) =
        [{ e with batchId := some (Uuid.ofNat 6) }] := by
    rw [← hassigned]
    simp only [Db.addBatch, hevents]
    rfl
  obtain ⟨b, hb, hid, -, hproved⟩ := batched_proved SignatureScheme.ideal_transparent hreach
    { e with batchId := some (Uuid.ofNat 6) } (hlast ▸ List.mem_singleton.mpr rfl)
    (Uuid.ofNat 6) rfl
  refine ⟨_, _, b, hlast, ?_, congrArg some hid.symm, hproved⟩
  simp [Db.addBatch, hbatches]

end Samples

end Attest
