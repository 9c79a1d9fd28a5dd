import Attest.Batched

/-!
# Anchors

A sweep asks a timestamp authority for a token over the root of each batch that has no anchor
yet (`anchorUnanchoredBatches`), and commits the anchors together. Any number of sweeps run beside
the transactions that record events and seal batches. Two of them may have read the same batches;
the key of the anchors lets one of them through.

In every committed state a batch has one anchor at most, with a token the authority gave for the
root of this very batch, and no batch that a sweep read is without one once the sweep has
committed (`anchors_stamped`). The export of every trace carries the anchors of its batches, and
the verifier accepts it as it would without them, where the authority is honest
(`anchored_export_accepted`).

No writer reads the anchors, so what holds of the batches holds of the database without its anchors
(`Db.unanchored`), whoever else is at work.
-/

set_option linter.unusedSectionVars false

namespace Attest

/-! ## Anchoring a batch -/

/-- What `request_tsa_timestamp(root_bytes, tsa_url=..)` gives, as the text that is stored. -/
abbrev TsaAnswer := Bytes → Except PyError String

/-- What anchoring a batch draws, and how it is answered. -/
structure AnchorFresh where
  answer : TsaAnswer
  anchorId : Uuid
  now : String
  resultNow : String

/-- The result of `anchor_batch`. -/
structure AnchorResult where
  batchId : Uuid
  anchorId : Uuid
  kind : String
  anchoredAt : String
deriving DecidableEq

/-- `insert_anchor(db, ..)`, with the keys of the table. -/
def Db.insertAnchor (db : Db) (a : Anchor) : Except PyError Db := do
  require (textOk a.token) .dataError
  require (!db.anchors.any fun x => x.id = a.id) .integrityError
  require (!db.anchors.any fun x => x.batchId = a.batchId) .integrityError
  require (db.batches.any fun b => b.id = a.batchId) .integrityError
  return { db with anchors := db.anchors ++ [a] }

/-- `anchor_batch(db, batch_id)`. -/
def anchorBatch (db : Db) (batchId : Uuid) (fresh : AnchorFresh) :
    Except PyError (Db × AnchorResult) := do
  match db.batches.find? fun b => b.id = batchId with
  | none => .error (.invalid ("batch not found: " ++ batchId.str))
  | some batch =>
    require (!db.anchors.any fun a => a.batchId = batchId)
      (.invalid ("batch already anchored: " ++ batchId.str))
    let rootBytes ← fromHex batch.root
    let token ← fresh.answer rootBytes
    let anchor : Anchor := ⟨fresh.anchorId, batchId, "rfc3161", token, fresh.now⟩
    let db ← db.insertAnchor anchor
    return (db, ⟨batchId, anchor.id, "rfc3161", fresh.resultNow⟩)

/-- What `unanchored_batches(db)` returns : the batches of no anchor, oldest first. -/
structure UnanchoredBatches (db : Db) (batches : List Batch) : Prop where
  perm : List.Perm batches (db.batches.filter fun b => !db.anchors.any fun a => a.batchId = b.id)
  sorted : batches.Pairwise fun a b => a.sealedAt ≤ b.sealedAt

/-- `anchor_unanchored_batches(db)`, over the batches that the query returned. -/
def anchorUnanchoredBatches : Db → List (Batch × AnchorFresh) →
    Except PyError (Db × List AnchorResult)
  | db, [] => .ok (db, [])
  | db, (batch, fresh) :: batches => do
    let (db, result) ← anchorBatch db batch.id fresh
    let (db, results) ← anchorUnanchoredBatches db batches
    return (db, result :: results)

theorem anchorBatch_eq_ok {db db' : Db} {batchId : Uuid} {fresh : AnchorFresh}
    {result : AnchorResult} (h : anchorBatch db batchId fresh = .ok (db', result)) :
    ∃ a, a.batchId = batchId ∧ (∀ x ∈ db.anchors, x.batchId ≠ batchId) ∧
      (∃ b ∈ db.batches, b.id = batchId ∧ ∃ bytes, fromHex b.root = .ok bytes ∧
        fresh.answer bytes = .ok a.token) ∧
      db' = { db with anchors := db.anchors ++ [a] } := by
  unfold anchorBatch at h
  split at h
  · cases h
  · rename_i batch hfound
    simp only [Except.bind_eq_ok, require_eq_ok, Except.pure_eq, Except.ok.injEq, Prod.mk.injEq,
      Db.insertAnchor] at h
    obtain ⟨-, hfree, bytes, hbytes, token, htoken, db₁, ⟨-, -, -, -, -, -, -, -, rfl⟩, rfl, -⟩ := h
    rw [Bool.not_eq_true', List.any_eq_false] at hfree
    refine ⟨_, rfl, fun x hx hsame => hfree x hx (decide_eq_true hsame), ⟨batch, ?_, ?_, bytes,
      hbytes, htoken⟩, rfl⟩
    · exact List.mem_of_find?_eq_some hfound
    · simpa using List.find?_some hfound

/-! ## Sweeps beside the writers -/

/-- A transaction in flight : a writer, or a sweep with the batches it read and the anchors it has
placed for the first of them. -/
inductive Worker where
  | writer (x : Writer)
  | sweep (read : List Batch) (placed : List Anchor)

/-- The transactions hold one lock. An anchor locks its keys until it is committed. -/
def Worker.Excludes : Worker → Worker → Prop
  | .writer x, .writer y => x.Excludes y
  | .sweep _ placed, .sweep _ other =>
    ∃ a ∈ placed, ∃ b ∈ other, a.batchId = b.batchId ∨ a.id = b.id
  | _, _ => False

/-- The database as a sweep sees it, with the anchors it has placed. -/
def Db.seeing (db : Db) (placed : List Anchor) : Db :=
  { db with anchors := db.anchors ++ placed }

section Anchoring

variable [SignatureScheme] [KeyWrapping] [PyUnicode] (svc : SigningKeyPair)
  (answers : Bytes → String → Prop)

/-- The first statement of a transaction. -/
inductive WorkerStart (db : Db) : Worker → Prop where
  | writer {x : Writer} : WriterStart db x → WorkerStart db (.writer x)
  | sweep {batches : List Batch} : UnanchoredBatches db batches →
      WorkerStart db (.sweep batches [])

/-- One statement of a transaction. The authority answers as it may. -/
inductive WorkerStatement (db : Db) : Worker → Worker → Prop where
  | writer {x x' : Writer} : WriterStatement svc db x x' →
      WorkerStatement db (.writer x) (.writer x')
  | anchor {read : List Batch} {placed : List Anchor} {batch : Batch} {fresh : AnchorFresh}
      {a : Anchor} {result : AnchorResult} : read[placed.length]? = some batch →
      (∀ bytes token, fresh.answer bytes = .ok token → answers bytes token) →
      anchorBatch (db.seeing placed) batch.id fresh = .ok (db.seeing (placed ++ [a]), result) →
        WorkerStatement db (.sweep read placed) (.sweep read (placed ++ [a]))

/-- The writes of a transaction, at its commit. -/
inductive WorkerCommit : Db → Worker → Db → Prop where
  | writer {db db' : Db} {x : Writer} : WriterCommit db x db' → WorkerCommit db (.writer x) db'
  | sweep {db : Db} {read : List Batch} {placed : List Anchor} : placed.length = read.length →
      WorkerCommit db (.sweep read placed) (db.seeing placed)

/-- `record_event`, `seal_batch` and `anchor_unanchored_batches`, as transactions. -/
def anchoring : ReadCommitted.Protocol Db Worker where
  start := WorkerStart
  statement := WorkerStatement svc answers
  commit := WorkerCommit
  Excludes := Worker.Excludes
  excludes_symm := by
    intro x y h
    cases x with
    | writer x =>
      cases y with
      | writer y => exact (batching svc).excludes_symm h
      | sweep read placed => exact h
    | sweep read placed =>
      cases y with
      | writer y => exact h
      | sweep other placed' =>
        obtain ⟨a, ha, b, hb, hsame⟩ := h
        exact ⟨b, hb, a, ha, hsame.imp Eq.symm Eq.symm⟩

/-! ## What writers do not read -/

/-- The database without its anchors. -/
def Db.unanchored (db : Db) : Db :=
  { db with anchors := [] }

variable {svc answers} {db db' : Db}

theorem WriterStart.unanchored {x : Writer} (h : WriterStart db x) :
    WriterStart db.unanchored x := by
  cases h with
  | «open» htype hopen => exact .open htype hopen
  | read hevents => exact .read ⟨hevents.perm, hevents.sorted⟩

theorem WriterStatement.unanchored {x x' : Writer} (h : WriterStatement svc db x x') :
    WriterStatement svc db.unanchored x x' := by
  cases h with
  | readTip htip => exact .readTip htip
  | draft hdraft => exact .draft hdraft
  | insertBatch hne hroot hsign hfresh => exact .insertBatch hne hroot hsign hfresh
  | assign => exact .assign

theorem insertOpened_unanchored {trace : Option Trace} (h : insertOpened db trace = .ok db') :
    insertOpened db.unanchored trace = .ok db'.unanchored := by
  cases trace with
  | none =>
    obtain rfl : db = db' := Except.ok.inj h
    rfl
  | some t =>
    obtain ⟨hstored, rfl⟩ := Db.insertTrace_eq_ok.mp h
    exact Db.insertTrace_eq_ok.mpr ⟨hstored, rfl⟩

theorem insertSealed_unanchored {content : Option (Payload × PayloadKey)}
    (h : insertSealed db content = .ok db') :
    insertSealed db.unanchored content = .ok db'.unanchored := by
  cases content with
  | none =>
    obtain rfl : db = db' := Except.ok.inj h
    rfl
  | some p =>
    obtain ⟨hstored, rfl⟩ := Db.insertPayload_eq_ok.mp h
    exact Db.insertPayload_eq_ok.mpr ⟨hstored, rfl⟩

theorem commitCall_unanchored {trace : Option Trace} {draft : Draft}
    (h : commitCall db trace draft = .ok db') :
    commitCall db.unanchored trace draft = .ok db'.unanchored := by
  obtain ⟨db₁, hopen, hinsert⟩ := Except.bind_eq_ok.mp h
  obtain ⟨db₂, hsealed, hevent⟩ := Except.bind_eq_ok.mp hinsert
  obtain ⟨hstored, rfl⟩ := Db.insertEventRow_eq_ok.mp hevent
  refine Except.bind_eq_ok.mpr ⟨db₁.unanchored, insertOpened_unanchored hopen, ?_⟩
  refine Except.bind_eq_ok.mpr ⟨db₂.unanchored, insertSealed_unanchored hsealed, ?_⟩
  exact Db.insertEventRow_eq_ok.mpr ⟨hstored, rfl⟩

/-- A writer commits as it would without the anchors, which it leaves, and takes no batch away. -/
theorem WriterCommit.unanchored {x : Writer} (h : WriterCommit db x db') :
    WriterCommit db.unanchored x db'.unanchored ∧ db'.anchors = db.anchors ∧
      ∀ b ∈ db.batches, b ∈ db'.batches := by
  cases h with
  | record hcommit =>
    refine ⟨.record (commitCall_unanchored hcommit), ?_⟩
    obtain ⟨ts, ps, ks, rfl⟩ := commitCall_eq_ok hcommit
    exact ⟨rfl, fun b hb => hb⟩
  | batch => exact ⟨.batch, rfl, fun b hb => List.mem_append_left _ hb⟩

/-! ## What holds in every interleaving -/

/-- The authority gave the token for the root of the batch. -/
def Stamps (answers : Bytes → String → Prop) (b : Batch) (token : String) : Prop :=
  ∃ bytes, fromHex b.root = .ok bytes ∧ answers bytes token

/-- What holds of the anchors. -/
structure AnchorsOk (answers : Bytes → String → Prop) (db : Db) : Prop where
  once : (db.anchors.map Anchor.batchId).Nodup
  stamped : ∀ a ∈ db.anchors, ∃ b ∈ db.batches, b.id = a.batchId ∧ Stamps answers b a.token

/-- What holds of the committed state. -/
structure AnchoringOk (svc : SigningKeyPair) (answers : Bytes → String → Prop) (db : Db) :
    Prop where
  batching : BatchingOk svc db.unanchored
  anchors : AnchorsOk answers db

/-- What a sweep relies on : its anchors are those of the first batches it read, and could be
committed. -/
structure SweepOk (answers : Bytes → String → Prop) (db : Db) (read : List Batch)
    (placed : List Anchor) : Prop where
  places : placed.map Anchor.batchId = (read.take placed.length).map Batch.id
  view : AnchorsOk answers (db.seeing placed)

/-- What a transaction relies on. -/
def WorkerOk (svc : SigningKeyPair) (answers : Bytes → String → Prop) (db : Db) : Worker → Prop
  | .writer x => WriterOk svc db.unanchored x
  | .sweep read placed => SweepOk answers db read placed

theorem AnchorsOk.later (h : AnchorsOk answers db) (hanchors : db'.anchors = db.anchors)
    (hbatches : ∀ b ∈ db.batches, b ∈ db'.batches) : AnchorsOk answers db' := by
  refine ⟨by rw [hanchors]; exact h.once, fun a ha => ?_⟩
  rw [hanchors] at ha
  obtain ⟨b, hb, hstamps⟩ := h.stamped a ha
  exact ⟨b, hbatches b hb, hstamps⟩

theorem WorkerStart.ok {x : Worker} (hdb : AnchoringOk svc answers db) (h : WorkerStart db x) :
    WorkerOk svc answers db x := by
  cases h with
  | writer hstart => exact WriterStart.ok hdb.batching hstart.unanchored
  | sweep hread => exact ⟨rfl, hdb.anchors.later (List.append_nil _) fun b hb => hb⟩

/-- A view with one more anchor. -/
theorem Db.seeing_concat {placed : List Anchor} {a : Anchor} : db.seeing (placed ++ [a]) =
    { db.seeing placed with anchors := (db.seeing placed).anchors ++ [a] } := by
  simp only [Db.seeing, List.append_assoc]

/-- An anchor that is placed is one of a batch that had none. -/
theorem AnchorsOk.anchorBatch {batchId : Uuid} {fresh : AnchorFresh} {result : AnchorResult}
    {placed : List Anchor} {a : Anchor} (h : AnchorsOk answers (db.seeing placed))
    (hfresh : ∀ bytes token, fresh.answer bytes = .ok token → answers bytes token)
    (hanchor : anchorBatch (db.seeing placed) batchId fresh =
      .ok (db.seeing (placed ++ [a]), result)) :
    a.batchId = batchId ∧ AnchorsOk answers (db.seeing (placed ++ [a])) := by
  obtain ⟨a', hid, hnone, ⟨b, hb, hbid, bytes, hbytes, htoken⟩, hdb⟩ := anchorBatch_eq_ok hanchor
  rw [Db.seeing_concat] at hdb ⊢
  obtain rfl : a = a' := by
    have hsame := List.append_cancel_left (congrArg Db.anchors hdb)
    exact List.head_eq_of_cons_eq hsame
  refine ⟨hid, nodup_map_concat h.once fun x hx => by rw [hid]; exact hnone x hx, fun x hx => ?_⟩
  rcases List.mem_append.mp hx with hx | hx
  · exact h.stamped x hx
  · rw [List.mem_singleton.mp hx]
    exact ⟨b, hb, hbid.trans hid.symm, bytes, hbytes, hfresh bytes a.token htoken⟩

theorem WorkerStatement.ok {x x' : Worker} (hdb : AnchoringOk svc answers db)
    (hx : WorkerOk svc answers db x) (h : WorkerStatement svc answers db x x') :
    WorkerOk svc answers db x' := by
  cases h with
  | writer hstatement => exact WriterStatement.ok hdb.batching hx hstatement.unanchored
  | @anchor read placed batch fresh a result hnext hfresh hanchor =>
    obtain ⟨hplaces, hview⟩ := hx
    obtain ⟨hid, hview'⟩ := hview.anchorBatch hfresh hanchor
    obtain ⟨hlt, hget⟩ := List.getElem?_eq_some_iff.mp hnext
    refine ⟨?_, ?_⟩
    · rw [List.length_append, List.length_singleton, List.take_succ_eq_append_getElem hlt,
        List.map_append, List.map_append, hplaces, hget, List.map_singleton, List.map_singleton,
        hid]
    · exact hview'

/-- A sweep goes on where other anchors were committed in the meantime. -/
theorem SweepOk.seeing {read other : List Batch} {placed placed' : List Anchor}
    (h : SweepOk answers db read placed) (h' : SweepOk answers db other placed')
    (hfree : ∀ a ∈ placed, ∀ b ∈ placed', a.batchId ≠ b.batchId) :
    SweepOk answers (db.seeing placed) other placed' := by
  refine ⟨h'.places, ?_, fun a ha => ?_⟩
  · have honce : ((db.anchors ++ placed).map Anchor.batchId).Nodup := h.view.once
    have honce' : ((db.anchors ++ placed').map Anchor.batchId).Nodup := h'.view.once
    rw [List.map_append] at honce'
    change ((db.anchors ++ placed ++ placed').map Anchor.batchId).Nodup
    rw [List.map_append]
    refine List.nodup_append.mpr ⟨honce, (List.nodup_append.mp honce').2.1, ?_⟩
    intro id hid id' hid' hsame
    obtain ⟨a, ha, rfl⟩ := List.mem_map.mp hid
    obtain ⟨b, hb, rfl⟩ := List.mem_map.mp hid'
    rcases List.mem_append.mp ha with hold | hnew
    · exact (List.nodup_append.mp honce').2.2 _ (List.mem_map_of_mem hold) _ hid' hsame
    · exact hfree a hnew b hb hsame
  · rcases List.mem_append.mp ha with hold | hnew
    · exact h.view.stamped a hold
    · exact h'.view.stamped a (List.mem_append_right _ hnew)

/-- A commit keeps the state, and what the other transactions rely on. -/
theorem WorkerCommit.ok {x : Worker} (hdb : AnchoringOk svc answers db)
    (hx : WorkerOk svc answers db x) (h : WorkerCommit db x db') : AnchoringOk svc answers db' ∧
      ∀ y, WorkerOk svc answers db y → ¬ x.Excludes y → WorkerOk svc answers db' y := by
  cases h with
  | writer hcommit =>
    obtain ⟨hbare, hanchors, hbatches⟩ := hcommit.unanchored
    obtain ⟨hok, hothers⟩ := WriterCommit.ok hdb.batching hx hbare
    refine ⟨⟨hok, hdb.anchors.later hanchors hbatches⟩, fun y hy hfree => ?_⟩
    cases y with
    | writer y => exact hothers y hy hfree
    | sweep read placed =>
      refine ⟨hy.places, hy.view.later ?_ hbatches⟩
      exact congrArg (· ++ placed) hanchors
  | @sweep read placed _ =>
    refine ⟨⟨hdb.batching, hx.view⟩, fun y hy hfree => ?_⟩
    cases y with
    | writer y => exact hy
    | sweep other placed' =>
      refine SweepOk.seeing hx hy fun a ha b hb hsame => hfree ⟨a, ha, b, hb, Or.inl hsame⟩

theorem anchoringOk_of_reachable {w : ReadCommitted.World Db Worker}
    (h : ((anchoring svc answers).system Db.Unrecorded).Reachable w) :
    ReadCommitted.Protocol.Holds (anchoring svc answers) (AnchoringOk svc answers)
      (WorkerOk svc answers) w := by
  refine ReadCommitted.Protocol.invariant (p := anchoring svc answers)
    (I := AnchoringOk svc answers) (J := WorkerOk svc answers)
    (fun db hdb => ⟨⟨?_, ?_⟩, ?_, ?_⟩) (fun hs hx => WorkerStart.ok hs hx)
    (fun hs hx hstep => WorkerStatement.ok hs hx hstep)
    (fun hs hx hcommit => WorkerCommit.ok hs hx hcommit) h
  · exact (Blank.worldOk (w := ⟨db.unanchored, []⟩) ⟨rfl, hdb.traces, hdb.events, hdb.signingKeys,
      hdb.batches, rfl⟩).sound
  · exact Blank.sealed (w := ⟨db.unanchored, []⟩) ⟨rfl, hdb.traces, hdb.events, hdb.signingKeys,
      hdb.batches, rfl⟩
  · have hnone : db.anchors = [] := hdb.anchors
    rw [hnone]
    exact List.nodup_nil
  · have hnone : db.anchors = [] := hdb.anchors
    intro a ha
    rw [hnone] at ha
    cases ha

/-- In every committed state each batch has one anchor at most, with a token that the authority gave
for its root; a sweep that commits leaves no batch that it read without an anchor, and no commit
takes an anchor away. -/
theorem anchors_stamped {w : ReadCommitted.World Db Worker}
    (h : ((anchoring svc answers).system Db.Unrecorded).Reachable w) :
    (w.state.anchors.map Anchor.batchId).Nodup ∧
    (∀ a ∈ w.state.anchors, ∃ b ∈ w.state.batches, b.id = a.batchId ∧
      (∀ x ∈ w.state.batches, x.id = a.batchId → x = b) ∧ Stamps answers b a.token) ∧
    ∀ x ∈ w.running, ∀ db', WorkerCommit w.state x db' →
      (∀ a ∈ w.state.anchors, a ∈ db'.anchors) ∧ ∀ read placed, x = .sweep read placed →
        ∀ b ∈ read, ∃ a ∈ db'.anchors, a.batchId = b.id := by
  have hholds := anchoringOk_of_reachable h
  obtain ⟨hbatching, hanchors⟩ := hholds.state
  refine ⟨hanchors.once, fun a ha => ?_, fun x hx db' hcommit => ?_⟩
  · obtain ⟨b, hb, hid, hstamps⟩ := hanchors.stamped a ha
    exact ⟨b, hb, hid, fun x hx hxid => List.inj_on_of_nodup_map hbatching.sealed.batches_nodup
      hx hb (hxid.trans hid.symm), hstamps⟩
  · cases hcommit with
    | writer hcommit =>
      obtain ⟨-, hsame, -⟩ := hcommit.unanchored
      refine ⟨fun a ha => hsame ▸ ha, ?_⟩
      intro read placed hsweep
      cases hsweep
    | @sweep read placed hall =>
      refine ⟨fun a ha => List.mem_append_left _ ha, ?_⟩
      intro read' placed' hsweep b hb
      obtain ⟨rfl, rfl⟩ := Worker.sweep.inj hsweep
      have hok : SweepOk answers w.state read placed := hholds.running _ hx
      have hids := hok.places
      rw [hall, List.take_length] at hids
      have hmem : b.id ∈ placed.map Anchor.batchId := by
        rw [hids]
        exact List.mem_map_of_mem hb
      obtain ⟨a, ha, hid⟩ := List.mem_map.mp hmem
      exact ⟨a, List.mem_append_right _ ha, hid⟩

/-! ## A sweep on its own -/

/-- The writers go on beside sweeps as they do without. -/
theorem step_writers {w w' : ReadCommitted.World Db Writer} (h : (batching svc).Step w w') :
    (anchoring svc answers).Step ⟨w.state, w.running.map Worker.writer⟩
      ⟨w'.state, w'.running.map Worker.writer⟩ := by
  have hfree {x : Writer} {xs : List Writer} (hx : (batching svc).Free x xs) :
      (anchoring svc answers).Free (.writer x) (xs.map Worker.writer) := by
    intro y hy
    obtain ⟨z, hz, rfl⟩ := List.mem_map.mp hy
    exact hx z hz
  cases h with
  | start hx hxs => exact .start (.writer hx) (hfree hxs)
  | @statement db before after x x' hx hxs =>
    have hxs' := hfree hxs
    rw [List.map_append] at hxs'
    rw [List.map_append, List.map_append, List.map_cons, List.map_cons]
    exact .statement (.writer hx) hxs'
  | commit hx =>
    rw [List.map_append, List.map_append, List.map_cons]
    exact .commit (.writer hx)
  | rollback =>
    rw [List.map_append, List.map_append, List.map_cons]
    exact .rollback

theorem run_writers {w w' : ReadCommitted.World Db Writer}
    (h : ((batching svc).system Db.Unrecorded).Run w w') :
    ((anchoring svc answers).system Db.Unrecorded).Run ⟨w.state, w.running.map Worker.writer⟩
      ⟨w'.state, w'.running.map Worker.writer⟩ := by
  induction h with
  | refl => exact .refl
  | tail _ hstep ih => exact ih.tail (step_writers hstep)

/-- The rest of a sweep that runs on its own. -/
theorem run_sweep {read : List Batch} {batches : List (Batch × AnchorFresh)}
    {placed : List Anchor} {results : List AnchorResult}
    (hrest : read.drop placed.length = batches.map Prod.fst) (hle : placed.length ≤ read.length)
    (hanswers : ∀ p ∈ batches, ∀ bytes token, p.2.answer bytes = .ok token → answers bytes token)
    (hrun : anchorUnanchoredBatches (db.seeing placed) batches = .ok (db', results)) :
    ((anchoring svc answers).system Db.Unrecorded).Run ⟨db, [.sweep read placed]⟩ ⟨db', []⟩ := by
  induction batches generalizing placed results with
  | nil =>
    obtain ⟨rfl, -⟩ := Prod.mk.inj (Except.ok.inj hrun)
    have hall : placed.length = read.length :=
      Nat.le_antisymm hle (List.drop_eq_nil_iff.mp hrest)
    have hcommit : (anchoring svc answers).Step ⟨db, [] ++ .sweep read placed :: []⟩
        ⟨db.seeing placed, [] ++ []⟩ := .commit (.sweep hall)
    exact .single hcommit
  | cons p batches ih =>
    obtain ⟨batch, fresh⟩ := p
    simp only [anchorUnanchoredBatches, Except.bind_eq_ok, Except.pure_eq, Except.ok.injEq] at hrun
    obtain ⟨⟨db₁, result⟩, hanchor, ⟨db₂, later⟩, hlater, hlast⟩ := hrun
    obtain ⟨rfl, -⟩ := Prod.mk.inj hlast
    have hnext : read[placed.length]? = some batch := by
      have hhead := congrArg List.head? hrest
      rwa [List.head?_drop] at hhead
    have hlt : placed.length < read.length := (List.getElem?_eq_some_iff.mp hnext).1
    obtain ⟨a, -, -, -, hdb₁⟩ := anchorBatch_eq_ok hanchor
    rw [← Db.seeing_concat] at hdb₁
    rw [hdb₁] at hanchor hlater
    have hstep : (anchoring svc answers).Step ⟨db, [] ++ .sweep read placed :: []⟩
        ⟨db, [] ++ .sweep read (placed ++ [a]) :: []⟩ :=
      .statement (.anchor hnext (hanswers _ List.mem_cons_self) hanchor) fun y hy => by cases hy
    refine .head hstep (ih ?_ ?_ (fun p hp => hanswers p (List.mem_cons_of_mem _ hp)) hlater)
    · rw [List.length_append, List.length_singleton, ← List.drop_drop, hrest]
      rfl
    · rw [List.length_append, List.length_singleton]
      exact hlt

/-! ## Exports with anchors -/

/-- `anchor_data` of a batch. -/
def Db.anchorData (db : Db) (b : Batch) : Option BundleAnchor :=
  (db.anchors.find? fun a => a.batchId = b.id).map fun a => ⟨a.kind, a.token, a.anchoredAt⟩

/-- The entry of a batch is the one without anchors, with the anchor of the batch. -/
theorem serializeBatch_bare {b : Batch} {ids : List String} {y : BundleBatch}
    (h : serializeBatch db.unanchored b ids = .ok y) :
    serializeBatch db b ids = .ok { y with anchor := db.anchorData b } ∧
      y.batchId = b.id.str ∧ y.root = b.root ∧ y.anchor = none := by
  simp only [serializeBatch, Except.bind_eq_ok, Except.pure_eq, Except.ok.injEq] at h
  obtain ⟨leaves, hleaves, proofs, hproofs, rfl⟩ := h
  have hleaves' : batchLeafHashes db b.eventIds = .ok leaves := hleaves
  refine ⟨?_, rfl, rfl, rfl⟩
  simp only [serializeBatch, hleaves', hproofs, Except.ok_bind', Except.pure_eq]
  rfl

/-- The entries of an export are those without anchors, each with the anchor of its batch. -/
theorem exists_anchored_entries {ids : List String} {batches : List Batch}
    {bare : List BundleBatch}
    (h : List.Forall₂ (fun b y => serializeBatch db.unanchored b ids = .ok y) batches bare) :
    ∃ ys, List.Forall₂ (fun b y => serializeBatch db b ids = .ok y ∧ y.batchId = b.id.str ∧
        y.root = b.root ∧ y.anchor = db.anchorData b) batches ys ∧
      List.Forall₂ (fun x y => x.anchor = none ∧ y = { x with anchor := y.anchor }) bare ys := by
  induction h with
  | nil => exact ⟨[], .nil, .nil⟩
  | @cons b x batches bare hx _ ih =>
    obtain ⟨ys, hys, hbare⟩ := ih
    obtain ⟨hy, hid, hroot, hnone⟩ := serializeBatch_bare hx
    exact ⟨{ x with anchor := db.anchorData b } :: ys, .cons ⟨hy, hid, hroot, rfl⟩ hys,
      .cons ⟨hnone, rfl⟩ hbare⟩

theorem batchesOf_eq {bundle : EvidenceBundle} (h : bundle.batch = soleBatch bundle.batches) :
    Verifier.batchesOf bundle = bundle.batches := by
  unfold Verifier.batchesOf
  split
  · rename_i hempty
    have hnil : bundle.batches = [] := List.isEmpty_iff.mp hempty
    rw [h, hnil]
    rfl
  · rfl

/-- The export without anchors, and the one with them. -/
theorem buildEvidenceBundle_of_bare {orgId : String} {traceId : Uuid} {batches : List Batch}
    {bundle : EvidenceBundle} {ys : List BundleBatch}
    (h : buildEvidenceBundle svc db.unanchored orgId traceId batches = .ok bundle)
    (hys : List.Forall₂ (fun b y => serializeBatch db b
      ((db.eventsForTrace orgId traceId).map fun e => e.id.str) = .ok y) batches ys) :
    buildEvidenceBundle svc db orgId traceId batches =
      .ok { bundle with batches := ys, batch := soleBatch ys } := by
  simp only [buildEvidenceBundle, Except.bind_eq_ok] at h
  obtain ⟨_, haccess, h⟩ := h
  have haccess' : ensureTraceAccess db orgId traceId = .ok _ := haccess
  have hsame : db.unanchored.eventsForTrace orgId traceId = db.eventsForTrace orgId traceId := rfl
  rw [hsame] at h
  by_cases hne : (db.eventsForTrace orgId traceId).isEmpty = true
  · rw [if_pos hne] at h
    cases h
  · rw [if_neg hne] at h
    simp only [Except.bind_eq_ok, Except.pure_eq, Except.ok.injEq] at h
    obtain ⟨r, hr, xs, hxs, _, -, rfl⟩ := h
    have hr' : replayTrace svc db orgId traceId = .ok r := hr
    have hxs' : (db.eventsForTrace orgId traceId).mapM (serializeEvent db orgId) = .ok xs := hxs
    simp only [buildEvidenceBundle, haccess', Except.ok_bind', hr', hxs',
      Except.mapM_eq_ok.mpr hys, Except.pure_eq]
    rw [if_neg hne]

variable [AnchorVerifier]

/-- The verifier does not refuse the tokens of the authority for the bytes they are for. -/
def HonestAuthority (answers : Bytes → String → Prop) : Prop :=
  ∀ root bytes token, fromHex root = .ok bytes → answers bytes token →
    AnchorVerifier.verifyAnchor token root ≠ .failed

/-- An anchor of the table is accepted in the entry of its batch. -/
theorem AnchorsOk.anchorOk (h : AnchorsOk answers db) (hhonest : HonestAuthority answers)
    (hids : (db.batches.map Batch.id).Nodup) {b : Batch} (hb : b ∈ db.batches) {y : BundleBatch}
    (hroot : y.root = b.root) (hanchor : y.anchor = db.anchorData b) :
    Verifier.anchorOk y = true := by
  unfold Verifier.anchorOk
  rw [hanchor, hroot, Db.anchorData]
  cases hfind : db.anchors.find? fun a => a.batchId = b.id with
  | none => rfl
  | some a =>
    have hid : a.batchId = b.id := by simpa using List.find?_some hfind
    obtain ⟨x, hx, hxid, bytes, hbytes, hanswer⟩ :=
      h.stamped a (List.mem_of_find?_eq_some hfind)
    obtain rfl := List.inj_on_of_nodup_map hids hx hb (hxid.trans hid)
    have haccepted := hhonest x.root bytes a.token hbytes hanswer
    simp [haccepted]

/-- The anchor of an entry is no part of its proofs and its signature. -/
theorem batchVerifies_iff_of_anchors {publicPem : String} {xs : List BundleEvent}
    {bare ys : List BundleBatch}
    (h : List.Forall₂ (fun x y => x.anchor = none ∧ y = { x with anchor := y.anchor }) bare ys)
    (hanchors : ∀ y ∈ ys, Verifier.anchorOk y = true) :
    (∀ y ∈ ys, Verifier.BatchVerifies publicPem xs y) ↔
      ∀ x ∈ bare, Verifier.BatchVerifies publicPem xs x := by
  constructor
  · intro hys x hx
    obtain ⟨y, hy, hnone, heq⟩ := exists_of_forall₂ h.flip hx
    have hverifies := hys y hy
    rw [heq] at hverifies
    exact ⟨hverifies.proofs_ok, hverifies.signature_ok, by rw [Verifier.anchorOk, hnone]⟩
  · intro hbare y hy
    obtain ⟨x, hx, -, heq⟩ := exists_of_forall₂ h hy
    have hverifies := hbare x hx
    have hanchor := hanchors y hy
    rw [heq] at hanchor ⊢
    exact ⟨hverifies.proofs_ok, hverifies.signature_ok, hanchor⟩

/-- In every committed state a trace with events is exported with the anchors of its batches, and
the verifier accepts the export exactly where the service signed the events. -/
theorem anchored_export_accepted (hideal : SignatureScheme.Ideal)
    (hhonest : HonestAuthority answers) {w : ReadCommitted.World Db Worker}
    (h : ((anchoring svc answers).system Db.Unrecorded).Reachable w) {t : Trace}
    (ht : t ∈ w.state.traces) (hne : w.state.eventsForTrace t.orgId t.id ≠ [])
    {batches : List Batch}
    (hbatches : BatchesForEvents w.state (w.state.eventsForTrace t.orgId t.id) batches) :
    ∃ bundle, buildEvidenceBundle svc w.state t.orgId t.id batches = .ok bundle ∧
      List.Forall₂ (fun b y => y.batchId = b.id.str ∧ y.root = b.root ∧
        ∀ a ∈ w.state.anchors, a.batchId = b.id →
          y.anchor = some ⟨a.kind, a.token, a.anchoredAt⟩) batches bundle.batches ∧
      (Verifier.verifyBundle bundle = .ok true ↔
        ∀ e ∈ w.state.eventsForTrace t.orgId t.id, e.UnderServiceKey svc w.state) := by
  obtain ⟨hbatching, hanchors⟩ := (anchoringOk_of_reachable h).state
  obtain ⟨bundle, hbundle, hiff⟩ := Sound.buildEvidenceBundle hideal hbatching.sound
    hbatching.sealed ht hne hbatches
  obtain ⟨-, hbare, hsole⟩ := buildEvidenceBundle_eq_ok hbundle
  obtain ⟨ys, hys, hpairs⟩ := exists_anchored_entries hbare
  have hmem (b : Batch) (hb : b ∈ batches) : b ∈ w.state.batches :=
    (List.mem_filter.mp (hbatches.mem_iff.mp hb)).1
  have hok : ∀ y ∈ ys, Verifier.anchorOk y = true := by
    intro y hy
    obtain ⟨b, hb, -, -, hroot, hanchor⟩ := exists_of_forall₂ hys hy
    exact hanchors.anchorOk hhonest hbatching.sealed.batches_nodup (hmem b hb) hroot hanchor
  refine ⟨_, buildEvidenceBundle_of_bare hbundle (hys.imp fun _ _ h => h.1), ?_, ?_⟩
  · refine hys.imp fun b y h => ⟨h.2.1, h.2.2.1, fun a ha hid => ?_⟩
    have hfind : (w.state.anchors.find? fun x => x.batchId = b.id) = some a := by
      rw [← hid]
      exact find?_of_nodup hanchors.once ha
    rw [h.2.2.2, Db.anchorData, hfind]
    rfl
  · rw [Verifier.verifyBundle_eq_true, batchesOf_eq hsole] at hiff
    rw [Verifier.verifyBundle_eq_true, batchesOf_eq rfl]
    exact (and_congr_right fun _ => batchVerifies_iff_of_anchors hpairs hok).trans hiff

end Anchoring

/-! ## One batch and its anchor -/

section Samples

open Sample

/-- An authority with one answer. -/
def sampleAnswers (_ : Bytes) (token : String) : Prop :=
  token = "stamp"

@[reducible] def sampleAuthority : AnchorVerifier :=
  ⟨fun token _ => if token = "stamp" then .bound else .failed⟩

def sampleStamp : AnchorFresh :=
  ⟨fun _ => .ok "stamp", Uuid.ofNat 7, sampleFresh.now, sampleFresh.now⟩

theorem honest_sampleAuthority : @HonestAuthority sampleAuthority sampleAnswers := by
  intro root bytes token _ htoken
  change (if token = "stamp" then AnchorStatus.bound else .failed) ≠ .failed
  obtain rfl : token = "stamp" := htoken
  rw [if_pos rfl]
  decide

/-- An anchor is placed on the one batch of a database. -/
theorem anchorBatch_sample {db : Db} {b : Batch} {bytes : Bytes} (hbatches : db.batches = [b])
    (hanchors : db.anchors = []) (hroot : b.root = Bytes.hex bytes) :
    ∃ a result, anchorBatch db b.id sampleStamp = .ok ({ db with anchors := [a] }, result) := by
  have hbytes : fromHex b.root = .ok bytes := by simp [hroot]
  have htext : textOk "stamp" = true := by decide
  refine ⟨⟨Uuid.ofNat 7, b.id, "rfc3161", "stamp", sampleFresh.now⟩,
    ⟨b.id, Uuid.ofNat 7, "rfc3161", sampleFresh.now⟩, ?_⟩
  simp [anchorBatch, Db.insertAnchor, hbatches, hanchors, hbytes, sampleStamp, require, htext,
    Except.ok_bind', Except.pure_eq]

/-- An event is recorded, a seal makes a batch of it, and a sweep anchors the batch. -/
theorem exists_anchored_sample : ∃ (db : Db) (b : Batch) (a : Anchor) (e : Event),
    ((anchoring sampleKey sampleAnswers).system Db.Unrecorded).Reachable ⟨db, []⟩ ∧
      db.events = [e] ∧ db.signingKeys = [] ∧ db.batches = [b] ∧ db.anchors = [a] := by
  obtain ⟨db, out, hrecord⟩ := exists_recordEvent_sample
  have hrun := @run_batchingRecord _ _ _ sampleKey _ _ _ _ _ hrecord
  obtain ⟨e, _, _, _, hrecords, -, -, hdb⟩ := recordEvent_eq_ok hrecord
  have hevents : db.events = [e] := by
    rw [hdb]
    rfl
  have hbatches : db.batches = [] := by
    rw [hdb]
    rfl
  have hanchors : db.anchors = [] := by
    rw [hdb]
    rfl
  have hunbatched : UnbatchedEvents db [e] := by
    refine ⟨?_, List.pairwise_singleton _ _⟩
    rw [hevents, List.filter_eq_self.mpr fun x hx => by
      simpa [List.mem_singleton.mp hx] using hrecords.batchId_eq]
  have hinit : sampleBlank.Unrecorded := ⟨rfl, rfl, rfl, rfl, rfl, rfl⟩
  have hok : BatchingOk sampleKey db := batchingOk_of_reachable ⟨_, ⟨hinit, rfl⟩, hrun⟩
  have hhash : e.hash = Bytes.hex (sha256 (canonicalBytes e.envelope)) :=
    (hok.sound.signed e (by simp [hevents])).hash_eq
  obtain ⟨root, hroot⟩ : ∃ root, merkleRoot ([e].map Event.hash) = .ok (Bytes.hex root) := by
    rw [List.map_singleton, hhash]
    exact ⟨_, merkleRoot_hex [_]⟩
  obtain ⟨signature, hsign⟩ : ∃ signature, signHex sampleKey.privatePem (Bytes.hex root) =
      .ok signature := ⟨_, signHex_hex sampleKey.isEd25519 root⟩
  have hread : (batching sampleKey).Step ⟨db, []⟩ ⟨db, [.read [e]]⟩ :=
    .start (.read hunbatched) fun y hy => by cases hy
  have hseal : ((batching sampleKey).system Db.Unrecorded).Run ⟨db, [.read [e]]⟩
      ⟨db.addBatch (sampleSeal (Uuid.ofNat 5) e (Bytes.hex root) signature), []⟩ :=
    run_seal (fun y hy => by cases hy) (List.cons_ne_nil e []) hroot hsign (by simp [hbatches])
  obtain ⟨b, hb⟩ : ∃ b, sampleSeal (Uuid.ofNat 5) e (Bytes.hex root) signature = b := ⟨_, rfl⟩
  have hbroot : b.root = Bytes.hex root := by
    rw [← hb]
    rfl
  rw [hb] at hseal
  have hwriters : ((anchoring sampleKey sampleAnswers).system Db.Unrecorded).Run
      ⟨sampleBlank, []⟩ ⟨db.addBatch b, []⟩ := run_writers ((hrun.tail hread).trans hseal)
  have hsealed : (db.addBatch b).batches = [b] := by simp [Db.addBatch, hbatches]
  have hunanchored : UnanchoredBatches (db.addBatch b) [b] := by
    refine ⟨?_, List.pairwise_singleton _ _⟩
    rw [hsealed]
    simp [Db.addBatch, hanchors]
  have hstart : (anchoring sampleKey sampleAnswers).Step ⟨db.addBatch b, []⟩
      ⟨db.addBatch b, [.sweep [b] []]⟩ := .start (.sweep hunanchored) fun y hy => by cases hy
  obtain ⟨a, result, hanchor⟩ := anchorBatch_sample hsealed hanchors hbroot
  have hall : anchorUnanchoredBatches ((db.addBatch b).seeing []) [(b, sampleStamp)] =
      .ok ({ db.addBatch b with anchors := [a] }, [result]) := by
    have hseen : (db.addBatch b).seeing [] = db.addBatch b := by simp [Db.seeing]
    rw [hseen]
    simp only [anchorUnanchoredBatches, hanchor, Except.ok_bind', Except.pure_eq]
  have hsweep : ((anchoring sampleKey sampleAnswers).system Db.Unrecorded).Run
      ⟨db.addBatch b, [.sweep [b] []]⟩ ⟨{ db.addBatch b with anchors := [a] }, []⟩ := by
    refine run_sweep rfl (Nat.zero_le _) (fun p hp bytes token h => ?_) hall
    rw [List.mem_singleton.mp hp] at h
    exact (Except.ok.inj h).symm
  refine ⟨_, b, a, e.assign b.eventIds b.id, ⟨_, ⟨hinit, rfl⟩,
    (hwriters.tail hstart).trans hsweep⟩, ?_, ?_, hsealed, rfl⟩
  · simp [Db.addBatch, hevents]
  · rw [hdb]
    rfl

theorem anchors_stamped_sample : ∃ (db : Db) (b : Batch) (a : Anchor), db.batches = [b] ∧
    db.anchors = [a] ∧ a.batchId = b.id ∧ a.token = "stamp" := by
  obtain ⟨db, b, a, _, hreach, -, -, hbatches, hanchors⟩ := exists_anchored_sample
  obtain ⟨-, hstamped, -⟩ := anchors_stamped hreach
  obtain ⟨x, hx, hid, -, _, -, htoken⟩ := hstamped a (hanchors ▸ List.mem_singleton.mpr rfl)
  rw [hbatches] at hx
  exact ⟨db, b, a, hbatches, hanchors, (List.mem_singleton.mp hx ▸ hid).symm, htoken⟩

/-- The export with the anchor is accepted. -/
theorem anchored_export_accepted_sample : ∃ (db : Db) (t : Trace) (batches : List Batch)
    (bundle : EvidenceBundle), db.anchors ≠ [] ∧
      buildEvidenceBundle sampleKey db t.orgId t.id batches = .ok bundle ∧
      @Verifier.verifyBundle .transparent sampleAuthority bundle = .ok true := by
  obtain ⟨db, b, a, e, hreach, hevents, hkeys, hbatches, hanchors⟩ := exists_anchored_sample
  have hsound := (anchoringOk_of_reachable hreach).state.batching.sound
  obtain ⟨t, ht, he⟩ := hsound.exists_trace
    (by simp [Db.unanchored, hevents] : e ∈ db.unanchored.events)
  obtain ⟨bundle, hbundle, -, haccepted⟩ := @anchored_export_accepted _ _ _ sampleKey sampleAnswers
    sampleAuthority SignatureScheme.ideal_transparent honest_sampleAuthority _ hreach t ht
    (List.ne_nil_of_mem he) _ (List.Perm.refl _)
  refine ⟨db, t, _, bundle, by simp [hanchors], hbundle, haccepted.mpr ?_⟩
  intro x _ keyId _ k hk
  rw [hkeys] at hk
  cases hk

end Samples

end Attest
