import Attest.OrgSigning
import Attest.Lib.Merkle

/-!
# Sealing events into batches

`sealBatch` takes the events of no batch, computes the Merkle root over their hashes,
signs it with the service's key and assigns the events to the new batch. The functions
of `crypto/merkle.py` work on hex texts; over hashes, which are all hex, they are the
trees of `Merkle` with SHA-256 of two concatenated digests as the node
(`merkleRoot_hex`, `verifyMerkleProof_hex`).

A root is the hash of an event, when the batch holds one event, or the SHA-256 of two
digests (`rootOf_cases`, `length_of_mem_merkleInputs`).
-/

namespace Attest

/-! ## Trees over hex texts -/

/-- `_digest(left + right)`. -/
def merkleNode (a b : Bytes) : Bytes :=
  sha256 (a ++ b)

/-- `merkle_root(leaf_hexes)`. -/
def merkleRoot (leafHexes : List String) : Except PyError String := do
  let level ← leafHexes.mapM fromHex
  return Bytes.hex ((Merkle.rootOf merkleNode level).getD (sha256 []))

/-- `merkle_proof(leaf_hexes, index)`, for an index of a leaf. -/
def merkleProof (leafHexes : List String) (index : Nat) : Except PyError (List String) := do
  let level ← leafHexes.mapM fromHex
  return (Merkle.proofOf merkleNode level index).map Bytes.hex

/-- `verify_merkle_proof(leaf_hex, index, proof, root_hex)`. -/
def verifyMerkleProof (leafHex : String) (index : Int) (proof : List String) (rootHex : String) :
    Except PyError Bool := do
  let leaf ← fromHex leafHex
  let siblings ← proof.mapM fromHex
  return Bytes.hex (Merkle.climb merkleNode leaf index siblings) == rootHex

theorem mapM_fromHex_hex (bs : List Bytes) : (bs.map Bytes.hex).mapM fromHex = .ok bs := by
  induction bs with
  | nil => rfl
  | cons b bs ih => simp [fromHex, ih]

theorem merkleRoot_hex (leaves : List Bytes) : merkleRoot (leaves.map Bytes.hex) =
    .ok (Bytes.hex ((Merkle.rootOf merkleNode leaves).getD (sha256 []))) := by
  simp only [merkleRoot, mapM_fromHex_hex, Except.ok_bind', Except.pure_eq]

theorem merkleProof_hex (leaves : List Bytes) (index : Nat) :
    merkleProof (leaves.map Bytes.hex) index =
      .ok ((Merkle.proofOf merkleNode leaves index).map Bytes.hex) := by
  simp only [merkleProof, mapM_fromHex_hex, Except.ok_bind', Except.pure_eq]

theorem verifyMerkleProof_hex (leaf : Bytes) (index : Int) (proof : List Bytes) (root : Bytes) :
    verifyMerkleProof (Bytes.hex leaf) index (proof.map Bytes.hex) (Bytes.hex root) =
      .ok (Merkle.climb merkleNode leaf index proof == root) := by
  have hleaf : fromHex (Bytes.hex leaf) = .ok leaf := by simp
  simp only [verifyMerkleProof, hleaf, mapM_fromHex_hex, Except.ok_bind', Except.pure_eq,
    beq_eq_decide, Bytes.hex_inj]

/-- The proof of a leaf verifies against the root. -/
theorem verifyMerkleProof_merkleProof {leaves : List Bytes} {i : Nat} {x : Bytes}
    (h : leaves[i]? = some x) {root : String} {proof : List String}
    (hroot : merkleRoot (leaves.map Bytes.hex) = .ok root)
    (hproof : merkleProof (leaves.map Bytes.hex) i = .ok proof) :
    verifyMerkleProof (Bytes.hex x) i proof root = .ok true := by
  have hclimb := Merkle.climb_proofOf merkleNode h
  rw [merkleRoot_hex, hclimb, Option.getD_some, Except.ok.injEq] at hroot
  rw [merkleProof_hex, Except.ok.injEq] at hproof
  rw [← hroot, ← hproof, verifyMerkleProof_hex]
  simp

/-- What is hashed on the way to a root. -/
def merkleInputs (leaves : List Bytes) : List Bytes :=
  (Merkle.joinedOf merkleNode leaves).map fun p => p.1 ++ p.2

/-- A root over digests is the one leaf there is, or the digest of an input. -/
theorem rootOf_cases {leaves : List Bytes} {r : Bytes}
    (h : Merkle.rootOf merkleNode leaves = some r) :
    leaves = [r] ∨ ∃ input ∈ merkleInputs leaves, r = sha256 input := by
  rcases Merkle.rootOf_cases merkleNode h with hr | ⟨p, hp, hr⟩
  · exact Or.inl hr
  · exact Or.inr ⟨p.1 ++ p.2, List.mem_map.mpr ⟨p, hp, rfl⟩, hr⟩

/-- Over digests, two digests are hashed at a time. -/
theorem length_of_mem_merkleInputs {leaves : List Bytes} (hall : ∀ x ∈ leaves, x.length = 32)
    {input : Bytes} (h : input ∈ merkleInputs leaves) : input.length = 64 := by
  obtain ⟨p, hp, rfl⟩ := List.mem_map.mp h
  obtain ⟨h₁, h₂⟩ := Merkle.forall_mem_joinedOf merkleNode (P := fun x => x.length = 32)
    (fun a b _ _ => length_sha256 (a ++ b)) hall p hp
  rw [List.length_append, h₁, h₂]

/-! ## Sealing -/

/-- What `unbatched_events(db)` returns : the rows of no batch, oldest first. Rows of
one second come in any order. -/
structure UnbatchedEvents (db : Db) (events : List Event) : Prop where
  perm : List.Perm events (db.events.filter fun e => e.batchId = none)
  sorted : events.Pairwise fun a b => a.createdAt ≤ b.createdAt

/-- `next(iter(org_ids)) if len(org_ids) == 1 else None`. -/
def soleOrg (events : List Event) : Option String :=
  match (events.map Event.orgId).dedup with
  | [orgId] => some orgId
  | _ => none

/-- `assign_events_to_batch(db, event_ids, batch_id)`. -/
def Event.assign (ids : List Uuid) (batchId : Uuid) (e : Event) : Event :=
  if e.id ∈ ids then { e with batchId := some batchId } else e

/-- `_batch_leaf_hashes(db, batch)`, for the ids of the batch. -/
def batchLeafHashes (db : Db) (ids : List Uuid) : Except PyError (List String) :=
  ids.mapM fun id =>
    match db.events.find? fun e => e.id = id with
    | some e => .ok e.hash
    | none => .error (.lookupError "no row was found when one was required")

structure SealedBatchResult where
  batchId : Uuid
  root : String
  signature : String
  eventCount : Nat
deriving DecidableEq

/-- `seal_batch(db)`, over the events the query returned. -/
def sealBatch [SignatureScheme] (svc : SigningKeyPair) (db : Db) (events : List Event)
    (batchId : Uuid) (now : String) : Except PyError (Db × Option SealedBatchResult) := do
  if events.isEmpty then return (db, none)
  else
    let root ← merkleRoot (events.map Event.hash)
    let signature ← signHex svc.privatePem root
    let ids := events.map Event.id
    require (!db.batches.any fun b => b.id = batchId) .integrityError
    return ({ db with
        batches := db.batches ++ [⟨batchId, soleOrg events, root, signature, ids, now⟩]
        events := db.events.map (Event.assign ids batchId) },
      some ⟨batchId, root, signature, events.length⟩)

/-- What sealing did. -/
theorem sealBatch_eq_ok [SignatureScheme] {svc : SigningKeyPair} {db db' : Db}
    {events : List Event} {batchId : Uuid} {now : String} {result : Option SealedBatchResult}
    (h : sealBatch svc db events batchId now = .ok (db', result)) :
    (events = [] ∧ db' = db) ∨ ∃ root signature,
      events ≠ [] ∧ merkleRoot (events.map Event.hash) = .ok root ∧
        signHex svc.privatePem root = .ok signature ∧ (∀ b ∈ db.batches, b.id ≠ batchId) ∧
          db' = { db with
            batches := db.batches ++
              [⟨batchId, soleOrg events, root, signature, events.map Event.id, now⟩]
            events := db.events.map (Event.assign (events.map Event.id) batchId) } := by
  unfold sealBatch at h
  by_cases hempty : events = []
  · left
    simp only [hempty, List.isEmpty_nil, if_true, Except.pure_eq, Except.ok.injEq,
      Prod.mk.injEq] at h
    exact ⟨hempty, h.1.symm⟩
  · right
    rw [if_neg (by simpa using hempty)] at h
    simp only [Except.bind_eq_ok, require_eq_ok, Except.pure_eq, Except.ok.injEq, Prod.mk.injEq,
      Bool.not_eq_true', List.any_eq_false, decide_eq_true_eq] at h
    obtain ⟨root, hroot, signature, hsignature, _, hfresh, rfl, -⟩ := h
    exact ⟨root, signature, hempty, hroot, hsignature, hfresh, rfl⟩

end Attest
