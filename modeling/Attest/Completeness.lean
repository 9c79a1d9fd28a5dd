import Attest.Batching

/-!
# Merkle proofs are complete

The loops of `crypto/merkle.py` and of the standalone verifier, as they run : a level of
odd length is padded with its last digest, neighbours are hashed together, and the index
is halved. The three loops walk one tree : a padded and hashed level is the level above
(`nextLevel_padLevel`), so the root, the proof and the climb are those of `Merkle`
(`Loops.merkleRoot_eq`, `Loops.merkleProof_eq`, `Loops.verifyMerkleProof_eq`).

So the proof of every leaf of every list of digests verifies against the root of the
list, in the service and in the standalone verifier (`merkle_proofs_complete`).
-/

namespace Attest

namespace Loops

/-! ## The loops -/

/-- `if len(level) % 2 == 1: level.append(level[-1])`. -/
def padLevel (level : List Bytes) : List Bytes :=
  if level.length % 2 = 1 then level ++ [level.getLastD []] else level

/-- `[_digest(level[i] + level[i + 1]) for i in range(0, len(level), 2)]`. -/
def nextLevel (level : List Bytes) : List Bytes :=
  (List.range' 0 ((level.length + 1) / 2) 2).map fun i =>
    sha256 (level.getD i [] ++ level.getD (i + 1) [])

theorem length_padLevel (level : List Bytes) :
    (padLevel level).length = (level.length + 1) / 2 * 2 := by
  unfold padLevel
  split
  · rw [List.length_append, List.length_singleton]
    omega
  · omega

theorem length_nextLevel (level : List Bytes) :
    (nextLevel level).length = (level.length + 1) / 2 := by
  rw [nextLevel, List.length_map, List.length_range']

theorem length_nextLevel_padLevel (level : List Bytes) :
    (nextLevel (padLevel level)).length = (level.length + 1) / 2 := by
  rw [length_nextLevel, length_padLevel]
  omega

/-- The `while` of `merkle_root`. -/
def rootLoop (level : List Bytes) : List Bytes :=
  if 1 < level.length then rootLoop (nextLevel (padLevel level)) else level
termination_by level.length
decreasing_by
  rw [length_nextLevel_padLevel]
  omega

/-- `merkle_root(leaf_hexes)`. -/
def merkleRoot (leafHexes : List String) : Except PyError String :=
  if leafHexes.isEmpty then .ok (Bytes.hex (sha256 []))
  else do
    let level ← leafHexes.mapM fromHex
    return Bytes.hex ((rootLoop level).headD [])

/-- The `while` of `merkle_proof`. -/
def proofLoop (level : List Bytes) (idx : Nat) (proof : List String) : List String :=
  if 1 < level.length then
    let siblingIdx := if idx % 2 = 1 then idx - 1 else idx + 1
    proofLoop (nextLevel (padLevel level)) (idx / 2)
      (proof ++ [Bytes.hex ((padLevel level).getD siblingIdx [])])
  else proof
termination_by level.length
decreasing_by
  rw [length_nextLevel_padLevel]
  omega

/-- `merkle_proof(leaf_hexes, index)`. -/
def merkleProof (leafHexes : List String) (index : Int) : Except PyError (List String) :=
  if leafHexes.isEmpty then .ok []
  else if index < 0 ∨ leafHexes.length ≤ index then
    .error (.lookupError ("index " ++ toString index ++ " out of range for " ++
      toString leafHexes.length ++ " leaves"))
  else do
    let level ← leafHexes.mapM fromHex
    return proofLoop level index.toNat []

/-- The `for` of `verify_merkle_proof`, the same in the service and in the standalone
verifier. -/
def climbLoop (current : Bytes) (idx : Int) : List String → Except PyError Bytes
  | [] => .ok current
  | siblingHex :: proof => do
    let sibling ← fromHex siblingHex
    if idx % 2 = 1 then climbLoop (sha256 (sibling ++ current)) (idx / 2) proof
    else climbLoop (sha256 (current ++ sibling)) (idx / 2) proof

/-- `verify_merkle_proof(leaf_hex, index, proof, root_hex)` of `crypto/merkle.py`. -/
def verifyMerkleProof (leafHex : String) (index : Int) (proof : List String) (rootHex : String) :
    Except PyError Bool := do
  let current ← fromHex leafHex
  let top ← climbLoop current index proof
  return Bytes.hex top == rootHex

/-- `verify_merkle_proof(leaf_hex, index, proof, root_hex)` of `bundle/verify.py`. -/
def standaloneVerifyMerkleProof (leafHex : String) (index : Int) (proof : List String)
    (rootHex : String) : Except PyError Bool := do
  let current ← fromHex leafHex
  let top ← climbLoop current index proof
  return Bytes.hex top == rootHex

/-! ## The loops walk a tree -/

/-- Where a digest stands on a padded level, and where its sibling does. -/
theorem getD_padLevel {level : List Bytes} {i : Nat} {x s : Bytes} (hx : level[i]? = some x)
    (hs : Merkle.sibling level i = some s) :
    (padLevel level).getD i [] = x ∧
      (padLevel level).getD (if i % 2 = 1 then i - 1 else i + 1) [] = s := by
  obtain ⟨hi, -⟩ := List.getElem?_eq_some_iff.mp hx
  have hkept {j : Nat} (hj : j < level.length) : (padLevel level)[j]? = level[j]? := by
    unfold padLevel
    split
    · exact List.getElem?_append_left hj
    · rfl
  refine ⟨by rw [List.getD_eq_getElem?_getD, hkept hi, hx, Option.getD_some], ?_⟩
  rw [List.getD_eq_getElem?_getD]
  unfold Merkle.sibling at hs
  by_cases hodd : i % 2 = 1
  · rw [if_pos hodd] at hs ⊢
    rw [hkept (by omega), hs, Option.getD_some]
  · rw [if_neg hodd] at hs ⊢
    by_cases hlast : i + 1 < level.length
    · rw [List.getElem?_eq_getElem hlast, Option.some_or] at hs
      rw [hkept hlast, List.getElem?_eq_getElem hlast, hs, Option.getD_some]
    · -- The last digest of an odd level stands beside its copy.
      have hlen : level.length = i + 1 := by omega
      have hcopy : level.getLastD [] = x := by
        rw [List.getLastD_eq_getLast?, List.getLast?_eq_getElem?, hlen]
        simp [hx]
      rw [List.getElem?_eq_none (by omega), Option.none_or, hx, Option.some.injEq] at hs
      rw [padLevel, if_pos (by omega), ← hlen, List.getElem?_concat_length, Option.getD_some,
        hcopy, hs]

/-- A level that is padded and hashed is the level above. -/
theorem nextLevel_padLevel (level : List Bytes) :
    nextLevel (padLevel level) = Merkle.pairs merkleNode level := by
  refine List.ext_getElem? fun j => ?_
  by_cases hj : j < (level.length + 1) / 2
  · have hx : level[2 * j]? = some level[2 * j] := List.getElem?_eq_getElem (by omega)
    obtain ⟨s, hs, hpair⟩ := Merkle.getElem?_pairs merkleNode level (2 * j) hx
    obtain ⟨hleft, hright⟩ := getD_padLevel hx hs
    have heven : ¬ 2 * j % 2 = 1 := by omega
    have heven' : ¬ ((2 * j : Nat) : Int) % 2 = 1 := by omega
    have hhalf : 2 * j / 2 = j := by omega
    rw [if_neg heven] at hright
    rw [Merkle.join, if_neg heven', hhalf] at hpair
    rw [hpair, nextLevel, List.getElem?_map, List.getElem?_range' (by rw [length_padLevel]; omega)]
    simp only [Option.map_some, Nat.zero_add, hleft, hright, merkleNode]
  · rw [List.getElem?_eq_none (by rw [length_nextLevel_padLevel]; omega),
      List.getElem?_eq_none (by rw [Merkle.length_pairs]; omega)]

theorem length_pairs_le {a b : Bytes} {rest : List Bytes} {fuel : Nat}
    (h : (a :: b :: rest).length ≤ fuel + 1 + 1) :
    (Merkle.pairs merkleNode (a :: b :: rest)).length ≤ fuel + 1 := by
  rw [Merkle.length_pairs]
  simp only [List.length_cons] at h ⊢
  omega

/-- The loop of `merkle_root` ends with the root. -/
theorem rootLoop_eq : ∀ (fuel : Nat) (level : List Bytes), level.length ≤ fuel + 1 →
    (rootLoop level).head? = Merkle.rootFrom merkleNode fuel level
  | fuel, [], _ => by
    rw [rootLoop, if_neg (by simp)]
    cases fuel <;> rfl
  | fuel, [a], _ => by
    rw [rootLoop, if_neg (by simp)]
    cases fuel <;> rfl
  | fuel + 1, a :: b :: rest, h => by
    rw [rootLoop, if_pos (by simp), nextLevel_padLevel, rootLoop_eq fuel _ (length_pairs_le h),
      Merkle.rootFrom]

/-- The loop of `merkle_proof` appends the siblings on the way up. -/
theorem proofLoop_eq : ∀ (fuel : Nat) (level : List Bytes) (i : Nat) (proof : List String),
    level.length ≤ fuel + 1 → i < level.length →
      proofLoop level i proof = proof ++ (Merkle.proofFrom merkleNode fuel level i).map Bytes.hex
  | fuel, [a], i, proof, _, _ => by
    rw [proofLoop, if_neg (by simp)]
    cases fuel <;> simp [Merkle.proofFrom]
  | fuel + 1, a :: b :: rest, i, proof, h, hi => by
    obtain ⟨s, hs, -⟩ := Merkle.getElem?_pairs merkleNode _ i (List.getElem?_eq_getElem hi)
    obtain ⟨-, hsibling⟩ := getD_padLevel (List.getElem?_eq_getElem hi) hs
    have hhalf : i / 2 < (Merkle.pairs merkleNode (a :: b :: rest)).length := by
      rw [Merkle.length_pairs]
      omega
    rw [proofLoop, if_pos (by simp), nextLevel_padLevel,
      proofLoop_eq fuel _ _ _ (length_pairs_le h) hhalf, hsibling]
    simp only [Merkle.proofFrom, hs, Option.toList_some, List.singleton_append, List.map_cons,
      List.append_assoc]

/-- The loop of `verify_merkle_proof` climbs. -/
theorem climbLoop_eq (current : Bytes) (idx : Int) (proof : List String) :
    climbLoop current idx proof =
      (proof.mapM fromHex).map (Merkle.climb merkleNode current idx) := by
  induction proof generalizing current idx with
  | nil => rfl
  | cons siblingHex proof ih =>
    rw [climbLoop, List.mapM_cons]
    cases fromHex siblingHex with
    | error e => rfl
    | ok sibling =>
      simp only [Except.ok_bind', ih]
      cases proof.mapM fromHex with
      | error e => split <;> rfl
      | ok siblings =>
        simp only [Except.map, Except.ok_bind', Except.pure_eq, Merkle.climb, Merkle.join,
          merkleNode]
        split <;> rfl

theorem merkleRoot_eq (leafHexes : List String) :
    merkleRoot leafHexes = Attest.merkleRoot leafHexes := by
  cases leafHexes with
  | nil => rfl
  | cons leafHex rest =>
    rw [merkleRoot, Attest.merkleRoot]
    cases hlevel : (leafHex :: rest).mapM fromHex with
    | error e => rfl
    | ok level =>
      have hne : level ≠ [] := by
        rintro rfl
        cases Except.mapM_eq_ok.mp hlevel
      obtain ⟨r, hr⟩ := Merkle.rootOf_isSome merkleNode hne
      have hloop : (rootLoop level).head? = some r :=
        (rootLoop_eq level.length level (Nat.le_succ _)).trans hr
      simp only [List.isEmpty_cons, Bool.false_eq_true, if_false, Except.ok_bind', Except.pure_eq,
        List.headD_eq_head?_getD, hloop, hr, Option.getD_some]

theorem merkleProof_eq {leafHexes : List String} {i : Nat} (hi : i < leafHexes.length) :
    merkleProof leafHexes i = Attest.merkleProof leafHexes i := by
  have hne : leafHexes.isEmpty = false := by
    cases leafHexes with
    | nil => cases hi
    | cons _ _ => rfl
  rw [merkleProof, hne, if_neg Bool.false_ne_true, if_neg (by omega), Attest.merkleProof]
  cases hlevel : leafHexes.mapM fromHex with
  | error e => rfl
  | ok level =>
    have hlen : level.length = leafHexes.length := (Except.mapM_eq_ok.mp hlevel).length_eq.symm
    simp only [Except.ok_bind', Except.pure_eq, Int.toNat_natCast, Merkle.proofOf,
      proofLoop_eq level.length level i [] (Nat.le_succ _) (by omega), List.nil_append]

theorem verifyMerkleProof_eq (leafHex : String) (index : Int) (proof : List String)
    (rootHex : String) : verifyMerkleProof leafHex index proof rootHex =
      Attest.verifyMerkleProof leafHex index proof rootHex := by
  rw [verifyMerkleProof, Attest.verifyMerkleProof]
  cases fromHex leafHex with
  | error e => rfl
  | ok leaf =>
    simp only [Except.ok_bind', climbLoop_eq]
    cases proof.mapM fromHex <;> rfl

theorem standaloneVerifyMerkleProof_eq (leafHex : String) (index : Int) (proof : List String)
    (rootHex : String) : standaloneVerifyMerkleProof leafHex index proof rootHex =
      Attest.verifyMerkleProof leafHex index proof rootHex :=
  verifyMerkleProof_eq leafHex index proof rootHex

end Loops

/-! ## Completeness -/

/-- The hex text of a digest, in lower case. -/
def IsDigestHex (text : String) : Prop :=
  text.length = 64 ∧ ∀ c ∈ text.toList, Bytes.isHexDigit c = true

theorem isDigestHex_hex {b : Bytes} (h : b.length = 32) : IsDigestHex (Bytes.hex b) := by
  have hdigits : ∀ b : Bytes, ∀ c ∈ Bytes.hexChars b, Bytes.isHexDigit c = true := by
    intro b
    induction b with
    | nil => simp [Bytes.hexChars]
    | cons x b ih =>
      have hx : x.toNat < 256 := x.toNat_lt
      simp only [Bytes.hexChars, List.forall_mem_cons]
      exact ⟨Bytes.isHexDigit_hexDigit (by omega), Bytes.isHexDigit_hexDigit (by omega), ih⟩
  refine ⟨?_, ?_⟩
  · rw [Bytes.hex, String.length_ofList, Bytes.length_hexChars, h]
  · rw [Bytes.hex, String.toList_ofList]
    exact hdigits b

theorem exists_of_digests : ∀ {leaves : List String}, (∀ leaf ∈ leaves, IsDigestHex leaf) →
    ∃ bs : List Bytes, bs.map Bytes.hex = leaves
  | [], _ => ⟨[], rfl⟩
  | leaf :: leaves, h => by
    obtain ⟨hlen, hdigits⟩ := h leaf List.mem_cons_self
    obtain ⟨b, -, rfl⟩ := Bytes.exists_hex (n := 32) hlen hdigits
    obtain ⟨bs, rfl⟩ := exists_of_digests fun x hx => h x (List.mem_cons_of_mem _ hx)
    exact ⟨b :: bs, rfl⟩
/-- Every proof verifies. Over a list of digests in lower-case hex, the proof of each
leaf verifies against the root, by both copies of the check. -/
theorem merkle_proofs_complete (leaves : List String) (hleaves : ∀ leaf ∈ leaves, IsDigestHex leaf)
    (i : Nat) (hi : i < leaves.length) :
    ∃ root proof, Loops.merkleRoot leaves = .ok root ∧ Loops.merkleProof leaves i = .ok proof ∧
      Loops.verifyMerkleProof leaves[i] i proof root = .ok true ∧
      Loops.standaloneVerifyMerkleProof leaves[i] i proof root = .ok true := by
  obtain ⟨bs, rfl⟩ := exists_of_digests hleaves
  have hlen : i < bs.length := by rwa [List.length_map] at hi
  have hroot := merkleRoot_hex bs
  have hproof := merkleProof_hex bs i
  have hverifies := verifyMerkleProof_merkleProof (List.getElem?_eq_getElem hlen) hroot hproof
  refine ⟨_, _, (Loops.merkleRoot_eq _).trans hroot, (Loops.merkleProof_eq hi).trans hproof, ?_, ?_⟩
  · rw [Loops.verifyMerkleProof_eq, List.getElem_map, hverifies]
  · rw [Loops.standaloneVerifyMerkleProof_eq, List.getElem_map, hverifies]

/-- Three times one digest. -/
theorem merkle_proofs_complete_sample :
    ∃ root proof, Loops.merkleRoot (List.replicate 3 (Bytes.hex (sha256 []))) = .ok root ∧
      Loops.merkleProof (List.replicate 3 (Bytes.hex (sha256 []))) 2 = .ok proof ∧
      Loops.verifyMerkleProof (Bytes.hex (sha256 [])) 2 proof root = .ok true ∧
      Loops.standaloneVerifyMerkleProof (Bytes.hex (sha256 [])) 2 proof root = .ok true :=
  merkle_proofs_complete (List.replicate 3 (Bytes.hex (sha256 [])))
    (fun leaf hleaf => List.eq_of_mem_replicate hleaf ▸ isDigestHex_hex (length_sha256 [])) 2
    (by simp)

end Attest
