import Attest.Bundle

/-!
# What a Merkle proof proves

A batch root commits to the hashes of the batch : as long as no hashed texts collide, a
proof that verifies against it starts from one of its leaves, at its place
(`verifyMerkleProof_sound`), and lists without repetition have a root of their own
(`merkleRoot_inj`). Leaves and inner nodes are digests of the same function, and are told
apart by the length of what was hashed.

The verifier checks the proofs a bundle lists. So an accepted bundle proves that its
sealed events are in their batches exactly where it lists a proof for each of them
(`Verifier.provesInclusion_iff`).
-/

namespace Attest

/-! ## Proofs and roots over digests -/

/-- The hex text of a digest. -/
def digestHex (text : Bytes) : String :=
  Bytes.hex (sha256 text)

/-- What is hashed on a climb. -/
def climbInputs (leaf : Bytes) (index : Int) (siblings : List Bytes) : List Bytes :=
  (Merkle.climbed merkleNode leaf index siblings).map fun p => p.1 ++ p.2

theorem map_digestHex (texts : List Bytes) :
    texts.map digestHex = (texts.map sha256).map Bytes.hex := by
  rw [List.map_map]
  rfl

/-- On a climb over digests two digests are hashed at a time. -/
theorem length_of_mem_climbed : ∀ {leaf : Bytes} {index : Int} {siblings : List Bytes},
    leaf.length = 32 → (∀ s ∈ siblings, s.length = 32) →
      ∀ p ∈ Merkle.climbed merkleNode leaf index siblings, p.1.length = 32 ∧ p.2.length = 32
  | _, _, [], _, _, p, hp => by simp [Merkle.climbed] at hp
  | leaf, index, s :: siblings, hleaf, hsiblings, p, hp => by
    have hs := hsiblings s List.mem_cons_self
    rcases List.mem_cons.mp hp with rfl | hp
    · split
      · exact ⟨hs, hleaf⟩
      · exact ⟨hleaf, hs⟩
    · refine length_of_mem_climbed ?_ (fun t ht => hsiblings t (List.mem_cons_of_mem _ ht)) p hp
      unfold Merkle.join
      split
      · exact length_sha256 _
      · exact length_sha256 _

/-- Pairs of digests with one node are equal, where what is hashed of them does not
collide. -/
theorem merkleNode_inj {S : Set Bytes} (hS : CollisionFreeOn S) {p q : Bytes × Bytes}
    (hp : p.1 ++ p.2 ∈ S) (hq : q.1 ++ q.2 ∈ S) (hlen : p.1.length = q.1.length)
    (h : merkleNode p.1 p.2 = merkleNode q.1 q.2) : p = q := by
  obtain ⟨h₁, h₂⟩ := List.append_inj (hS.eq hp hq h) hlen
  exact Prod.ext h₁ h₂

/-- A text of another length than two digests has the digest of no node. -/
theorem ne_merkleNode {S : Set Bytes} (hS : CollisionFreeOn S) {text : Bytes} {p : Bytes × Bytes}
    (htext : text ∈ S) (hlen : text.length ≠ 64) (hp : p.1 ++ p.2 ∈ S)
    (h₁ : p.1.length = 32) (h₂ : p.2.length = 32) : sha256 text ≠ merkleNode p.1 p.2 := by
  intro h
  rw [hS.eq htext hp h, List.length_append] at hlen
  omega

theorem rootOf_digests {texts : List Bytes} (hne : texts ≠ []) :
    ∃ r, Merkle.rootOf merkleNode (texts.map sha256) = some r :=
  Merkle.rootOf_isSome merkleNode (by simpa using hne)

/-- The root over the digests of some texts. -/
theorem merkleRoot_digests {texts : List Bytes} (hne : texts ≠ []) {root : String}
    (h : merkleRoot (texts.map digestHex) = .ok root) :
    ∃ r, Merkle.rootOf merkleNode (texts.map sha256) = some r ∧ root = Bytes.hex r := by
  obtain ⟨r, hr⟩ := rootOf_digests hne
  rw [map_digestHex, merkleRoot_hex, hr] at h
  exact ⟨r, hr, (Except.ok.inj h).symm⟩

theorem length_of_mem_joined {texts : List Bytes} :
    ∀ p ∈ Merkle.joinedOf merkleNode (texts.map sha256), p.1.length = 32 ∧ p.2.length = 32 := by
  refine Merkle.forall_mem_joinedOf merkleNode (P := fun x => x.length = 32)
    (fun a b _ _ => length_sha256 (a ++ b)) fun x hx => ?_
  obtain ⟨text, -, rfl⟩ := List.mem_map.mp hx
  exact length_sha256 text

/-- A proof that verifies starts from a leaf, and from the one at its index where there
is one. -/
theorem verifyMerkleProof_sound {texts siblings : List Bytes} {text : Bytes} {index : Int}
    {proof : List String} {root : String} (hne : texts ≠ []) (hlen : ∀ t ∈ texts, t.length ≠ 64)
    (hlen' : text.length ≠ 64) (hproof : proof.mapM fromHex = .ok siblings)
    (hdigests : ∀ s ∈ siblings, s.length = 32)
    (hfree : CollisionFreeOn {b | b = text ∨ b ∈ texts ∨ b ∈ merkleInputs (texts.map sha256) ∨
      b ∈ climbInputs (sha256 text) index siblings})
    (hroot : merkleRoot (texts.map digestHex) = .ok root)
    (h : verifyMerkleProof (digestHex text) index proof root = .ok true) :
    digestHex text ∈ texts.map digestHex ∧ (0 ≤ index → index < texts.length →
      (texts.map digestHex)[index.toNat]? = some (digestHex text)) := by
  obtain ⟨r, hr, rfl⟩ := merkleRoot_digests hne hroot
  have hclimb : Merkle.climb merkleNode (sha256 text) index siblings = r := by
    have hleaf : fromHex (digestHex text) = .ok (sha256 text) := by simp [digestHex]
    simp only [verifyMerkleProof, hleaf, hproof, Except.ok_bind', Except.pure_eq, Except.ok.injEq,
      beq_iff_eq] at h
    exact Bytes.hex_injective h
  have hjoined (p : Bytes × Bytes) (hp : p ∈ Merkle.joinedOf merkleNode (texts.map sha256)) :
      p.1 ++ p.2 ∈ merkleInputs (texts.map sha256) := List.mem_map.mpr ⟨p, hp, rfl⟩
  have hclimbed (q : Bytes × Bytes)
      (hq : q ∈ Merkle.climbed merkleNode (sha256 text) index siblings) :
      q.1 ++ q.2 ∈ climbInputs (sha256 text) index siblings := List.mem_map.mpr ⟨q, hq, rfl⟩
  have hlengths : ∀ q ∈ Merkle.climbed merkleNode (sha256 text) index siblings,
      q.1.length = 32 ∧ q.2.length = 32 :=
    length_of_mem_climbed (length_sha256 text) hdigests
  obtain ⟨hmem, hplace⟩ : sha256 text ∈ texts.map sha256 ∧ (0 ≤ index →
      index < (texts.map sha256).length → (texts.map sha256)[index.toNat]? = some (sha256 text)) :=
    Merkle.mem_of_climb merkleNode
    (fun p hp q hq hnode => merkleNode_inj hfree (Or.inr (Or.inr (Or.inl (hjoined p hp))))
      (Or.inr (Or.inr (Or.inr (hclimbed q hq))))
      ((length_of_mem_joined p hp).1.trans (hlengths q hq).1.symm) hnode)
    (fun y hy q hq => by
      obtain ⟨t, ht, rfl⟩ := List.mem_map.mp hy
      exact ne_merkleNode hfree (Or.inr (Or.inl ht)) (hlen t ht)
        (Or.inr (Or.inr (Or.inr (hclimbed q hq)))) (hlengths q hq).1 (hlengths q hq).2)
    (fun p hp => ne_merkleNode hfree (Or.inl rfl) hlen' (Or.inr (Or.inr (Or.inl (hjoined p hp))))
      (length_of_mem_joined p hp).1 (length_of_mem_joined p hp).2)
    (hclimb.symm ▸ hr)
  rw [map_digestHex]
  refine ⟨List.mem_map_of_mem hmem, fun hpos hlt => ?_⟩
  rw [List.getElem?_map, hplace hpos (by simpa using hlt)]
  rfl

/-- Two texts and their digests, for samples. -/
def sampleTexts : List Bytes := [[1], [2]]

theorem collisionFree_sampleTexts :
    CollisionFreeOn {b | b ∈ [[1], [2], sha256 [1] ++ sha256 [2]]} :=
  collisionFreeOn_of_nodup (by decide +kernel) fun _ hb => hb

theorem verifyMerkleProof_sound_sample : ∃ root,
    merkleRoot (sampleTexts.map digestHex) = .ok root ∧
      verifyMerkleProof (digestHex [1]) 0 [digestHex [2]] root = .ok true ∧
        digestHex [1] ∈ sampleTexts.map digestHex := by
  have hproof : [digestHex [2]].mapM fromHex = .ok [sha256 [2]] := mapM_fromHex_hex [sha256 [2]]
  have hroot : merkleRoot (sampleTexts.map digestHex) =
      .ok (Bytes.hex (merkleNode (sha256 [1]) (sha256 [2]))) := by
    rw [map_digestHex, merkleRoot_hex]
    rfl
  have hverify : verifyMerkleProof (digestHex [1]) 0 [digestHex [2]]
      (Bytes.hex (merkleNode (sha256 [1]) (sha256 [2]))) = .ok true := by
    have hclimb : (Merkle.climb merkleNode (sha256 [1]) 0 [sha256 [2]] ==
        merkleNode (sha256 [1]) (sha256 [2])) = true := beq_iff_eq.mpr rfl
    exact (verifyMerkleProof_hex _ _ [sha256 [2]] _).trans (congrArg Except.ok hclimb)
  refine ⟨_, hroot, hverify, (verifyMerkleProof_sound (by simp [sampleTexts])
    (by simp [sampleTexts]) (by simp) hproof (by simp [length_sha256]) ?_ hroot hverify).1⟩
  refine collisionFree_sampleTexts.mono ?_
  rintro b (rfl | hb | hb | hb)
  · simp
  · simp only [sampleTexts, List.mem_cons, List.not_mem_nil, or_false] at hb
    rcases hb with rfl | rfl <;> simp
  · obtain rfl := List.mem_singleton.mp (show b ∈ [sha256 [1] ++ sha256 [2]] from hb)
    simp
  · obtain rfl := List.mem_singleton.mp (show b ∈ [sha256 [1] ++ sha256 [2]] from hb)
    simp

/-- Lists of digests without repetition that have one root are one list. -/
theorem merkleRoot_inj {texts texts' : List Bytes} (hne : texts ≠ []) (hne' : texts' ≠ [])
    (hlen : ∀ t ∈ texts, t.length ≠ 64) (hlen' : ∀ t ∈ texts', t.length ≠ 64)
    (hnodup : (texts.map digestHex).Nodup) (hnodup' : (texts'.map digestHex).Nodup)
    (hfree : CollisionFreeOn {b | b ∈ texts ∨ b ∈ texts' ∨ b ∈ merkleInputs (texts.map sha256) ∨
      b ∈ merkleInputs (texts'.map sha256)})
    (h : merkleRoot (texts.map digestHex) = merkleRoot (texts'.map digestHex)) :
    texts.map digestHex = texts'.map digestHex := by
  obtain ⟨r, hr⟩ := rootOf_digests hne
  obtain ⟨r', hr'⟩ := rootOf_digests hne'
  have hsame : r = r' := by
    rw [map_digestHex, map_digestHex, merkleRoot_hex, merkleRoot_hex, hr, hr'] at h
    exact Bytes.hex_injective (Except.ok.inj h)
  subst hsame
  have hinput (p : Bytes × Bytes) (hp : p ∈ Merkle.joinedOf merkleNode (texts.map sha256) ∨
      p ∈ Merkle.joinedOf merkleNode (texts'.map sha256)) :
      (p.1 ++ p.2 ∈ merkleInputs (texts.map sha256) ∨
        p.1 ++ p.2 ∈ merkleInputs (texts'.map sha256)) ∧ p.1.length = 32 ∧ p.2.length = 32 := by
    rcases hp with hp | hp
    · exact ⟨Or.inl (List.mem_map.mpr ⟨p, hp, rfl⟩), length_of_mem_joined p hp⟩
    · exact ⟨Or.inr (List.mem_map.mpr ⟨p, hp, rfl⟩), length_of_mem_joined p hp⟩
  rw [map_digestHex] at hnodup hnodup'
  rw [map_digestHex, map_digestHex]
  congr 1
  refine Merkle.eq_of_rootOf_eq merkleNode (hnodup.of_map _) (hnodup'.of_map _) ?_ ?_ ?_ hr hr'
  · intro p hp q hq hnode
    obtain ⟨hpin, hplen, -⟩ := hinput p hp
    obtain ⟨hqin, hqlen, -⟩ := hinput q hq
    exact merkleNode_inj hfree (Or.inr (Or.inr hpin)) (Or.inr (Or.inr hqin))
      (hplen.trans hqlen.symm) hnode
  · intro x hx p hp
    obtain ⟨t, ht, rfl⟩ := List.mem_map.mp hx
    obtain ⟨hpin, h₁, h₂⟩ := hinput p (Or.inr hp)
    exact ne_merkleNode hfree (Or.inl ht) (hlen t ht) (Or.inr (Or.inr hpin)) h₁ h₂
  · intro y hy p hp
    obtain ⟨t, ht, rfl⟩ := List.mem_map.mp hy
    obtain ⟨hpin, h₁, h₂⟩ := hinput p (Or.inl hp)
    exact ne_merkleNode hfree (Or.inr (Or.inl ht)) (hlen' t ht) (Or.inr (Or.inr hpin)) h₁ h₂

theorem merkleRoot_inj_sample : merkleRoot (sampleTexts.map digestHex) =
    merkleRoot (sampleTexts.map digestHex) ∧
      sampleTexts.map digestHex = sampleTexts.map digestHex := by
  have hnodup : (sampleTexts.map digestHex).Nodup := by
    rw [map_digestHex]
    exact List.Nodup.map Bytes.hex_injective (show (sampleTexts.map sha256).Nodup by decide +kernel)
  refine ⟨rfl, merkleRoot_inj (by simp [sampleTexts]) (by simp [sampleTexts])
    (by simp [sampleTexts]) (by simp [sampleTexts]) hnodup hnodup ?_ rfl⟩
  refine collisionFree_sampleTexts.mono ?_
  have htexts (b : Bytes) (hb : b ∈ sampleTexts) : b ∈ [[1], [2], sha256 [1] ++ sha256 [2]] := by
    simp only [sampleTexts, List.mem_cons, List.not_mem_nil, or_false] at hb
    rcases hb with rfl | rfl <;> simp
  have hinputs (b : Bytes) (hb : b ∈ merkleInputs (sampleTexts.map sha256)) :
      b ∈ [[1], [2], sha256 [1] ++ sha256 [2]] := by
    obtain rfl := List.mem_singleton.mp (show b ∈ [sha256 [1] ++ sha256 [2]] from hb)
    simp
  rintro b (hb | hb | hb | hb)
  · exact htexts b hb
  · exact htexts b hb
  · exact hinputs b hb
  · exact hinputs b hb

/-! ## Sealed events of a bundle -/

/-- One climb is along what two leaves share, so it ends in one place for one leaf. -/
theorem leaf_eq_of_climb {S : Set Bytes} (hS : CollisionFreeOn S) {leaf leaf' : Bytes} {index : Int}
    {siblings : List Bytes} (h : ∀ b ∈ climbInputs leaf index siblings, b ∈ S)
    (h' : ∀ b ∈ climbInputs leaf' index siblings, b ∈ S)
    (hclimb : Merkle.climb merkleNode leaf index siblings =
      Merkle.climb merkleNode leaf' index siblings) : leaf = leaf' := by
  refine Merkle.climb_inj merkleNode ?_ ?_ hclimb
  · intro s a b ha hb hnode
    exact List.append_cancel_left
      (hS.eq (h _ (List.mem_map.mpr ⟨_, ha, rfl⟩)) (h' _ (List.mem_map.mpr ⟨_, hb, rfl⟩)) hnode)
  · intro s a b ha hb hnode
    exact List.append_cancel_right
      (hS.eq (h _ (List.mem_map.mpr ⟨_, ha, rfl⟩)) (h' _ (List.mem_map.mpr ⟨_, hb, rfl⟩)) hnode)

namespace Verifier

/-- The bundle proves that the event is in this batch : under the signed root of a batch
of this id, at the event's index. -/
def ProvesInclusion [SignatureScheme] (bundle : EvidenceBundle) (e : BundleEvent)
    (batchId : String) : Prop :=
  ∃ b ∈ batchesOf bundle, b.batchId = batchId ∧
    verifyHex bundle.publicKeyPem b.root b.signature = .ok true ∧
    ∃ (index : Nat) (proof : List String), b.eventIds.idxOf? e.id = some index ∧
      (e.id, proof) ∈ b.merkleProofs ∧ verifyMerkleProof e.hash index proof b.root = .ok true

/-- A batch of this id lists a proof under the event's id, and the last event of the
bundle with that id has the event's hash. -/
def ListsProof (bundle : EvidenceBundle) (e : BundleEvent) (batchId : String) : Prop :=
  (∃ b ∈ batchesOf bundle, b.batchId = batchId ∧ ∃ proof, (e.id, proof) ∈ b.merkleProofs) ∧
    (eventById bundle.events e.id).map BundleEvent.hash = some e.hash

/-- What is hashed on the way up the proofs of a bundle, from the hash of any event. -/
def proofInputs (bundle : EvidenceBundle) : Set Bytes :=
  {input | ∃ b ∈ batchesOf bundle, ∃ p ∈ b.merkleProofs, ∃ e ∈ bundle.events,
    ∃ (leaf : Bytes) (siblings : List Bytes) (index : Nat), fromHex e.hash = .ok leaf ∧
      p.2.mapM fromHex = .ok siblings ∧ b.eventIds.idxOf? p.1 = some index ∧
        input ∈ climbInputs leaf index siblings}

theorem exists_eventById {events : List BundleEvent} {e : BundleEvent} (he : e ∈ events) :
    ∃ x ∈ events, x.id = e.id ∧ eventById events e.id = some x := by
  obtain ⟨x, hx⟩ : ∃ x, eventById events e.id = some x := by
    rw [← Option.isSome_iff_exists, eventById, List.find?_isSome]
    exact ⟨e, by simpa using he, by simp⟩
  exact ⟨x, by simpa using List.mem_of_find?_eq_some hx, by simpa using List.find?_some hx, hx⟩

theorem verifyMerkleProof_eq_true {leafHex rootHex : String} {index : Int} {proof : List String} :
    verifyMerkleProof leafHex index proof rootHex = .ok true ↔ ∃ leaf siblings,
      fromHex leafHex = .ok leaf ∧ proof.mapM fromHex = .ok siblings ∧
        Bytes.hex (Merkle.climb merkleNode leaf index siblings) = rootHex := by
  simp only [verifyMerkleProof, Except.bind_eq_ok, Except.pure_eq, Except.ok.injEq, beq_iff_eq]
  constructor
  · rintro ⟨leaf, hleaf, siblings, hsiblings, hroot⟩
    exact ⟨leaf, siblings, hleaf, hsiblings, hroot⟩
  · rintro ⟨leaf, siblings, hleaf, hsiblings, hroot⟩
    exact ⟨leaf, hleaf, siblings, hsiblings, hroot⟩

variable [SignatureScheme] [AnchorVerifier]

/-- An accepted bundle proves the inclusion of every sealed event exactly where it lists
a proof for each. -/
theorem provesInclusion_iff {bundle : EvidenceBundle} (h : verifyBundle bundle = .ok true)
    (hfree : CollisionFreeOn (proofInputs bundle)) :
    (∀ e ∈ bundle.events, ∀ batchId, e.batchId = some batchId →
      ProvesInclusion bundle e batchId) ↔
    ∀ e ∈ bundle.events, ∀ batchId, e.batchId = some batchId → ListsProof bundle e batchId := by
  obtain ⟨⟨hevents, -⟩, hbatches⟩ := verifyBundle_eq_true.mp h
  constructor
  · intro hproves e he batchId hbatchId
    obtain ⟨b, hb, hid, -, index, proof, hindex, hlisted, hverify⟩ := hproves e he batchId hbatchId
    refine ⟨⟨b, hb, hid, proof, hlisted⟩, ?_⟩
    obtain ⟨x, hx, hxid, hfound⟩ := exists_eventById he
    have hproof := (hbatches b hb).proofs_ok _ hlisted
    have hleafHash : leafHash bundle.events b e.id = some x.hash := by rw [leafHash, hfound]
    rw [verifyProof_eq hindex hleafHash] at hproof
    obtain ⟨leaf, siblings, hleaf, hsiblings, hroot⟩ := verifyMerkleProof_eq_true.mp hverify
    obtain ⟨leaf', siblings', hleaf', hsiblings', hroot'⟩ := verifyMerkleProof_eq_true.mp hproof
    obtain rfl := Except.ok.inj (hsiblings.symm.trans hsiblings')
    have hinputs {y : BundleEvent} (hy : y ∈ bundle.events) {l : Bytes}
        (hl : fromHex y.hash = .ok l) :
        ∀ input ∈ climbInputs l index siblings, input ∈ proofInputs bundle := fun input hinput =>
      ⟨b, hb, _, hlisted, y, hy, l, siblings, index, hl, hsiblings, hindex, hinput⟩
    have hsame : leaf = leaf' := leaf_eq_of_climb hfree (hinputs he hleaf) (hinputs hx hleaf')
      (Bytes.hex_injective (hroot.trans hroot'.symm))
    -- Both hashes were computed, so their texts are equal with the digests.
    have htext (y : BundleEvent) (hy : y ∈ bundle.events) {l : Bytes}
        (hl : fromHex y.hash = .ok l) : y.hash = Bytes.hex l := by
      have hhash := (hevents y hy).hash_eq
      rw [hhash, fromHex_eq_ok, fromHex_sha256Hex, Option.some.injEq] at hl
      rw [hhash, ← hl]
      rfl
    rw [hfound, Option.map_some, htext x hx hleaf', htext e he hleaf, hsame]
  · intro hlists e he batchId hbatchId
    obtain ⟨⟨b, hb, hid, proof, hlisted⟩, hhash⟩ := hlists e he batchId hbatchId
    refine ⟨b, hb, hid, (hbatches b hb).signature_ok, ?_⟩
    obtain ⟨x, hx, hxid, hfound⟩ := exists_eventById he
    have hproof := (hbatches b hb).proofs_ok _ hlisted
    rw [hfound, Option.map_some, Option.some.injEq] at hhash
    have hleafHash : leafHash bundle.events b e.id = some e.hash := by
      rw [leafHash, hfound, ← hhash]
    cases hindex : b.eventIds.idxOf? e.id with
    | none => simp [verifyProof, hindex] at hproof
    | some index =>
      rw [verifyProof_eq hindex hleafHash] at hproof
      exact ⟨index, proof, rfl, hlisted, hproof⟩

end Verifier

/-! ## A sealed event without a proof -/

/-- The event of the sample, as one of a batch. -/
def sampleSealedEvent : BundleEvent :=
  @BundleEvent.signedWith .transparent "service" { sampleBundleEvent with batchId := some "batch" }

/-- A bundle that says its event was sealed, with these batches. -/
def sampleSealedBundle (batches : List BundleBatch) : EvidenceBundle :=
  { sampleBundle with events := [sampleSealedEvent], batches := batches }

theorem eventVerifies_sampleSealedEvent :
    @Verifier.EventVerifies .transparent "service" sampleSealedEvent :=
  @Verifier.eventVerifies_signedWith .transparent SignatureScheme.ideal_transparent "service"
    rfl { sampleBundleEvent with batchId := some "batch" } rfl

theorem verifyEvents_sampleSealedBundle {batches : List BundleBatch} :
    (∀ e ∈ (sampleSealedBundle batches).events,
      @Verifier.EventVerifies .transparent (sampleSealedBundle batches).publicKeyPem e) ∧
    HashChain.Linked BundleEvent.hash BundleEvent.prevHash none
      (sampleSealedBundle batches).events := by
  refine ⟨fun e he => ?_, rfl, trivial⟩
  rw [List.mem_singleton.mp he]
  exact eventVerifies_sampleSealedEvent

/-- Without batches the bundle is accepted all the same. -/
theorem sealed_event_unproved : ¬ ∀ bundle, @Verifier.verifyBundle .transparent .absent bundle =
    .ok true → ∀ e ∈ bundle.events, ∀ batchId, e.batchId = some batchId →
      @Verifier.ProvesInclusion .transparent bundle e batchId := by
  intro hclaim
  have haccepted : @Verifier.verifyBundle .transparent .absent (sampleSealedBundle []) =
      .ok true := by
    rw [@Verifier.verifyBundle_eq_true .transparent .absent]
    exact ⟨verifyEvents_sampleSealedBundle, by
      simp [Verifier.batchesOf, sampleSealedBundle, sampleBundle]⟩
  obtain ⟨b, hb, -⟩ := hclaim _ haccepted sampleSealedEvent (List.mem_singleton.mpr rfl) "batch" rfl
  simp [Verifier.batchesOf, sampleSealedBundle, sampleBundle] at hb

/-- The batch of the event alone : its root is the event's hash. -/
def sampleBatch : BundleBatch where
  batchId := "batch"
  root := sampleSealedEvent.hash
  signature := sampleSealedEvent.signature
  eventIds := [sampleSealedEvent.id]
  leafHashes := []
  sealedAt := "2025-01-01T00:00:00+00:00"
  merkleProofs := [(sampleSealedEvent.id, [])]
  anchor := none

theorem provesInclusion_iff_sample :
    @Verifier.ProvesInclusion .transparent (sampleSealedBundle [sampleBatch]) sampleSealedEvent
      "batch" := by
  have hbatches : Verifier.batchesOf (sampleSealedBundle [sampleBatch]) = [sampleBatch] := rfl
  have haccepted : @Verifier.verifyBundle .transparent .absent (sampleSealedBundle [sampleBatch]) =
      .ok true := by
    rw [@Verifier.verifyBundle_eq_true .transparent .absent, hbatches]
    refine ⟨verifyEvents_sampleSealedBundle, fun b hb => ?_⟩
    obtain rfl := List.mem_singleton.mp hb
    refine @Verifier.BatchVerifies.mk .transparent .absent _ _ _ (fun p hp => ?_)
      (@Verifier.EventVerifies.signature_ok .transparent _ _ eventVerifies_sampleSealedEvent) rfl
    obtain rfl := List.mem_singleton.mp hp
    have hhash := @Verifier.EventVerifies.hash_eq .transparent _ _ eventVerifies_sampleSealedEvent
    have hleaf : fromHex sampleSealedEvent.hash =
        .ok (sha256 (canonicalBytes (Verifier.buildEnvelope sampleSealedEvent))) := by
      rw [fromHex_eq_ok, hhash, fromHex_sha256Hex]
    have hproof : Verifier.verifyProof (sampleSealedBundle [sampleBatch]).events sampleBatch
        (sampleSealedEvent.id, []) =
          verifyMerkleProof sampleSealedEvent.hash (0 : Nat) [] sampleBatch.root :=
      Verifier.verifyProof_eq (by simp [sampleBatch, List.idxOf?, List.findIdx?_cons])
        (by simp [Verifier.leafHash, Verifier.eventById, sampleSealedBundle])
    refine hproof.trans ?_
    exact Verifier.verifyMerkleProof_eq_true.mpr ⟨_, [], hleaf, rfl, hhash.symm⟩
  refine (@Verifier.provesInclusion_iff .transparent .absent _ haccepted ?_).mpr ?_
    sampleSealedEvent (List.mem_singleton.mpr rfl) "batch" rfl
  · refine collisionFreeOn_of_subsingleton ?_
    rintro b ⟨batch, hb, p, hp, e, -, leaf, siblings, index, -, hsiblings, -, hinput⟩
    rw [hbatches] at hb
    obtain rfl := List.mem_singleton.mp hb
    obtain rfl := List.mem_singleton.mp hp
    obtain rfl := Except.ok.inj hsiblings
    simp [climbInputs, Merkle.climbed] at hinput
  · intro e he batchId hbatchId
    obtain rfl := List.mem_singleton.mp he
    obtain rfl := Option.some.inj hbatchId
    exact ⟨⟨sampleBatch, hbatches ▸ List.mem_singleton.mpr rfl, rfl, [],
      List.mem_singleton.mpr rfl⟩, by simp [Verifier.eventById, sampleSealedBundle]⟩

end Attest
