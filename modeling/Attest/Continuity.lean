import Attest.Accepting

/-!
# Segments one after another

A device numbers its claims and keeps the head of its chain while its queue is drained, so
that a gap in the chain can be told. The server keeps no head : `_verify_segment` checks that
the claims of a segment name each other, and reads nothing of the claims that were accepted
before, nor of the numbers. In every run of submissions each accepted segment is without gaps
(`segments_gapFree`), but what a device held back between two of them is not noticed.

What was accepted from a device that signs along one chain is without gaps exactly if each
accepted segment begins with the number after the last one accepted (`accepted_gapFree_iff`).
-/

set_option linter.unusedSectionVars false

namespace Attest

section Server

variable [SignatureScheme] [KeyWrapping] [PyUnicode] [IsoReader] {svc : SigningKeyPair}

/-! ## Runs of submissions -/

/-- A submission, or another transaction between two of them. -/
inductive ServerStep where
  | graft (call : GraftCall)
  | other (change : Db → Db)

/-- A segment that was accepted : the device it was verified for, and its items with their
claims. -/
structure AcceptedSegment where
  device : SdkDevice
  verified : List (Dict × OfflineClaim)

def AcceptedSegment.claims (a : AcceptedSegment) : List OfflineClaim :=
  a.verified.map Prod.snd

/-- What a submission has accepted. -/
def GraftCall.accepted (svc : SigningKeyPair) (db : Db) (call : GraftCall) :
    Option AcceptedSegment :=
  match graftOfflineSegment svc db call.args call.fresh,
      db.deviceOf call.args.org.id call.args.deviceId with
  | .ok _, .ok (some device) =>
    match verifySegment device call.args.items with
    | .ok verified => some ⟨device, verified⟩
    | .error _ => none
  | _, _ => none

def ServerStep.after (svc : SigningKeyPair) (db : Db) : ServerStep → Db
  | .graft call => call.after svc db
  | .other change => change db

/-- The segments of one device that a run accepted, in order. -/
def acceptedSegments (svc : SigningKeyPair) (orgId deviceId : String) :
    Db → List ServerStep → List AcceptedSegment
  | _, [] => []
  | db, step :: steps =>
    let rest := acceptedSegments svc orgId deviceId (step.after svc db) steps
    match step with
    | .graft call =>
      if call.args.org.id = orgId ∧ call.args.deviceId = deviceId then
        (call.accepted svc db).toList ++ rest
      else rest
    | .other _ => rest

/-- Each claim names the hash of the one before it. -/
def GapFree (claims : List OfflineClaim) : Prop :=
  claims.IsChain fun c c' => c'.prevLocal = .str (offlineClaimHash c)

/-- The segment is of the device's claims, without gaps. -/
structure AcceptedSegment.Holds (a : AcceptedSegment) (orgId deviceId : String) : Prop where
  orgId_eq : a.device.orgId = orgId
  deviceId_eq : a.device.deviceId = deviceId
  gapFree : GapFree a.claims
  verifies : ∀ v ∈ a.verified, ∃ payload, ItemVerifies a.device v.1 payload v.2

theorem GraftCall.accepted_holds {db : Db} {call : GraftCall} {a : AcceptedSegment}
    (h : call.accepted svc db = some a) : a.Holds call.args.org.id call.args.deviceId := by
  unfold GraftCall.accepted at h
  split at h
  · rename_i device _ hdevice
    split at h
    · rename_i verified hverified
      obtain rfl := Option.some.inj h
      obtain ⟨-, hverifies, -, hchain⟩ := verifyItems_eq_ok hverified
      have hmem := mem_of_oneOrNone hdevice
      simp only [List.mem_filter, decide_eq_true_eq] at hmem
      refine ⟨hmem.2.1, hmem.2.2, ?_, hverifies⟩
      rw [GapFree, AcceptedSegment.claims, List.isChain_map]
      exact hchain
    · cases h
  · cases h

/-- In every run of submissions each accepted segment is of signed claims of the device that
name each other without gaps. -/
theorem segments_gapFree (orgId deviceId : String) : ∀ (db : Db) (steps : List ServerStep),
    ∀ a ∈ acceptedSegments svc orgId deviceId db steps, a.Holds orgId deviceId
  | _, [], a, h => by cases h
  | db, step :: steps, a, h => by
    have hrest := segments_gapFree orgId deviceId (step.after svc db) steps a
    cases step with
    | other change => exact hrest h
    | graft call =>
      simp only [acceptedSegments] at h
      split at h
      · rename_i hmine
        rcases List.mem_append.mp h with h | h
        · rw [Option.mem_toList] at h
          rw [← hmine.1, ← hmine.2]
          exact GraftCall.accepted_holds h
        · exact hrest h
      · exact hrest h

/-! ## Segments of one chain -/

/-- Records of a chain are numbered from the first on. -/
theorem DeviceChain.localSeq_getElem {deviceId : String} {records : List OfflineRecord}
    (h : DeviceChain deviceId records) : ∀ {i : Nat} (hi : i < records.length),
      records[i].localSeq = records[0].localSeq + i
  | 0, _ => by simp
  | i + 1, hi => by
    have hnext := (List.isChain_iff_getElem.mp h.next i hi).2
    rw [hnext, localSeq_getElem h (by omega)]
    push_cast
    omega

/-- In a chain a claim names another exactly if its number is the next. -/
theorem DeviceChain.names_iff {deviceId : String} {records : List OfflineRecord}
    (h : DeviceChain deviceId records)
    (hfree : CollisionFreeOn {b | ∃ r ∈ records, b = canonicalBytes (r.claim deviceId).toDict})
    {r s : OfflineRecord} (hr : r ∈ records) (hs : s ∈ records) :
    (s.claim deviceId).prevLocal = .str (offlineClaimHash (r.claim deviceId)) ↔
      s.localSeq = r.localSeq + 1 := by
  obtain ⟨i, hi, rfl⟩ := List.getElem_of_mem hr
  obtain ⟨j, hj, rfl⟩ := List.getElem_of_mem hs
  rw [OfflineRecord.claim_prevLocal, JVal.str.injEq]
  constructor
  · intro hlink
    cases j with
    | zero =>
      -- The first claim of a chain names nothing.
      rw [h.first records[0] (List.head?_eq_getElem? ▸ List.getElem?_eq_getElem hj)] at hlink
      exact absurd hlink.symm (sha256Hex_ne_empty _)
    | succ j =>
      obtain ⟨hprev, hnext⟩ := List.isChain_iff_getElem.mp h.next j hj
      have hsame : records[j] = records[i] :=
        h.injOn_hash hfree (List.getElem_mem _) (List.getElem_mem _) (hprev.symm.trans hlink)
      rw [hnext, hsame]
  · intro hseq
    rw [h.localSeq_getElem hi, h.localSeq_getElem hj] at hseq
    obtain rfl : j = i + 1 := by omega
    exact (List.isChain_iff_getElem.mp h.next i hj).1

/-- What the submissions of a run hand in : claims of a device that signs along one chain,
under the key it is registered with. -/
structure HandsIn (svc : SigningKeyPair) (orgId deviceId : String) (pair : SigningKeyPair)
    (records : List OfflineRecord) (db : Db) (steps : List ServerStep) : Prop where
  chain : DeviceChain deviceId records
  registered : ∀ a ∈ acceptedSegments svc orgId deviceId db steps,
    a.device.publicPem = pair.publicPem
  signedOnly : ∀ a ∈ acceptedSegments svc orgId deviceId db steps,
    SignedOnly a.device pair records (a.verified.map Prod.fst)
  collisionFree : CollisionFreeOn {b | ∃ a ∈ acceptedSegments svc orgId deviceId db steps,
    b ∈ segmentHashed deviceId records (a.verified.map Prod.fst)}

/-- The segment begins with the number after the one with which the other ends. -/
def AcceptedSegment.Resumes (a a' : AcceptedSegment) : Prop :=
  ∀ c ∈ a.claims.getLast?, ∀ c' ∈ a'.claims.head?, c'.localSeq = c.localSeq + 1

theorem HandsIn.exists_record (hideal : SignatureScheme.Ideal) {orgId deviceId : String}
    {pair : SigningKeyPair} {records : List OfflineRecord} {db : Db} {steps : List ServerStep}
    (h : HandsIn svc orgId deviceId pair records db steps) {a : AcceptedSegment}
    (ha : a ∈ acceptedSegments svc orgId deviceId db steps) {c : OfflineClaim} (hc : c ∈ a.claims) :
    ∃ r ∈ records, c = r.claim deviceId := by
  obtain ⟨v, hv, rfl⟩ := List.mem_map.mp hc
  have hholds := segments_gapFree orgId deviceId db steps a ha
  obtain ⟨payload, hverifies⟩ := hholds.verifies v hv
  have hfree : CollisionFreeOn
      (segmentHashed a.device.deviceId records (a.verified.map Prod.fst)) := by
    rw [hholds.deviceId_eq]
    exact h.collisionFree.mono fun b hb => ⟨a, ha, hb⟩
  obtain ⟨r, hr, hclaim, -⟩ := hverifies.exists_record hideal (h.registered a ha)
    (h.signedOnly a ha) hfree (List.mem_map_of_mem hv)
  exact ⟨r, hr, hholds.deviceId_eq ▸ hclaim⟩

/-- The claims that a run accepted from a device are one chain without gaps exactly if every
segment of them begins with the number after the last that was accepted. -/
theorem accepted_gapFree_iff (hideal : SignatureScheme.Ideal) {orgId deviceId : String}
    {pair : SigningKeyPair} {records : List OfflineRecord} {db : Db} {steps : List ServerStep}
    (h : HandsIn svc orgId deviceId pair records db steps) :
    GapFree ((acceptedSegments svc orgId deviceId db steps).flatMap AcceptedSegment.claims) ↔
      ((acceptedSegments svc orgId deviceId db steps).filter
        fun a => !a.verified.isEmpty).IsChain AcceptedSegment.Resumes := by
  have hnonempty (as : List AcceptedSegment) : as.flatMap AcceptedSegment.claims =
      ((as.filter fun a => !a.verified.isEmpty).map AcceptedSegment.claims).flatten := by
    induction as with
    | nil => rfl
    | cons a as ih =>
      cases hverified : a.verified <;> simp [hverified, AcceptedSegment.claims, ih]
  have hmem {a : AcceptedSegment} (ha : a ∈ (acceptedSegments svc orgId deviceId db steps).filter
      fun a => !a.verified.isEmpty) : a ∈ acceptedSegments svc orgId deviceId db steps ∧
        a.claims ≠ [] := by
    simpa [AcceptedSegment.claims] using List.mem_filter.mp ha
  rw [GapFree, hnonempty, List.isChain_flatten, and_iff_right, List.isChain_map]
  · refine List.IsChain.iff_of_mem_imp fun a a' ha ha' => ?_
    have hnames {c c' : OfflineClaim} (hc : c ∈ a.claims) (hc' : c' ∈ a'.claims) :
        c'.prevLocal = .str (offlineClaimHash c) ↔ c'.localSeq = c.localSeq + 1 := by
      obtain ⟨r, hr, rfl⟩ := h.exists_record hideal (hmem ha).1 hc
      obtain ⟨s, hs, rfl⟩ := h.exists_record hideal (hmem ha').1 hc'
      refine h.chain.names_iff (h.collisionFree.mono ?_) hr hs
      rintro b ⟨r, hr, rfl⟩
      exact ⟨a, (hmem ha).1, Or.inl ⟨r, hr, Or.inr rfl⟩⟩
    exact forall₂_congr fun c hc => forall₂_congr fun c' hc' =>
      hnames (List.mem_of_getLast? hc) (List.mem_of_head? hc')
  · intro claims hclaims
    obtain ⟨a, ha, rfl⟩ := List.mem_map.mp hclaims
    exact (segments_gapFree orgId deviceId db steps a (hmem ha).1).gapFree
  · intro hnil
    obtain ⟨a, ha, hclaims⟩ := List.mem_map.mp hnil
    exact (hmem ha).2 hclaims

end Server

/-! ## A claim that was held back -/

section Samples

open Sample

namespace Sample

/-- The second claim without the first, which is handed in later. -/
def heldBack : List ServerStep :=
  [.graft (sampleSegment (submitted (nextRecord sampleRecord) .null) 21),
    .graft (sampleSegment (submitted sampleRecord .null) 31)]

theorem sampleRecord_named :
    PyText.isBlank sampleRecord.action = false ∧ textOk sampleRecord.action = true := by
  decide

/-- What a submission of the sample device has accepted. -/
theorem Served.accepted {db : Db} {ids : List Uuid} (h : Served db ids) (r : OfflineRecord)
    (traceId : JVal) (n : Nat) {target : Option Uuid}
    (htrace : itemTrace (submitted r traceId) = .ok target)
    (hnamed : PyText.isBlank r.action = false) (haction : textOk r.action = true)
    (hnew : Uuid.ofNat n ∉ ids) :
    ∃ lastSeenAt, (sampleSegment (submitted r traceId) n).accepted sampleKey db =
        some ⟨{ sampleDevice with lastSeenAt := lastSeenAt },
          [(submitted r traceId, r.claim "device-1")]⟩ ∧
      Served ((sampleSegment (submitted r traceId) n).after sampleKey db)
        (ids ++ [Uuid.ofNat n]) := by
  obtain ⟨lastSeenAt, db', outs, hfound, hverified, hgraft, hserved⟩ :=
    h.submit r traceId n htrace hnamed haction hnew
  refine ⟨lastSeenAt, ?_, ?_⟩
  · have hfound' : db.deviceOf (sampleSegment (submitted r traceId) n).args.org.id
        (sampleSegment (submitted r traceId) n).args.deviceId =
          .ok (some { sampleDevice with lastSeenAt := lastSeenAt }) := hfound
    have hverified' : verifySegment { sampleDevice with lastSeenAt := lastSeenAt }
        (sampleSegment (submitted r traceId) n).args.items =
          .ok [(submitted r traceId, r.claim "device-1")] := hverified
    simp only [GraftCall.accepted, hgraft, hfound', hverified']
  · simp only [GraftCall.after, hgraft]
    exact hserved

/-- Both claims, in their order. -/
def inOrder : List ServerStep :=
  [.graft (sampleSegment (submitted sampleRecord .null) 21),
    .graft (sampleSegment (submitted (nextRecord sampleRecord) .null) 31)]

/-- Two segments of one claim each are accepted. -/
theorem acceptedSegments_pair {r s : OfflineRecord}
    (hr : PyText.isBlank r.action = false ∧ textOk r.action = true)
    (hs : PyText.isBlank s.action = false ∧ textOk s.action = true) :
    ∃ seen seen', acceptedSegments sampleKey "acme" "device-1" sampleDevices
        [.graft (sampleSegment (submitted r .null) 21),
          .graft (sampleSegment (submitted s .null) 31)] =
      [⟨{ sampleDevice with lastSeenAt := seen }, [(submitted r .null, r.claim "device-1")]⟩,
        ⟨{ sampleDevice with lastSeenAt := seen' },
          [(submitted s .null, s.claim "device-1")]⟩] := by
  obtain ⟨seen, ha, hserved⟩ := served_sample.accepted r .null 21 rfl hr.1 hr.2 List.not_mem_nil
  obtain ⟨seen', hb, -⟩ := hserved.accepted s .null 31 rfl hs.1 hs.2 (by decide)
  refine ⟨seen, seen', ?_⟩
  simp only [acceptedSegments, ServerStep.after, ha, hb]
  rfl

end Sample

/-- The claims handed in in their order are one chain. -/
theorem accepted_gapFree_iff_sample : GapFree ((acceptedSegments sampleKey "acme" "device-1"
    sampleDevices inOrder).flatMap AcceptedSegment.claims) := by
  obtain ⟨seen, seen', haccepted⟩ := acceptedSegments_pair (s := nextRecord sampleRecord)
    sampleRecord_named sampleRecord_named
  have hsegments : acceptedSegments sampleKey "acme" "device-1" sampleDevices inOrder = _ :=
    haccepted
  have hitems {a : AcceptedSegment}
      (ha : a ∈ acceptedSegments sampleKey "acme" "device-1" sampleDevices inOrder) :
      a.device.publicPem = sampleDeviceKey.publicPem ∧ a.device.deviceId = "device-1" ∧
        ∀ item ∈ a.verified.map Prod.fst, ∃ r ∈ sampleRecords, item = submitted r .null := by
    rw [hsegments] at ha
    rcases List.mem_pair.mp ha with rfl | rfl
    · exact ⟨rfl, rfl, fun item hitem =>
        ⟨sampleRecord, List.mem_cons_self, List.mem_singleton.mp hitem⟩⟩
    · exact ⟨rfl, rfl, fun item hitem =>
        ⟨nextRecord sampleRecord, List.mem_cons_of_mem _ List.mem_cons_self,
          List.mem_singleton.mp hitem⟩⟩
  have hhands : HandsIn sampleKey "acme" "device-1" sampleDeviceKey sampleRecords sampleDevices
      inOrder := by
    refine ⟨deviceChain_sampleRecords, fun a ha => (hitems ha).1, fun a ha item hitem m hm => ?_,
      collisionFreeOn_of_nodup nodup_sampleHashed ?_⟩
    · obtain ⟨-, hdevice, hall⟩ := hitems ha
      obtain ⟨r, hr, rfl⟩ := hall item hitem
      rw [hdevice]
      exact ⟨r, hr, signed_sampleItem hm⟩
    · rintro b ⟨a, ha, hb⟩
      refine mem_sampleHashed (fun item hitem => ?_) hb
      obtain ⟨r, hr, rfl⟩ := (hitems ha).2.2 item hitem
      exact ⟨r, hr, (submitted_verifies r .null none).readItem_eq⟩
  refine (accepted_gapFree_iff SignatureScheme.ideal_transparent hhands).mpr ?_
  rw [hsegments]
  refine List.isChain_pair.mpr fun c hc c' hc' => ?_
  obtain rfl := Option.some.inj hc
  obtain rfl := Option.some.inj hc'
  rfl

/-- Both segments are accepted, and their claims are not one chain. -/
theorem held_back_accepted : ¬ GapFree ((acceptedSegments sampleKey "acme" "device-1" sampleDevices
    heldBack).flatMap AcceptedSegment.claims) := by
  obtain ⟨seen, seen', haccepted⟩ := acceptedSegments_pair (r := nextRecord sampleRecord)
    sampleRecord_named sampleRecord_named
  have hsegments : acceptedSegments sampleKey "acme" "device-1" sampleDevices heldBack = _ :=
    haccepted
  rw [hsegments]
  change ¬ GapFree [(nextRecord sampleRecord).claim "device-1", sampleRecord.claim "device-1"]
  rw [GapFree, List.isChain_pair]
  intro hlink
  exact sha256Hex_ne_empty _ (JVal.str.inj hlink).symm

end Samples

end Attest
