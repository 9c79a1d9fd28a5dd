import Attest.Db
import Attest.Features
import Attest.Lib.HashChain

/-!
# Segments of offline claims

While the service is out of reach a device signs, for each event, a claim that names
the hash of its claim before (`buildOfflineClaim`). On recovery it submits the events,
and `verifySegment` checks every claim against its event, its signature and the claim
before it.

A device that signs along one chain is who it says : the items of an accepted segment
are a run of its claims next to each other, with the contents it signed
(`verifySegment_sound`).
-/

namespace Attest

/-! ## Claims -/

/-- `OFFLINE_CLAIM_VERSION`. -/
def offlineClaimVersion : String := "attest-offline-v1"

/-- What a device signs. -/
structure OfflineClaim where
  deviceId : String
  localSeq : Int
  prevLocal : JVal
  occurredAt : String
  action : String
  payloadHash : String
deriving DecidableEq

/-- The claim as the object that is hashed. -/
def OfflineClaim.toDict (c : OfflineClaim) : Dict :=
  [("v", .str offlineClaimVersion),
    ("device_id", .str c.deviceId),
    ("local_seq", .int c.localSeq),
    ("prev_local", c.prevLocal),
    ("occurred_at", .str c.occurredAt),
    ("action", .str c.action),
    ("payload_hash", .str c.payloadHash)]

/-- `offline_claim_hash(claim)`. -/
def offlineClaimHash (c : OfflineClaim) : String :=
  sha256Hex c.toDict

/-- The claim before, where the claim names one. -/
def OfflineClaim.prev (c : OfflineClaim) : Option String :=
  match c.prevLocal with
  | .str link => if link = "" then none else some link
  | _ => none

theorem sha256Hex_ne_empty (obj : Dict) : sha256Hex obj ≠ "" := by
  intro h
  have hread := fromHex_sha256Hex obj
  have hempty : Bytes.fromHex "" = some [] := rfl
  rw [h, hempty, Option.some.injEq] at hread
  have hlength := congrArg List.length hread
  simp at hlength

theorem OfflineClaim.prev_eq_some {c c' : OfflineClaim}
    (h : c'.prevLocal = .str (offlineClaimHash c)) : c'.prev = some (offlineClaimHash c) := by
  have hne : offlineClaimHash c ≠ "" := sha256Hex_ne_empty _
  simp [OfflineClaim.prev, h, hne]

/-- Claims with one canonical text agree in every field. -/
theorem OfflineClaim.toDict_inj {c c' : OfflineClaim}
    (h : canonicalBytes c.toDict = canonicalBytes c'.toDict) :
    (c.deviceId = c'.deviceId ∧ c.localSeq = c'.localSeq ∧ c.occurredAt = c'.occurredAt ∧
      c.action = c'.action ∧ c.payloadHash = c'.payloadHash) ∧
        c.prevLocal.sortKeys = c'.prevLocal.sortKeys := by
  have hkey (key : String) := JVal.get?_eq_of_sortKeys_eq (canonicalBytes_inj.mp h)
    (by simp [toDict]) key
  have hd : c.deviceId = c'.deviceId := by
    simpa [toDict, Dict.get?, JVal.sortKeys] using hkey "device_id"
  have hn : c.localSeq = c'.localSeq := by
    simpa [toDict, Dict.get?, JVal.sortKeys] using hkey "local_seq"
  have ht : c.occurredAt = c'.occurredAt := by
    simpa [toDict, Dict.get?, JVal.sortKeys] using hkey "occurred_at"
  have ha : c.action = c'.action := by
    simpa [toDict, Dict.get?, JVal.sortKeys] using hkey "action"
  have hp : c.payloadHash = c'.payloadHash := by
    simpa [toDict, Dict.get?, JVal.sortKeys] using hkey "payload_hash"
  have hv : c.prevLocal.sortKeys = c'.prevLocal.sortKeys := by
    simpa [toDict, Dict.get?] using hkey "prev_local"
  exact ⟨⟨hd, hn, ht, ha, hp⟩, hv⟩

/-- A claim whose link is a text is what its canonical text says. -/
theorem OfflineClaim.eq_of_toDict {c c' : OfflineClaim} {link : String}
    (hlink : c'.prevLocal = .str link) (h : canonicalBytes c.toDict = canonicalBytes c'.toDict) :
    c = c' := by
  obtain ⟨⟨hd, hn, ht, ha, hp⟩, hv⟩ := toDict_inj h
  have hsort : (JVal.str link).sortKeys = .str link := by simp [JVal.sortKeys]
  rw [hlink, hsort, JVal.sortKeys_eq_str, ← hlink] at hv
  cases c
  cases c'
  simp_all

/-- `build_offline_claim(..)`. -/
def buildOfflineClaim (deviceId : String) (localSeq : Int) (prevLocal : JVal)
    (occurredAt action payloadHash : String) : OfflineClaim where
  deviceId := deviceId
  localSeq := localSeq
  prevLocal := prevLocal.orElse (.str "")
  occurredAt := occurredAt
  action := action
  payloadHash := payloadHash

/-! ## The device's chain -/

/-- What a device signed : an event, and the hash of its claim before. -/
structure OfflineRecord where
  localSeq : Int
  /-- Empty for its first claim. -/
  prevLocal : String
  occurredAt : String
  action : String
  payload : Dict

def OfflineRecord.claim (deviceId : String) (r : OfflineRecord) : OfflineClaim :=
  buildOfflineClaim deviceId r.localSeq (.str r.prevLocal) r.occurredAt r.action
    (sha256Hex r.payload)

/-- The claims of a device that signs along one chain : each names the hash of the last
one and its number is one more. -/
structure DeviceChain (deviceId : String) (records : List OfflineRecord) : Prop where
  first : ∀ r, records.head? = some r → r.prevLocal = ""
  next : records.IsChain fun r s =>
    s.prevLocal = offlineClaimHash (r.claim deviceId) ∧ s.localSeq = r.localSeq + 1

theorem OfflineRecord.claim_prevLocal (deviceId : String) (r : OfflineRecord) :
    (r.claim deviceId).prevLocal = .str r.prevLocal := by
  by_cases h : r.prevLocal = "" <;>
    simp [OfflineRecord.claim, buildOfflineClaim, JVal.orElse, JVal.truthy, h]

/-- A chain links by what its claims name. -/
theorem DeviceChain.linked {deviceId : String} {records : List OfflineRecord}
    (h : DeviceChain deviceId records) :
    HashChain.Linked (fun r => offlineClaimHash (r.claim deviceId))
      (fun r => (r.claim deviceId).prev) none records := by
  refine HashChain.linked_of_isChain (h.next.imp ?_) ?_
  · rintro r s ⟨hprev, -⟩
    exact OfflineClaim.prev_eq_some (by rw [s.claim_prevLocal, hprev])
  · intro r hr
    simp [OfflineClaim.prev, r.claim_prevLocal, h.first r hr]

/-- A claim's hash tells its record. -/
theorem DeviceChain.injOn_hash {deviceId : String} {records : List OfflineRecord}
    (h : DeviceChain deviceId records)
    (hfree : CollisionFreeOn {b | ∃ r ∈ records, b = canonicalBytes (r.claim deviceId).toDict}) :
    Set.InjOn (fun r => offlineClaimHash (r.claim deviceId)) {r | r ∈ records} := by
  intro r hr s hs hhash
  have hbytes := canonicalBytes_eq_of_sha256Hex_eq hfree ⟨r, hr, rfl⟩ ⟨s, hs, rfl⟩ hhash
  have hseq : r.localSeq = s.localSeq := (OfflineClaim.toDict_inj hbytes).1.2.1
  -- Two records of a chain differ in their numbers.
  have hlt : (records.map OfflineRecord.localSeq).Pairwise (· < ·) := by
    rw [← List.isChain_iff_pairwise, List.isChain_map]
    exact h.next.imp fun r s hrs => by omega
  have hnodup : (records.map OfflineRecord.localSeq).Nodup := hlt.imp fun hlt => ne_of_lt hlt
  exact List.inj_on_of_nodup_map hnodup hr hs hseq

section Verify

variable [PyUnicode]

/-! ## Verification -/

def itemError (index : Nat) (what : String) : PyError :=
  .offlineSegment ("item " ++ toString index ++ ": " ++ what)

/-- The payload of an item, and the claim it makes of itself. -/
def readItem (deviceId : String) (index : Nat) (item : Dict) :
    Except PyError (Dict × OfflineClaim) :=
  match item.get "output" with
  | .obj payload => do
    let localSeq ← toInt (item.getD "local_seq" (.int (-1)))
    return (payload, buildOfflineClaim deviceId localSeq (item.get "prev_local")
      (PyText.str (item.getD "occurred_at" (.str "")))
      (PyText.str (item.getD "action" (.str ""))) (sha256Hex payload))
  | _ => .error (itemError index "output must be an object")

/-- `str(item.get("client_signature", ""))`. -/
def clientSignature (item : Dict) : String :=
  PyText.str (item.getD "client_signature" (.str ""))

variable [SignatureScheme]

/-- One round of `_verify_segment`, after a claim of hash `prevLocal`. -/
def verifyItem (device : SdkDevice) (index : Nat) (prevLocal : Option String) (item : Dict) :
    Except PyError OfflineClaim := do
  let (_, claim) ← readItem device.deviceId index item
  require (item.get "payload_hash" = .str claim.payloadHash)
    (itemError index "payload does not match the signed payload_hash")
  require (match prevLocal with
      | none => true
      | some digest => claim.prevLocal = .str digest)
    (itemError index "local chain broken (prev_local mismatch)")
  let signed ← verifyHex device.publicPem (offlineClaimHash claim) (clientSignature item)
  require signed (itemError index "device signature invalid")
  return claim

/-- The rounds from an index on. -/
def verifyItems (device : SdkDevice) :
    Nat → Option String → List Dict → Except PyError (List (Dict × OfflineClaim))
  | _, _, [] => .ok []
  | index, prevLocal, item :: items => do
    let claim ← verifyItem device index prevLocal item
    let rest ← verifyItems device (index + 1) (some (offlineClaimHash claim)) items
    return (item, claim) :: rest

/-- `_verify_segment(device, items)`. -/
def verifySegment (device : SdkDevice) (items : List Dict) :
    Except PyError (List (Dict × OfflineClaim)) :=
  verifyItems device 0 none items

/-! ## What an accepted item says -/

/-- The item makes this claim, over its payload, and the device signed it. -/
structure ItemVerifies (device : SdkDevice) (item : Dict) (payload : Dict) (claim : OfflineClaim) :
    Prop where
  output_eq : item.get "output" = .obj payload
  localSeq_eq : toInt (item.getD "local_seq" (.int (-1))) = .ok claim.localSeq
  claim_eq : claim = buildOfflineClaim device.deviceId claim.localSeq (item.get "prev_local")
    (PyText.str (item.getD "occurred_at" (.str "")))
    (PyText.str (item.getD "action" (.str ""))) (sha256Hex payload)
  payloadHash_eq : item.get "payload_hash" = .str claim.payloadHash
  signature_ok : verifyHex device.publicPem (offlineClaimHash claim)
    (clientSignature item) = .ok true

theorem verifyItem_eq_ok {device : SdkDevice} {index : Nat} {prevLocal : Option String}
    {item : Dict} {claim : OfflineClaim}
    (h : verifyItem device index prevLocal item = .ok claim) :
    (∃ payload, ItemVerifies device item payload claim) ∧
      ∀ digest, prevLocal = some digest → claim.prevLocal = .str digest := by
  simp only [verifyItem, Except.bind_eq_ok, require_eq_ok, Except.pure_eq, Except.ok.injEq] at h
  obtain ⟨⟨payload, claim'⟩, hread, _, hhash, _, hlink, signed, hsig, _, rfl, rfl⟩ := h
  unfold readItem at hread
  cases hout : item.get "output" with
  | obj p =>
    simp only [hout, Except.bind_eq_ok, Except.pure_eq, Except.ok.injEq, Prod.mk.injEq] at hread
    obtain ⟨localSeq, hseq, rfl, rfl⟩ := hread
    refine ⟨⟨p, hout, hseq, rfl, by simpa using hhash, hsig⟩, ?_⟩
    rintro digest rfl
    simpa using hlink
  | _ => simp [hout] at hread

/-- An accepted segment : every item verifies, and names the claim before it. -/
theorem verifyItems_eq_ok {device : SdkDevice} : ∀ {index : Nat} {prevLocal : Option String}
    {items : List Dict} {verified : List (Dict × OfflineClaim)},
    verifyItems device index prevLocal items = .ok verified →
      verified.map Prod.fst = items ∧
        (∀ v ∈ verified, ∃ payload, ItemVerifies device v.1 payload v.2) ∧
          (∀ v, verified.head? = some v → ∀ digest, prevLocal = some digest →
            v.2.prevLocal = .str digest) ∧
            verified.IsChain fun v w => w.2.prevLocal = .str (offlineClaimHash v.2)
  | _, _, [], verified, h => by
    obtain rfl : verified = [] := by simpa [verifyItems] using h.symm
    simp
  | index, prevLocal, item :: items, verified, h => by
    simp only [verifyItems, Except.bind_eq_ok, Except.pure_eq, Except.ok.injEq] at h
    obtain ⟨claim, hclaim, rest, hrest, rfl⟩ := h
    obtain ⟨hitem, hlink⟩ := verifyItem_eq_ok hclaim
    obtain ⟨hfst, hall, hhead, hchain⟩ := verifyItems_eq_ok hrest
    refine ⟨by simp [hfst], ?_, ?_, ?_⟩
    · intro v hv
      rcases List.mem_cons.mp hv with rfl | hv
      · exact hitem
      · exact hall v hv
    · intro v hv
      obtain rfl : (item, claim) = v := by simpa using hv
      exact hlink
    · rw [List.isChain_cons]
      exact ⟨fun w hw => hhead w hw _ rfl, hchain⟩

/-! ## Soundness -/

/-- The device signed nothing else than its claims. -/
def SignedOnly (device : SdkDevice) (pair : SigningKeyPair) (records : List OfflineRecord)
    (items : List Dict) : Prop :=
  ∀ item ∈ items, ∀ m,
    Bytes.fromHex (clientSignature item) = some (SignatureScheme.sign pair.privatePem m) →
      ∃ r ∈ records, m = sha256 (canonicalBytes (r.claim device.deviceId).toDict)

/-- What is hashed for the device's claims and for the items. -/
def segmentHashed (deviceId : String) (records : List OfflineRecord) (items : List Dict) :
    Set Bytes :=
  {b | (∃ r ∈ records, b = canonicalBytes r.payload ∨
      b = canonicalBytes (r.claim deviceId).toDict) ∨
    ∃ item ∈ items, ∃ index payload claim, readItem deviceId index item = .ok (payload, claim) ∧
      (b = canonicalBytes payload ∨ b = canonicalBytes claim.toDict)}

/-- The item is the event the device signed : its payload up to the order of keys, and
the rest as the verifier reads it. -/
structure Submits (item : Dict) (r : OfflineRecord) : Prop where
  payload_eq : ∃ payload, item.get "output" = .obj payload ∧
    (JVal.obj payload).sortKeys = (JVal.obj r.payload).sortKeys
  payloadHash_eq : item.get "payload_hash" = .str (sha256Hex r.payload)
  localSeq_eq : toInt (item.getD "local_seq" (.int (-1))) = .ok r.localSeq
  prevLocal_eq : (item.get "prev_local").orElse (.str "") = .str r.prevLocal
  occurredAt_eq : PyText.str (item.getD "occurred_at" (.str "")) = r.occurredAt
  action_eq : PyText.str (item.getD "action" (.str "")) = r.action

/-- An item that verifies is one the device signed. -/
theorem ItemVerifies.exists_record (hideal : SignatureScheme.Ideal) {device : SdkDevice}
    {pair : SigningKeyPair} (hpem : device.publicPem = pair.publicPem)
    {records : List OfflineRecord} {items : List Dict}
    (hsigned : SignedOnly device pair records items)
    (hfree : CollisionFreeOn (segmentHashed device.deviceId records items)) {item : Dict}
    (hitem : item ∈ items) {payload : Dict} {claim : OfflineClaim}
    (h : ItemVerifies device item payload claim) :
    ∃ r ∈ records, claim = r.claim device.deviceId ∧ Submits item r := by
  have hsig := h.signature_ok
  rw [hpem] at hsig
  obtain ⟨m, hm, hsign⟩ := eq_sign_of_verifyHex hideal pair.isEd25519 hsig
  obtain ⟨r, hr, hmr⟩ := hsigned item hitem m hsign
  have hread : readItem device.deviceId 0 item = .ok (payload, claim) := by
    rw [readItem, h.output_eq]
    simp only [h.localSeq_eq, Except.ok_bind', Except.pure_eq]
    rw [← h.claim_eq]
  have hdigest : sha256 (canonicalBytes claim.toDict) =
      sha256 (canonicalBytes (r.claim device.deviceId).toDict) := by
    rw [← hmr]
    rw [offlineClaimHash, fromHex_sha256Hex, Option.some.injEq] at hm
    exact hm
  have hbytes := hfree.eq (Or.inr ⟨item, hitem, 0, payload, claim, hread, Or.inr rfl⟩)
    (Or.inl ⟨r, hr, Or.inr rfl⟩) hdigest
  have hclaim : claim = r.claim device.deviceId :=
    OfflineClaim.eq_of_toDict (r.claim_prevLocal device.deviceId) hbytes
  have hfields := h.claim_eq
  have hhash : claim.payloadHash = sha256Hex payload := by rw [hfields]; rfl
  have hhash' : claim.payloadHash = sha256Hex r.payload := by rw [hclaim]; rfl
  refine ⟨r, hr, hclaim, ⟨⟨payload, h.output_eq, ?_⟩, ?_, ?_, ?_, ?_, ?_⟩⟩
  · rw [← canonicalBytes_inj]
    refine canonicalBytes_eq_of_sha256Hex_eq hfree ?_ (Or.inl ⟨r, hr, Or.inl rfl⟩)
      (hhash.symm.trans hhash')
    exact Or.inr ⟨item, hitem, 0, payload, claim, hread, Or.inl rfl⟩
  · rw [h.payloadHash_eq, hhash']
  · rw [h.localSeq_eq, hclaim]
    rfl
  · have := congrArg OfflineClaim.prevLocal hfields
    rw [hclaim, r.claim_prevLocal] at this
    exact this.symm
  · have := congrArg OfflineClaim.occurredAt hfields
    rw [hclaim] at this
    exact this.symm
  · have := congrArg OfflineClaim.action hfields
    rw [hclaim] at this
    exact this.symm

/-- The items of an accepted segment are a run of the claims the device signed, in
order, with nothing between them. -/
theorem verifySegment_sound (hideal : SignatureScheme.Ideal) {device : SdkDevice}
    {pair : SigningKeyPair} (hpem : device.publicPem = pair.publicPem)
    {records : List OfflineRecord} (hchain : DeviceChain device.deviceId records)
    {items : List Dict} (hsigned : SignedOnly device pair records items)
    (hfree : CollisionFreeOn (segmentHashed device.deviceId records items))
    {verified : List (Dict × OfflineClaim)} (h : verifySegment device items = .ok verified) :
    ∃ run, List.IsInfix run records ∧ List.Forall₂ Submits items run := by
  obtain ⟨hfst, hall, -, hlinks⟩ := verifyItems_eq_ok h
  have hmem : ∀ v ∈ verified, v.1 ∈ items := by
    intro v hv
    rw [← hfst]
    exact List.mem_map_of_mem hv
  -- The record of every accepted item, in their order.
  have hrecord : ∀ v ∈ verified, ∃ r ∈ records, v.2 = r.claim device.deviceId ∧ Submits v.1 r := by
    intro v hv
    obtain ⟨payload, hv'⟩ := hall v hv
    exact hv'.exists_record hideal hpem hsigned hfree (hmem v hv)
  obtain ⟨run, hrun⟩ := exists_forall₂ hrecord
  have hsubmits : List.Forall₂ Submits items run := by
    rw [← hfst, List.forall₂_map_left_iff]
    exact hrun.imp fun v r hvr => hvr.2.2
  have hlinked : HashChain.Linked (fun r => offlineClaimHash (r.claim device.deviceId))
      (fun r => (r.claim device.deviceId).prev) (verified.head?.bind fun v => v.2.prev) run := by
    have hclaims : HashChain.Linked (fun v : Dict × OfflineClaim => offlineClaimHash v.2)
        (fun v => v.2.prev) (verified.head?.bind fun v => v.2.prev) verified := by
      refine HashChain.linked_of_isChain (hlinks.imp fun v w hvw => ?_) ?_
      · exact OfflineClaim.prev_eq_some hvw
      · intro v hv
        simp [hv]
    refine (HashChain.linked_iff_of_forall₂ ?_ hrun).mp hclaims
    exact fun hvr => ⟨by rw [hvr.2.1], by rw [hvr.2.1]⟩
  refine ⟨run, ?_, hsubmits⟩
  rcases eq_or_ne run [] with rfl | hne
  · exact List.nil_infix
  · have hinj := hchain.injOn_hash (hfree.mono (by
      rintro b ⟨r, hr, hb⟩
      exact Or.inl ⟨r, hr, Or.inr hb⟩))
    have hmem' : ∀ r ∈ run, ∃ _ : Unit, r ∈ records := by
      intro r hr
      obtain ⟨-, -, hin, -⟩ := exists_of_forall₂ hrun hr
      exact ⟨(), hin⟩
    have hchains : ∀ _ : Unit,
        HashChain.Linked (fun r => offlineClaimHash (r.claim device.deviceId))
          (fun r => (r.claim device.deviceId).prev) none records := fun _ => hchain.linked
    obtain ⟨-, hinfix⟩ := HashChain.Linked.infix hchains (by simpa using hinj) hne hlinked hmem'
    exact hinfix

end Verify

/-! ## A segment of two claims -/

def sampleDevice : SdkDevice := ⟨Uuid.ofNat 7, "acme", "device-1", "device key", false, none, none⟩

def sampleDeviceKey : @SigningKeyPair SignatureScheme.transparent :=
  @SigningKeyPair.mk SignatureScheme.transparent "device key" rfl

def sampleRecord : OfflineRecord where
  localSeq := 1
  prevLocal := ""
  occurredAt := "2025-01-01T00:00:00+00:00"
  action := "model_completion"
  payload := [("text", .str "hello")]

/-- The claim of the sample device that follows another. -/
def nextRecord (r : OfflineRecord) : OfflineRecord :=
  { r with localSeq := r.localSeq + 1, prevLocal := offlineClaimHash (r.claim "device-1") }

def sampleRecords : List OfflineRecord := [sampleRecord, nextRecord sampleRecord]

theorem deviceChain_sampleRecords : DeviceChain "device-1" sampleRecords where
  first := fun r hr => by
    obtain rfl := Option.some.inj hr
    rfl
  next := List.isChain_pair.mpr ⟨rfl, rfl⟩

/-- A record as it is submitted. -/
def sampleItem (r : OfflineRecord) : Dict :=
  [("action", .str r.action),
    ("output", .obj r.payload),
    ("occurred_at", .str r.occurredAt),
    ("local_seq", .int r.localSeq),
    ("prev_local", .str r.prevLocal),
    ("payload_hash", .str (sha256Hex r.payload)),
    ("client_signature", .str (Bytes.hex (@SignatureScheme.sign .transparent "device key"
      (sha256 (canonicalBytes (r.claim "device-1").toDict)))))]

theorem readItem_sampleItem (r : OfflineRecord) (index : Nat) :
    @readItem .ascii "device-1" index (sampleItem r) = .ok (r.payload, r.claim "device-1") :=
  rfl

theorem signed_sampleItem {r : OfflineRecord} {m : Bytes}
    (h : Bytes.fromHex (@clientSignature .ascii (sampleItem r)) =
      some (@SignatureScheme.sign .transparent "device key" m)) :
    m = sha256 (canonicalBytes (r.claim "device-1").toDict) := by
  have hsig : Bytes.fromHex (@clientSignature .ascii (sampleItem r)) =
      some (@SignatureScheme.sign .transparent "device key"
        (sha256 (canonicalBytes (r.claim "device-1").toDict))) := Bytes.fromHex_hex _
  rw [hsig, Option.some.injEq] at h
  exact (@SignatureScheme.Ideal.sign_inj .transparent SignatureScheme.ideal_transparent _ _ _ _
    rfl rfl h).2.symm

/-- What is hashed for the sample claims. -/
def sampleHashed : List Bytes :=
  canonicalBytes sampleRecord.payload ::
    sampleRecords.map fun r => canonicalBytes (r.claim "device-1").toDict

theorem nodup_sampleHashed : (sampleHashed.map sha256).Nodup := by
  decide +kernel

/-- Items that make the sample claims have nothing else hashed. -/
theorem mem_sampleHashed {items : List Dict} (hread : ∀ item ∈ items, ∃ r ∈ sampleRecords,
      ∀ index, @readItem .ascii "device-1" index item = .ok (r.payload, r.claim "device-1"))
    {b : Bytes} (hb : b ∈ @segmentHashed .ascii "device-1" sampleRecords items) :
    b ∈ sampleHashed := by
  have hmem {r : OfflineRecord} (hr : r ∈ sampleRecords) (h : b = canonicalBytes r.payload ∨
      b = canonicalBytes (r.claim "device-1").toDict) : b ∈ sampleHashed := by
    rcases h with h | h <;> rw [h]
    · rcases List.mem_pair.mp hr with rfl | rfl <;> exact List.mem_cons_self
    · exact List.mem_cons_of_mem _ (List.mem_map_of_mem hr)
  rcases hb with ⟨r, hr, hb⟩ | ⟨item, hitem, index, payload, claim, hitems, hb⟩
  · exact hmem hr hb
  · obtain ⟨r, hr, hread⟩ := hread item hitem
    obtain ⟨rfl, rfl⟩ := Prod.mk.inj (Except.ok.inj ((hread index).symm.trans hitems))
    exact hmem hr hb

theorem verifyItem_sampleItem {r : OfflineRecord} {prevLocal : Option String} (index : Nat)
    (hlink : ∀ digest, prevLocal = some digest →
      (r.claim "device-1").prevLocal = .str digest) :
    @verifyItem .ascii .transparent sampleDevice index prevLocal (sampleItem r) =
      .ok (r.claim "device-1") := by
  have hread : @readItem .ascii sampleDevice.deviceId index (sampleItem r) =
      .ok (r.payload, r.claim "device-1") := readItem_sampleItem r index
  have hsignature : @verifyHex .transparent sampleDevice.publicPem
      (offlineClaimHash (r.claim "device-1")) (@clientSignature .ascii (sampleItem r)) = .ok true :=
    @verifyHex_sign .transparent SignatureScheme.ideal_transparent "device key" rfl _
  have hhash : (sampleItem r).get "payload_hash" = .str (r.claim "device-1").payloadHash := rfl
  unfold verifyItem
  rw [hread, Except.ok_bind']
  simp only [hhash, hsignature, decide_true, require, if_true, Except.ok_bind', Except.pure_eq]
  cases prevLocal with
  | none => rfl
  | some digest =>
    simp only [hlink digest rfl, decide_true, if_true, Except.ok_bind']

theorem verifySegment_sampleItems {r s : OfflineRecord}
    (hlink : s.prevLocal = offlineClaimHash (r.claim "device-1")) :
    @verifySegment .ascii .transparent sampleDevice [sampleItem r, sampleItem s] =
      .ok [(sampleItem r, r.claim "device-1"), (sampleItem s, s.claim "device-1")] := by
  have hfirst := @verifyItem_sampleItem r none 0 nofun
  have hnext := @verifyItem_sampleItem s (some (offlineClaimHash (r.claim "device-1"))) 1
    fun digest hdigest => by
      rw [OfflineRecord.claim_prevLocal, ← Option.some.inj hdigest, hlink]
  simp only [verifySegment, verifyItems, hfirst, hnext, Except.ok_bind', Except.pure_eq]

theorem verifySegment_sound_sample : ∃ run, List.IsInfix run sampleRecords ∧
    List.Forall₂ (@Submits .ascii) (sampleRecords.map sampleItem) run := by
  have hverified := @verifySegment_sampleItems sampleRecord (nextRecord sampleRecord) rfl
  refine @verifySegment_sound .ascii .transparent SignatureScheme.ideal_transparent sampleDevice
    sampleDeviceKey rfl sampleRecords deviceChain_sampleRecords _ ?_ ?_ _ hverified
  · intro item hitem m hm
    obtain ⟨r, hr, rfl⟩ := List.mem_map.mp hitem
    exact ⟨r, hr, signed_sampleItem hm⟩
  · refine collisionFreeOn_of_nodup nodup_sampleHashed fun b hb => mem_sampleHashed ?_ hb
    intro item hitem
    obtain ⟨r, hr, rfl⟩ := List.mem_map.mp hitem
    exact ⟨r, hr, readItem_sampleItem r⟩

end Attest
