import Attest.Envelope
import Attest.OfflineClaim
import Attest.OfflineStore

/-!
# The chain of a device

While the service is out of reach `_gate_offline` signs a claim over each event and queues it
(`gateOffline`), and afterwards `_drain_offline` hands the queue over in chunks and drops what
was accepted (`drainOffline`). The next claim is after the last queued one, or where the queue
is empty after the one that `chain.json` names (`chainState`), which is written after the
queue.

Every chunk is a segment of claims next to each other, whatever the crashes were, and the
server verifies it (`chunks_verify`). All the claims together are one chain exactly where no
gate finds the queue empty and `chain.json` behind it (`noFork_iff`).
-/

set_option linter.unusedSectionVars false

namespace Attest

/-! ## Records -/

/-- What `_gate_offline` queues. -/
structure QueuedRecord where
  action : String
  output : Dict
  occurredAt : String
  localSeq : Int
  prevLocal : Option String
  payloadHash : String
  clientSignature : String
  claimHash : String
  traceId : Option String
  localStatus : String

/-- The claim that the record was signed as. -/
def QueuedRecord.claim (deviceId : String) (r : QueuedRecord) : OfflineClaim :=
  buildOfflineClaim deviceId r.localSeq (optStr r.prevLocal) r.occurredAt r.action r.payloadHash

/-- The record as the object that is stored. -/
def QueuedRecord.toDict (r : QueuedRecord) : Dict :=
  [("action", .str r.action),
    ("output", .obj r.output),
    ("occurred_at", .str r.occurredAt),
    ("local_seq", .int r.localSeq),
    ("prev_local", optStr r.prevLocal),
    ("payload_hash", .str r.payloadHash),
    ("client_signature", .str r.clientSignature),
    ("claim_hash", .str r.claimHash),
    ("trace_id", optStr r.traceId),
    ("local_status", .str r.localStatus)]

/-- The item of a replay. -/
def QueuedRecord.item (r : QueuedRecord) : Dict :=
  [("action", .str r.action),
    ("output", .obj r.output),
    ("occurred_at", .str r.occurredAt),
    ("local_seq", .int r.localSeq),
    ("prev_local", optStr r.prevLocal),
    ("payload_hash", .str r.payloadHash),
    ("client_signature", .str r.clientSignature),
    ("trace_id", optStr r.traceId),
    ("local_status", .str r.localStatus)]

/-- What `chain.json` holds. -/
structure ChainHead where
  nextSeq : Int
  prevLocal : Option String

/-- `buffer.jsonl` and `chain.json` of the state directory. -/
structure StateDir where
  file : Option Bytes
  head : Option ChainHead

/-- `DeviceKey`. -/
structure DeviceKey [SignatureScheme] where
  deviceId : String
  pair : SigningKeyPair

/-- What `_gate_offline` is called with, with the clock and the status of its verdict. -/
structure OfflineCall where
  action : String
  output : Dict
  trace : Option String
  occurredAt : String
  localStatus : String

section Client

variable [SignatureScheme] [PyUnicode] [RecordSealing QueuedRecord]

/-! ## Gates -/

/-- `chain_state()`. -/
def chainState (dir : StateDir) : Except PyError (Int × Option String) := do
  let records : List QueuedRecord ← OfflineStore.readAll dir.file
  match records.getLast? with
  | some last => return (last.localSeq + 1, some last.claimHash)
  | none =>
    match dir.head with
    | some head => return (head.nextSeq, head.prevLocal)
    | none => return (1, none)

/-- The record of a call, signed after the claim before. -/
def signRecord (device : DeviceKey) (call : OfflineCall) (localSeq : Int)
    (prevLocal : Option String) : Except PyError QueuedRecord := do
  let payloadHash := sha256Hex call.output
  let claimHash := offlineClaimHash (buildOfflineClaim device.deviceId localSeq (optStr prevLocal)
    call.occurredAt call.action payloadHash)
  let clientSignature ← signHex device.pair.privatePem claimHash
  return {
    action := call.action
    output := call.output
    occurredAt := call.occurredAt
    localSeq := localSeq
    prevLocal := prevLocal
    payloadHash := payloadHash
    clientSignature := clientSignature
    claimHash := claimHash
    traceId := call.trace
    localStatus := call.localStatus }

/-- `_gate_offline` after its verdict, up to the append. -/
def queueOffline (device : DeviceKey) (dir : StateDir) (call : OfflineCall) (nonce : Bytes) :
    Except PyError (StateDir × QueuedRecord) := do
  let (localSeq, prevLocal) ← chainState dir
  let r ← signRecord device call localSeq prevLocal
  return ({ dir with file := OfflineStore.append dir.file nonce r }, r)

/-- `remember_head(..)`. -/
def rememberHead (dir : StateDir) (r : QueuedRecord) : StateDir :=
  { dir with head := some ⟨r.localSeq + 1, some r.claimHash⟩ }

/-- `_gate_offline` after its verdict. -/
def gateOffline (device : DeviceKey) (dir : StateDir) (call : OfflineCall) (nonce : Bytes) :
    Except PyError (StateDir × QueuedRecord) := do
  let (dir, r) ← queueOffline device dir call nonce
  return (rememberHead dir r, r)

/-! ## Drains -/

/-- `pending[:batch]`, then the same of `pending[batch:]`, at most so many times. -/
def chunksFrom {α : Type} (batch : Nat) : Nat → List α → List (List α)
  | 0, _ => []
  | _, [] => []
  | rounds + 1, x :: xs => (x :: xs).take batch :: chunksFrom batch rounds ((x :: xs).drop batch)

/-- The chunks of a drain, where `batch` is positive. -/
def chunks {α : Type} (batch : Nat) (pending : List α) : List (List α) :=
  chunksFrom batch pending.length pending

/-- The loop of `_drain_offline` over its chunks. `post` is the server, `none` where the
request raises. -/
def drainChunks {σ : Type} (post : σ → List Dict → Option σ) :
    σ → Option Bytes → List (List QueuedRecord) → Except PyError (σ × Option Bytes × Nat)
  | server, file, [] => .ok (server, file, 0)
  | server, file, chunk :: rest =>
    match post server (chunk.map QueuedRecord.item) with
    | none => .ok (server, file, 0)
    | some server => do
      let file ← OfflineStore.drop file chunk.length
      let (server, file, sent) ← drainChunks post server file rest
      return (server, file, chunk.length + sent)

/-- `_drain_offline(batch=..)`, with the server after it. -/
def drainOffline {σ : Type} (post : σ → List Dict → Option σ) (server : σ) (dir : StateDir)
    (batch : Nat) : Except PyError (σ × StateDir × Nat) := do
  let pending ← OfflineStore.readAll dir.file
  let (server, file, sent) ← drainChunks post server dir.file (chunks batch pending)
  return (server, { dir with file := file }, sent)

/-- A server that accepts chunks or not, as it is told. -/
def answer : List Bool → List Dict → Option (List Bool)
  | true :: answers, _ => some answers
  | _, _ => none

/-! ## Runs -/

/-- What happens to the state directory. A crash anywhere else leaves it as it is. -/
inductive DeviceStep where
  | gate (call : OfflineCall) (nonce : Bytes)
  /-- A crash after the append and before `chain.json`. -/
  | gateCrash (call : OfflineCall) (nonce : Bytes)
  /-- A drain whose chunks are accepted or not. A crash before the queue is replaced leaves
  what a refusal leaves. -/
  | drain (batch : Nat) (answers : List Bool)
  | restart

/-- The state directory, with all the claims that were ever queued and whether the gate of the
last one wrote `chain.json`. -/
structure DeviceRun where
  dir : StateDir
  queued : List QueuedRecord
  headWritten : Bool

def newDevice : DeviceRun where
  dir := ⟨none, none⟩
  queued := []
  headWritten := true

def DeviceRun.step (device : DeviceKey) (s : DeviceRun) : DeviceStep → DeviceRun
  | .gate call nonce =>
    match gateOffline device s.dir call nonce with
    | .ok (dir, r) => ⟨dir, s.queued ++ [r], true⟩
    | .error _ => s
  | .gateCrash call nonce =>
    match queueOffline device s.dir call nonce with
    | .ok (dir, r) => ⟨dir, s.queued ++ [r], false⟩
    | .error _ => s
  | .drain batch answers =>
    match drainOffline answer answers s.dir batch with
    | .ok (_, dir, _) => { s with dir := dir }
    | .error _ => s
  | .restart => s

def DeviceRun.run (device : DeviceKey) (s : DeviceRun) (steps : List DeviceStep) : DeviceRun :=
  steps.foldl (DeviceRun.step device) s

/-- The claims have different numbers, and each names the hash of the one before it. -/
def NoFork (deviceId : String) (queued : List QueuedRecord) : Prop :=
  (queued.map QueuedRecord.localSeq).Nodup ∧
    ∀ r ∈ queued, (r.localSeq = 1 ∧ r.prevLocal = none) ∨
      ∃ q ∈ queued, q.localSeq + 1 = r.localSeq ∧
        r.prevLocal = some (offlineClaimHash (q.claim deviceId))

/-- A gate that finds the queue empty is after one that wrote `chain.json`. -/
def FindsHead (s : DeviceRun) : DeviceStep → Prop
  | .gate _ _ | .gateCrash _ _ =>
    OfflineStore.readAll s.dir.file = .ok ([] : List QueuedRecord) → s.headWritten = true
  | _ => True

def HeadsFound (device : DeviceKey) : DeviceRun → List DeviceStep → Prop
  | _, [] => True
  | s, next :: steps => FindsHead s next ∧ HeadsFound device (s.step device next) steps

/-! ## What is queued -/

/-- The device signed the record's claim, over its output. -/
structure Signed (device : DeviceKey) (r : QueuedRecord) : Prop where
  payloadHash : r.payloadHash = sha256Hex r.output
  claimHash : r.claimHash = offlineClaimHash (r.claim device.deviceId)
  signature : signHex device.pair.privatePem r.claimHash = .ok r.clientSignature

theorem signRecord_eq_ok (device : DeviceKey) (call : OfflineCall) (localSeq : Int)
    (prevLocal : Option String) :
    ∃ r, signRecord device call localSeq prevLocal = .ok r ∧ Signed device r ∧
      r.localSeq = localSeq ∧ r.prevLocal = prevLocal := by
  have hsign := signHex_hex device.pair.isEd25519 (sha256 (canonicalBytes
    (buildOfflineClaim device.deviceId localSeq (optStr prevLocal) call.occurredAt call.action
      (sha256Hex call.output)).toDict))
  rw [signRecord]
  refine ⟨_, (Except.bind_eq_ok).mpr ⟨_, hsign, rfl⟩, ⟨rfl, rfl, hsign⟩, rfl, rfl⟩

/-- A record is of its call. -/
theorem signRecord_fields {device : DeviceKey} {call : OfflineCall} {localSeq : Int}
    {prevLocal : Option String} {r : QueuedRecord}
    (h : signRecord device call localSeq prevLocal = .ok r) :
    r.action = call.action ∧ r.output = call.output ∧ r.traceId = call.trace := by
  obtain ⟨_, -, h⟩ := Except.bind_eq_ok.mp h
  obtain rfl := Except.ok.inj h
  exact ⟨rfl, rfl, rfl⟩

theorem queueOffline_fields {device : DeviceKey} {dir dir' : StateDir} {call : OfflineCall}
    {nonce : Bytes} {r : QueuedRecord} (h : queueOffline device dir call nonce = .ok (dir', r)) :
    r.action = call.action ∧ r.output = call.output ∧ r.traceId = call.trace := by
  obtain ⟨next, -, h⟩ := Except.bind_eq_ok.mp h
  obtain ⟨r', hsign, h⟩ := Except.bind_eq_ok.mp h
  obtain ⟨-, rfl⟩ := Prod.mk.inj (Except.ok.inj h)
  exact signRecord_fields hsign

/-- What the queue holds : claims of the device, each of which names the one before it. -/
structure QueueKept (device : DeviceKey) (dir : StateDir) (pending : List QueuedRecord) : Prop where
  lines : OfflineStore.Sealed dir.file pending
  signed : ∀ r ∈ pending, Signed device r
  linked : pending.IsChain fun r s => s.prevLocal = some r.claimHash

variable [LawfulSealing QueuedRecord]

theorem queueKept_new (device : DeviceKey) : QueueKept device newDevice.dir [] where
  lines := OfflineStore.sealed_none
  signed := nofun
  linked := List.isChain_nil

/-- The next claim is after the last that is queued. -/
theorem chainState_pending {dir : StateDir} {pending : List QueuedRecord}
    (h : OfflineStore.Sealed dir.file pending) {last : QueuedRecord}
    (hlast : pending.getLast? = some last) :
    chainState dir = .ok (last.localSeq + 1, some last.claimHash) := by
  rw [chainState, h.readAll, Except.ok_bind', hlast]
  rfl

/-- Or where none is, after what `chain.json` names. -/
theorem chainState_empty {dir : StateDir}
    (h : OfflineStore.Sealed dir.file ([] : List QueuedRecord)) :
    chainState dir = .ok ((dir.head.map ChainHead.nextSeq).getD 1,
      dir.head.bind ChainHead.prevLocal) := by
  rw [chainState, h.readAll]
  cases hhead : dir.head <;> rfl

/-- One more claim is queued. -/
theorem QueueKept.append {device : DeviceKey} {dir : StateDir} {pending : List QueuedRecord}
    (h : QueueKept device dir pending) (nonce : Bytes) {r : QueuedRecord}
    (hsigned : Signed device r)
    (hlink : ∀ last, pending.getLast? = some last → r.prevLocal = some last.claimHash) :
    QueueKept device { dir with file := OfflineStore.append dir.file nonce r }
      (pending ++ [r]) where
  lines := h.lines.append nonce r
  signed s hs := by
    rcases List.mem_append.mp hs with hs | hs
    · exact h.signed s hs
    · exact List.mem_singleton.mp hs ▸ hsigned
  linked := by
    refine List.IsChain.append h.linked (List.isChain_singleton r) fun last hlast s hs => ?_
    obtain rfl := Option.some.inj hs
    exact hlink last hlast

/-- What a gate appends, after what `chain_state` gives. -/
theorem QueueKept.queueOffline {device : DeviceKey} {dir : StateDir} {pending : List QueuedRecord}
    (h : QueueKept device dir pending) (call : OfflineCall) (nonce : Bytes) :
    ∃ r next, chainState dir = .ok next ∧
      queueOffline device dir call nonce =
        .ok ({ dir with file := OfflineStore.append dir.file nonce r }, r) ∧
      r.localSeq = next.1 ∧ r.prevLocal = next.2 ∧ Signed device r ∧
      QueueKept device { dir with file := OfflineStore.append dir.file nonce r }
        (pending ++ [r]) := by
  obtain ⟨next, hnext, hlink⟩ : ∃ next, chainState dir = .ok next ∧
      ∀ last, pending.getLast? = some last → next.2 = some last.claimHash := by
    cases hlast : pending.getLast? with
    | some last =>
      refine ⟨_, chainState_pending h.lines hlast, fun last' hlast' => ?_⟩
      rw [Option.some.inj hlast']
    | none =>
      rw [List.getLast?_eq_none_iff] at hlast
      subst hlast
      exact ⟨_, chainState_empty h.lines, nofun⟩
  obtain ⟨r, hr, hsigned, hseq, hprev⟩ := signRecord_eq_ok device call next.1 next.2
  refine ⟨r, next, hnext, ?_, hseq, hprev, hsigned, h.append nonce hsigned fun last hlast => ?_⟩
  · simp only [Attest.queueOffline, hnext, Except.ok_bind', hr, Except.pure_eq]
  · rw [hprev, hlink last hlast]

theorem QueueKept.dropped {device : DeviceKey} {dir : StateDir} {pending : List QueuedRecord}
    (h : QueueKept device dir pending) {file : Option Bytes} {k : Nat}
    (hfile : OfflineStore.Sealed file (pending.drop k)) :
    QueueKept device { dir with file := file } (pending.drop k) where
  lines := hfile
  signed r hr := h.signed r (List.mem_of_mem_drop hr)
  linked := h.linked.drop k

/-- A drain drops records from the front. -/
theorem drainChunks_sealed {σ : Type} (post : σ → List Dict → Option σ) :
    ∀ (server : σ) {file : Option Bytes} {pending : List QueuedRecord}
      (rest : List (List QueuedRecord)), OfflineStore.Sealed file pending →
      ∃ server' file' k, drainChunks post server file rest = .ok (server', file', k) ∧
        OfflineStore.Sealed file' (pending.drop k)
  | server, file, pending, [], h => ⟨server, file, 0, rfl, h⟩
  | server, file, pending, chunk :: rest, h => by
    cases hpost : post server (chunk.map QueuedRecord.item) with
    | none => exact ⟨server, file, 0, by rw [drainChunks, hpost], h⟩
    | some server' =>
      obtain ⟨file', hdrop, hfile'⟩ := h.drop chunk.length
      obtain ⟨server'', file'', k, hrest, hfile''⟩ :=
        drainChunks_sealed post server' rest hfile'
      refine ⟨server'', file'', chunk.length + k, ?_, ?_⟩
      · rw [drainChunks, hpost]
        simp only [hdrop, hrest, Except.ok_bind', Except.pure_eq]
      · rw [List.drop_drop] at hfile''
        exact hfile''

theorem QueueKept.drainOffline {device : DeviceKey} {dir : StateDir} {pending : List QueuedRecord}
    (h : QueueKept device dir pending) {σ : Type} (post : σ → List Dict → Option σ) (server : σ)
    (batch : Nat) :
    ∃ server' file k,
      drainOffline post server dir batch = .ok (server', { dir with file := file }, k) ∧
      QueueKept device { dir with file := file } (pending.drop k) := by
  obtain ⟨server', file, k, hdrain, hfile⟩ :=
    drainChunks_sealed post server (chunks batch pending) h.lines
  refine ⟨server', file, k, ?_, h.dropped hfile⟩
  simp only [Attest.drainOffline, h.lines.readAll, Except.ok_bind', hdrain, Except.pure_eq]

/-- A step keeps the shape of the queue. -/
theorem QueueKept.step {device : DeviceKey} {s : DeviceRun} {pending : List QueuedRecord}
    (h : QueueKept device s.dir pending) (next : DeviceStep) :
    ∃ pending', QueueKept device (s.step device next).dir pending' := by
  cases next with
  | gate call nonce =>
    obtain ⟨r, -, -, hqueue, -, -, -, h'⟩ := h.queueOffline call nonce
    refine ⟨pending ++ [r], ?_⟩
    rw [DeviceRun.step, gateOffline, hqueue]
    exact ⟨h'.lines, h'.signed, h'.linked⟩
  | gateCrash call nonce =>
    obtain ⟨r, -, -, hqueue, -, -, -, h'⟩ := h.queueOffline call nonce
    refine ⟨pending ++ [r], ?_⟩
    rw [DeviceRun.step, hqueue]
    exact h'
  | drain batch answers =>
    obtain ⟨server, file, k, hdrain, h'⟩ := h.drainOffline answer answers batch
    refine ⟨pending.drop k, ?_⟩
    rw [DeviceRun.step, hdrain]
    exact h'
  | restart => exact ⟨pending, h⟩

theorem QueueKept.run {device : DeviceKey} : ∀ {s : DeviceRun} {pending : List QueuedRecord}
    (steps : List DeviceStep), QueueKept device s.dir pending →
      ∃ pending', QueueKept device (s.run device steps).dir pending'
  | _, pending, [], h => ⟨pending, h⟩
  | _, _, next :: steps, h => by
    obtain ⟨_, h'⟩ := h.step next
    exact QueueKept.run steps h'

/-! ## Segments -/

/-- The server has the public key of the device. -/
structure Registered (device : DeviceKey) (registered : SdkDevice) : Prop where
  deviceId : registered.deviceId = device.deviceId
  publicPem : registered.publicPem = device.pair.publicPem

theorem readItem_item (deviceId : String) (index : Nat) (r : QueuedRecord) :
    readItem deviceId index r.item = .ok (r.output, buildOfflineClaim deviceId r.localSeq
      (optStr r.prevLocal) r.occurredAt r.action (sha256Hex r.output)) := rfl

theorem clientSignature_item (r : QueuedRecord) : clientSignature r.item = r.clientSignature := rfl

/-- The server makes of the item the claim that was signed. -/
theorem verifyItem_item (hideal : SignatureScheme.Ideal) {device : DeviceKey}
    {registered : SdkDevice} (hreg : Registered device registered) {r : QueuedRecord}
    (hsigned : Signed device r) (index : Nat) {before : Option OfflineClaim}
    (hlink : ∀ c, before = some c → r.prevLocal = some (offlineClaimHash c)) :
    verifyItem registered index (before.map offlineClaimHash) r.item =
      .ok (r.claim device.deviceId) := by
  have hclaim : buildOfflineClaim registered.deviceId r.localSeq (optStr r.prevLocal) r.occurredAt
      r.action (sha256Hex r.output) = r.claim device.deviceId := by
    rw [QueuedRecord.claim, hreg.deviceId, hsigned.payloadHash]
  have hsignature : verifyHex registered.publicPem (offlineClaimHash (r.claim device.deviceId))
      (clientSignature r.item) = .ok true := by
    rw [hreg.publicPem, ← hsigned.claimHash, clientSignature_item]
    exact verifyHex_of_signHex hideal hsigned.signature
  have hhash : r.item.get "payload_hash" = .str (r.claim device.deviceId).payloadHash := rfl
  rw [verifyItem, readItem_item, Except.ok_bind', hclaim]
  simp only [hhash, hsignature, decide_true, require, if_true, Except.ok_bind', Except.pure_eq]
  cases before with
  | none => rfl
  | some c =>
    have hne : offlineClaimHash c ≠ "" := sha256Hex_ne_empty _
    have hprev : (r.claim device.deviceId).prevLocal = .str (offlineClaimHash c) := by
      simp [QueuedRecord.claim, buildOfflineClaim, hlink c rfl, optStr, JVal.orElse, JVal.truthy,
        hne]
    simp [hprev]

/-- Claims next to each other verify. -/
theorem verifyItems_signed (hideal : SignatureScheme.Ideal) {device : DeviceKey}
    {registered : SdkDevice} (hreg : Registered device registered) :
    ∀ {segment : List QueuedRecord} (index : Nat) (before : Option OfflineClaim),
      (∀ r ∈ segment, Signed device r) →
      (segment.IsChain fun r s => s.prevLocal = some r.claimHash) →
      (∀ r, segment.head? = some r → ∀ c, before = some c →
        r.prevLocal = some (offlineClaimHash c)) →
      verifyItems registered index (before.map offlineClaimHash) (segment.map QueuedRecord.item) =
        .ok (segment.map fun r => (r.item, r.claim device.deviceId))
  | [], _, _, _, _, _ => rfl
  | r :: segment, index, before, hsigned, hlinked, hfirst => by
    have hr : Signed device r := hsigned r (by simp)
    rw [List.isChain_cons] at hlinked
    have hitem := verifyItem_item hideal hreg hr index (hfirst r rfl)
    have hrest := verifyItems_signed hideal hreg (index + 1) (some (r.claim device.deviceId))
      (fun s hs => hsigned s (by simp [hs])) hlinked.2 fun s hs c hc => by
        rw [hlinked.1 s hs, hr.claimHash, Option.some.inj hc]
    rw [Option.map_some] at hrest
    simp only [List.map_cons, verifyItems, hitem, hrest, Except.ok_bind', Except.pure_eq]

theorem infix_of_mem_chunksFrom {α : Type} {batch : Nat} : ∀ {rounds : Nat} {xs chunk : List α},
    chunk ∈ chunksFrom batch rounds xs → List.IsInfix chunk xs
  | 0, _, _, h => by simp [chunksFrom] at h
  | _ + 1, [], _, h => by simp [chunksFrom] at h
  | rounds + 1, x :: xs, chunk, h => by
    rw [chunksFrom] at h
    rcases List.mem_cons.mp h with rfl | h
    · exact (List.take_prefix _ _).isInfix
    · exact (infix_of_mem_chunksFrom h).trans (List.drop_suffix _ _).isInfix

/-- Whatever a device queued and handed over before, and whenever it crashed, the server
verifies every chunk of its next drain. -/
theorem chunks_verify (hideal : SignatureScheme.Ideal) (device : DeviceKey)
    (registered : SdkDevice) (hreg : Registered device registered) (steps : List DeviceStep)
    (batch : Nat) :
    ∃ pending, OfflineStore.readAll (newDevice.run device steps).dir.file = .ok pending ∧
      ∀ chunk ∈ chunks batch pending,
        verifySegment registered (chunk.map QueuedRecord.item) =
          .ok (chunk.map fun r => (r.item, r.claim device.deviceId)) := by
  obtain ⟨pending, h⟩ := (queueKept_new device).run steps
  refine ⟨pending, h.lines.readAll, fun chunk hchunk => ?_⟩
  have hrun := infix_of_mem_chunksFrom hchunk
  have hlinked := h.linked.infix hrun
  exact verifyItems_signed hideal hreg 0 none
    (fun r hr => h.signed r (hrun.subset hr)) hlinked nofun

/-! ## One chain -/

/-- The claim is the next one after those before it. -/
structure Follows (deviceId : String) (before : List QueuedRecord) (r : QueuedRecord) : Prop where
  localSeq : r.localSeq = before.length + 1
  prevLocal : r.prevLocal = before.getLast?.map QueuedRecord.claimHash
  claimHash : r.claimHash = offlineClaimHash (r.claim deviceId)

def ClaimChain (deviceId : String) (queued : List QueuedRecord) : Prop :=
  ∀ before r after, queued = before ++ r :: after → Follows deviceId before r

theorem ClaimChain.append {deviceId : String} {queued : List QueuedRecord} {r : QueuedRecord}
    (h : ClaimChain deviceId queued) (hr : Follows deviceId queued r) :
    ClaimChain deviceId (queued ++ [r]) := by
  intro before s after heq
  rcases List.eq_nil_or_concat after with rfl | ⟨init, last, rfl⟩
  · obtain ⟨rfl, hs⟩ := List.append_inj' heq rfl
    rwa [← List.singleton_inj.mp hs]
  · rw [List.concat_eq_append] at heq
    have hsplit : queued ++ [r] = (before ++ s :: init) ++ [last] := by simpa using heq
    exact h before s init (List.append_inj' hsplit rfl).1

/-- The claims are numbered in their order. -/
theorem ClaimChain.localSeq_getElem {deviceId : String} {queued : List QueuedRecord}
    (h : ClaimChain deviceId queued) (i : Nat) (hi : i < queued.length) :
    queued[i].localSeq = i + 1 := by
  have hfollows := h (queued.take i) queued[i] (queued.drop (i + 1))
    (by rw [← List.drop_eq_getElem_cons hi, List.take_append_drop])
  rw [hfollows.localSeq, List.length_take, Nat.min_eq_left hi.le]

theorem ClaimChain.noFork {deviceId : String} {queued : List QueuedRecord}
    (h : ClaimChain deviceId queued) : NoFork deviceId queued := by
  constructor
  · rw [List.nodup_iff_injective_get]
    intro i j hij
    have hi := h.localSeq_getElem i (by simpa using i.isLt)
    have hj := h.localSeq_getElem j (by simpa using j.isLt)
    simp only [List.get_eq_getElem, List.getElem_map] at hij
    exact Fin.ext (by omega)
  · intro r hr
    obtain ⟨before, after, heq⟩ := List.append_of_mem hr
    have hfollows := h before r after heq
    rcases List.eq_nil_or_concat before with rfl | ⟨init, q, rfl⟩
    · exact Or.inl ⟨by simpa using hfollows.localSeq, by simpa using hfollows.prevLocal⟩
    rw [List.concat_eq_append] at heq hfollows
    have hq := h init q (r :: after) (by simpa using heq)
    refine Or.inr ⟨q, by simp [heq], ?_, ?_⟩
    · rw [hq.localSeq, hfollows.localSeq, List.length_append, List.length_singleton]
      push_cast
      rfl
    · rw [hfollows.prevLocal, List.getLast?_concat, Option.map_some, hq.claimHash]

/-- What `remember_head` writes after the last of the claims. -/
def headAfter (queued : List QueuedRecord) : Option ChainHead :=
  queued.getLast?.map fun last => ⟨last.localSeq + 1, some last.claimHash⟩

/-- The state directory after claims of one chain, of which `written` were queued when
`chain.json` was written. -/
structure ChainKept (device : DeviceKey) (s : DeviceRun) (pending : List QueuedRecord)
    (written : Nat) : Prop where
  queue : QueueKept device s.dir pending
  suffix : List.IsSuffix pending s.queued
  chained : ClaimChain device.deviceId s.queued
  head : s.dir.head = headAfter (s.queued.take written)
  le : written ≤ s.queued.length
  headWritten : s.headWritten = true ↔ written = s.queued.length

theorem chainKept_new (device : DeviceKey) : ChainKept device newDevice [] 0 where
  queue := queueKept_new device
  suffix := List.suffix_refl _
  chained before r after heq := by simp [newDevice] at heq
  head := rfl
  le := le_refl _
  headWritten := iff_of_true rfl rfl

/-- What `chain_state` gives where the queue is empty. -/
theorem ChainKept.chainState_empty {device : DeviceKey} {s : DeviceRun} {written : Nat}
    (h : ChainKept device s [] written) :
    chainState s.dir =
      .ok (written + 1, (s.queued.take written).getLast?.map QueuedRecord.claimHash) := by
  rw [Attest.chainState_empty h.queue.lines, h.head, headAfter]
  rcases List.eq_nil_or_concat (s.queued.take written) with hnil | ⟨init, last, hlast⟩
  · have hzero : written = 0 := by
      have hlength := congrArg List.length hnil
      rw [List.length_take, Nat.min_eq_left h.le] at hlength
      exact hlength
    simp [hzero]
  · rw [List.concat_eq_append] at hlast
    have hlength := congrArg List.length hlast
    rw [List.length_take, Nat.min_eq_left h.le, List.length_append,
      List.length_singleton] at hlength
    have hsplit := List.take_append_drop written s.queued
    rw [hlast, List.append_assoc, List.singleton_append] at hsplit
    have hfollows := h.chained init last (s.queued.drop written) hsplit.symm
    rw [hlast, List.getLast?_concat]
    simp only [Option.map_some, Option.getD_some, Option.bind_some, hfollows.localSeq, hlength]
    push_cast
    rfl

/-- A gate that finds a claim in the queue, or `chain.json` written, goes on with the chain. -/
theorem ChainKept.chainState_eq {device : DeviceKey} {s : DeviceRun} {pending : List QueuedRecord}
    {written : Nat} (h : ChainKept device s pending written)
    (hfound : pending = [] → s.headWritten = true) :
    chainState s.dir =
      .ok (s.queued.length + 1, s.queued.getLast?.map QueuedRecord.claimHash) := by
  rcases List.eq_nil_or_concat pending with rfl | ⟨init, last, rfl⟩
  · have hwritten := h.headWritten.mp (hfound rfl)
    rw [h.chainState_empty, hwritten, List.take_length]
  · rw [List.concat_eq_append] at h
    obtain ⟨older, hqueued⟩ := h.suffix
    rw [← List.append_assoc] at hqueued
    have hfollows := h.chained (older ++ init) last [] (by rw [← hqueued])
    rw [chainState_pending h.queue.lines List.getLast?_concat, ← hqueued, List.getLast?_concat,
      hfollows.localSeq]
    simp only [List.length_append, List.length_singleton, Option.map_some]
    push_cast
    rfl

theorem FindsHead.pending {s : DeviceRun} {pending : List QueuedRecord} {call : OfflineCall}
    {nonce : Bytes} (hlines : OfflineStore.Sealed s.dir.file pending) :
    (FindsHead s (.gate call nonce) ↔ (pending = [] → s.headWritten = true)) ∧
      (FindsHead s (.gateCrash call nonce) ↔ (pending = [] → s.headWritten = true)) := by
  have hread : (OfflineStore.readAll s.dir.file = .ok ([] : List QueuedRecord)) ↔ pending = [] := by
    rw [hlines.readAll, Except.ok.injEq]
  exact ⟨by rw [FindsHead, hread], by rw [FindsHead, hread]⟩

/-- What a gate queues is the next claim. -/
theorem ChainKept.follows {device : DeviceKey} {s : DeviceRun} {pending : List QueuedRecord}
    {written : Nat} (h : ChainKept device s pending written)
    (hfound : pending = [] → s.headWritten = true) (call : OfflineCall) (nonce : Bytes) :
    ∃ r, queueOffline device s.dir call nonce =
        .ok ({ s.dir with file := OfflineStore.append s.dir.file nonce r }, r) ∧
      Follows device.deviceId s.queued r ∧ QueueKept device
        { s.dir with file := OfflineStore.append s.dir.file nonce r } (pending ++ [r]) := by
  obtain ⟨r, next, hnext, hqueue, hseq, hprev, hsigned, h'⟩ := h.queue.queueOffline call nonce
  rw [h.chainState_eq hfound] at hnext
  obtain rfl := Except.ok.inj hnext
  exact ⟨r, hqueue, ⟨hseq, hprev, hsigned.claimHash⟩, h'⟩

theorem headAfter_append (queued : List QueuedRecord) (r : QueuedRecord) :
    headAfter (queued ++ [r]) = some ⟨r.localSeq + 1, some r.claimHash⟩ := by
  rw [headAfter, List.getLast?_concat, Option.map_some]

/-- A step that finds its head keeps the chain. -/
theorem ChainKept.step {device : DeviceKey} {s : DeviceRun} {pending : List QueuedRecord}
    {written : Nat} (h : ChainKept device s pending written) (next : DeviceStep)
    (hfinds : FindsHead s next) :
    ∃ pending' written', ChainKept device (s.step device next) pending' written' := by
  cases next with
  | gate call nonce =>
    have hfound := (FindsHead.pending h.queue.lines).1.mp hfinds
    obtain ⟨r, hqueue, hfollows, h'⟩ := h.follows hfound call nonce
    have hstep : s.step device (.gate call nonce) = ⟨rememberHead
        { s.dir with file := OfflineStore.append s.dir.file nonce r } r,
          s.queued ++ [r], true⟩ := by
      rw [DeviceRun.step, gateOffline, hqueue]
      rfl
    refine ⟨pending ++ [r], s.queued.length + 1, ?_⟩
    rw [hstep]
    exact {
      queue := ⟨h'.lines, h'.signed, h'.linked⟩
      suffix := (List.suffix_append_inj_of_length_eq rfl).mpr ⟨h.suffix, rfl⟩
      chained := h.chained.append hfollows
      head := by
        have hall : (s.queued ++ [r]).take (s.queued.length + 1) = s.queued ++ [r] :=
          List.take_of_length_le (by simp)
        rw [hall, headAfter_append]
        rfl
      le := by simp
      headWritten := by simp }
  | gateCrash call nonce =>
    have hfound := (FindsHead.pending h.queue.lines).2.mp hfinds
    obtain ⟨r, hqueue, hfollows, h'⟩ := h.follows hfound call nonce
    refine ⟨pending ++ [r], written, ?_⟩
    rw [DeviceRun.step, hqueue]
    have hle := h.le
    exact {
      queue := h'
      suffix := (List.suffix_append_inj_of_length_eq rfl).mpr ⟨h.suffix, rfl⟩
      chained := h.chained.append hfollows
      head := by rw [List.take_append_of_le_length h.le]; exact h.head
      le := by
        rw [List.length_append]
        omega
      headWritten := by
        rw [List.length_append, List.length_singleton]
        constructor
        · nofun
        · omega }
  | drain batch answers =>
    obtain ⟨server, file, k, hdrain, h'⟩ := h.queue.drainOffline answer answers batch
    refine ⟨pending.drop k, written, ?_⟩
    rw [DeviceRun.step, hdrain]
    exact ⟨h', (List.drop_suffix k pending).trans h.suffix, h.chained, h.head, h.le,
      h.headWritten⟩
  | restart => exact ⟨pending, written, h⟩

/-- A gate after a drain of what `chain.json` does not know signs a number again. -/
theorem ChainKept.forks {device : DeviceKey} {s : DeviceRun} {pending : List QueuedRecord}
    {written : Nat} (h : ChainKept device s pending written) {next : DeviceStep}
    (hfinds : ¬ FindsHead s next) :
    ¬ ((s.step device next).queued.map QueuedRecord.localSeq).Nodup := by
  -- The claim that `chain.json` lacks was signed with the same number.
  have hagain (hnone : pending = []) (hlag : ¬ s.headWritten = true) (call : OfflineCall)
      (nonce : Bytes) : ∃ r dir, queueOffline device s.dir call nonce = .ok (dir, r) ∧
        ¬ ((s.queued ++ [r]).map QueuedRecord.localSeq).Nodup := by
    subst hnone
    obtain ⟨r, next, hnext, hqueue, hseq, -, -, -⟩ := h.queue.queueOffline call nonce
    rw [h.chainState_empty] at hnext
    obtain rfl := Except.ok.inj hnext
    refine ⟨r, _, hqueue, fun hnodup => ?_⟩
    have hlt : written < s.queued.length :=
      lt_of_le_of_ne h.le fun heq => hlag (h.headWritten.mpr heq)
    rw [List.map_append, List.nodup_append] at hnodup
    refine hnodup.2.2 s.queued[written].localSeq (List.mem_map_of_mem (List.getElem_mem hlt))
      r.localSeq (by simp) ?_
    rw [h.chained.localSeq_getElem written hlt, hseq]
  cases next with
  | gate call nonce =>
    rw [(FindsHead.pending h.queue.lines).1, Classical.not_imp] at hfinds
    obtain ⟨r, dir, hqueue, hfork⟩ := hagain hfinds.1 hfinds.2 call nonce
    rw [DeviceRun.step, gateOffline, hqueue]
    exact hfork
  | gateCrash call nonce =>
    rw [(FindsHead.pending h.queue.lines).2, Classical.not_imp] at hfinds
    obtain ⟨r, dir, hqueue, hfork⟩ := hagain hfinds.1 hfinds.2 call nonce
    rw [DeviceRun.step, hqueue]
    exact hfork
  | drain batch answers => exact absurd trivial hfinds
  | restart => exact absurd trivial hfinds

/-- What was queued stays on record. -/
theorem prefix_step (device : DeviceKey) (s : DeviceRun) (next : DeviceStep) :
    List.IsPrefix s.queued (s.step device next).queued := by
  have hrefl : List.IsPrefix s.queued s.queued := List.prefix_refl _
  have hmore (r : QueuedRecord) : List.IsPrefix s.queued (s.queued ++ [r]) := List.prefix_append _ _
  cases next <;> simp only [DeviceRun.step] <;> (try split) <;> first | exact hrefl | exact hmore _

theorem prefix_run (device : DeviceKey) : ∀ (s : DeviceRun) (steps : List DeviceStep),
    List.IsPrefix s.queued (s.run device steps).queued
  | _, [] => List.prefix_refl _
  | s, next :: steps => (prefix_step device s next).trans (prefix_run device _ steps)

theorem ChainKept.run {device : DeviceKey} : ∀ {s : DeviceRun} {pending : List QueuedRecord}
    {written : Nat} (steps : List DeviceStep), ChainKept device s pending written →
      (NoFork device.deviceId (s.run device steps).queued ↔ HeadsFound device s steps)
  | _, _, _, [], h => iff_of_true h.chained.noFork trivial
  | s, _, _, next :: steps, h => by
    by_cases hfinds : FindsHead s next
    · obtain ⟨_, _, h'⟩ := h.step next hfinds
      have hrest := ChainKept.run steps h'
      exact ⟨fun hfork => ⟨hfinds, hrest.mp hfork⟩, fun hheads => hrest.mpr hheads.2⟩
    · refine iff_of_false (fun hfork => ?_) fun hheads => hfinds hheads.1
      have hprefix := (prefix_run device (s.step device next) steps).map QueuedRecord.localSeq
      exact h.forks hfinds (hfork.1.sublist hprefix.sublist)

/-- The chain of a device does not fork exactly where no gate finds the queue empty while the
gate of the last claim did not get to write `chain.json`. -/
theorem noFork_iff (device : DeviceKey) (steps : List DeviceStep) :
    NoFork device.deviceId (newDevice.run device steps).queued ↔
      HeadsFound device newDevice steps :=
  (chainKept_new device).run steps

/-- A crash after the first append, a drain of the queue and a gate sign one number twice. -/
theorem forks_after_crash (device : DeviceKey) (call call' : OfflineCall) (nonce nonce' : Bytes) :
    ¬ NoFork device.deviceId (newDevice.run device
      [.gateCrash call nonce, .drain 100 [true], .gate call' nonce']).queued := by
  obtain ⟨r, hqueue, hfollows, h⟩ := (chainKept_new device).follows (fun _ => rfl) call nonce
  have hlines : OfflineStore.Sealed (OfflineStore.append none nonce r) [r] := h.lines
  obtain ⟨file, hdrop, hfile⟩ := hlines.drop 1
  have hcrash : newDevice.step device (.gateCrash call nonce) =
      ⟨⟨OfflineStore.append none nonce r, none⟩, [r], false⟩ := by
    rw [DeviceRun.step, hqueue]
    rfl
  have hdrain : drainOffline answer [true] ⟨OfflineStore.append none nonce r, none⟩ 100 =
      .ok ([], ⟨file, none⟩, 1) := by
    rw [drainOffline, hlines.readAll, Except.ok_bind']
    have hchunks : drainChunks answer [true] (OfflineStore.append none nonce r)
        (chunks 100 [r]) = .ok ([], file, 1) := by
      simp only [chunks, List.length_singleton, chunksFrom, List.take_succ_cons, List.take_nil,
        drainChunks, answer]
      rw [hdrop]
      rfl
    rw [hchunks]
    rfl
  have hempty : (newDevice.step device (.gateCrash call nonce)).step device (.drain 100 [true]) =
      ⟨⟨file, none⟩, [r], false⟩ := by
    rw [hcrash, DeviceRun.step, hdrain]
  have hkept : ChainKept device ⟨⟨file, none⟩, [r], false⟩ [] 0 := {
    queue := ⟨hfile, nofun, List.isChain_nil⟩
    suffix := List.nil_suffix
    chained := by
      have hchained := (chainKept_new device).chained.append hfollows
      exact hchained
    head := rfl
    le := Nat.zero_le _
    headWritten := iff_of_false (fun h => Bool.noConfusion h) (fun h => by cases h) }
  have hlost : ¬ FindsHead ⟨⟨file, none⟩, [r], false⟩ (.gate call' nonce') := fun hfinds =>
    Bool.noConfusion ((FindsHead.pending hkept.queue.lines).1.mp hfinds rfl)
  have hforks := hkept.forks hlost
  rw [← hempty] at hforks
  exact fun hfork => hforks hfork.1

end Client

/-! ## A chain that forks -/

section Samples

namespace Sample

scoped instance deviceScheme : SignatureScheme := .transparent

/-- A record's line : its JSON text in hex, with a byte before. -/
def recordLine (r : QueuedRecord) : String :=
  Bytes.hex (0 :: Bytes.utf8 (String.ofList (JVal.print (.obj r.toDict))))

theorem recordLine_injective : Function.Injective recordLine := by
  intro r s h
  have hbytes := (List.cons.inj (Bytes.hex_injective h)).2
  have hchars := congrArg String.toList (Bytes.utf8_injective hbytes)
  rw [String.toList_ofList, String.toList_ofList] at hchars
  have hdict := JVal.obj.inj (JVal.print_injective hchars)
  cases r
  cases s
  simp only [QueuedRecord.toDict, List.cons.injEq, Prod.mk.injEq, true_and, JVal.str.injEq,
    JVal.obj.injEq, JVal.int.injEq, optStr_inj, and_true] at hdict
  simp only [QueuedRecord.mk.injEq]
  tauto

open Classical in
/-- Records sealed as their lines. -/
noncomputable scoped instance recordSealing : RecordSealing QueuedRecord where
  sealRecord _ r := recordLine r
  openLine line := if h : ∃ r, recordLine r = line then some h.choose else none

scoped instance : LawfulSealing QueuedRecord where
  openLine_sealRecord nonce r := by
    have hex : ∃ s, recordLine s = recordLine r := ⟨r, rfl⟩
    have hopen : RecordSealing.openLine (recordLine r) = some hex.choose := dif_pos hex
    rw [RecordSealing.sealRecord, recordSealing]
    exact hopen.trans (congrArg some (recordLine_injective hex.choose_spec))
  base64 nonce r := by
    intro c hc
    have hchars : (RecordSealing.sealRecord nonce r).toList =
        Bytes.hexChars (0 :: Bytes.utf8 (String.ofList (JVal.print (.obj r.toDict)))) :=
      String.toList_ofList
    rw [hchars] at hc
    exact OfflineStore.Sample.isBase64_hexChars _ c hc
  nonempty nonce r := by
    intro h
    have hchars : (RecordSealing.sealRecord nonce r).toList =
        Bytes.hexChars (0 :: Bytes.utf8 (String.ofList (JVal.print (.obj r.toDict)))) :=
      String.toList_ofList
    rw [h] at hchars
    cases hchars

def deviceKey : DeviceKey where
  deviceId := "device-1"
  pair := sampleDeviceKey

def offlineCall : OfflineCall where
  action := "model_completion"
  output := [("text", .str "hello")]
  trace := none
  occurredAt := "2025-01-01T00:00:00+00:00"
  localStatus := "unevaluated"

/-- A gate, a drain of the queue and two gates, whose records are still queued. -/
def gateSteps : List DeviceStep :=
  [.gate offlineCall [], .drain 1 [true], .gate offlineCall [], .gate offlineCall []]

end Sample

open Sample OfflineStore.Sample

theorem registered_sample : Registered deviceKey sampleDevice where
  deviceId := rfl
  publicPem := rfl

theorem chunks_verify_two_gates :
    ∃ pending, OfflineStore.readAll (newDevice.run deviceKey gateSteps).dir.file = .ok pending ∧
      ∀ chunk ∈ chunks 100 pending,
        verifySegment sampleDevice (chunk.map QueuedRecord.item) =
          .ok (chunk.map fun r => (r.item, r.claim deviceKey.deviceId)) := by
  have hideal : SignatureScheme.Ideal := SignatureScheme.ideal_transparent
  exact chunks_verify hideal deviceKey sampleDevice registered_sample gateSteps 100

/-- Two gates of a new device, the second of which finds the head. -/
theorem noFork_iff_sample : NoFork deviceKey.deviceId (newDevice.run deviceKey
    [.gate offlineCall [], .gate offlineCall []]).queued := by
  refine (noFork_iff deviceKey _).mpr ⟨fun _ => rfl, fun _ => ?_, trivial⟩
  obtain ⟨r, hqueue, -, -⟩ := (chainKept_new deviceKey).follows (fun _ => rfl) offlineCall []
  rw [DeviceRun.step, gateOffline, hqueue]
  rfl

theorem lagging_head_forks : ¬ NoFork deviceKey.deviceId (newDevice.run deviceKey
    [.gateCrash offlineCall [], .drain 100 [true], .gate offlineCall []]).queued :=
  forks_after_crash deviceKey offlineCall offlineCall [] []

end Samples

end Attest
