import Attest.Gate
import Attest.OfflineClaim

/-!
# Devices and the segments they hand in

`registerDevice` records the public key of a device. `graftOfflineSegment` verifies a
segment as a whole, then runs `run_gate` on every item and marks its output event as
deferred, with what the device claimed of it.

A refused segment leaves nothing, and neither does one with an item that is refused.
-/

set_option linter.unusedSectionVars false

namespace Attest

/-! ## Texts an item holds -/

/-- What `datetime.fromisoformat` reads a text as, by its ISO text, and `none` where it
raises `ValueError`. -/
class IsoReader where
  fromIsoFormat : String → Option String

/-- A reader of texts that are ISO texts already. -/
@[reducible] def IsoReader.verbatim : IsoReader := ⟨some⟩

namespace Sample

scoped instance : IsoReader := .verbatim

end Sample

section Texts

variable [PyUnicode]

/-- Hex digits with single underscores between them. `last` is whether a digit stands
before. -/
def readHex : Bool → List Char → Nat → Option Nat
  | last, [], acc => if last then some acc else none
  | last, c :: cs, acc =>
    if c = '_' then if last then readHex false cs acc else none
    else match Bytes.hexVal c with
      | some d => readHex true cs (16 * acc + d)
      | none => none

/-- What stands after `0x`, where it does, and after one underscore then. -/
def skipHexPrefix : List Char → List Char
  | '0' :: 'x' :: '_' :: cs | '0' :: 'X' :: '_' :: cs => cs
  | '0' :: 'x' :: cs | '0' :: 'X' :: cs => cs
  | cs => cs

/-- `int(s, 16)` of a text without `-`, `none` where it raises `ValueError`. -/
def hexInt? (cs : List Char) : Option Nat :=
  match cs.mapM PyText.toAsciiDigit with
  | none => none
  | some cs =>
    let digits := match PyText.stripBy PyText.isIntSpace cs with
      | '+' :: ds => ds
      | ds => ds
    readHex false (skipHexPrefix digits) 0

/-- `uuid.UUID(s)`, `none` where it raises `ValueError`. -/
def uuid? (s : String) : Option Uuid :=
  let bare := replaceText "uuid:" "" (replaceText "urn:" "" s)
  let digits := (PyText.stripBy (fun c => c = '{' || c = '}') bare.toList).filter (· ≠ '-')
  if digits.length = 32 then
    match hexInt? digits with
    | some n => if n < 2 ^ 128 then some (Uuid.ofNat n) else none
    | none => none
  else none

/-- The trace an item names. -/
def itemTrace (item : Dict) : Except PyError (Option Uuid) :=
  let raw := item.get "trace_id"
  if raw.truthy then
    match uuid? (PyText.str raw) with
    | some traceId => .ok (some traceId)
    | none => .error (.offlineSegment "invalid trace_id in segment")
  else .ok none

end Texts

/-! ## Devices -/

/-- The device of an organisation. -/
def Db.deviceOf (db : Db) (orgId deviceId : String) : Except PyError (Option SdkDevice) :=
  oneOrNone (db.devices.filter fun d => d.orgId = orgId ∧ d.deviceId = deviceId)

/-- `device.last_seen_at = datetime.now(UTC)`. -/
def Db.touchDevice (db : Db) (id : Uuid) (now : String) : Db :=
  { db with devices := db.devices.map fun d =>
      if d.id = id then { d with lastSeenAt := some now } else d }

/-- `UNIQUE(org_id, device_id)` of devices, with the other keys of the table. -/
def Db.insertDevice (db : Db) (d : SdkDevice) : Except PyError Db := do
  require (textOk d.deviceId && textOk d.publicPem && optTextOk d.label) .dataError
  require (!db.devices.any fun x => x.id = d.id) .integrityError
  require (!db.devices.any fun x => x.orgId = d.orgId ∧ x.deviceId = d.deviceId) .integrityError
  require (db.hasOrg d.orgId) .integrityError
  return { db with devices := db.devices ++ [d] }

structure DeviceArgs where
  orgId : String
  deviceId : String
  publicPem : String
  label : Option String

structure DeviceFresh where
  id : Uuid
  now : String

section Register

variable [PyUnicode]

/-- `register_device(db, ..)`, with the device it returns. -/
def registerDevice (db : Db) (args : DeviceArgs) (fresh : DeviceFresh) :
    Except PyError (Db × SdkDevice) := do
  match ← db.deviceOf args.orgId args.deviceId with
  | some existing =>
    if PyText.strip existing.publicPem ≠ PyText.strip args.publicPem then
      .error (.offlineSegment
        ("device " ++ args.deviceId ++ " is already registered with a different key"))
    else .ok (db.touchDevice existing.id fresh.now, { existing with lastSeenAt := some fresh.now })
  | none =>
    let device : SdkDevice := {
      id := fresh.id
      orgId := args.orgId
      deviceId := args.deviceId
      publicPem := args.publicPem
      revoked := false
      label := args.label
      lastSeenAt := some fresh.now }
    let db ← db.insertDevice device
    return (db, device)

end Register

/-! ## Grafting -/

structure GraftArgs where
  org : Org
  deviceId : String
  items : List Dict

/-- What a call is given from outside : for each of its gate calls, and the clock. -/
structure GraftFresh where
  gate : Nat → GateFresh
  now : String

/-- The answer for an item. Its `deferred` is always true. -/
structure GraftOut where
  gate : GateOut
  occurredAt : String
  localStatus : JVal
  verdictChanged : Bool

/-- The row of an event that is marked as deferred. -/
def Event.defer (e : Event) (occurredAt : Option String) (deviceId signature : String) : Event :=
  { e with deferred := true
           clientDeviceId := some deviceId
           clientSignature := some signature
           occurredAt := occurredAt }

section Graft

variable [SignatureScheme] [KeyWrapping] [PyUnicode] [IsoReader]

/-- The gate call of an item. -/
def itemGate (org : Org) (item payload : Dict) (traceId : Option Uuid) : GateArgs where
  org := org
  action := PyText.str (item.getD "action" (.str "model_completion"))
  output := payload
  traceId := traceId
  policyVersion := none
  remediates := none

/-- `_mark_deferred(db, ..)`. -/
def markDeferred (db : Db) (orgId : String) (traceId : Uuid) (seq : Int)
    (occurredAt deviceId signature : String) : Except PyError Db := do
  match ← oneOrNone (db.events.filter fun e =>
      e.orgId = orgId ∧ e.traceId = traceId ∧ e.seq = seq) with
  | none => .ok db
  | some e => do
    require (textOk deviceId && textOk signature) .dataError
    return { db with events := db.events.map fun x =>
      if x.id = e.id then x.defer (IsoReader.fromIsoFormat occurredAt) deviceId signature else x }

/-- The answer for an item, from that of its gate call. -/
def graftOut (item : Dict) (claim : OfflineClaim) (out : GateOut) : GraftOut where
  gate := out
  occurredAt := claim.occurredAt
  localStatus := item.get "local_status"
  verdictChanged := item.get "local_status" ≠ .null &&
    !(item.get "local_status").pyEq (.str out.status.name)

/-- One round of the loop over the verified items. -/
def graftItem (svc : SigningKeyPair) (db : Db) (org : Org) (device : SdkDevice)
    (item : Dict) (claim : OfflineClaim) (fresh : GateFresh) : Except PyError (Db × GraftOut) := do
  let traceId ← itemTrace item
  match item.get "output" with
  | .obj payload => do
    let (db, out) ← runGate svc db (itemGate org item payload traceId) fresh
    let db ← markDeferred db org.id out.traceId out.outputSeq claim.occurredAt device.deviceId
      (clientSignature item)
    return (db, graftOut item claim out)
  | _ => .error (.keyError "output")

/-- The rounds from an index on. -/
def graftItems (svc : SigningKeyPair) (org : Org) (device : SdkDevice) (fresh : Nat → GateFresh) :
    Nat → Db → List (Dict × OfflineClaim) → Except PyError (Db × List GraftOut)
  | _, db, [] => .ok (db, [])
  | index, db, (item, claim) :: rest => do
    let (db, out) ← graftItem svc db org device item claim (fresh index)
    let (db, outs) ← graftItems svc org device fresh (index + 1) db rest
    return (db, out :: outs)

/-- `graft_offline_segment(db, ..)`. -/
def graftOfflineSegment (svc : SigningKeyPair) (db : Db) (args : GraftArgs) (fresh : GraftFresh) :
    Except PyError (Db × List GraftOut) := do
  match ← db.deviceOf args.org.id args.deviceId with
  | none => .error (.offlineSegment ("unknown device: " ++ args.deviceId))
  | some device => do
    require (!device.revoked) (.offlineSegment ("device is revoked: " ++ args.deviceId))
    let verified ← verifySegment device args.items
    let (db, outs) ← graftItems svc args.org device fresh.gate 0 db verified
    return (db.touchDevice device.id fresh.now, outs)

end Graft

end Attest
