import Attest.Db

/-!
# The content store

Content is stored once per organisation and fingerprint, sealed under a fresh key with
associated data that names the suite, the organisation and the fingerprint. For an
organisation in customer-key mode the key is stored wrapped to its public key, and
`readPayloadContent` reads nothing back. Storing touches the two content tables alone
(`insertSealed_eq_ok`).
-/

namespace Attest

/-- The library that wraps a content key, as far as `wrap_key` asks it : what it reads
a PEM as. -/
class KeyWrapping where
  publicKind : String → PemKind

/-- A library that reads every PEM as a key it can wrap to. -/
@[reducible] def KeyWrapping.lenient : KeyWrapping := ⟨fun _ => .usable⟩

def algAes256GcmV1 : String := "aes-256-gcm-v1"

def defaultContentAlgorithm : String := algAes256GcmV1

/-- `is_supported_content(alg)`. -/
def isSupportedContent (alg : String) : Bool :=
  alg == algAes256GcmV1

def defaultWrapAlgorithm : String := "rsa3072-oaep-sha256"

/-- `_aad(enc_alg, org_id, payload_hash)`. -/
def aad (encAlg orgId payloadHash : String) : Bytes :=
  canonicalBytes
    [("alg", .str encAlg), ("org_id", .str orgId), ("payload_hash", .str payloadHash)]

/-- `_decrypt_content(blob, key, aad)`, `none` where it is unreadable. -/
def decryptContent (blob : SealedBlob) (key aad : Bytes) : Option Dict :=
  if blob.key = key ∧ blob.aad = aad then some blob.content else none

/-- `wrap_key(public_pem, data_key)`. -/
def wrapKey [KeyWrapping] (publicPem : String) (key : Bytes) : Except PyError StoredKey :=
  match KeyWrapping.publicKind publicPem with
  | .usable => .ok (.wrapped publicPem key)
  | .other => .error (.keyWrapping "expected an RSA public wrapping key")
  | .invalid => .error .valueError

/-- The public key an organisation's content keys are wrapped to, in customer-key
mode. -/
def Org.wrapsTo (org : Org) : Option String :=
  if org.confidentialityMode = "customer_key" then
    match org.wrappingPublicPem with
    | some pem => if pem = "" then none else some pem
    | none => none
  else none

/-- The rows `store_encrypted_payload` adds, `none` where the content is there. -/
def sealPayload [KeyWrapping] (db : Db) (orgId payloadHash : String) (content : Dict)
    (piiLabels : List String) (contentKey : Bytes) :
    Except PyError (Option (Payload × PayloadKey)) :=
  match db.getPayload orgId payloadHash with
  | some _ => return none
  | none => do
    let encAlg := defaultContentAlgorithm
    let blob : SealedBlob := ⟨contentKey, aad encAlg orgId payloadHash, content⟩
    let wrapsTo := (db.getOrgById orgId).bind Org.wrapsTo
    let (key, wrapAlg) ← match wrapsTo with
      | some pem => (wrapKey pem contentKey).map fun k => (k, some defaultWrapAlgorithm)
      | none => .ok (.raw contentKey, none)
    return some (⟨orgId, payloadHash, blob, encAlg, piiLabels, none⟩,
      ⟨orgId, payloadHash, key, wrapAlg⟩)

/-- The inserts of `store_encrypted_payload`. -/
def insertSealed (db : Db) : Option (Payload × PayloadKey) → Except PyError Db
  | none => .ok db
  | some rows => db.insertPayload rows

/-- `read_payload_content(db, org_id, payload_hash)`. -/
def readPayloadContent (db : Db) (orgId payloadHash : String) : Option Dict :=
  match db.getPayload orgId payloadHash with
  | none => none
  | some payload =>
    if payload.erasedAt.isSome then none
    else if !isSupportedContent payload.encAlg then none
    else
      match db.getPayloadKey orgId payloadHash with
      | none => none
      | some row =>
        if row.wrapAlg.isSome then none
        else
          match row.key with
          | .raw key =>
            decryptContent payload.encryptedBlob key (aad payload.encAlg orgId payloadHash)
          | .wrapped _ _ => none

/-- Storing content touches the content tables alone. -/
theorem insertSealed_eq_ok {db db' : Db} {rows : Option (Payload × PayloadKey)}
    (h : insertSealed db rows = .ok db') :
    ∃ ps ks, db' = { db with payloads := ps, payloadKeys := ks } := by
  cases rows with
  | none =>
    obtain rfl : db = db' := by simpa [insertSealed] using h
    exact ⟨_, _, rfl⟩
  | some rows => exact ⟨_, _, (Db.insertPayload_eq_ok.mp h).2⟩

end Attest
