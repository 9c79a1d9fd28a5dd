import Attest.Lib.JsonOrder
import Attest.Lib.Outcome
import Attest.Lib.Sha256
import Attest.Lib.Signature

/-!
# Hashing and signing

The fingerprint of a JSON object is the SHA-256 of its canonical text, in hex
(`sha256Hex`). Signatures are made over the 32 bytes a fingerprint stands for and
travel in hex (`signHex`, `verifyHex`). Every event names the suite it was hashed and
signed under, and only the suites of this build verify (`isSupported`).

Where Python raises, the model returns a `PyError` : the program's own exceptions
with their messages, and by name alone those of Python, of the database and of the
libraries.
-/

namespace Attest

/-- What a call raises. -/
inductive PyError where
  | valueError
  | typeError
  | overflowError
  | attributeError
  | keyError (key : String)
  | lookupError (msg : String)
  /-- A constraint of the database. -/
  | integrityError
  /-- A value the database cannot store. -/
  | dataError
  /-- A query for one row found several. -/
  | multipleResultsFound
  /-- A query for one row found none. -/
  | noResultFound
  | invalidEventType (msg : String)
  | eventSequence (msg : String)
  | traceAccessDenied (msg : String)
  | traceNotFound (msg : String)
  | keyWrapping (msg : String)
  | policyEngine (msg : String)
  | noActivePolicy (msg : String)
  | remediationRef (msg : String)
  | offlineSegment (msg : String)
  | approvalNotFound (msg : String)
  | approvalAlreadyResolved (msg : String)
  | accessReview (msg : String)
  | erasureTarget (msg : String)
  | payloadAlreadyErased (msg : String)
  /-- A `ValueError` with a message of the program. -/
  | invalid (msg : String)
  | profile (msg : String)
  | pack (msg : String)
  | watch (msg : String)
deriving DecidableEq

/-! ## Canonical form -/

/-- `canonical_bytes(obj)`. -/
def canonicalBytes (obj : Dict) : Bytes :=
  Bytes.utf8 (JVal.obj obj).canonical

/-- `canonical_bytes` of any JSON value. -/
def canonicalBytesOf (v : JVal) : Bytes :=
  Bytes.utf8 v.canonical

theorem canonicalBytes_eq (obj : Dict) : canonicalBytes obj = canonicalBytesOf (.obj obj) :=
  rfl

/-- `sha256_hex(obj)`. -/
def sha256Hex (obj : Dict) : String :=
  Bytes.hex (sha256 (canonicalBytes obj))

theorem canonicalBytes_inj {a b : Dict} :
    canonicalBytes a = canonicalBytes b ↔ (JVal.obj a).sortKeys = (JVal.obj b).sortKeys := by
  rw [canonicalBytes_eq, canonicalBytes_eq, canonicalBytesOf, canonicalBytesOf, Bytes.utf8_inj,
    JVal.canonical_inj]

/-- The canonical encoding is a faithful fingerprint : two JSON values without repeated keys
have the same canonical bytes exactly when they are equal up to the order of object
keys, at every depth. Only one of them has to be known to repeat no key. -/
theorem canonicalBytesOf_eq_iff {v w : JVal} (hv : v.Distinct) :
    canonicalBytesOf v = canonicalBytesOf w ↔ v.SameUpToOrder w := by
  unfold canonicalBytesOf
  rw [Bytes.utf8_inj, JVal.canonical_eq_iff hv]

theorem canonicalBytesOf_eq_iff_sample :
    canonicalBytesOf (.obj [("a", .int 1), ("b", .arr [.null, .str "é"])]) =
      canonicalBytesOf (.obj [("b", .arr [.null, .str "é"]), ("a", .int 1)]) := by
  have hv : (JVal.obj [("a", .int 1), ("b", .arr [.null, .str "é"])]).Distinct := by
    simp [JVal.Distinct, JVal.DistinctList, JVal.DistinctItems]
  exact (canonicalBytesOf_eq_iff hv).mpr (.perm (List.Perm.swap ..))

theorem length_canonicalBytes (obj : Dict) :
    JVal.keyRoom obj ≤ (canonicalBytes obj).length :=
  (JVal.keyRoom_le_length_canonical obj).trans (Bytes.length_le_length_utf8 _)

@[simp] theorem fromHex_sha256Hex (obj : Dict) :
    Bytes.fromHex (sha256Hex obj) = some (sha256 (canonicalBytes obj)) :=
  Bytes.fromHex_hex _

/-- Objects with one fingerprint have one canonical form, where no two of the hashed
texts collide. -/
theorem canonicalBytes_eq_of_sha256Hex_eq {S : Set Bytes} (hS : CollisionFreeOn S) {a b : Dict}
    (ha : canonicalBytes a ∈ S) (hb : canonicalBytes b ∈ S) (h : sha256Hex a = sha256Hex b) :
    canonicalBytes a = canonicalBytes b :=
  hS.eq ha hb (Bytes.hex_injective h)

/-! ## Algorithm suites -/

def algSha256Ed25519V1 : String := "sha256-ed25519-v1"

def defaultAlgorithm : String := algSha256Ed25519V1

def supportedAlgorithms : List String := [algSha256Ed25519V1]

/-- Values Python can hash : every JSON value but lists and objects. -/
def hashable : JVal → Bool
  | .arr _ | .obj _ => false
  | _ => true

/-- `is_supported(alg)`, a set membership, which raises on a value that cannot be
hashed. -/
def isSupported (alg : JVal) : Except PyError Bool :=
  if hashable alg then .ok (supportedAlgorithms.any fun a => alg = .str a) else .error .typeError

@[simp] theorem isSupported_str (alg : String) :
    isSupported (.str alg) = .ok (alg == algSha256Ed25519V1) := by
  simp [isSupported, hashable, supportedAlgorithms, beq_eq_decide]

theorem isSupported_eq_true {alg : JVal} :
    isSupported alg = .ok true ↔ alg = .str algSha256Ed25519V1 := by
  unfold isSupported
  cases alg <;> simp [hashable, supportedAlgorithms]

/-! ## Ed25519 -/

/-- `bytes.fromhex(text)`. -/
def fromHex (text : String) : Except PyError Bytes :=
  match Bytes.fromHex text with
  | some b => .ok b
  | none => .error .valueError

@[simp] theorem fromHex_eq_ok {text : String} {b : Bytes} :
    fromHex text = .ok b ↔ Bytes.fromHex text = some b := by
  unfold fromHex
  cases Bytes.fromHex text <;> simp

section Signing

variable [SignatureScheme]

/-- `load_private_key(private_pem)`. -/
def loadPrivateKey (privatePem : String) : Except PyError String :=
  match SignatureScheme.privateKind privatePem with
  | .usable => .ok privatePem
  | .other => .error .typeError
  | .invalid => .error .valueError

/-- `load_public_key(public_pem)`. -/
def loadPublicKey (publicPem : String) : Except PyError String :=
  match SignatureScheme.publicKind publicPem with
  | .usable => .ok publicPem
  | .other => .error .typeError
  | .invalid => .error .valueError

/-- `sign_hex(private_pem, message_hex)`. -/
def signHex (privatePem messageHex : String) : Except PyError String := do
  let priv ← loadPrivateKey privatePem
  let message ← fromHex messageHex
  return Bytes.hex (SignatureScheme.sign priv message)

/-- `verify_hex(public_pem, message_hex, signature_hex)`. -/
def verifyHex (publicPem messageHex signatureHex : String) : Except PyError Bool := do
  let pub ← loadPublicKey publicPem
  let signature ← fromHex signatureHex
  let message ← fromHex messageHex
  return SignatureScheme.verify pub message signature

theorem loadPrivateKey_eq_ok {privatePem priv : String} :
    loadPrivateKey privatePem = .ok priv ↔
      SignatureScheme.privateKind privatePem = .usable ∧ priv = privatePem := by
  unfold loadPrivateKey
  cases SignatureScheme.privateKind privatePem <;> simp [eq_comm]

theorem loadPublicKey_eq_ok {publicPem pub : String} :
    loadPublicKey publicPem = .ok pub ↔
      SignatureScheme.publicKind publicPem = .usable ∧ pub = publicPem := by
  unfold loadPublicKey
  cases SignatureScheme.publicKind publicPem <;> simp [eq_comm]

/-- A signature is made over bytes the text stands for, by an Ed25519 key. -/
theorem signHex_eq_ok {privatePem messageHex signature : String} :
    signHex privatePem messageHex = .ok signature ↔
      SignatureScheme.privateKind privatePem = .usable ∧
        ∃ m, Bytes.fromHex messageHex = some m ∧
          signature = Bytes.hex (SignatureScheme.sign privatePem m) := by
  simp only [signHex, Except.bind_eq_ok, loadPrivateKey_eq_ok, fromHex_eq_ok, Except.pure_eq,
    Except.ok.injEq]
  constructor
  · rintro ⟨priv, ⟨hk, rfl⟩, m, hm, rfl⟩
    exact ⟨hk, m, hm, rfl⟩
  · rintro ⟨hk, m, hm, rfl⟩
    exact ⟨privatePem, ⟨hk, rfl⟩, m, hm, rfl⟩

theorem signHex_hex {privatePem : String} (h : SignatureScheme.privateKind privatePem = .usable)
    (m : Bytes) :
    signHex privatePem (Bytes.hex m) = .ok (Bytes.hex (SignatureScheme.sign privatePem m)) :=
  signHex_eq_ok.mpr ⟨h, m, Bytes.fromHex_hex m, rfl⟩

/-- A signature is judged only when both texts stand for bytes. -/
theorem verifyHex_eq_ok {publicPem messageHex signatureHex : String} {accepted : Bool} :
    verifyHex publicPem messageHex signatureHex = .ok accepted ↔
      SignatureScheme.publicKind publicPem = .usable ∧
        ∃ s m, Bytes.fromHex signatureHex = some s ∧ Bytes.fromHex messageHex = some m ∧
          SignatureScheme.verify publicPem m s = accepted := by
  simp only [verifyHex, Except.bind_eq_ok, loadPublicKey_eq_ok, fromHex_eq_ok, Except.pure_eq,
    Except.ok.injEq]
  constructor
  · rintro ⟨pub, ⟨hk, rfl⟩, s, hs, m, hm, hv⟩
    exact ⟨hk, s, m, hs, hm, hv⟩
  · rintro ⟨hk, s, m, hs, hm, hv⟩
    exact ⟨publicPem, ⟨hk, rfl⟩, s, hs, m, hm, hv⟩

/-- What a key signs, its public half accepts. -/
theorem verifyHex_sign (hideal : SignatureScheme.Ideal) {sk : String}
    (hk : SignatureScheme.privateKind sk = .usable) (m : Bytes) :
    verifyHex (SignatureScheme.publicPem sk) (Bytes.hex m)
      (Bytes.hex (SignatureScheme.sign sk m)) = .ok true := by
  rw [verifyHex_eq_ok]
  exact ⟨hideal.publicKind_publicPem hk, _, m, Bytes.fromHex_hex _, Bytes.fromHex_hex _,
    (hideal.verify_iff hk).mpr rfl⟩

/-- A signature that was made verifies. -/
theorem verifyHex_of_signHex (hideal : SignatureScheme.Ideal) {sk messageHex signature : String}
    (h : signHex sk messageHex = .ok signature) :
    verifyHex (SignatureScheme.publicPem sk) messageHex signature = .ok true := by
  obtain ⟨hk, m, hm, rfl⟩ := signHex_eq_ok.mp h
  rw [verifyHex_eq_ok]
  exact ⟨hideal.publicKind_publicPem hk, _, m, Bytes.fromHex_hex _, hm,
    (hideal.verify_iff hk).mpr rfl⟩

/-- What the public half accepts, the key signed. -/
theorem eq_sign_of_verifyHex (hideal : SignatureScheme.Ideal) {sk messageHex signatureHex : String}
    (hk : SignatureScheme.privateKind sk = .usable)
    (h : verifyHex (SignatureScheme.publicPem sk) messageHex signatureHex = .ok true) :
    ∃ m, Bytes.fromHex messageHex = some m ∧
      Bytes.fromHex signatureHex = some (SignatureScheme.sign sk m) := by
  obtain ⟨-, s, m, hs, hm, hv⟩ := verifyHex_eq_ok.mp h
  rw [(hideal.verify_iff hk).mp hv] at hs
  exact ⟨m, hm, hs⟩

end Signing

end Attest
