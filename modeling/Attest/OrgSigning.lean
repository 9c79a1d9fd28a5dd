import Attest.Db

/-!
# Signing keys of organisations

An organisation with an active key of its own signs under it, every other one under
the service's key, and an event records which. Provisioning retires the active keys
and adds one, so keys once used stay in the table (`provisionManagedSigningKey_eq_ok`).

What `signEventForOrg` returns was made by the private half of a pair whose public half
the returned key id names (`signEventForOrg_spec`).
-/

namespace Attest

/-! ## Retiring -/

/-- `existing.status = "retired"` for the active keys of the organisation. -/
def OrgSigningKey.retire (orgId : String) (k : OrgSigningKey) : OrgSigningKey :=
  if k.orgId = orgId ∧ k.status = "active" then { k with status := "retired" } else k

@[simp] theorem retire_keyId (orgId : String) (k : OrgSigningKey) :
    (k.retire orgId).keyId = k.keyId := by
  unfold OrgSigningKey.retire
  split <;> rfl

@[simp] theorem retire_publicPem (orgId : String) (k : OrgSigningKey) :
    (k.retire orgId).publicPem = k.publicPem := by
  unfold OrgSigningKey.retire
  split <;> rfl

@[simp] theorem retire_privatePem (orgId : String) (k : OrgSigningKey) :
    (k.retire orgId).privatePem = k.privatePem := by
  unfold OrgSigningKey.retire
  split <;> rfl

/-- `public_pem_for_key(db, key_id)`. -/
def publicPemForKey (db : Db) (keyId : Uuid) : Except PyError String :=
  match db.getSigningKey keyId with
  | some key => .ok key.publicPem
  | none => .error (.lookupError ("signing key not found: " ++ keyId.str))

/-! ## Signing and provisioning -/

variable [SignatureScheme]

/-- `sign_event_for_org(db, org_id, message_hex)`, with the service key `svc`. -/
def signEventForOrg (svc : SigningKeyPair) (db : Db) (orgId messageHex : String) :
    Except PyError (String × Option Uuid) :=
  let fallback := (signHex svc.privatePem messageHex).map fun s => (s, none)
  match db.activeSigningKey orgId with
  | none => fallback
  | some key =>
    match key.privatePem with
    | none => fallback
    | some pem =>
      if pem = "" then fallback else (signHex pem messageHex).map fun s => (s, some key.keyId)

/-- `provision_managed_signing_key(db, org_id)`, with the generated key and its id. -/
def provisionManagedSigningKey (db : Db) (orgId : String) (pair : SigningKeyPair) (keyId : Uuid)
    (createdAt : Int) : Except PyError Db := do
  require (!db.signingKeys.any fun k => k.keyId = keyId) .integrityError
  require (db.hasOrg orgId) .integrityError
  return { db with
    signingKeys := db.signingKeys.map (OrgSigningKey.retire orgId) ++ [{
      keyId := keyId
      orgId := orgId
      alg := defaultAlgorithm
      publicPem := pair.publicPem
      privatePem := some pair.privatePem
      status := "active"
      createdAt := createdAt }] }

theorem provisionManagedSigningKey_eq_ok {db db' : Db} {orgId : String} {pair : SigningKeyPair}
    {keyId : Uuid} {createdAt : Int}
    (h : provisionManagedSigningKey db orgId pair keyId createdAt = .ok db') :
    (∀ k ∈ db.signingKeys, k.keyId ≠ keyId) ∧ db' = { db with
      signingKeys := db.signingKeys.map (OrgSigningKey.retire orgId) ++ [⟨keyId, orgId,
        defaultAlgorithm, pair.publicPem, some pair.privatePem, "active", createdAt⟩] } := by
  simp only [provisionManagedSigningKey, Except.bind_eq_ok, require_eq_ok, Except.pure_eq,
    Except.ok.injEq, Bool.not_eq_true', List.any_eq_false, decide_eq_true_eq] at h
  obtain ⟨_, hfresh, _, _, rfl⟩ := h
  exact ⟨hfresh, rfl⟩

/-- A key row written by `provisionManagedSigningKey` : both halves of one pair. -/
def OrgSigningKey.Managed (k : OrgSigningKey) : Prop :=
  ∃ pair : SigningKeyPair, k.privatePem = some pair.privatePem ∧ k.publicPem = pair.publicPem

/-- The pair whose private half made a signature, by the key id an event records. -/
def keyPairOf (svc : SigningKeyPair) (db : Db) : Option Uuid → SigningKeyPair → Prop
  | none, pair => pair = svc
  | some keyId, pair => ∃ k ∈ db.signingKeys, k.keyId = keyId ∧
      k.privatePem = some pair.privatePem ∧ k.publicPem = pair.publicPem

/-- Signing for an organisation uses the pair the returned key id names. -/
theorem signEventForOrg_spec {svc : SigningKeyPair} {db : Db} {orgId : String} {m : Bytes}
    {signature : String} {keyId : Option Uuid} (hkeys : ∀ k ∈ db.signingKeys, k.Managed)
    (h : signEventForOrg svc db orgId (Bytes.hex m) = .ok (signature, keyId)) :
    ∃ pair, keyPairOf svc db keyId pair ∧
      signature = Bytes.hex (SignatureScheme.sign pair.privatePem m) := by
  have hfallback {s : String} {i : Option Uuid}
      (hs : (signHex svc.privatePem (Bytes.hex m)).map (fun s => (s, (none : Option Uuid))) =
        .ok (s, i)) : ∃ pair, keyPairOf svc db i pair ∧
          s = Bytes.hex (SignatureScheme.sign pair.privatePem m) := by
    rw [signHex_hex svc.isEd25519] at hs
    obtain ⟨rfl, rfl⟩ : _ = s ∧ none = i := by simpa [Except.map] using hs
    exact ⟨svc, rfl, rfl⟩
  unfold signEventForOrg at h
  cases hactive : db.activeSigningKey orgId with
  | none =>
    rw [hactive] at h
    exact hfallback h
  | some key =>
    obtain ⟨hmem, -, -⟩ := Db.mem_of_activeSigningKey hactive
    obtain ⟨pair, hpriv, hpub⟩ := hkeys key hmem
    rw [hactive] at h
    simp only [hpriv] at h
    by_cases hempty : pair.privatePem = ""
    · rw [if_pos hempty] at h
      exact hfallback h
    · rw [if_neg hempty, signHex_hex pair.isEd25519] at h
      obtain ⟨rfl, rfl⟩ : _ = signature ∧ some key.keyId = keyId := by simpa [Except.map] using h
      exact ⟨pair, ⟨key, hmem, rfl, hpriv, hpub⟩, rfl⟩

end Attest
