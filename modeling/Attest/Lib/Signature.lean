import Attest.Lib.Bytes

/-!
# Signatures

A signature library with keys in PEM, as the program calls it : it reads a PEM, signs
a message with a private key and checks a signature with a public one. Results hold
for any such library. Where they need it, they assume it ideal
(`SignatureScheme.Ideal`) : a public key accepts exactly the signature its private
key makes, and no signature stands for two messages or two keys.
-/

/-- What a PEM text holds. -/
inductive PemKind where
  /-- A key of the type asked for. -/
  | usable
  /-- A key of another type. -/
  | other
  /-- No key at all. -/
  | invalid
deriving DecidableEq

/-- An Ed25519 library over PEM texts. -/
class SignatureScheme where
  privateKind : String → PemKind
  publicKind : String → PemKind
  /-- The public PEM of a private one. -/
  publicPem : String → String
  /-- `sign sk message`. -/
  sign : String → Bytes → Bytes
  /-- `verify pk message signature`. -/
  verify : String → Bytes → Bytes → Bool

namespace SignatureScheme

theorem replicate_append_cons_inj {k l : Nat} {s t : Bytes}
    (h : List.replicate k 1 ++ 0 :: s = List.replicate l 1 ++ 0 :: t) : k = l ∧ s = t := by
  induction k generalizing l with
  | zero =>
    cases l with
    | zero => simpa using h
    | succ l => simp [List.replicate_succ] at h
  | succ k ih =>
    cases l with
    | zero => simp [List.replicate_succ] at h
    | succ l =>
      simp only [List.replicate_succ, List.cons_append, List.cons.injEq, true_and] at h
      obtain ⟨rfl, rfl⟩ := ih h
      exact ⟨rfl, rfl⟩

variable [SignatureScheme]

/-- Verification accepts exactly what the matching key signed. -/
structure Ideal : Prop where
  publicKind_publicPem {sk : String} : privateKind sk = .usable →
    publicKind (publicPem sk) = .usable
  verify_iff {sk : String} {m s : Bytes} : privateKind sk = .usable →
    (verify (publicPem sk) m s = true ↔ s = sign sk m)
  sign_inj {sk sk' : String} {m m' : Bytes} : privateKind sk = .usable →
    privateKind sk' = .usable → sign sk m = sign sk' m' →
      publicPem sk = publicPem sk' ∧ m = m'

/-- A scheme that writes down the key, its length in ones, and the message. -/
@[reducible] def transparent : SignatureScheme where
  privateKind _ := .usable
  publicKind _ := .usable
  publicPem sk := sk
  sign sk m := List.replicate (Bytes.utf8 sk).length 1 ++ 0 :: (Bytes.utf8 sk ++ m)
  verify pk m s := s == List.replicate (Bytes.utf8 pk).length 1 ++ 0 :: (Bytes.utf8 pk ++ m)

end SignatureScheme

/-- The assumption can be met. -/
theorem SignatureScheme.ideal_transparent : @SignatureScheme.Ideal SignatureScheme.transparent := by
  refine @SignatureScheme.Ideal.mk SignatureScheme.transparent (fun _ => rfl) (fun _ => ?_)
    (fun _ _ h => ?_)
  · exact beq_iff_eq
  · obtain ⟨hlength, happend⟩ := SignatureScheme.replicate_append_cons_inj h
    obtain ⟨hkey, rfl⟩ := List.append_inj happend hlength
    exact ⟨Bytes.utf8_injective hkey, rfl⟩

/-- An Ed25519 private key. -/
structure SigningKeyPair [SignatureScheme] where
  privatePem : String
  isEd25519 : SignatureScheme.privateKind privatePem = .usable

/-- The public PEM of the pair. -/
def SigningKeyPair.publicPem [SignatureScheme] (k : SigningKeyPair) : String :=
  SignatureScheme.publicPem k.privatePem
