import Mathlib.Data.Set.Basic

/-!
# What can be derived from messages

Messages in a symbolic model of encryption : secrets, private keys, data, and messages
wrapped to a public key or sealed under a secret. `Derives` is the closure of a set of
messages under the operations anyone can do : unwrap with the private key, open with the
secret, wrap to any public key and seal under a derivable secret.

A secret stays out of reach where every known message is `Safe` for it : the secret
occurs under the public keys of unknown private keys alone (`not_derives_secret`). The
secrets of messages that are wrapped once are exactly those in the open, and those
wrapped to the public key of a known private key (`derives_secret_iff`).
-/

/-- A message over secrets, private keys, public keys and data. -/
inductive Message (κ π ρ δ : Type) where
  | secret (s : κ)
  | privateKey (sk : π)
  | data (d : δ)
  | wrapped (pk : ρ) (m : Message κ π ρ δ)
  | sealed (s : κ) (m : Message κ π ρ δ)

namespace Message

variable {κ π ρ δ : Type} {opens : π → ρ → Prop} {known : Set (Message κ π ρ δ)}

/-- What follows from the messages of `known`, where `opens sk pk` says which private key
unwraps what was wrapped to which public key. -/
inductive Derives (opens : π → ρ → Prop) (known : Set (Message κ π ρ δ)) :
    Message κ π ρ δ → Prop where
  | known {m : Message κ π ρ δ} : m ∈ known → Derives opens known m
  | unwrap {sk : π} {pk : ρ} {m : Message κ π ρ δ} : Derives opens known (.wrapped pk m) →
      Derives opens known (.privateKey sk) → opens sk pk → Derives opens known m
  | decrypt {s : κ} {m : Message κ π ρ δ} : Derives opens known (.sealed s m) →
      Derives opens known (.secret s) → Derives opens known m
  | wrap {m : Message κ π ρ δ} (pk : ρ) : Derives opens known m →
      Derives opens known (.wrapped pk m)
  | encrypt {s : κ} {m : Message κ π ρ δ} : Derives opens known (.secret s) →
      Derives opens known m → Derives opens known (.sealed s m)

theorem Derives.mono {larger : Set (Message κ π ρ δ)} (hsub : known ⊆ larger)
    {m : Message κ π ρ δ} (h : Derives opens known m) : Derives opens larger m := by
  induction h with
  | known hmem => exact .known (hsub hmem)
  | unwrap _ _ hopens ihm ihk => exact .unwrap ihm ihk hopens
  | decrypt _ _ ihm ihs => exact .decrypt ihm ihs
  | wrap pk _ ih => exact .wrap pk ih
  | encrypt _ _ ihs ihm => exact .encrypt ihs ihm

/-- The message does not give `s` away to a holder of the private keys `keys`, nor any
other private key. -/
def Safe (opens : π → ρ → Prop) (keys : Set π) (s : κ) : Message κ π ρ δ → Prop
  | .secret t => t ≠ s
  | .privateKey sk => sk ∈ keys
  | .data _ => True
  | .wrapped pk m => (∃ sk ∈ keys, opens sk pk) → Safe opens keys s m
  | .sealed _ m => Safe opens keys s m

/-- What follows from safe messages is safe. -/
theorem Derives.safe {keys : Set π} {s : κ} (hknown : ∀ m ∈ known, m.Safe opens keys s)
    {m : Message κ π ρ δ} (h : Derives opens known m) : m.Safe opens keys s := by
  induction h with
  | known hmem => exact hknown _ hmem
  | unwrap _ _ hopens ihm ihk => exact ihm ⟨_, ihk, hopens⟩
  | decrypt _ _ ihm _ => exact ihm
  | wrap pk _ ih => exact fun _ => ih
  | encrypt _ _ _ ihm => exact ihm

theorem not_derives_secret (keys : Set π) {s : κ}
    (hknown : ∀ m ∈ known, m.Safe opens keys s) : ¬Derives opens known (.secret s) :=
  fun h => h.safe hknown rfl

/-- A message that is a secret, a private key, data, a secret wrapped once, or sealed
data. -/
def Plain : Message κ π ρ δ → Prop
  | .secret _ | .privateKey _ | .data _ | .wrapped _ (.secret _) | .sealed _ (.data _) => True
  | _ => False

/-- The secret is in the open, or wrapped to the public key of a private key that is. -/
def Exposed (opens : π → ρ → Prop) (known : Set (Message κ π ρ δ)) (s : κ) : Prop :=
  .secret s ∈ known ∨
    ∃ pk sk, .wrapped pk (.secret s) ∈ known ∧ .privateKey sk ∈ known ∧ opens sk pk

/-- From plain messages the exposed secrets can be derived, and no others. -/
theorem derives_secret_iff (hplain : ∀ m ∈ known, m.Plain) {s : κ} :
    Derives opens known (.secret s) ↔ Exposed opens known s := by
  constructor
  · intro h
    by_contra hexposed
    refine not_derives_secret {sk | .privateKey sk ∈ known} ?_ h
    intro m hm
    match m, hplain m hm, hm with
    | .secret t, _, hm =>
      rintro rfl
      exact hexposed (Or.inl hm)
    | .privateKey sk, _, hm => exact hm
    | .data _, _, _ => exact trivial
    | .wrapped pk (.secret t), _, hm =>
      rintro ⟨sk, hsk, hopens⟩ rfl
      exact hexposed (Or.inr ⟨pk, sk, hm, hsk, hopens⟩)
    | .sealed _ (.data _), _, _ => exact trivial
  · rintro (hmem | ⟨pk, sk, hmem, hkey, hopens⟩)
    · exact .known hmem
    · exact .unwrap (.known hmem) (.known hkey) hopens

end Message
