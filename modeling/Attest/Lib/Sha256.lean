import Mathlib.Data.List.Nodup
import Mathlib.Data.Set.Function
import Attest.Lib.Bytes

/-!
# SHA-256

The digest of FIPS 180-4 over byte strings, as `hashlib.sha256(data).digest()`
computes it. Nothing in the development unfolds it : the proofs use that a digest is
32 bytes (`length_sha256`) and, where they need it, that no two of a named set of
inputs collide (`CollisionFreeOn`). No function to 32 bytes is injective, so the
assumption is always about the inputs that are hashed.
-/

namespace Sha256

/-- The round constants. -/
def k : List UInt32 :=
  [0x428a2f98, 0x71374491, 0xb5c0fbcf, 0xe9b5dba5, 0x3956c25b, 0x59f111f1, 0x923f82a4, 0xab1c5ed5,
   0xd807aa98, 0x12835b01, 0x243185be, 0x550c7dc3, 0x72be5d74, 0x80deb1fe, 0x9bdc06a7, 0xc19bf174,
   0xe49b69c1, 0xefbe4786, 0x0fc19dc6, 0x240ca1cc, 0x2de92c6f, 0x4a7484aa, 0x5cb0a9dc, 0x76f988da,
   0x983e5152, 0xa831c66d, 0xb00327c8, 0xbf597fc7, 0xc6e00bf3, 0xd5a79147, 0x06ca6351, 0x14292967,
   0x27b70a85, 0x2e1b2138, 0x4d2c6dfc, 0x53380d13, 0x650a7354, 0x766a0abb, 0x81c2c92e, 0x92722c85,
   0xa2bfe8a1, 0xa81a664b, 0xc24b8b70, 0xc76c51a3, 0xd192e819, 0xd6990624, 0xf40e3585, 0x106aa070,
   0x19a4c116, 0x1e376c08, 0x2748774c, 0x34b0bcb5, 0x391c0cb3, 0x4ed8aa4a, 0x5b9cca4f, 0x682e6ff3,
   0x748f82ee, 0x78a5636f, 0x84c87814, 0x8cc70208, 0x90befffa, 0xa4506ceb, 0xbef9a3f7, 0xc67178f2]

/-- The eight working words. -/
structure State where
  (a b c d e f g h : UInt32)
deriving DecidableEq

def State.initial : State :=
  ⟨0x6a09e667, 0xbb67ae85, 0x3c6ef372, 0xa54ff53a, 0x510e527f, 0x9b05688c, 0x1f83d9ab, 0x5be0cd19⟩

def rotr (x : UInt32) (n : UInt32) : UInt32 :=
  (x >>> n) ||| (x <<< (32 - n))

/-- One round, with its constant and its schedule word. -/
def State.round (s : State) (kw : UInt32 × UInt32) : State :=
  let s1 := rotr s.e 6 ^^^ rotr s.e 11 ^^^ rotr s.e 25
  let ch := (s.e &&& s.f) ^^^ ((~~~s.e) &&& s.g)
  let t1 := s.h + s1 + ch + kw.1 + kw.2
  let s0 := rotr s.a 2 ^^^ rotr s.a 13 ^^^ rotr s.a 22
  let maj := (s.a &&& s.b) ^^^ (s.a &&& s.c) ^^^ (s.b &&& s.c)
  ⟨t1 + (s0 + maj), s.a, s.b, s.c, s.d + t1, s.e, s.f, s.g⟩

/-- The schedule, newest word first : `n` more words after `w`. -/
def extend : Nat → List UInt32 → List UInt32
  | 0, w => w
  | n + 1, w =>
    let x := w.getD 14 0
    let y := w.getD 1 0
    let s0 := rotr x 7 ^^^ rotr x 18 ^^^ (x >>> 3)
    let s1 := rotr y 17 ^^^ rotr y 19 ^^^ (y >>> 10)
    extend n ((w.getD 15 0 + s0 + w.getD 6 0 + s1) :: w)

/-- The words of a byte string, big-endian. -/
def words : Bytes → List UInt32
  | a :: b :: c :: d :: rest =>
    (a.toUInt32 <<< 24 ||| b.toUInt32 <<< 16 ||| c.toUInt32 <<< 8 ||| d.toUInt32) :: words rest
  | _ => []

/-- The compression of one block. -/
def State.compress (s : State) (block : Bytes) : State :=
  let schedule := (extend 48 (words block).reverse).reverse
  let t := (k.zip schedule).foldl State.round s
  ⟨s.a + t.a, s.b + t.b, s.c + t.c, s.d + t.d, s.e + t.e, s.f + t.f, s.g + t.g, s.h + t.h⟩

/-- The `n` low bytes of a number, big-endian. -/
def bigEndian : Nat → Nat → Bytes
  | 0, _ => []
  | n + 1, x => bigEndian n (x / 256) ++ [UInt8.ofNat (x % 256)]

/-- The message with its padding, a whole number of 64-byte blocks. -/
def pad (msg : Bytes) : Bytes :=
  msg ++ [0x80] ++ List.replicate ((119 - msg.length % 64) % 64) 0 ++ bigEndian 8 (8 * msg.length)

/-- The first `n` blocks of a padded message. -/
def blocks : Nat → Bytes → List Bytes
  | 0, _ => []
  | n + 1, b => b.take 64 :: blocks n (b.drop 64)

def State.digest (s : State) : Bytes :=
  [s.a, s.b, s.c, s.d, s.e, s.f, s.g, s.h].flatMap fun w => bigEndian 4 w.toNat

end Sha256

/-- `hashlib.sha256(data).digest()`. -/
def sha256 (data : Bytes) : Bytes :=
  let padded := Sha256.pad data
  ((Sha256.blocks (padded.length / 64) padded).foldl Sha256.State.compress
    Sha256.State.initial).digest

theorem Sha256.length_bigEndian (n x : Nat) : (bigEndian n x).length = n := by
  induction n generalizing x with
  | zero => rfl
  | succ n ih => simp [bigEndian, ih]

@[simp] theorem length_sha256 (data : Bytes) : (sha256 data).length = 32 := by
  simp [sha256, Sha256.State.digest, Sha256.length_bigEndian]

/-- No two inputs in `S` have the same digest. -/
def CollisionFreeOn (S : Set Bytes) : Prop :=
  Set.InjOn sha256 S

theorem CollisionFreeOn.eq {S : Set Bytes} (h : CollisionFreeOn S) {a b : Bytes} (ha : a ∈ S)
    (hb : b ∈ S) (heq : sha256 a = sha256 b) : a = b :=
  h ha hb heq

theorem CollisionFreeOn.mono {S T : Set Bytes} (h : CollisionFreeOn T) (hST : S ⊆ T) :
    CollisionFreeOn S :=
  Set.InjOn.mono hST h

theorem collisionFreeOn_of_subsingleton {S : Set Bytes} (h : S.Subsingleton) :
    CollisionFreeOn S :=
  h.injOn _

theorem collisionFreeOn_of_nodup {texts : List Bytes} (h : (texts.map sha256).Nodup)
    {S : Set Bytes} (hS : ∀ b ∈ S, b ∈ texts) : CollisionFreeOn S :=
  fun _ ha _ hb heq => List.inj_on_of_nodup_map h (hS _ ha) (hS _ hb) heq

-- The digest of the empty message, as published.
example : Bytes.hex (sha256 []) =
    "e3b0c44298fc1c149afbf4c8996fb92427ae41e4649b934ca495991b7852b855" := by
  decide +kernel
