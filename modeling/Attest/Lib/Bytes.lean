import Mathlib.Data.List.Basic
import Mathlib.Tactic

/-!
# Byte strings and their hex text

`hex` is `bytes.hex()` : two lower-case digits a byte. `fromHex` is
`bytes.fromhex(text)` : pairs of digits of either case, with ASCII white space
skipped between pairs and nowhere else, and `none` where Python raises
`ValueError`. What `hex` writes, `fromHex` reads back (`fromHex_hex`), so `hex` is
injective, and a text that some byte string was written as is named by that byte
string alone. The texts it writes are those of an even number of lower-case digits
(`exists_hex`).

`utf8` is `str.encode("utf-8")` on texts of Unicode scalar values, also injective.
-/

/-- A byte string. -/
abbrev Bytes := List UInt8

namespace Bytes

/-! ## UTF-8 -/

/-- `text.encode("utf-8")`. -/
def utf8 (s : String) : Bytes :=
  s.toUTF8.data.toList

theorem utf8_injective : Function.Injective utf8 := by
  intro s t h
  unfold utf8 at h
  rw [← String.toByteArray_inj]
  exact ByteArray.ext (Array.toList_inj.mp h)

@[simp] theorem utf8_inj {s t : String} : utf8 s = utf8 t ↔ s = t :=
  utf8_injective.eq_iff

/-- Every character takes at least one byte. -/
theorem length_le_length_utf8 (s : String) : s.length ≤ (utf8 s).length := by
  have hsize : (utf8 s).length = s.utf8ByteSize := by simp [utf8]
  have hlist : ∀ cs : List Char, cs.length ≤ (String.ofList cs).utf8ByteSize := by
    intro cs
    induction cs with
    | nil => simp
    | cons c cs ih =>
      have hcons : String.ofList (c :: cs) = String.singleton c ++ String.ofList cs := by
        rw [← String.toList_inj]
        simp
      have := Char.utf8Size_pos c
      rw [hcons, String.utf8ByteSize_append, String.utf8ByteSize_singleton, List.length_cons]
      omega
  have := hlist s.toList
  rwa [String.ofList_toList, String.length_toList, ← hsize] at this

/-! ## Hex -/

/-- The lower-case digit of a value below sixteen. -/
def hexDigit (n : Nat) : Char :=
  if n < 10 then Char.ofNat (48 + n) else Char.ofNat (87 + n)

/-- The value of a digit of either case. -/
def hexVal (c : Char) : Option Nat :=
  if '0' ≤ c ∧ c ≤ '9' then some (c.toNat - 48)
  else if 'a' ≤ c ∧ c ≤ 'f' then some (c.toNat - 87)
  else if 'A' ≤ c ∧ c ≤ 'F' then some (c.toNat - 55)
  else none

/-- The white space `bytes.fromhex` skips. -/
def isHexSpace (c : Char) : Bool :=
  c = ' ' || ('\t' ≤ c && c ≤ '\r')

theorem hexVal_hexDigit {n : Nat} (h : n < 16) : hexVal (hexDigit n) = some n := by
  interval_cases n <;> decide

theorem isHexSpace_hexDigit {n : Nat} (h : n < 16) : isHexSpace (hexDigit n) = false := by
  interval_cases n <;> decide

/-- The digits of a byte string. -/
def hexChars : Bytes → List Char
  | [] => []
  | b :: bs => hexDigit (b.toNat / 16) :: hexDigit (b.toNat % 16) :: hexChars bs

/-- `b.hex()`. -/
def hex (b : Bytes) : String :=
  String.ofList (hexChars b)

/-- The byte string a list of digits stands for. -/
def fromHexChars : List Char → Option Bytes
  | [] => some []
  | c :: cs =>
    if isHexSpace c then fromHexChars cs
    else
      match cs with
      | [] => none
      | d :: ds =>
        match hexVal c, hexVal d, fromHexChars ds with
        | some hi, some lo, some rest => some (UInt8.ofNat (16 * hi + lo) :: rest)
        | _, _, _ => none

/-- `bytes.fromhex(text)`, `none` where it raises `ValueError`. -/
def fromHex (s : String) : Option Bytes :=
  fromHexChars s.toList

theorem fromHexChars_hexChars : ∀ b : Bytes, fromHexChars (hexChars b) = some b
  | [] => rfl
  | b :: bs => by
    have hb := b.toNat_lt
    have hi : b.toNat / 16 < 16 := by omega
    have lo : b.toNat % 16 < 16 := Nat.mod_lt _ (by decide)
    have hsum : 16 * (b.toNat / 16) + b.toNat % 16 = b.toNat := Nat.div_add_mod _ _
    simp [hexChars, fromHexChars, isHexSpace_hexDigit hi, hexVal_hexDigit hi,
      hexVal_hexDigit lo, fromHexChars_hexChars bs, hsum]

@[simp] theorem fromHex_hex (b : Bytes) : fromHex (hex b) = some b := by
  simp [fromHex, hex, fromHexChars_hexChars]

theorem hex_injective : Function.Injective hex := by
  intro a b h
  have := congrArg fromHex h
  simpa using this

@[simp] theorem hex_inj {a b : Bytes} : hex a = hex b ↔ a = b :=
  hex_injective.eq_iff

@[simp] theorem length_hexChars (b : Bytes) : (hexChars b).length = 2 * b.length := by
  induction b with
  | nil => rfl
  | cons b bs ih =>
    simp only [hexChars, List.length_cons, ih]
    omega

/-- A digit that `hex` writes. -/
def isHexDigit (c : Char) : Bool :=
  '0' ≤ c && c ≤ '9' || 'a' ≤ c && c ≤ 'f'

theorem isHexDigit_hexDigit {n : Nat} (h : n < 16) : isHexDigit (hexDigit n) = true := by
  interval_cases n <;> decide

theorem exists_hexDigit {c : Char} (h : isHexDigit c = true) : ∃ n < 16, hexDigit n = c := by
  simp only [isHexDigit, Bool.or_eq_true, Bool.and_eq_true, decide_eq_true_eq, Char.le_def,
    UInt32.le_iff_toNat_le] at h
  have hc : Char.ofNat c.toNat = c := Char.ofNat_toNat c
  change 48 ≤ c.toNat ∧ c.toNat ≤ 57 ∨ 97 ≤ c.toNat ∧ c.toNat ≤ 102 at h
  rcases h with ⟨hlo, hhi⟩ | ⟨hlo, hhi⟩
  · refine ⟨c.toNat - 48, by omega, ?_⟩
    rw [hexDigit, if_pos (by omega), ← hc]
    congr 1
    simp only [hc]
    omega
  · refine ⟨c.toNat - 87, by omega, ?_⟩
    rw [hexDigit, if_neg (by omega), ← hc]
    congr 1
    simp only [hc]
    omega

/-- An even number of such digits is the hex text of some bytes. -/
theorem exists_hexChars : ∀ (n : Nat) {cs : List Char}, cs.length = 2 * n →
    (∀ c ∈ cs, isHexDigit c = true) → ∃ b : Bytes, b.length = n ∧ hexChars b = cs
  | 0, [], _, _ => ⟨[], rfl, rfl⟩
  | n + 1, c :: d :: cs, hlen, hcs => by
    obtain ⟨hi, hhi, rfl⟩ := exists_hexDigit (hcs c (by simp))
    obtain ⟨lo, hlo, rfl⟩ := exists_hexDigit (hcs d (by simp))
    have hrest : cs.length = 2 * n := by
      simp only [List.length_cons] at hlen
      omega
    obtain ⟨b, hb, rfl⟩ := exists_hexChars n hrest fun x hx => hcs x (by simp [hx])
    have hbyte : (UInt8.ofNat (16 * hi + lo)).toNat = 16 * hi + lo := by
      rw [UInt8.toNat_ofNat']
      omega
    refine ⟨UInt8.ofNat (16 * hi + lo) :: b, by simp [hb], ?_⟩
    rw [hexChars, hbyte, show (16 * hi + lo) / 16 = hi by omega,
      show (16 * hi + lo) % 16 = lo by omega]
  | n + 1, [_], hlen, _ => by
    simp only [List.length_singleton] at hlen
    omega

theorem exists_hex {n : Nat} {text : String} (hlen : text.length = 2 * n)
    (h : ∀ c ∈ text.toList, isHexDigit c = true) : ∃ b : Bytes, b.length = n ∧ hex b = text := by
  obtain ⟨b, hb, hchars⟩ := exists_hexChars n (by rwa [String.length_toList]) h
  exact ⟨b, hb, by rw [hex, hchars, String.ofList_toList]⟩
example : hex [0xde, 0xad, 0x0f] = "dead0f" := by decide

end Bytes
