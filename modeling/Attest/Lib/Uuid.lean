import Attest.Lib.Bytes

/-!
# UUIDs

A UUID is its sixteen bytes, and `str` is its text with dashes, which determines it
(`str_injective`).
-/

/-- A UUID. -/
structure Uuid where
  bytes : Bytes
  length_bytes : bytes.length = 16
deriving DecidableEq

namespace Uuid

@[ext] theorem ext {u v : Uuid} (h : u.bytes = v.bytes) : u = v := by
  cases u
  cases v
  simpa using h

/-- The UUID with this integer value. -/
def ofNat (n : Nat) : Uuid :=
  ⟨(List.range 16).map fun i => UInt8.ofNat (n / 256 ^ (15 - i) % 256), by simp⟩

/-- Digits in groups of 8, 4, 4, 4 and 12. -/
def dashed (ds : List Char) : List Char :=
  ds.take 8 ++ '-' :: ((ds.drop 8).take 4 ++ '-' :: ((ds.drop 12).take 4 ++
    '-' :: ((ds.drop 16).take 4 ++ '-' :: ds.drop 20)))

/-- `str(u)`. -/
def str (u : Uuid) : String :=
  String.ofList (dashed (Bytes.hexChars u.bytes))

theorem hexDigit_ne_dash {n : Nat} (h : n < 16) : Bytes.hexDigit n ≠ '-' := by
  interval_cases n <;> decide

theorem ne_dash_of_mem_hexChars : ∀ {b : Bytes} {c : Char}, c ∈ Bytes.hexChars b → c ≠ '-'
  | b :: bs, c, h => by
    have hb := b.toNat_lt
    simp only [Bytes.hexChars, List.mem_cons] at h
    rcases h with rfl | rfl | h
    · exact hexDigit_ne_dash (by omega)
    · exact hexDigit_ne_dash (Nat.mod_lt _ (by decide))
    · exact ne_dash_of_mem_hexChars h

theorem filter_dashed {ds : List Char} (h : ∀ c ∈ ds, c ≠ '-') :
    (dashed ds).filter (· != '-') = ds := by
  have hkeep {l : List Char} (hl : List.Sublist l ds) : l.filter (· != '-') = l := by
    rw [List.filter_eq_self]
    exact fun c hc => by simpa using h c (hl.subset hc)
  have htake (n m : Nat) : List.Sublist ((ds.drop n).take m) ds :=
    (List.take_sublist _ _).trans (List.drop_sublist _ _)
  have hcut (n m : Nat) : (ds.drop n).take m ++ ds.drop (n + m) = ds.drop n := by
    rw [← List.drop_drop, List.take_append_drop]
  simp only [dashed, List.filter_append, List.filter_cons, bne_self_eq_false, Bool.false_eq_true,
    ↓reduceIte, hkeep (List.take_sublist 8 ds), hkeep (htake _ _), hkeep (List.drop_sublist _ _)]
  rw [hcut 16 4, hcut 12 4, hcut 8 4, List.take_append_drop]

theorem str_injective : Function.Injective str := by
  intro u v h
  have hchars := String.ofList_inj.mp h
  have hhex : Bytes.hexChars u.bytes = Bytes.hexChars v.bytes := by
    rw [← filter_dashed fun _ hc => ne_dash_of_mem_hexChars hc, hchars,
      filter_dashed fun _ hc => ne_dash_of_mem_hexChars hc]
  exact ext (Bytes.hex_injective (congrArg String.ofList hhex))

@[simp] theorem str_inj {u v : Uuid} : u.str = v.str ↔ u = v :=
  str_injective.eq_iff

end Uuid
