import Mathlib.Tactic

/-!
# Numbers of a JSON document

An integer is an `Int`. A float is a double, named by the text `json.dumps` writes
for it : the shortest decimal that reads back as the same double, laid out as
`float.__repr__` lays it out, or one of `NaN`, `Infinity` and `-Infinity`. Two
floats are the same value of the model exactly when Python writes them alike, so a
document's text determines its floats.

Comparisons go through `NumVal`, the real number a value denotes : Python compares an
integer with a float exactly. `ofInt?` is `float(n)`, `none` where it raises
`OverflowError`.
-/

/-- The number a JSON number or a Python `bool` denotes. -/
inductive NumVal where
  | fin (q : Rat)
  | posInf
  | negInf
  | nan
deriving DecidableEq

namespace NumVal

def ofInt (n : Int) : NumVal := .fin n

/-- `a == b`. -/
def eq : NumVal → NumVal → Bool
  | .fin p, .fin q => p == q
  | .posInf, .posInf | .negInf, .negInf => true
  | _, _ => false

/-- `a < b`. -/
def lt : NumVal → NumVal → Bool
  | .fin p, .fin q => decide (p < q)
  | .fin _, .posInf | .negInf, .fin _ | .negInf, .posInf => true
  | _, _ => false

/-- `a >= b`. -/
def ge (a b : NumVal) : Bool := lt b a || eq a b

end NumVal

namespace Binary64

/-- The nearest integer to `p / q`, ties to even. -/
def roundDiv (p q : Nat) : Nat :=
  let d := p / q
  let r := p % q
  if 2 * r < q then d else if q < 2 * r then d + 1 else d + d % 2

/-- The exponent of the last place of the double nearest to `p / q`. -/
def exponent (p q : Nat) : Int :=
  let e := (p.log2 : Int) - q.log2
  let e := if q * 2 ^ e.toNat ≤ p * 2 ^ (-e).toNat then e else e - 1
  max (e - 52) (-1074)

/-- The double nearest to `p / q`, as a fraction. -/
def round (p q : Nat) : Nat × Nat :=
  let e := exponent p q
  let m := roundDiv (p * 2 ^ (-e).toNat) (q * 2 ^ e.toNat)
  (m * 2 ^ e.toNat, 2 ^ (-e).toNat)

/-- Past the largest double. -/
def isInf (v : Nat × Nat) : Bool :=
  2 ^ 1024 * v.2 ≤ v.1

/-- The decimal point of `p / q < 1` stands this far before its first digit. -/
def leadingZeros : Nat → Nat → Nat → Nat
  | 0, _, _ => 0
  | fuel + 1, p, q => if q ≤ 10 * p then 0 else leadingZeros fuel (10 * p) q + 1

/-- `k` with `10 ^ (k - 1) ≤ p / q < 10 ^ k`. -/
def decimalPoint (p q : Nat) : Int :=
  if q ≤ p then (Nat.toDigits 10 (p / q)).length else -leadingZeros 400 p q

def sameValue (v w : Nat × Nat) : Bool :=
  v.1 * w.2 == w.1 * v.2

/-- The digits and the decimal point of the shortest decimal that reads as the
double `v`, trying `n` digits and up : the nearer of the two neighbours of `v`. -/
def shortest (v : Nat × Nat) (k : Int) : Nat → Nat → List Char × Int
  | 0, _ => (['0'], 1)
  | fuel + 1, n =>
    let up := (n - k).toNat
    let down := (k - n).toNat
    let lo := v.1 * 10 ^ up / (v.2 * 10 ^ down)
    let reads (c : Nat) := sameValue (round (c * 10 ^ down) (10 ^ up)) v
    let nearLo := 2 * (v.1 * 10 ^ up) ≤ (2 * lo + 1) * (v.2 * 10 ^ down)
    let pick : Option Nat :=
      if reads lo ∧ (nearLo ∨ ¬ reads (lo + 1)) then some lo
      else if reads (lo + 1) then some (lo + 1) else none
    match pick with
    | some c => if c = 10 ^ n then (['1'], k + 1) else (Nat.toDigits 10 c, k)
    | none => shortest v k fuel (n + 1)

/-- The layout of `float.__repr__` for digits `ds` with the point at `k`. -/
def layout (ds : List Char) (k : Int) : List Char :=
  if k ≤ -4 ∨ 16 < k then
    let e := k - 1
    let digits := Nat.toDigits 10 e.natAbs
    ds.take 1 ++ (if ds.length = 1 then [] else '.' :: ds.drop 1) ++
      ['e', if e < 0 then '-' else '+'] ++
      (if digits.length = 1 then '0' :: digits else digits)
  else if k ≤ 0 then ['0', '.'] ++ List.replicate (-k).toNat '0' ++ ds
  else if ds.length ≤ k then ds ++ List.replicate (k.toNat - ds.length) '0' ++ ['.', '0']
  else ds.take k.toNat ++ '.' :: ds.drop k.toNat

/-- The text of the double `v`, without a sign. -/
def text (v : Nat × Nat) : List Char :=
  if v.1 = 0 then "0.0".toList
  else if isInf v then "Infinity".toList
  else
    let (ds, k) := shortest v (decimalPoint v.1 v.2) 17 1
    layout ds k

/-- Read digits : their value, their number, and what follows them. -/
def readDigits : List Char → Nat → Nat → Nat × Nat × List Char
  | [], acc, n => (acc, n, [])
  | c :: cs, acc, n =>
    if c.isDigit then readDigits cs (10 * acc + (c.toNat - 48)) (n + 1) else (acc, n, c :: cs)

/-- The fraction a decimal text without a sign denotes. -/
def readDecimal (cs : List Char) : Option (Nat × Nat) :=
  let (whole, _, cs) := readDigits cs 0 0
  let (m, places, cs) := match cs with
    | '.' :: rest => readDigits rest whole 0
    | _ => (whole, 0, cs)
  match cs with
  | [] => some (m, 10 ^ places)
  | 'e' :: '-' :: ds => some (m, 10 ^ (places + (readDigits ds 0 0).1))
  | 'e' :: '+' :: ds => some (m * 10 ^ (readDigits ds 0 0).1, 10 ^ places)
  | _ => none

end Binary64

/-- The sign and the rest of a number's text. -/
def PyFloat.splitSign : List Char → Bool × List Char
  | '-' :: cs => (true, cs)
  | cs => (false, cs)

/-- The number a float's text denotes. -/
def PyFloat.numOf (token : String) : NumVal :=
  let (neg, cs) := splitSign token.toList
  if cs = "Infinity".toList then if neg then .negInf else .posInf
  else
    match Binary64.readDecimal cs with
    | none => .nan
    | some (p, q) =>
      let v := Binary64.round p q
      if Binary64.isInf v then if neg then .negInf else .posInf
      else .fin (if neg then -(mkRat v.1 v.2) else mkRat v.1 v.2)

/-- Digits with a point or an exponent. -/
def PyFloat.isDecimal (cs : List Char) : Bool :=
  cs.head?.any Char.isDigit && cs.all (fun c => c.isDigit || ['+', '-', '.', 'e'].contains c) &&
    !cs.all Char.isDigit

/-- Reading a decimal and writing the double gives it back. -/
def PyFloat.isShortest (cs : List Char) : Bool :=
  match Binary64.readDecimal cs with
  | none => false
  | some (p, q) => Binary64.text (Binary64.round p q) = cs

/-- `token` is what `json.dumps` writes for some float. -/
def PyFloat.isToken (token : String) : Bool :=
  let cs := (splitSign token.toList).2
  token = "NaN" || cs = "Infinity".toList || (isDecimal cs && isShortest cs)

theorem PyFloat.isToken_cases {token : String} (h : isToken token = true) :
    token = "NaN" ∨ (splitSign token.toList).2 = "Infinity".toList ∨
      isDecimal (splitSign token.toList).2 = true := by
  unfold isToken at h
  simp only [Bool.or_eq_true, Bool.and_eq_true, decide_eq_true_eq, or_assoc] at h
  rcases h with h | h | h
  · exact Or.inl h
  · exact Or.inr (Or.inl h)
  · exact Or.inr (Or.inr h.1)

/-- A Python `float`. -/
structure PyFloat where
  /-- What `json.dumps` writes for it. -/
  token : String
  isToken_token : PyFloat.isToken token = true
deriving DecidableEq

namespace PyFloat

@[ext] theorem ext {x y : PyFloat} (h : x.token = y.token) : x = y := by
  cases x
  cases y
  simpa using h

def num (x : PyFloat) : NumVal := numOf x.token

/-- `repr(x)`, which is `str(x)`. -/
def repr (x : PyFloat) : String :=
  if x.token = "NaN" then "nan"
  else if x.token = "Infinity" then "inf"
  else if x.token = "-Infinity" then "-inf"
  else x.token

/-- The float with this text. -/
def ofToken (token : String) : PyFloat :=
  if h : isToken token = true then ⟨token, h⟩ else ⟨"NaN", by decide⟩

/-- `float(n)`, `none` where it raises `OverflowError`. -/
def ofInt? (n : Int) : Option PyFloat :=
  let v := Binary64.round n.natAbs 1
  if Binary64.isInf v then none
  else some (ofToken (String.ofList
    ((if n < 0 then ['-'] else []) ++ Binary64.text v)))

/-- `bool(x)`. -/
def truthy (x : PyFloat) : Bool :=
  x.num != .fin 0

end PyFloat
