import Attest.Lib.Json

/-!
# Python's texts

`str` methods, `int(text)` and `repr` over texts of Unicode scalar values. What ASCII
characters are is written out. The tables of the Unicode database are a parameter
(`PyUnicode`), consulted outside ASCII only, so every result holds for whichever
version of the tables an interpreter carries, and closed terms about ASCII texts
evaluate.
-/

/-- The Unicode tables of an interpreter, read outside ASCII. -/
class PyUnicode where
  /-- `str.isalnum`, which is `\w` less the underscore. -/
  isAlnum : Char → Bool
  /-- `str.isspace`, which is `\s`. -/
  isSpace : Char → Bool
  /-- `str.isdecimal` with the digit's value, which is `\d`. -/
  decimal : Char → Option Nat
  /-- `str.isprintable`. -/
  isPrintable : Char → Bool
  /-- `str.lower` of a text with a character outside ASCII. -/
  lower : String → String

/-- The tables of an interpreter that knows no character outside ASCII. -/
@[reducible] def PyUnicode.ascii : PyUnicode where
  isAlnum _ := false
  isSpace _ := false
  decimal _ := none
  isPrintable _ := false
  lower s := s

namespace PyText

variable [PyUnicode]

def isAscii (c : Char) : Bool :=
  c.toNat < 128

def isWord (c : Char) : Bool :=
  if isAscii c then c.isAlphanum || c = '_' else PyUnicode.isAlnum c

def isSpace (c : Char) : Bool :=
  if isAscii c then (9 ≤ c.toNat && c.toNat ≤ 13) || (28 ≤ c.toNat && c.toNat ≤ 32)
  else PyUnicode.isSpace c

def decimal (c : Char) : Option Nat :=
  if isAscii c then if c.isDigit then some (c.toNat - 48) else none else PyUnicode.decimal c

def isPrintable (c : Char) : Bool :=
  if isAscii c then 32 ≤ c.toNat && c.toNat ≤ 126 else PyUnicode.isPrintable c

/-- `s.lower()`. -/
def lower (s : String) : String :=
  if s.toList.all isAscii then String.ofList (s.toList.map Char.toLower) else PyUnicode.lower s

def stripBy (p : Char → Bool) (cs : List Char) : List Char :=
  ((cs.dropWhile p).reverse.dropWhile p).reverse

/-- `s.strip()`. -/
def strip (s : String) : String :=
  String.ofList (stripBy isSpace s.toList)

/-- `not s or not s.strip()`. -/
def isBlank (s : String) : Bool :=
  s.toList.all isSpace

/-- `needle in s`. -/
def contains (s needle : String) : Bool :=
  s.toList.tails.any fun t => needle.toList.isPrefixOf t

/-- `sep.join(parts)`. -/
def join (sep : String) (parts : List String) : String :=
  sep.intercalate parts

/-! ## `int(text)` -/

/-- What `int` reads a character as : itself in ASCII, else a blank or a digit, and
`none` for any other. -/
def toAsciiDigit (c : Char) : Option Char :=
  if isAscii c then some c
  else if PyUnicode.isSpace c then some ' '
  else (PyUnicode.decimal c).map fun d => Char.ofNat (48 + d)

/-- The white space `int` skips at the ends. -/
def isIntSpace (c : Char) : Bool :=
  c = ' ' || (9 ≤ c.toNat && c.toNat ≤ 13)

/-- Digits with single underscores between them : the value and the number of digits.
`last` is whether a digit stands before. -/
def readInt : Bool → List Char → Nat → Nat → Option (Nat × Nat)
  | last, [], acc, n => if last then some (acc, n) else none
  | last, c :: cs, acc, n =>
    if c = '_' then if last then readInt false cs acc n else none
    else if c.isDigit then readInt true cs (10 * acc + (c.toNat - 48)) (n + 1)
    else none

/-- The most digits `int` converts (`sys.int_info.default_max_str_digits`). -/
def maxStrDigits : Nat := 4300

/-- `int(s)`, `none` where it raises `ValueError`. -/
def int? (s : String) : Option Int :=
  match s.toList.mapM toAsciiDigit with
  | none => none
  | some cs =>
    let (neg, digits) := match stripBy isIntSpace cs with
      | '-' :: ds => (true, ds)
      | '+' :: ds => (false, ds)
      | ds => (false, ds)
    match readInt false digits 0 0 with
    | none => none
    | some (m, n) =>
      if maxStrDigits < n then none else some (if neg then -(m : Int) else m)

/-! ## `repr` and `str` -/

/-- `width` hex digits of a number. -/
def hexPad : Nat → Nat → List Char
  | 0, _ => []
  | width + 1, n => hexPad width (n / 16) ++ [Bytes.hexDigit (n % 16)]

def reprChar (q : Char) (c : Char) : List Char :=
  if c = q ∨ c = '\\' then ['\\', c]
  else if c = '\n' then ['\\', 'n']
  else if c = '\r' then ['\\', 'r']
  else if c = '\t' then ['\\', 't']
  else if isPrintable c then [c]
  else if c.toNat < 0x100 then '\\' :: 'x' :: hexPad 2 c.toNat
  else if c.toNat < 0x10000 then '\\' :: 'u' :: hexPad 4 c.toNat
  else '\\' :: 'U' :: hexPad 8 c.toNat

/-- `repr(s)` : in double quotes where the text has single ones alone. -/
def reprStr (s : String) : List Char :=
  let q := if s.toList.contains '\'' ∧ ¬ s.toList.contains '"' then '"' else '\''
  q :: s.toList.flatMap (reprChar q) ++ [q]

mutual
/-- `repr(v)`. `sep` of the helpers is what stands before the next item. -/
def reprChars : JVal → List Char
  | .null => "None".toList
  | .bool true => "True".toList
  | .bool false => "False".toList
  | .int n => JVal.intText n
  | .float x => x.repr.toList
  | .str s => reprStr s
  | .arr items => '[' :: reprList [] items
  | .obj items => '{' :: reprItems [] items

def reprList (sep : List Char) : List JVal → List Char
  | [] => [']']
  | v :: vs => sep ++ reprChars v ++ reprList [',', ' '] vs

def reprItems (sep : List Char) : List (String × JVal) → List Char
  | [] => ['}']
  | (k, v) :: rest => sep ++ reprStr k ++ [':', ' '] ++ reprChars v ++ reprItems [',', ' '] rest
end

/-- `str(v)`. -/
def str : JVal → String
  | .str s => s
  | v => String.ofList (reprChars v)

end PyText

namespace JVal

variable [PyUnicode]

/-- `bool(v)`. -/
def truthy : JVal → Bool
  | .null => false
  | .bool b => b
  | .int n => n != 0
  | .float x => x.truthy
  | .str s => s != ""
  | .arr items => !items.isEmpty
  | .obj items => !items.isEmpty

/-- `isinstance(v, (int, float))`, with the number : a `bool` is an `int`. -/
def num? : JVal → Option NumVal
  | .bool b => some (NumVal.ofInt b.toNat)
  | .int n => some (NumVal.ofInt n)
  | .float x => some x.num
  | _ => none

/-- `a or b`. -/
def orElse (a b : JVal) : JVal :=
  if a.truthy then a else b

mutual
/-- `a == b` : numbers by value, objects whatever the order of their keys. -/
def pyEq : JVal → JVal → Bool
  | .null, w => w = .null
  | .str a, w => w = .str a
  | .arr vs, .arr ws => pyEqList vs ws
  | .obj vs, .obj ws => vs.length == ws.length && pyEqItems vs ws
  | .bool b, w => match w.num? with
    | some n => NumVal.eq (NumVal.ofInt b.toNat) n
    | none => false
  | .int m, w => match w.num? with
    | some n => NumVal.eq (NumVal.ofInt m) n
    | none => false
  | .float x, w => match w.num? with
    | some n => NumVal.eq x.num n
    | none => false
  | _, _ => false

def pyEqList : List JVal → List JVal → Bool
  | [], [] => true
  | v :: vs, w :: ws => pyEq v w && pyEqList vs ws
  | _, _ => false

def pyEqItems : List (String × JVal) → List (String × JVal) → Bool
  | [], _ => true
  | (k, v) :: vs, ws =>
    (match Dict.get? ws k with
      | some w => pyEq v w
      | none => false) && pyEqItems vs ws
end

end JVal
