import Attest.Lib.PyText

/-!
# Regular expressions

The part of Python's `re` the patterns of a program use : classes, `\b`, sequence,
alternation, the greedy `?` and the greedy `+` over a class. `Regex.run` is the
backtracking matcher : it returns every way to match, in the order the engine tries
them, so the first one is the engine's match. `search` looks for a match at each
position from the left and `sub` replaces the matches found from the left, for
patterns that do not match the empty text.
-/

/-- One item of a character class. -/
inductive CharClass where
  /-- `\d`. -/
  | digit
  /-- `\w`. -/
  | word
  /-- `\s`. -/
  | space
  | lit (c : Char)
  /-- A literal under `re.IGNORECASE`, given in lower case. -/
  | litI (c : Char)
  | union (a b : CharClass)

/-- What `re.IGNORECASE` adds to a lower-case letter outside ASCII : the characters
`sre` folds to it. -/
def CharClass.extraCases : Char → List Char
  | 'i' => [Char.ofNat 0x130, Char.ofNat 0x131]
  | 'k' => [Char.ofNat 0x212a]
  | 's' => [Char.ofNat 0x17f]
  | _ => []

def CharClass.test [PyUnicode] : CharClass → Char → Bool
  | .digit, c => (PyText.decimal c).isSome
  | .word, c => PyText.isWord c
  | .space, c => PyText.isSpace c
  | .lit a, c => a == c
  | .litI a, c => c.toLower == a || (extraCases a).contains c
  | .union p q, c => p.test c || q.test c

/-- A pattern. -/
inductive Regex where
  | empty
  | cls (p : CharClass)
  /-- `\b`. -/
  | bound
  | seq (r s : Regex)
  | alt (r s : Regex)
  /-- `r?`. -/
  | opt (r : Regex)
  /-- `[..]+`. -/
  | plus (p : CharClass)

namespace Regex

variable [PyUnicode]

/-- A position in a text : the character before it and what follows. -/
abbrev Pos := Option Char × List Char

/-- `\b` holds at a position. -/
def atBound : Pos → Bool
  | (before, after) => before.any PyText.isWord != after.head?.any PyText.isWord

/-- The ways to match one or more characters of a class, longest first. -/
def runPlus (p : CharClass) : Option Char → List Char → List Pos
  | _, [] => []
  | _, c :: cs => if p.test c then runPlus p (some c) cs ++ [(some c, cs)] else []

/-- The positions a match can end at, in the order they are tried. -/
def run : Regex → Pos → List Pos
  | .empty, pos => [pos]
  | .cls _, (_, []) => []
  | .cls p, (_, c :: cs) => if p.test c then [(some c, cs)] else []
  | .bound, pos => if atBound pos then [pos] else []
  | .seq r s, pos => (r.run pos).flatMap s.run
  | .alt r s, pos => r.run pos ++ s.run pos
  | .opt r, pos => r.run pos ++ [pos]
  | .plus p, (b, cs) => runPlus p b cs

/-- A match at some position from here on. -/
def searchFrom (r : Regex) : Option Char → List Char → Bool
  | b, [] => !(r.run (b, [])).isEmpty
  | b, c :: cs => !(r.run (b, c :: cs)).isEmpty || searchFrom r (some c) cs

/-- `pattern.search(text)` found a match. -/
def search (r : Regex) (text : String) : Bool :=
  r.searchFrom none text.toList

/-- The text with its matches replaced. `skip` characters of a match are still to be
dropped. -/
def subFrom (r : Regex) (repl : List Char) : Option Char → Nat → List Char → List Char
  | _, _, [] => []
  | _, skip + 1, c :: cs => subFrom r repl (some c) skip cs
  | b, 0, c :: cs =>
    match r.run (b, c :: cs) with
    | [] => c :: subFrom r repl (some c) 0 cs
    | (_, rest) :: _ => repl ++ subFrom r repl (some c) (cs.length - rest.length) cs

/-- `pattern.sub(repl, text)`. -/
def sub (r : Regex) (repl text : String) : String :=
  String.ofList (r.subFrom repl.toList none 0 text.toList)

/-- One pattern after another. -/
def seqs : List Regex → Regex
  | [] => .empty
  | r :: rs => .seq r (seqs rs)

/-- `r{n + 1}`. -/
def rep (r : Regex) : Nat → Regex
  | 0 => r
  | n + 1 => .seq r (rep r n)

def lit (s : String) : List Regex :=
  s.toList.map fun c => .cls (.lit c)

/-- A literal text under `re.IGNORECASE`. -/
def litI (s : String) : List Regex :=
  s.toList.map fun c => .cls (.litI c)

/-- One of several patterns, tried in order. -/
def alts : Regex → List Regex → Regex
  | r, [] => r
  | r, s :: rs => .alt r (alts s rs)

end Regex
