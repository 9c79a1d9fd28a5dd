import Attest.Crypto
import Attest.Lib.Regex

/-!
# The text of an official source

What the watcher makes of a page. `visibleText` drops scripts, comments and tags, and the
drift of a source is told by the hash of what is left (`contentHash`). A claim is looked
for in the page itself (`appearsVerbatim`), up to white space and case (`normalise`).

The three patterns of markup match in at most one way at a position, so each is a function
to the text after its match. `str.casefold` outside ASCII is a parameter
(`PyCasefold`), as the other tables of Unicode are.
-/

/-- `str.casefold` of a character outside ASCII. -/
class PyCasefold where
  fold : Char → List Char

/-- The folding of an interpreter that knows no character outside ASCII. -/
@[reducible] def PyCasefold.ascii : PyCasefold where
  fold c := [c]

namespace Attest

/-! ## Markup -/

section Markup

variable [PyUnicode]

/-- `pattern.sub(" ", text)`, where `after` is what follows a match at the head of a text.
`skip` characters of a match are still to be dropped. -/
def blankFrom (after : List Char → Option (List Char)) : Nat → List Char → List Char
  | _, [] => []
  | skip + 1, _ :: cs => blankFrom after skip cs
  | 0, c :: cs =>
    match after (c :: cs) with
    | none => c :: blankFrom after 0 cs
    | some rest => ' ' :: blankFrom after (cs.length - rest.length) cs

/-- A text at the head of another, with what follows. -/
def afterText : List Char → List Char → Option (List Char)
  | [], cs => some cs
  | a :: as, c :: cs => if a = c then afterText as cs else none
  | _ :: _, [] => none

/-- A text in lower case, under `re.IGNORECASE` : what it matched and what follows. -/
def afterTextI : List Char → List Char → Option (List Char × List Char)
  | [], cs => some ([], cs)
  | a :: as, c :: cs =>
    if (CharClass.litI a).test c then (afterTextI as cs).map fun m => (c :: m.1, m.2) else none
  | _ :: _, [] => none

/-- The lower case of a letter, as a backreference under `re.IGNORECASE` compares it with
what `script` or `style` matched. -/
def simpleLower (c : Char) : Char :=
  if c = Char.ofNat 0x130 then 'i' else c.toLower

/-- `\1` under `re.IGNORECASE`. -/
def afterGroup : List Char → List Char → Option (List Char)
  | [], cs => some cs
  | a :: as, c :: cs => if simpleLower a = simpleLower c then afterGroup as cs else none
  | _ :: _, [] => none

/-- What follows the first `>`. -/
def afterClose : List Char → Option (List Char)
  | [] => none
  | c :: cs => if c = '>' then some cs else afterClose cs

/-- What follows the first match of `ends`. -/
def afterFirst (ends : List Char → Option (List Char)) : List Char → Option (List Char)
  | [] => ends []
  | c :: cs =>
    match ends (c :: cs) with
    | some rest => some rest
    | none => afterFirst ends cs

/-- `</\1>`. -/
def afterEndTag (name cs : List Char) : Option (List Char) := do
  let cs ← afterText ['<', '/'] cs
  let cs ← afterGroup name cs
  afterText ['>'] cs

/-- `_SCRIPT_STYLE` : `<(script|style)\b[^>]*>.*?</\1>`, with `re.I` and `re.S`. -/
def afterScriptStyle (cs : List Char) : Option (List Char) := do
  let cs ← afterText ['<'] cs
  let (name, cs) ← match afterTextI "script".toList cs with
    | some found => some found
    | none => afterTextI "style".toList cs
  if cs.head?.any PyText.isWord then none
  else do
    let cs ← afterClose cs
    afterFirst (afterEndTag name) cs

/-- `_COMMENT` : `<!--.*?-->`, with `re.S`. -/
def afterComment (cs : List Char) : Option (List Char) := do
  let cs ← afterText "<!--".toList cs
  afterFirst (afterText "-->".toList) cs

/-- `_TAG` : `<[^>]+>`. -/
def afterTag (cs : List Char) : Option (List Char) := do
  let cs ← afterText ['<'] cs
  if cs.head? = some '>' then none else afterClose cs

/-- `visible_text(html)`. -/
def visibleText (html : String) : String :=
  String.ofList (blankFrom afterTag 0 (blankFrom afterComment 0
    (blankFrom afterScriptStyle 0 html.toList)))

end Markup

/-! ## Normal form -/

section Normal

variable [PyUnicode] [PyCasefold]

/-- `s.casefold()`. -/
def casefold (cs : List Char) : List Char :=
  cs.flatMap fun c => if PyText.isAscii c then [c.toLower] else PyCasefold.fold c

/-- `re.sub(r"\s+", " ", text)`. `blank` is whether a space was just written. -/
def collapseFrom : Bool → List Char → List Char
  | _, [] => []
  | blank, c :: cs =>
    if PyText.isSpace c then
      if blank then collapseFrom true cs else ' ' :: collapseFrom true cs
    else c :: collapseFrom false cs

/-- `normalise(text)`. -/
def normalise (text : String) : String :=
  String.ofList (casefold (PyText.stripBy PyText.isSpace (collapseFrom false text.toList)))

/-- `content_hash(text)`. -/
def contentHash (text : String) : String :=
  Bytes.hex (sha256 (Bytes.utf8 (normalise (visibleText text))))

/-- `appears_verbatim(claim, snapshot)`. -/
def appearsVerbatim (claim snapshot : String) : Bool :=
  !PyText.isBlank claim && PyText.contains (normalise snapshot) (normalise claim)

end Normal

end Attest
