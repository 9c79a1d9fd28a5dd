import Attest.Lib.Regex

/-!
# PII detection and redaction

`PATTERNS` of `services/pii.py` as regular expressions, what `redact_payload` puts in
place of their matches before anything is stored, and the scan of the policy layer,
which finds the same patterns and changes nothing.

Redaction keeps the shape of a payload : the keys of every object and everything that
is not a text (`map_fst_redactItems`).
-/

namespace Attest

open Regex

/-! ## The patterns -/

def digit : Regex := .cls .digit

/-- `-?`. -/
def optDash : Regex := .opt (.cls (.lit '-'))

/-- `[\s-]?`. -/
def optSeparator : Regex := .opt (.cls (.union .space (.lit '-')))

/-- A pattern that is found, and the label it is reported under. -/
abbrev LabelledPattern := String × Regex

/-- `\b784-?\d{4}-?\d{7}-?\d\b`. -/
def emiratesId : Regex :=
  seqs ([.bound] ++ lit "784" ++ [optDash, rep digit 3, optDash, rep digit 6, optDash, digit,
    .bound])

/-- `\bAE\d{2}\d{3}\d{16}\b`. -/
def ibanAe : Regex :=
  seqs ([.bound] ++ lit "AE" ++ [rep digit 1, rep digit 2, rep digit 15, .bound])

/-- `\b[\w.+-]+@[\w-]+\.[\w.-]+\b`. -/
def email : Regex :=
  seqs [.bound, .plus (.union .word (.union (.lit '.') (.union (.lit '+') (.lit '-')))),
    .cls (.lit '@'), .plus (.union .word (.lit '-')), .cls (.lit '.'),
    .plus (.union .word (.union (.lit '.') (.lit '-'))), .bound]

/-- `\b(?:\+?971[\s-]?|0)5\d[\s-]?\d{3}[\s-]?\d{4}\b`. -/
def phoneAe : Regex :=
  seqs [.bound,
    .alt (seqs ([.opt (.cls (.lit '+'))] ++ lit "971" ++ [optSeparator])) (.cls (.lit '0')),
    .cls (.lit '5'), digit, optSeparator, rep digit 2, optSeparator, rep digit 3, .bound]

/-- `PATTERNS`. -/
def patterns : List LabelledPattern :=
  [("emirates_id", emiratesId), ("iban_ae", ibanAe), ("email", email), ("phone_ae", phoneAe)]

/-- `sorted(set(labels))`. -/
def sortedSet (labels : List String) : List String :=
  labels.dedup.insertionSort (· ≤ ·)

variable [PyUnicode]

/-! ## Redaction -/

/-- `redact_text(text)` over a table of patterns. -/
def redactWith : List LabelledPattern → String → String × List String
  | [], text => (text, [])
  | (label, pattern) :: rest, text =>
    if pattern.search text then
      let (redacted, found) := redactWith rest (pattern.sub ("[REDACTED:" ++ label ++ "]") text)
      (redacted, label :: found)
    else redactWith rest text

/-- `redact_text(text)`. -/
def redactText (text : String) : String × List String :=
  redactWith patterns text

mutual
/-- `_redact_in_place(value, labels)` : the value left behind, and the labels found. -/
def redactValue : JVal → JVal × List String
  | .str text =>
    let (redacted, found) := redactText text
    (.str redacted, found)
  | .arr items =>
    let (redacted, found) := redactList items
    (.arr redacted, found)
  | .obj items =>
    let (redacted, found) := redactItems items
    (.obj redacted, found)
  | v => (v, [])

def redactList : List JVal → List JVal × List String
  | [] => ([], [])
  | v :: vs =>
    let (redacted, found) := redactValue v
    let (rest, more) := redactList vs
    (redacted :: rest, found ++ more)

def redactItems : List (String × JVal) → List (String × JVal) × List String
  | [] => ([], [])
  | (k, v) :: kvs =>
    let (redacted, found) := redactValue v
    let (rest, more) := redactItems kvs
    ((k, redacted) :: rest, found ++ more)
end

/-- `redact_payload(payload)`. -/
def redactPayload (payload : Dict) : Dict × List String :=
  let (redacted, labels) := redactItems payload
  (redacted, sortedSet labels)

/-- The keys of a payload stay. -/
theorem map_fst_redactItems : ∀ items : Dict,
    (redactItems items).1.map Prod.fst = items.map Prod.fst
  | [] => rfl
  | (k, v) :: kvs => by
    simp only [redactItems, List.map_cons, map_fst_redactItems kvs]

/-! ## Detection -/

/-- The labels of the patterns a text matches. -/
def labelsOf (table : List LabelledPattern) (text : String) : List String :=
  (table.filter fun entry => entry.2.search text).map Prod.fst

mutual
/-- `_scan(value, labels)` over a table of patterns. -/
def scan (table : List LabelledPattern) : JVal → List String
  | .str text => labelsOf table text
  | .arr items => scanList table items
  | .obj items => scanItems table items
  | _ => []

def scanList (table : List LabelledPattern) : List JVal → List String
  | [] => []
  | v :: vs => scan table v ++ scanList table vs

def scanItems (table : List LabelledPattern) : List (String × JVal) → List String
  | [] => []
  | (_, v) :: kvs => scan table v ++ scanItems table kvs
end

/-- `detect_pii_labels(payload)`. -/
def detectPiiLabels (payload : Dict) : List String :=
  sortedSet (scanItems patterns payload)

end Attest
