import Attest.Recording
import Attest.Remediation
import Attest.Lib.Substitution

/-!
# What redaction leaves

No pattern takes a bracket or a colon, each needs a digit or an `@`, and each stands between
word boundaries. So a text that was redacted holds no match of any pattern
(`labelsOf_redactText`), a payload that was redacted is clean and stays as it is
(`redaction_fixpoint`), and a plan that only redacts never has anything left over.

Detection and redaction look at every text of a payload and at no key of its objects
(`scan_eq`, `textsOf_redactValue`). Personal data is minimised in every position if and only
if no key matches a pattern (`pii_minimised_iff`).
-/

set_option linter.unusedSectionVars false

namespace Attest

open Regex

section Redaction

variable [PyUnicode]

/-! ## The patterns and their marks -/

/-- No pattern takes these. -/
def piiStops (c : Char) : Bool := c = '[' || c = ':' || c = ']'

/-- Every match takes one of these. -/
def piiKey (c : Char) : Bool := (PyText.decimal c).isSome || c = '@'

theorem piiStops_cases {c : Char} (h : piiStops c = true) : c = '[' ∨ c = ':' ∨ c = ']' := by
  simpa [piiStops, or_assoc] using h

theorem needs_digit : digit.Needs piiKey := fun c hc => by
  rw [piiKey, Bool.or_eq_true]
  exact Or.inl hc

theorem guarded_patterns : ∀ entry ∈ patterns, Guarded piiStops piiKey entry.2 := by
  intro entry hentry
  simp only [patterns, List.mem_cons, List.not_mem_nil, or_false] at hentry
  rcases hentry with rfl | rfl | rfl | rfl
  · refine guarded_seqs (lit "784" ++ [optDash, rep digit 3, optDash, rep digit 6, optDash, digit])
      (List.mem_append_right _ (by simp)) needs_digit fun c hc => ?_
    rcases piiStops_cases hc with rfl | rfl | rfl <;> rfl
  · refine guarded_seqs (lit "AE" ++ [rep digit 1, rep digit 2, rep digit 15])
      (r := rep digit 1) (List.mem_append_right _ (by simp)) (Or.inl needs_digit) fun c hc => ?_
    rcases piiStops_cases hc with rfl | rfl | rfl <;> rfl
  · refine guarded_seqs [.plus (.union .word (.union (.lit '.') (.union (.lit '+') (.lit '-')))),
      .cls (.lit '@'), .plus (.union .word (.lit '-')), .cls (.lit '.'),
      .plus (.union .word (.union (.lit '.') (.lit '-')))] (r := .cls (.lit '@'))
      (List.mem_cons_of_mem _ List.mem_cons_self) (fun c hc => ?_) fun c hc => ?_
    · rw [piiKey, Bool.or_eq_true]
      exact Or.inr (decide_eq_true (eq_of_beq hc).symm)
    · rcases piiStops_cases hc with rfl | rfl | rfl <;> rfl
  · refine guarded_seqs [
      .alt (seqs ([.opt (.cls (.lit '+'))] ++ lit "971" ++ [optSeparator])) (.cls (.lit '0')),
      .cls (.lit '5'), digit, optSeparator, rep digit 2, optSeparator, rep digit 3]
      (List.mem_cons_of_mem _ (List.mem_cons_of_mem _ List.mem_cons_self)) needs_digit
      fun c hc => ?_
    rcases piiStops_cases hc with rfl | rfl | rfl <;> rfl

theorem mark_patterns : ∀ entry ∈ patterns,
    Mark piiStops piiKey ("[REDACTED:" ++ entry.1 ++ "]").toList := by
  intro entry hentry
  have hkeyless : ("[REDACTED:" ++ entry.1 ++ "]").toList.all (fun c => !piiKey c) = true := by
    simp only [patterns, List.mem_cons, List.not_mem_nil, or_false] at hentry
    rcases hentry with rfl | rfl | rfl | rfl <;> rfl
  refine ⟨⟨'[', "REDACTED:".toList ++ entry.1.toList ++ "]".toList, ?_, rfl⟩,
    ⟨']', ("[REDACTED:" ++ entry.1).toList, String.toList_append, rfl⟩, fun c hc => ?_⟩
  · rw [String.toList_append, String.toList_append]
    rfl
  · simpa using List.all_eq_true.mp hkeyless c hc

/-! ## Texts -/

/-- A text in which a part of the patterns finds nothing is only redacted by the others. -/
theorem redactWith_clean : ∀ (table done : List LabelledPattern) (text : String),
    (∀ entry ∈ table ++ done, entry ∈ patterns) →
    (∀ entry ∈ done, entry.2.search text = false) →
    ∀ entry ∈ table ++ done, entry.2.search (redactWith table text).1 = false
  | [], done, text, _, hdone => hdone
  | (label, pattern) :: rest, done, text, hpatterns, hdone => by
    have hpattern := hpatterns (label, pattern) List.mem_cons_self
    have hguarded := guarded_patterns _ hpattern
    have hmark := mark_patterns _ hpattern
    have hperm : ∀ entry ∈ (label, pattern) :: rest ++ done,
        entry ∈ rest ++ (label, pattern) :: done := by
      intro entry hentry
      rw [List.cons_append, List.mem_cons, List.mem_append] at hentry
      rw [List.mem_append, List.mem_cons]
      tauto
    have hback : ∀ entry ∈ rest ++ (label, pattern) :: done, entry ∈ patterns := by
      intro entry hentry
      refine hpatterns entry ?_
      rw [List.mem_append, List.mem_cons] at hentry
      rw [List.cons_append, List.mem_cons, List.mem_append]
      tauto
    intro entry hentry
    rw [redactWith]
    split
    · refine redactWith_clean rest ((label, pattern) :: done) _ hback ?_ entry (hperm entry hentry)
      intro other hother
      rcases List.mem_cons.mp hother with rfl | hother
      · exact search_sub hguarded _ text hmark
      · have hpat := hpatterns other (List.mem_append_right _ hother)
        exact search_sub_of_search (guarded_patterns _ hpat) hguarded _ text hmark
          (hdone other hother)
    · rename_i hnone
      refine redactWith_clean rest ((label, pattern) :: done) text hback ?_ entry
        (hperm entry hentry)
      intro other hother
      rcases List.mem_cons.mp hother with rfl | hother
      · simpa using hnone
      · exact hdone other hother

theorem labelsOf_eq_nil {table : List LabelledPattern} {text : String} :
    labelsOf table text = [] ↔ ∀ entry ∈ table, entry.2.search text = false := by
  simp [labelsOf, List.filter_eq_nil_iff]

/-- No pattern matches a text that was redacted. -/
theorem labelsOf_redactText (text : String) : labelsOf patterns (redactText text).1 = [] := by
  rw [labelsOf_eq_nil]
  have hclean := redactWith_clean patterns [] text (fun entry hentry => by simpa using hentry) nofun
  rwa [List.append_nil] at hclean

/-- Redaction leaves a text as it is where no pattern matches, and reports a label else. -/
theorem redactWith_of_clean : ∀ {table : List LabelledPattern} {text : String},
    labelsOf table text = [] → redactWith table text = (text, [])
  | [], _, _ => rfl
  | (label, pattern) :: rest, text, h => by
    rw [labelsOf_eq_nil] at h
    rw [redactWith, if_neg (by simp [h (label, pattern) List.mem_cons_self])]
    exact redactWith_of_clean (labelsOf_eq_nil.mpr fun entry hentry =>
      h entry (List.mem_cons_of_mem _ hentry))

theorem redactWith_labels : ∀ {table : List LabelledPattern} {text : String},
    (redactWith table text).2 = [] → labelsOf table text = []
  | [], _, _ => rfl
  | (label, pattern) :: rest, text, h => by
    rw [redactWith] at h
    split at h
    · cases h
    · rename_i hnone
      have hrest := labelsOf_eq_nil.mp (redactWith_labels h)
      rw [labelsOf_eq_nil]
      intro entry hentry
      rcases List.mem_cons.mp hentry with rfl | hentry
      · simpa using hnone
      · exact hrest entry hentry

/-! ## Values -/

mutual
/-- A value that was redacted is clean, and is not changed again. -/
theorem scan_redactValue : ∀ v : JVal, scan patterns (redactValue v).1 = []
  | .str text => labelsOf_redactText text
  | .arr items => scanList_redactList items
  | .obj items => scanItems_redactItems items
  | .null => rfl
  | .bool _ => rfl
  | .int _ => rfl
  | .float _ => rfl

theorem scanList_redactList : ∀ items : List JVal, scanList patterns (redactList items).1 = []
  | [] => rfl
  | v :: vs => by
    rw [redactList, scanList, scan_redactValue v, scanList_redactList vs, List.nil_append]

theorem scanItems_redactItems : ∀ items : Dict, scanItems patterns (redactItems items).1 = []
  | [] => rfl
  | (k, v) :: kvs => by
    rw [redactItems, scanItems, scan_redactValue v, scanItems_redactItems kvs, List.nil_append]
end

mutual
/-- Redaction leaves a clean value as it is. -/
theorem redactValue_of_clean : ∀ {v : JVal}, scan patterns v = [] → redactValue v = (v, [])
  | .str text, h => by
    rw [redactValue, redactText, redactWith_of_clean h]
  | .arr items, h => by
    rw [redactValue, redactList_of_clean h]
  | .obj items, h => by
    rw [redactValue, redactItems_of_clean h]
  | .null, _ => rfl
  | .bool _, _ => rfl
  | .int _, _ => rfl
  | .float _, _ => rfl

theorem redactList_of_clean : ∀ {items : List JVal}, scanList patterns items = [] →
    redactList items = (items, [])
  | [], _ => rfl
  | v :: vs, h => by
    obtain ⟨hv, hvs⟩ := List.append_eq_nil_iff.mp h
    rw [redactList, redactValue_of_clean hv, redactList_of_clean hvs]
    rfl

theorem redactItems_of_clean : ∀ {items : Dict}, scanItems patterns items = [] →
    redactItems items = (items, [])
  | [], _ => rfl
  | (k, v) :: kvs, h => by
    obtain ⟨hv, hkvs⟩ := List.append_eq_nil_iff.mp h
    rw [redactItems, redactValue_of_clean hv, redactItems_of_clean hkvs]
    rfl
end

mutual
/-- What redaction reports is nothing only of a clean value. -/
theorem scan_of_redactValue : ∀ {v : JVal}, (redactValue v).2 = [] → scan patterns v = []
  | .str _, h => redactWith_labels h
  | .arr _, h => scanList_of_redactList h
  | .obj _, h => scanItems_of_redactItems h
  | .null, _ => rfl
  | .bool _, _ => rfl
  | .int _, _ => rfl
  | .float _, _ => rfl

theorem scanList_of_redactList : ∀ {items : List JVal}, (redactList items).2 = [] →
    scanList patterns items = []
  | [], _ => rfl
  | v :: vs, h => by
    obtain ⟨hv, hvs⟩ := List.append_eq_nil_iff.mp h
    rw [scanList, scan_of_redactValue hv, scanList_of_redactList hvs, List.nil_append]

theorem scanItems_of_redactItems : ∀ {items : Dict}, (redactItems items).2 = [] →
    scanItems patterns items = []
  | [], _ => rfl
  | (k, v) :: kvs, h => by
    obtain ⟨hv, hkvs⟩ := List.append_eq_nil_iff.mp h
    rw [scanItems, scan_of_redactValue hv, scanItems_of_redactItems hkvs, List.nil_append]
end

theorem sortedSet_eq_nil {labels : List String} : sortedSet labels = [] ↔ labels = [] := by
  rw [sortedSet, ← List.length_eq_zero_iff, (List.perm_insertionSort (· ≤ ·) _).length_eq,
    List.length_eq_zero_iff, List.dedup_eq_nil]

/-- Detection finds nothing in a redacted payload, which a second redaction leaves alone.
Redaction reports a label where detection does. So a plan that only redacts offers the redacted
payload, whatever was found. -/
theorem redaction_fixpoint (payload : Dict) :
    detectPiiLabels (redactPayload payload).1 = [] ∧
      redactPayload (redactPayload payload).1 = ((redactPayload payload).1, []) ∧
      ((redactPayload payload).2 ≠ [] ↔ detectPiiLabels payload ≠ []) ∧
      ∀ (features : FeatureVector) (findings : List PackFinding) (reasons : List String)
        (blocked : Bool), features.hasPii = true → features.prohibitedPhrases = [] →
        ∃ fix, plan payload features findings reasons blocked = some fix ∧
          fix.revisedOutput = some (redactPayload payload).1 ∧
          redactEdit features findings ∈ fix.edits := by
  have hclean : detectPiiLabels (redactPayload payload).1 = [] :=
    sortedSet_eq_nil.mpr (scanItems_redactItems payload)
  refine ⟨hclean, ?_, not_congr ?_, ?_⟩
  · have hagain : redactItems (redactPayload payload).1 = ((redactPayload payload).1, []) :=
      redactItems_of_clean (scanItems_redactItems payload)
    rw [redactPayload, hagain]
    rfl
  · rw [detectPiiLabels, redactPayload, sortedSet_eq_nil, sortedSet_eq_nil]
    refine ⟨scanItems_of_redactItems, fun h => ?_⟩
    rw [redactItems_of_clean h]
  · intro features findings reasons blocked hpii hphrases
    have hrevised : (applyMitigationIds payload ["redact_pii_before_send"]).1 =
        (redactPayload payload).1 := rfl
    simp [plan, hpii, hphrases, hrevised, hclean]

/-! ## Every position of a payload -/

mutual
/-- The texts of a value, at any depth. -/
def textsOf : JVal → List String
  | .str text => [text]
  | .arr items => textsOfList items
  | .obj items => textsOfItems items
  | _ => []

def textsOfList : List JVal → List String
  | [] => []
  | v :: vs => textsOf v ++ textsOfList vs

def textsOfItems : List (String × JVal) → List String
  | [] => []
  | (_, v) :: kvs => textsOf v ++ textsOfItems kvs
end

mutual
/-- The keys of its objects, at any depth. -/
def keysOf : JVal → List String
  | .arr items => keysOfList items
  | .obj items => keysOfItems items
  | _ => []

def keysOfList : List JVal → List String
  | [] => []
  | v :: vs => keysOf v ++ keysOfList vs

def keysOfItems : List (String × JVal) → List String
  | [] => []
  | (k, v) :: kvs => k :: (keysOf v ++ keysOfItems kvs)
end

mutual
/-- The scan looks at every text, and at no key. -/
theorem scan_eq (table : List LabelledPattern) : ∀ v : JVal,
    scan table v = (textsOf v).flatMap (labelsOf table)
  | .str _ => (List.append_nil _).symm
  | .arr items => scanList_eq table items
  | .obj items => scanItems_eq table items
  | .null => rfl
  | .bool _ => rfl
  | .int _ => rfl
  | .float _ => rfl

theorem scanList_eq (table : List LabelledPattern) : ∀ items : List JVal,
    scanList table items = (textsOfList items).flatMap (labelsOf table)
  | [] => rfl
  | v :: vs => by
    rw [scanList, textsOfList, List.flatMap_append, scan_eq table v, scanList_eq table vs]

theorem scanItems_eq (table : List LabelledPattern) : ∀ items : Dict,
    scanItems table items = (textsOfItems items).flatMap (labelsOf table)
  | [] => rfl
  | (k, v) :: kvs => by
    rw [scanItems, textsOfItems, List.flatMap_append, scan_eq table v, scanItems_eq table kvs]
end

mutual
/-- Redaction replaces every text, and keeps every key. -/
theorem textsOf_redactValue : ∀ v : JVal,
    textsOf (redactValue v).1 = (textsOf v).map (fun text => (redactText text).1) ∧
      keysOf (redactValue v).1 = keysOf v
  | .str _ => ⟨rfl, rfl⟩
  | .arr items => textsOf_redactList items
  | .obj items => textsOf_redactItems items
  | .null => ⟨rfl, rfl⟩
  | .bool _ => ⟨rfl, rfl⟩
  | .int _ => ⟨rfl, rfl⟩
  | .float _ => ⟨rfl, rfl⟩

theorem textsOf_redactList : ∀ items : List JVal,
    textsOfList (redactList items).1 =
        (textsOfList items).map (fun text => (redactText text).1) ∧
      keysOfList (redactList items).1 = keysOfList items
  | [] => ⟨rfl, rfl⟩
  | v :: vs => by
    obtain ⟨htexts, hkeys⟩ := textsOf_redactValue v
    obtain ⟨hrest, hmore⟩ := textsOf_redactList vs
    simp only [redactList, textsOfList, keysOfList, List.map_append, htexts, hkeys, hrest, hmore,
      and_self]

theorem textsOf_redactItems : ∀ items : Dict,
    textsOfItems (redactItems items).1 =
        (textsOfItems items).map (fun text => (redactText text).1) ∧
      keysOfItems (redactItems items).1 = keysOfItems items
  | [] => ⟨rfl, rfl⟩
  | (k, v) :: kvs => by
    obtain ⟨htexts, hkeys⟩ := textsOf_redactValue v
    obtain ⟨hrest, hmore⟩ := textsOf_redactItems kvs
    simp only [redactItems, textsOfItems, keysOfItems, List.map_append, htexts, hkeys, hrest,
      hmore, and_self]
end

/-- Every text and key that matches a pattern is reported, and in the content that is kept
none does. -/
def Minimised (payload content : Dict) : Prop :=
  (∀ text ∈ textsOfItems payload ++ keysOfItems payload, ∀ entry ∈ patterns,
      entry.2.search text = true → entry.1 ∈ detectPiiLabels payload) ∧
    ∀ text ∈ textsOfItems content ++ keysOfItems content, ∀ entry ∈ patterns,
      entry.2.search text = false

theorem mem_detectPiiLabels {payload : Dict} {label : String} :
    label ∈ detectPiiLabels payload ↔
      ∃ text ∈ textsOfItems payload, label ∈ labelsOf patterns text := by
  rw [detectPiiLabels, sortedSet, List.mem_insertionSort, List.mem_dedup, scanItems_eq,
    List.mem_flatMap]

/-- Personal data is minimised where no key matches a pattern. -/
theorem minimised_redactPayload (payload : Dict) :
    Minimised payload (redactPayload payload).1 ↔
      ∀ key ∈ keysOfItems payload, ∀ entry ∈ patterns, entry.2.search key = false := by
  obtain ⟨htexts, hkeys⟩ := textsOf_redactItems payload
  have hcontent : textsOfItems (redactPayload payload).1 ++ keysOfItems (redactPayload payload).1 =
      (textsOfItems payload).map (fun text => (redactText text).1) ++ keysOfItems payload := by
    rw [← htexts]
    exact congrArg _ hkeys
  rw [Minimised, hcontent]
  constructor
  · rintro ⟨-, hclean⟩ key hkey
    exact hclean key (List.mem_append_right _ hkey)
  · intro hclean
    refine ⟨fun text htext entry hentry hmatch => ?_, fun _ htext => ?_⟩
    · rcases List.mem_append.mp htext with htext | hkey
      · refine mem_detectPiiLabels.mpr ⟨text, htext, List.mem_map.mpr ⟨entry, ?_, rfl⟩⟩
        exact List.mem_filter.mpr ⟨hentry, hmatch⟩
      · rw [hclean text hkey entry hentry] at hmatch
        cases hmatch
    · rcases List.mem_append.mp htext with htext | hkey
      · obtain ⟨old, -, rfl⟩ := List.mem_map.mp htext
        exact labelsOf_eq_nil.mp (labelsOf_redactText old)
      · exact hclean _ hkey

variable [SignatureScheme] [KeyWrapping]

/-- Of every payload, what matches a pattern is reported and nothing of what an event is
recorded with matches one, if and only if no key of its objects does. -/
theorem pii_minimised_iff (payload : Dict) :
    (Minimised payload (redactPayload payload).1 ↔
      ∀ key ∈ keysOfItems payload, ∀ entry ∈ patterns, entry.2.search key = false) ∧
    ∀ (svc : SigningKeyPair) (db db' : Db) (args : RecordArgs) (fresh : Fresh) (out : EventOut),
      args.payload = payload → recordEvent svc db args fresh = .ok (db', out) →
      ∃ e ∈ db'.events, out = EventOut.ofEvent e ∧
        e.payloadHash = sha256Hex (redactPayload payload).1 ∧
        ∃ rows, sealPayload db args.orgId e.payloadHash (redactPayload payload).1
            (redactPayload payload).2 fresh.contentKey = .ok rows ∧
          db'.payloads = (db.withRows rows).payloads := by
  refine ⟨minimised_redactPayload payload, ?_⟩
  rintro svc db db' args fresh out rfl hrecord
  obtain ⟨e, hrecorded, rfl⟩ := recordEvent_recorded hrecord
  have hhash := hrecorded.hash_eq
  obtain ⟨-, -, opened, rows, -, hrows, rfl⟩ := hrecorded
  exact ⟨e, by simp, rfl, hhash, rows, hrows, rfl⟩

end Redaction

namespace RedactionSample

scoped instance : PyUnicode := .ascii

/-- A payload keyed by an address. -/
def keyedByMail : Dict := [("ali@bank.ae", .str "client")]

end RedactionSample

open RedactionSample in
/-- The address is neither reported nor redacted. -/
theorem keys_not_minimised :
    email.search "ali@bank.ae" = true ∧ detectPiiLabels keyedByMail = [] ∧
      (redactPayload keyedByMail).1 = keyedByMail ∧
      ¬Minimised keyedByMail (redactPayload keyedByMail).1 := by
  have hsearch : email.search "ali@bank.ae" = true := by decide +kernel
  refine ⟨hsearch, by decide +kernel, by decide +kernel, fun hminimised => ?_⟩
  have hkey := (minimised_redactPayload keyedByMail).mp hminimised "ali@bank.ae" (by simp
    [keyedByMail, keysOfItems]) ("email", email) (by simp [patterns])
  rw [hsearch] at hkey
  cases hkey

end Attest
