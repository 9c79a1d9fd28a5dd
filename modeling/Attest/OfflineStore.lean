import Attest.Crypto
import Attest.Lib.PyText
import Attest.Lib.TextFile

/-!
# The durable buffer of a device

While the service is out of reach a device queues its records in a file, a sealed line
each (`OfflineStore`). A line that does not open is skipped when the queue is read
(`readAll`), but it counts when records are dropped from it (`drop`) : `drop_exact_iff` is
when a drop removes what was accepted.

A crash can leave the head of a line without its newline, and the next line is then written
into it. Where nothing is appended after such a line, every record whose append returned is
read once and in order (`reads_of_clean`).
-/

set_option linter.unusedSectionVars false

namespace Attest

/-! ## Sealed lines -/

/-- How a record becomes a line of the queue : `AESGCM` under the key of the state directory
over its JSON text, in base64 with the nonce before. -/
class RecordSealing (R : Type) where
  sealRecord : Bytes → R → String
  /-- `none` where reading the line raises. -/
  openLine : String → Option R

/-- The characters of base64. -/
def IsBase64 (c : Char) : Prop :=
  c.isAlphanum = true ∨ c = '+' ∨ c = '/' ∨ c = '='

/-- What a device sealed opens again, and is base64 text. -/
class LawfulSealing (R : Type) [RecordSealing R] : Prop where
  openLine_sealRecord (nonce : Bytes) (r : R) :
    RecordSealing.openLine (RecordSealing.sealRecord nonce r) = some r
  base64 (nonce : Bytes) (r : R) : ∀ c ∈ (RecordSealing.sealRecord nonce r).toList, IsBase64 c
  nonempty (nonce : Bytes) (r : R) : RecordSealing.sealRecord nonce r ≠ ""

namespace OfflineStore

/-- What is kept of the rest of a list is the rest of what is kept, where nothing before is
left out. -/
theorem filterMap_drop_eq_iff {α β : Type} {f : α → Option β} {xs : List α} {k : Nat}
    (hk : k ≤ (xs.filterMap f).length) :
    (xs.drop k).filterMap f = (xs.filterMap f).drop k ↔ ∀ x ∈ xs.take k, (f x).isSome = true := by
  have hsplit : xs.filterMap f = (xs.take k).filterMap f ++ (xs.drop k).filterMap f := by
    rw [← List.filterMap_append, List.take_append_drop]
  have hle : ((xs.take k).filterMap f).length ≤ (xs.take k).length := List.length_filterMap_le _ _
  have htake : (xs.take k).length ≤ k := by
    rw [List.length_take]
    exact Nat.min_le_left _ _
  have hxs : (xs.filterMap f).length ≤ xs.length := List.length_filterMap_le _ _
  have hlength : ((xs.take k).filterMap f).length = (xs.take k).length ↔
      ∀ x ∈ xs.take k, (f x).isSome = true := List.filterMap_length_eq_length
  constructor
  · intro heq
    have hcount := congrArg List.length heq
    rw [List.length_drop, hsplit, List.length_append] at hcount
    rw [hsplit, List.length_append] at hk
    exact hlength.mp (by omega)
  · intro hall
    have hfull := hlength.mpr hall
    have hcount : ((xs.take k).filterMap f).length = k := by
      rw [hfull, List.length_take]
      omega
    rw [hsplit]
    exact (List.drop_left' hcount).symm

section Queue

variable {R : Type} [RecordSealing R] [PyUnicode]

/-! ## The queue -/

/-- `[line for line in path.read_text().splitlines() if line.strip()]`. -/
def readLines (file : Bytes) : Except PyError (List String) :=
  match TextFile.decode file with
  | none => .error .valueError
  | some text =>
    .ok (((TextFile.splitLines (TextFile.newlines text.toList)).map String.ofList).filter
      fun line => !PyText.isBlank line)

/-- `read_all()`, of the file that there is or is not. -/
def readAll (file : Option Bytes) : Except PyError (List R) :=
  match file with
  | none => .ok []
  | some file => do
    let lines ← readLines file
    return lines.filterMap RecordSealing.openLine

/-- The line that `append(record)` writes. -/
def sealedLine (nonce : Bytes) (r : R) : Bytes :=
  Bytes.utf8 (RecordSealing.sealRecord nonce r ++ "\n")

/-- `append(record)`. -/
def append (file : Option Bytes) (nonce : Bytes) (r : R) : Option Bytes :=
  some (file.getD [] ++ sealedLine nonce r)

/-- The file that a crash in `append(record)` leaves, where `written` bytes had been written. -/
def tornAppend (file : Option Bytes) (nonce : Bytes) (r : R) (written : Nat) : Option Bytes :=
  some (file.getD [] ++ (sealedLine nonce r).take written)

/-- `"\n".join(lines) + ("\n" if lines else "")`. -/
def linesText (lines : List String) : String :=
  String.ofList (TextFile.joinLines (lines.map String.toList))

/-- `drop(count)`. -/
def drop (file : Option Bytes) (count : Nat) : Except PyError (Option Bytes) :=
  match file with
  | none => .ok none
  | some file =>
    if count = 0 then .ok (some file)
    else do
      let lines ← readLines file
      return some (Bytes.utf8 (linesText (lines.drop count)))

/-! ## Lines that are read -/

/-- The lines that are read have no break in them and are not blank. -/
theorem readLines_spec {file : Bytes} {lines : List String} (h : readLines file = .ok lines) :
    ∀ line ∈ lines, TextFile.IsLine line.toList ∧ PyText.isBlank line = false := by
  unfold readLines at h
  split at h
  · cases h
  · obtain rfl := Except.ok.inj h
    intro line hline
    obtain ⟨hmem, hblank⟩ := List.mem_filter.mp hline
    obtain ⟨cs, hcs, rfl⟩ := List.mem_map.mp hmem
    rw [String.toList_ofList]
    exact ⟨TextFile.isLine_of_mem_splitLines hcs, by simpa using hblank⟩

/-- Lines that were written are read back. -/
theorem readLines_linesText {lines : List String}
    (h : ∀ line ∈ lines, TextFile.IsLine line.toList ∧ PyText.isBlank line = false) :
    readLines (Bytes.utf8 (linesText lines)) = .ok lines := by
  have hlines : ∀ line ∈ lines.map String.toList, TextFile.IsLine line := by
    intro cs hcs
    obtain ⟨line, hline, rfl⟩ := List.mem_map.mp hcs
    exact (h line hline).1
  have hmap : (lines.map String.toList).map String.ofList = lines := by
    rw [List.map_map]
    exact (List.map_congr_left fun line _ => String.ofList_toList).trans (List.map_id _)
  simp only [readLines, TextFile.decode_utf8, linesText, String.toList_ofList,
    TextFile.newlines_eq_self (TextFile.ne_return_of_joinLines hlines),
    TextFile.splitLines_joinLines hlines, hmap]
  rw [List.filter_eq_self.mpr fun line hline => by simp [(h line hline).2]]

theorem readLines_drop {file : Bytes} {lines : List String} (h : readLines file = .ok lines)
    (k : Nat) : readLines (Bytes.utf8 (linesText (lines.drop k))) = .ok (lines.drop k) :=
  readLines_linesText fun line hline => readLines_spec h line (List.mem_of_mem_drop hline)

/-! ## Dropping -/

/-- A read queue has lines. -/
theorem readAll_some_eq_ok {file : Bytes} {records : List R} :
    readAll (some file) = .ok records ↔
      ∃ lines, readLines file = .ok lines ∧ records = lines.filterMap RecordSealing.openLine := by
  rw [readAll, Except.bind_eq_ok]
  constructor
  · rintro ⟨lines, hlines, h⟩
    exact ⟨lines, hlines, (Except.ok.inj h).symm⟩
  · rintro ⟨lines, hlines, rfl⟩
    exact ⟨lines, hlines, rfl⟩

/-- A drop leaves the lines after the first ones. -/
theorem drop_lines {file : Bytes} {lines : List String} (h : readLines file = .ok lines) (k : Nat) :
    ∃ file', drop (some file) k = .ok (some file') ∧ readLines file' = .ok (lines.drop k) := by
  by_cases hzero : k = 0
  · subst hzero
    exact ⟨file, by rw [drop, if_pos rfl], h⟩
  · refine ⟨Bytes.utf8 (linesText (lines.drop k)), ?_, readLines_drop h k⟩
    rw [drop, if_neg hzero, h]
    rfl

/-- A drop leaves what comes after the records that were accepted, exactly where the file is
text and no line before the last of them fails to open. -/
theorem drop_exact_iff (file : Option Bytes) (k : Nat) :
    (∃ records : List R, readAll file = .ok records ∧ (k ≤ records.length →
      ∃ file', drop file k = .ok file' ∧ readAll file' = .ok (records.drop k))) ↔
    ∀ bytes, file = some bytes → ∃ lines, readLines bytes = .ok lines ∧
      (k ≤ (lines.filterMap (RecordSealing.openLine : String → Option R)).length →
        ∀ line ∈ lines.take k, (RecordSealing.openLine line : Option R).isSome = true) := by
  cases file with
  | none =>
    refine iff_of_true ⟨[], rfl, fun _ => ⟨none, rfl, by simp [readAll]⟩⟩ nofun
  | some bytes =>
    constructor
    · rintro ⟨records, hread, hdrop⟩ _ hbytes
      obtain rfl := Option.some.inj hbytes
      obtain ⟨lines, hlines, rfl⟩ := readAll_some_eq_ok.mp hread
      refine ⟨lines, hlines, fun hk => (filterMap_drop_eq_iff hk).mp ?_⟩
      obtain ⟨file', hfile', hrest⟩ := hdrop hk
      obtain ⟨bytes', hbytes', hlines'⟩ := drop_lines hlines k
      obtain rfl := Except.ok.inj (hfile'.symm.trans hbytes')
      obtain ⟨rest, hrest', heq⟩ := readAll_some_eq_ok.mp hrest
      obtain rfl := Except.ok.inj (hlines'.symm.trans hrest')
      exact heq.symm
    · intro h
      obtain ⟨lines, hlines, hopen⟩ := h bytes rfl
      refine ⟨_, readAll_some_eq_ok.mpr ⟨lines, hlines, rfl⟩, fun hk => ?_⟩
      obtain ⟨bytes', hbytes', hlines'⟩ := drop_lines hlines k
      refine ⟨some bytes', hbytes', ?_⟩
      rw [← (filterMap_drop_eq_iff hk).mpr (hopen hk)]
      exact readAll_some_eq_ok.mpr ⟨_, hlines', rfl⟩

/-! ## Appends and crashes -/

/-- What happens to the queue of a process that appends, crashes and starts again. -/
inductive StoreStep (R : Type) where
  | append (nonce : Bytes) (r : R)
  /-- A crash in an append that had written so many bytes. -/
  | crash (nonce : Bytes) (r : R) (written : Nat)
  | restart

/-- The file, with the records of all appends in order and whether each one returned. -/
structure StoreRun (R : Type) where
  file : Option Bytes
  history : List (Bool × R)

def StoreRun.step (s : StoreRun R) : StoreStep R → StoreRun R
  | .append nonce r => ⟨OfflineStore.append s.file nonce r, s.history ++ [(true, r)]⟩
  | .crash nonce r written => ⟨tornAppend s.file nonce r written, s.history ++ [(false, r)]⟩
  | .restart => s

def StoreRun.run (s : StoreRun R) (steps : List (StoreStep R)) : StoreRun R :=
  steps.foldl StoreRun.step s

/-- No line of the file is without its newline. -/
def Clean (file : Option Bytes) : Prop :=
  ∀ bytes, file = some bytes → ∀ b ∈ bytes.getLast?, b = 10

/-- An append that returns does not write after the head of a line. -/
def AppendsClean : StoreRun R → List (StoreStep R) → Prop
  | _, [] => True
  | s, step :: steps =>
    (∀ nonce r, step = .append nonce r → Clean s.file) ∧ AppendsClean (s.step step) steps

/-- What is read has an entry for each append that returned, in order, and at most one more
for each one that a crash cut off. -/
def ReadsReturned (s : StoreRun R) : Prop :=
  ∃ tagged : List (Bool × R), readAll s.file = .ok (tagged.map Prod.snd) ∧
    tagged.filter Prod.fst = s.history.filter Prod.fst ∧ tagged.length ≤ s.history.length

/-- The file holds whole lines, of which `tagged` are the records that open, and the head of
one more line. -/
structure Holds (s : StoreRun R) (lines : List (List Char)) (head : List Char)
    (tagged : List (Bool × R)) : Prop where
  file : s.file.getD [] = Bytes.utf8 (String.ofList (TextFile.joinLines lines ++ head))
  base64 : ∀ line ∈ lines, line ≠ [] ∧ ∀ c ∈ line, IsBase64 c
  head_base64 : ∀ c ∈ head, IsBase64 c
  opened : lines.filterMap (fun line => RecordSealing.openLine (String.ofList line)) =
    tagged.map Prod.snd
  returned : tagged.filter Prod.fst = s.history.filter Prod.fst
  count : tagged.length + (if head = [] then 0 else 1) ≤ s.history.length

theorem base64_bounds {c : Char} (h : IsBase64 c) : 33 ≤ c.toNat ∧ c.toNat < 127 := by
  rcases h with h | rfl | rfl | rfl
  · have hranges : (decide ('A'.val ≤ c.val ∧ c.val ≤ 'Z'.val) ||
        decide ('a'.val ≤ c.val) && decide (c.val ≤ 'z'.val) ||
        decide ('0'.val ≤ c.val) && decide (c.val ≤ '9'.val)) = true := h
    simp only [Bool.or_eq_true, Bool.and_eq_true, decide_eq_true_eq, UInt32.le_iff_toNat_le]
      at hranges
    have hval : c.toNat = c.val.toNat := rfl
    have hA : 'A'.val.toNat = 65 := by decide
    have hZ : 'Z'.val.toNat = 90 := by decide
    have ha : 'a'.val.toNat = 97 := by decide
    have hz : 'z'.val.toNat = 122 := by decide
    have h0 : '0'.val.toNat = 48 := by decide
    have h9 : '9'.val.toNat = 57 := by decide
    omega
  all_goals decide

theorem isBreak_of_base64 {c : Char} (h : IsBase64 c) : TextFile.isBreak c = false := by
  obtain ⟨hlow, hhigh⟩ := base64_bounds h
  have hnewline : c ≠ '\n' := by
    rintro rfl
    exact absurd hlow (by decide)
  have hreturn : c ≠ '\r' := by
    rintro rfl
    exact absurd hlow (by decide)
  simp only [TextFile.isBreak, hnewline, hreturn, decide_false, Bool.false_or, Bool.or_eq_false_iff,
    decide_eq_false_iff_not]
  omega

theorem isSpace_of_base64 {c : Char} (h : IsBase64 c) : PyText.isSpace c = false := by
  obtain ⟨hlow, hhigh⟩ := base64_bounds h
  have hascii : PyText.isAscii c = true := by
    simp only [PyText.isAscii, decide_eq_true_eq]
    omega
  rw [PyText.isSpace, if_pos hascii]
  simp only [Bool.or_eq_false_iff, Bool.and_eq_false_iff, decide_eq_false_iff_not]
  omega

theorem isBlank_of_base64 {line : List Char} (hne : line ≠ []) (h : ∀ c ∈ line, IsBase64 c) :
    PyText.isBlank (String.ofList line) = false := by
  cases line with
  | nil => exact absurd rfl hne
  | cons c line =>
    have hspace := isSpace_of_base64 (h c (by simp))
    simp [PyText.isBlank, hspace]

/-- A file that there is not is read as an empty one. -/
theorem readAll_getD (file : Option Bytes) :
    (readAll (some (file.getD [])) : Except PyError (List R)) = readAll file := by
  cases file with
  | some file => rfl
  | none =>
    have hlines : readLines (Bytes.utf8 (linesText [])) = .ok [] := readLines_linesText (by simp)
    exact readAll_some_eq_ok.mpr ⟨[], hlines, rfl⟩

/-- The lines of a file, with the head of one more where there is one. -/
theorem readLines_holds {lines : List (List Char)} {head : List Char}
    (hlines : ∀ line ∈ lines, line ≠ [] ∧ ∀ c ∈ line, IsBase64 c)
    (hhead : ∀ c ∈ head, IsBase64 c) :
    readLines (Bytes.utf8 (String.ofList (TextFile.joinLines lines ++ head))) =
      .ok ((lines ++ if head = [] then [] else [head]).map String.ofList) := by
  have hline : ∀ line ∈ lines, TextFile.IsLine line := fun line hl c hc =>
    isBreak_of_base64 ((hlines line hl).2 c hc)
  have hheadLine : TextFile.IsLine head := fun c hc => isBreak_of_base64 (hhead c hc)
  have hreturn : ∀ c ∈ TextFile.joinLines lines ++ head, c ≠ '\r' := by
    intro c hc
    rcases List.mem_append.mp hc with hc | hc
    · exact TextFile.ne_return_of_joinLines hline c hc
    · exact TextFile.ne_return_of_isLine hheadLine c hc
  have hsplit : TextFile.splitLines head = if head = [] then [] else [head] := by
    split
    · rename_i hempty
      rw [hempty]
      rfl
    · rename_i hne
      exact TextFile.splitLines_line hheadLine hne
  simp only [readLines, TextFile.decode_utf8, String.toList_ofList,
    TextFile.newlines_eq_self hreturn, TextFile.splitLines_append hline, hsplit]
  refine congrArg Except.ok (List.filter_eq_self.mpr fun text htext => ?_)
  obtain ⟨line, hmem, rfl⟩ := List.mem_map.mp htext
  rw [Bool.not_eq_true']
  rcases List.mem_append.mp hmem with hmem | hmem
  · exact isBlank_of_base64 (hlines line hmem).1 (hlines line hmem).2
  · split at hmem
    · cases hmem
    · rename_i hne
      obtain rfl := List.mem_singleton.mp hmem
      exact isBlank_of_base64 hne hhead

/-- The record at the head of a line without its newline, where it opens. -/
def openedHead (head : List Char) : List R :=
  if head = [] then [] else (RecordSealing.openLine (String.ofList head)).toList

theorem length_openedHead (head : List Char) :
    (openedHead head : List R).length ≤ if head = [] then 0 else 1 := by
  unfold openedHead
  split
  · exact le_refl _
  · cases (RecordSealing.openLine (String.ofList head) : Option R) <;> simp

/-- What is read of a file. -/
theorem Holds.readAll {s : StoreRun R} {lines : List (List Char)} {head : List Char}
    {tagged : List (Bool × R)} (h : Holds s lines head tagged) :
    OfflineStore.readAll s.file = .ok (tagged.map Prod.snd ++ openedHead head) := by
  rw [← readAll_getD, h.file]
  refine readAll_some_eq_ok.mpr ⟨_, readLines_holds h.base64 h.head_base64, ?_⟩
  rw [List.filterMap_map, List.filterMap_append, ← h.opened, openedHead]
  refine congrArg₂ (· ++ ·) rfl ?_
  split
  · rfl
  · cases hopen : (RecordSealing.openLine (String.ofList head) : Option R) <;> simp [hopen]

theorem Holds.readsReturned {s : StoreRun R} {lines : List (List Char)} {head : List Char}
    {tagged : List (Bool × R)} (h : Holds s lines head tagged) : ReadsReturned s := by
  refine ⟨tagged ++ (openedHead head).map fun r => (false, r), ?_, ?_, ?_⟩
  · rw [h.readAll, List.map_append, List.map_map]
    exact congrArg (fun rest => Except.ok (tagged.map Prod.snd ++ rest)) (List.map_id _).symm
  · have hnone : ((openedHead head : List R).map fun r => (false, r)).filter Prod.fst = [] := by
      simp [List.filter_eq_nil_iff]
    rw [List.filter_append, h.returned, hnone, List.append_nil]
  · rw [List.length_append, List.length_map]
    have hcount := h.count
    have hhead := length_openedHead (R := R) head
    omega

/-! ## One step -/

variable [LawfulSealing R]

theorem ascii_of_base64 {cs : List Char} (h : ∀ c ∈ cs, IsBase64 c) :
    ∀ c ∈ cs ++ ['\n'], c.toNat < 128 := by
  intro c hc
  rcases List.mem_append.mp hc with hc | hc
  · have hbounds := base64_bounds (h c hc)
    omega
  · obtain rfl := List.mem_singleton.mp hc
    decide

/-- What was written of a line when the process crashed is its head, or all of it. -/
theorem take_sealedLine (nonce : Bytes) (r : R) (written : Nat) :
    (∃ head, (∀ c ∈ head, IsBase64 c) ∧
      (sealedLine nonce r).take written = Bytes.utf8 (String.ofList head)) ∨
    (sealedLine nonce r).take written = sealedLine nonce r := by
  have hbase64 := LawfulSealing.base64 nonce r
  have hline : sealedLine nonce r =
      Bytes.utf8 (String.ofList ((RecordSealing.sealRecord nonce r).toList ++ ['\n'])) := by
    rw [sealedLine, String.ofList_append, String.ofList_toList]
  have hascii := ascii_of_base64 hbase64
  by_cases hshort : written ≤ (RecordSealing.sealRecord nonce r).toList.length
  · refine Or.inl ⟨(RecordSealing.sealRecord nonce r).toList.take written, fun c hc =>
      hbase64 c (List.mem_of_mem_take hc), ?_⟩
    rw [hline, TextFile.take_utf8_of_ascii hascii, List.take_append_of_le_length hshort]
  · refine Or.inr (List.take_of_length_le ?_)
    rw [hline, TextFile.length_utf8_of_ascii hascii, List.length_append, List.length_singleton]
    omega

/-- A clean file ends with a whole line. -/
theorem Holds.head_eq_nil {s : StoreRun R} {lines : List (List Char)} {head : List Char}
    {tagged : List (Bool × R)} (h : Holds s lines head tagged) (hclean : Clean s.file) :
    head = [] := by
  rcases List.eq_nil_or_concat head with hempty | ⟨init, c, hhead⟩
  · exact hempty
  exfalso
  rw [List.concat_eq_append] at hhead
  subst hhead
  have hc : IsBase64 c := h.head_base64 c (by simp)
  have hlength : (Bytes.utf8 (String.ofList [c])).length = 1 := by
    refine TextFile.length_utf8_of_ascii fun d hd => ?_
    obtain rfl := List.mem_singleton.mp hd
    have hbounds := base64_bounds hc
    omega
  obtain ⟨b, hb⟩ := List.length_eq_one_iff.mp hlength
  have hfile : s.file.getD [] =
      Bytes.utf8 (String.ofList (TextFile.joinLines lines ++ init)) ++ [b] := by
    rw [h.file, ← hb, ← TextFile.utf8_append, ← String.ofList_append, List.append_assoc]
  have hten : b = 10 := by
    cases hsome : s.file with
    | none =>
      rw [hsome] at hfile
      simp at hfile
    | some bytes =>
      rw [hsome, Option.getD_some] at hfile
      exact hclean bytes hsome b (by rw [hfile]; simp)
  have hnewline : Bytes.utf8 (String.ofList [c]) = Bytes.utf8 (String.ofList ['\n']) := by
    rw [hb, hten]
    decide
  have hchar := congrArg String.toList (Bytes.utf8_injective hnewline)
  rw [String.toList_ofList, String.toList_ofList, List.singleton_inj] at hchar
  have hbounds := base64_bounds hc
  rw [hchar] at hbounds
  exact absurd hbounds.1 (by decide)

theorem openLine_sealed (nonce : Bytes) (r : R) :
    RecordSealing.openLine (String.ofList (RecordSealing.sealRecord nonce r).toList) = some r := by
  rw [String.ofList_toList, LawfulSealing.openLine_sealRecord]

/-- A line that is written after a head ends it. -/
theorem joinLines_sealed (lines : List (List Char)) (head : List Char) (nonce : Bytes) (r : R) :
    Bytes.utf8 (String.ofList (TextFile.joinLines lines ++ head)) ++ sealedLine nonce r =
      Bytes.utf8 (String.ofList (TextFile.joinLines
        (lines ++ [head ++ (RecordSealing.sealRecord nonce r).toList]) ++ [])) := by
  rw [sealedLine, ← TextFile.utf8_append, TextFile.joinLines_append]
  refine congrArg Bytes.utf8 (String.toList_inj.mp ?_)
  simp [TextFile.joinLines]

theorem sealed_base64 {lines : List (List Char)} {head : List Char}
    (hlines : ∀ line ∈ lines, line ≠ [] ∧ ∀ c ∈ line, IsBase64 c) (hhead : ∀ c ∈ head, IsBase64 c)
    (nonce : Bytes) (r : R) :
    ∀ line ∈ lines ++ [head ++ (RecordSealing.sealRecord nonce r).toList],
      line ≠ [] ∧ ∀ c ∈ line, IsBase64 c := by
  intro line hline
  rcases List.mem_append.mp hline with hline | hline
  · exact hlines line hline
  obtain rfl := List.mem_singleton.mp hline
  constructor
  · have hne : (RecordSealing.sealRecord nonce r).toList ≠ [] := by
      rw [Ne, String.toList_eq_nil_iff]
      exact LawfulSealing.nonempty nonce r
    exact List.append_ne_nil_of_right_ne_nil _ hne
  · intro c hc
    rcases List.mem_append.mp hc with hc | hc
    · exact hhead c hc
    · exact LawfulSealing.base64 nonce r c hc

/-- An append to a clean file that returns. -/
theorem Holds.append {s : StoreRun R} {lines : List (List Char)} {tagged : List (Bool × R)}
    (h : Holds s lines [] tagged) (nonce : Bytes) (r : R) :
    Holds (s.step (.append nonce r)) (lines ++ [[] ++ (RecordSealing.sealRecord nonce r).toList]) []
      (tagged ++ [(true, r)]) where
  file := by
    rw [← joinLines_sealed, ← h.file]
    rfl
  base64 := sealed_base64 h.base64 h.head_base64 nonce r
  head_base64 := h.head_base64
  opened := by
    rw [List.filterMap_append, h.opened, List.map_append, List.nil_append]
    simp [LawfulSealing.openLine_sealRecord]
  returned := by
    rw [List.filter_append, h.returned]
    exact (List.filter_append ..).symm
  count := by
    have hcount := h.count
    simp only [if_true, List.length_append, List.length_singleton, StoreRun.step] at hcount ⊢
    omega

/-- A crash that left all of its line, newline and all. -/
theorem Holds.crashLine {s : StoreRun R} {lines : List (List Char)} {head : List Char}
    {tagged : List (Bool × R)} (h : Holds s lines head tagged) {nonce : Bytes} {r : R}
    {written : Nat} (hall : (sealedLine nonce r).take written = sealedLine nonce r) :
    ∃ tagged', Holds (s.step (.crash nonce r written))
      (lines ++ [head ++ (RecordSealing.sealRecord nonce r).toList]) [] tagged' := by
  obtain ⟨opened, hopened⟩ : ∃ opened : Option R, RecordSealing.openLine (String.ofList
      (head ++ (RecordSealing.sealRecord nonce r).toList)) = opened := ⟨_, rfl⟩
  refine ⟨tagged ++ opened.toList.map fun r => (false, r), {
    file := ?_
    base64 := sealed_base64 h.base64 h.head_base64 nonce r
    head_base64 := fun c hc => absurd hc List.not_mem_nil
    opened := ?_
    returned := ?_
    count := ?_ }⟩
  · have hfile : (s.step (.crash nonce r written)).file.getD [] =
        s.file.getD [] ++ (sealedLine nonce r).take written := rfl
    rw [hfile, hall, ← joinLines_sealed, ← h.file]
  · rw [List.filterMap_append, h.opened, List.map_append, List.map_map, List.filterMap_cons,
      hopened]
    cases opened <;> rfl
  · rw [List.filter_append, h.returned]
    cases opened <;> simp [StoreRun.step, List.filter_append]
  · have hcount := h.count
    have hone : opened.toList.length ≤ 1 := by cases opened <;> simp
    simp only [if_true, StoreRun.step, List.length_append, List.length_map, List.length_singleton]
    omega

/-- A crash that left a head of its line. -/
theorem Holds.crashHead {s : StoreRun R} {lines : List (List Char)} {head more : List Char}
    {tagged : List (Bool × R)} (h : Holds s lines head tagged) {nonce : Bytes} {r : R}
    {written : Nat} (hbase64 : ∀ c ∈ more, IsBase64 c)
    (hmore : (sealedLine nonce r).take written = Bytes.utf8 (String.ofList more)) :
    Holds (s.step (.crash nonce r written)) lines (head ++ more) tagged where
  file := by
    have hfile : (s.step (.crash nonce r written)).file.getD [] =
        s.file.getD [] ++ (sealedLine nonce r).take written := rfl
    rw [hfile, h.file, hmore, ← TextFile.utf8_append, ← String.ofList_append, List.append_assoc]
  base64 := h.base64
  head_base64 := fun c hc => (List.mem_append.mp hc).elim (h.head_base64 c) (hbase64 c)
  opened := h.opened
  returned := by
    rw [h.returned]
    simp [StoreRun.step, List.filter_append]
  count := by
    have hcount := h.count
    have hle : (if head ++ more = [] then 0 else 1) ≤ 1 := by split <;> simp
    simp only [StoreRun.step, List.length_append, List.length_singleton]
    omega

/-- A step that writes no line into the head of another keeps the shape of the file. -/
theorem Holds.step {s : StoreRun R} {lines : List (List Char)} {head : List Char}
    {tagged : List (Bool × R)} (h : Holds s lines head tagged) (next : StoreStep R)
    (hclean : ∀ nonce r, next = .append nonce r → Clean s.file) :
    ∃ lines' head' tagged', Holds (s.step next) lines' head' tagged' := by
  cases next with
  | append nonce r =>
    obtain rfl := h.head_eq_nil (hclean nonce r rfl)
    exact ⟨_, _, _, h.append nonce r⟩
  | crash nonce r written =>
    rcases take_sealedLine nonce r written with ⟨more, hbase64, hmore⟩ | hall
    · exact ⟨_, _, _, h.crashHead hbase64 hmore⟩
    · obtain ⟨tagged', h'⟩ := h.crashLine hall
      exact ⟨_, _, _, h'⟩
  | restart => exact ⟨lines, head, tagged, h⟩

/-- So does a run. -/
theorem Holds.run : ∀ {s : StoreRun R} {lines : List (List Char)} {head : List Char}
    {tagged : List (Bool × R)} (steps : List (StoreStep R)), Holds s lines head tagged →
    AppendsClean s steps → ∃ lines' head' tagged', Holds (s.run steps) lines' head' tagged'
  | _, lines, head, tagged, [], h, _ => ⟨lines, head, tagged, h⟩
  | _, _, _, _, next :: steps, h, hclean => by
    obtain ⟨_, _, _, h'⟩ := h.step next hclean.1
    exact Holds.run steps h' hclean.2

/-- The state directory of a new device. -/
def newStore : StoreRun R where
  file := none
  history := []

theorem holds_newStore : Holds (newStore : StoreRun R) [] [] [] where
  file := rfl
  base64 := nofun
  head_base64 := nofun
  opened := rfl
  returned := rfl
  count := le_refl _

theorem AppendsClean.take : ∀ {s : StoreRun R} {steps : List (StoreStep R)} (n : Nat),
    AppendsClean s steps → AppendsClean s (steps.take n)
  | _, _, 0, _ => trivial
  | _, [], _ + 1, h => h
  | _, _ :: _, n + 1, h => ⟨h.1, h.2.take n⟩

/-- In a run in which no append that returns writes after the head of a line, what is read at
any time is every record whose append returned, once and in order. -/
theorem reads_of_clean (steps : List (StoreStep R)) (hclean : AppendsClean newStore steps)
    (n : Nat) : ReadsReturned ((newStore : StoreRun R).run (steps.take n)) := by
  obtain ⟨_, _, _, h⟩ := holds_newStore.run (steps.take n) (hclean.take n)
  exact h.readsReturned

/-! ## A queue that nothing damaged -/

/-- The file is of whole lines, a sealed record each. -/
def Sealed (file : Option Bytes) (records : List R) : Prop :=
  ∃ lines : List (List Char), file.getD [] = Bytes.utf8 (String.ofList (TextFile.joinLines lines)) ∧
    (∀ line ∈ lines, line ≠ [] ∧ ∀ c ∈ line, IsBase64 c) ∧
    lines.map (fun line => RecordSealing.openLine (String.ofList line)) = records.map some

theorem sealed_none : Sealed (none : Option Bytes) ([] : List R) :=
  ⟨[], rfl, nofun, rfl⟩

theorem readLines_sealed {lines : List (List Char)}
    (hlines : ∀ line ∈ lines, line ≠ [] ∧ ∀ c ∈ line, IsBase64 c) :
    readLines (Bytes.utf8 (String.ofList (TextFile.joinLines lines))) =
      .ok (lines.map String.ofList) := by
  have hhead : ∀ c ∈ ([] : List Char), IsBase64 c := nofun
  have hread := readLines_holds hlines hhead
  rwa [List.append_nil, if_pos rfl, List.append_nil] at hread

theorem filterMap_of_map_eq {α : Type} {f : α → Option R} :
    ∀ {xs : List α} {records : List R}, xs.map f = records.map some → xs.filterMap f = records
  | [], records, h => (List.map_eq_nil_iff.mp h.symm).symm
  | x :: xs, records, h => by
    obtain ⟨r, rest, rfl, hx, hrest⟩ := List.map_eq_cons_iff.mp h.symm
    rw [List.filterMap_cons_some hx.symm, filterMap_of_map_eq hrest.symm]

/-- What was queued is read. -/
theorem Sealed.readAll {file : Option Bytes} {records : List R} (h : Sealed file records) :
    OfflineStore.readAll file = .ok records := by
  obtain ⟨lines, hfile, hlines, hopen⟩ := h
  rw [← readAll_getD, hfile]
  refine readAll_some_eq_ok.mpr ⟨_, readLines_sealed hlines, ?_⟩
  rw [List.filterMap_map]
  exact (filterMap_of_map_eq hopen).symm

/-- A drop takes off as many records as it is told. -/
theorem Sealed.drop {file : Option Bytes} {records : List R} (h : Sealed file records) (k : Nat) :
    ∃ file', OfflineStore.drop file k = .ok file' ∧ Sealed file' (records.drop k) := by
  obtain ⟨lines, hfile, hlines, hopen⟩ := h
  cases file with
  | none =>
    have hnil : records = [] := by
      have hlength : (Bytes.utf8 (String.ofList (TextFile.joinLines lines))).length = 0 :=
        congrArg List.length hfile.symm
      cases lines with
      | nil => exact List.map_eq_nil_iff.mp hopen.symm
      | cons line lines =>
        rw [TextFile.length_utf8, String.utf8ByteSize_eq_zero_iff] at hlength
        have htext := congrArg String.toList hlength
        rw [String.toList_ofList] at htext
        simp [TextFile.joinLines] at htext
    rw [hnil, List.drop_nil]
    exact ⟨none, rfl, sealed_none⟩
  | some bytes =>
    by_cases hzero : k = 0
    · subst hzero
      exact ⟨some bytes, by rw [OfflineStore.drop, if_pos rfl], lines, hfile, hlines, hopen⟩
    have hread : readLines bytes = .ok (lines.map String.ofList) := by
      rw [Option.getD_some] at hfile
      rw [hfile]
      exact readLines_sealed hlines
    refine ⟨some (Bytes.utf8 (linesText ((lines.map String.ofList).drop k))), ?_,
      lines.drop k, ?_, fun line hline => hlines line (List.mem_of_mem_drop hline), ?_⟩
    · rw [OfflineStore.drop, if_neg hzero, hread]
      rfl
    · rw [Option.getD_some, linesText, ← List.map_drop, List.map_map]
      have hid : (lines.drop k).map (String.toList ∘ String.ofList) = lines.drop k :=
        (List.map_congr_left fun line _ => String.toList_ofList).trans (List.map_id _)
      rw [hid]
    · rw [List.map_drop, List.map_drop, hopen]

/-- An append adds its record. -/
theorem Sealed.append {file : Option Bytes} {records : List R} (h : Sealed file records)
    (nonce : Bytes) (r : R) : Sealed (OfflineStore.append file nonce r) (records ++ [r]) := by
  obtain ⟨lines, hfile, hlines, hopen⟩ := h
  refine ⟨lines ++ [[] ++ (RecordSealing.sealRecord nonce r).toList], ?_,
    sealed_base64 hlines (fun c hc => absurd hc List.not_mem_nil) nonce r, ?_⟩
  · have hjoin := joinLines_sealed lines [] nonce r
    rw [List.append_nil, List.append_nil] at hjoin
    rw [OfflineStore.append, Option.getD_some, hfile, hjoin]
  · rw [List.map_append, hopen, List.map_append, List.map_singleton, List.nil_append,
      openLine_sealed]
    rfl

end Queue

/-! ## Samples -/

section Samples

namespace Sample

/-- A text, sealed as its bytes in hex after how many they are. -/
scoped instance sealing : RecordSealing String where
  sealRecord _ r := Bytes.hex (UInt8.ofNat (Bytes.utf8 r).length :: Bytes.utf8 r)
  openLine line :=
    match Bytes.fromHex line with
    | some (n :: bytes) => if n = UInt8.ofNat bytes.length then TextFile.decode bytes else none
    | _ => none

theorem isBase64_hexDigit {n : Nat} (h : n < 16) : IsBase64 (Bytes.hexDigit n) := by
  left
  interval_cases n <;> decide

theorem isBase64_hexChars : ∀ (b : Bytes), ∀ c ∈ Bytes.hexChars b, IsBase64 c
  | [], c, hc => by cases hc
  | b :: bs, c, hc => by
    have hb : b.toNat < 256 := b.toNat_lt
    rcases List.mem_cons.mp hc with rfl | hc
    · exact isBase64_hexDigit (by omega)
    rcases List.mem_cons.mp hc with rfl | hc
    · exact isBase64_hexDigit (by omega)
    · exact isBase64_hexChars bs c hc

scoped instance : LawfulSealing String where
  openLine_sealRecord nonce r := by
    simp only [RecordSealing.openLine, RecordSealing.sealRecord, Bytes.fromHex_hex, if_true,
      TextFile.decode_utf8]
  base64 nonce r := by
    intro c hc
    have hchars : (RecordSealing.sealRecord nonce r).toList =
        Bytes.hexChars (UInt8.ofNat (Bytes.utf8 r).length :: Bytes.utf8 r) := String.toList_ofList
    rw [hchars] at hc
    exact isBase64_hexChars _ c hc
  nonempty nonce r := by
    intro h
    have hchars : (RecordSealing.sealRecord nonce r).toList =
        Bytes.hexChars (UInt8.ofNat (Bytes.utf8 r).length :: Bytes.utf8 r) := String.toList_ofList
    rw [h] at hchars
    cases hchars

scoped instance : PyUnicode := .ascii

/-- A crash after the second byte of a line, and then an append that returns. -/
def tornSteps : List (StoreStep String) :=
  [.crash [] "a" 2, .restart, .append [] "b"]

/-- An append, a crash after the second byte of a line and a restart. -/
def tornTailSteps : List (StoreStep String) :=
  [.append [] "a", .crash [] "b" 2, .restart]

/-- A damaged line before a good one. -/
def damagedFile : Bytes :=
  Bytes.utf8 "zz\n" ++ sealedLine [] "a"

end Sample

open Sample

theorem reads_of_clean_torn_tail :
    AppendsClean newStore tornTailSteps ∧
      ReadsReturned ((newStore : StoreRun String).run (tornTailSteps.take 3)) := by
  have hclean : AppendsClean newStore tornTailSteps := by
    have hnew : Clean (newStore : StoreRun String).file := fun bytes hbytes => by cases hbytes
    exact ⟨fun _ _ _ => hnew, nofun, nofun, trivial⟩
  exact ⟨hclean, reads_of_clean tornTailSteps hclean 3⟩

/-- The record whose append returned is lost with the line it was written into. -/
theorem torn_line_swallows :
    ¬ ReadsReturned ((newStore : StoreRun String).run (tornSteps.take 3)) := by
  rintro ⟨tagged, hread, hreturned, -⟩
  have hnone : readAll ((newStore : StoreRun String).run (tornSteps.take 3)).file =
      (.ok [] : Except PyError (List String)) := by
    have hfile : ((newStore : StoreRun String).run (tornSteps.take 3)).file =
        some (Bytes.utf8 (linesText ["010162"])) := by decide +kernel
    rw [hfile]
    refine readAll_some_eq_ok.mpr ⟨["010162"], readLines_linesText ?_, by decide +kernel⟩
    decide +kernel
  rw [hnone] at hread
  have htagged : tagged = [] := List.map_eq_nil_iff.mp (Except.ok.inj hread).symm
  rw [htagged] at hreturned
  revert hreturned
  decide

/-- The damaged line is dropped in the place of the record, which stays. -/
theorem damaged_line_dropped :
    readAll (some damagedFile) = (.ok ["a"] : Except PyError (List String)) ∧
      ∃ file', drop (some damagedFile) 1 = .ok file' ∧
        readAll file' = (.ok ["a"] : Except PyError (List String)) := by
  have hlines : readLines damagedFile = .ok ["zz", "0161"] := by
    have hfile : damagedFile = Bytes.utf8 (linesText ["zz", "0161"]) := by decide +kernel
    rw [hfile]
    exact readLines_linesText (by decide +kernel)
  refine ⟨readAll_some_eq_ok.mpr ⟨_, hlines, by decide +kernel⟩,
    some (Bytes.utf8 (linesText ["0161"])), ?_,
    readAll_some_eq_ok.mpr ⟨_, readLines_drop hlines 1, by decide +kernel⟩⟩
  rw [drop, if_neg one_ne_zero, hlines]
  rfl

end Samples

end OfflineStore

end Attest
