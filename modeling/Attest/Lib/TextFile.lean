import Attest.Lib.Bytes

/-!
# Text files of lines

A file is its bytes. `TextFile.decode` reads them as strict UTF-8, `newlines` is what text
mode makes of the ends of lines and `splitLines` is `str.splitlines` of a text it read.
Lines that are written each with a newline are read back (`splitLines_joinLines`), and what
is appended after the end of a line leaves the lines before alone (`splitLines_append`).
-/

namespace TextFile

/-! ## UTF-8 -/

/-- `bytes.decode("utf-8")`, `none` where it raises. -/
def decode (b : Bytes) : Option String :=
  String.fromUTF8? ⟨b.toArray⟩

@[simp] theorem decode_utf8 (s : String) : decode (Bytes.utf8 s) = some s := by
  have hbytes : (⟨(Bytes.utf8 s).toArray⟩ : ByteArray) = s.toUTF8 := by
    simp [Bytes.utf8]
  rw [decode, hbytes, String.fromUTF8?]
  exact dif_pos s.isValidUTF8

theorem utf8_append (s t : String) : Bytes.utf8 (s ++ t) = Bytes.utf8 s ++ Bytes.utf8 t := by
  simp [Bytes.utf8]

theorem length_utf8 (s : String) : (Bytes.utf8 s).length = s.utf8ByteSize := by
  simp [Bytes.utf8]

/-- An ASCII text takes a byte for each character. -/
theorem length_utf8_of_ascii {cs : List Char} (h : ∀ c ∈ cs, c.toNat < 128) :
    (Bytes.utf8 (String.ofList cs)).length = cs.length := by
  rw [length_utf8]
  induction cs with
  | nil => simp
  | cons c cs ih =>
    have hcons : String.ofList (c :: cs) = String.singleton c ++ String.ofList cs := by
      rw [← String.toList_inj]
      simp
    have hc : c.utf8Size = 1 := by
      have hlt := h c (by simp)
      rw [Char.utf8Size, if_pos]
      rw [UInt32.le_iff_toNat_le]
      exact Nat.le_of_lt_succ hlt
    rw [hcons, String.utf8ByteSize_append, String.utf8ByteSize_singleton, hc,
      ih fun d hd => h d (by simp [hd]), List.length_cons, Nat.add_comm]

/-- The first bytes of an ASCII text are those of its first characters. -/
theorem take_utf8_of_ascii {cs : List Char} (h : ∀ c ∈ cs, c.toNat < 128) (n : Nat) :
    (Bytes.utf8 (String.ofList cs)).take n = Bytes.utf8 (String.ofList (cs.take n)) := by
  have hsplit : String.ofList cs = String.ofList (cs.take n) ++ String.ofList (cs.drop n) := by
    rw [← String.ofList_append, List.take_append_drop]
  have hlength : (Bytes.utf8 (String.ofList (cs.take n))).length = (cs.take n).length :=
    length_utf8_of_ascii fun c hc => h c (List.mem_of_mem_take hc)
  rw [List.length_take] at hlength
  rw [hsplit, utf8_append]
  by_cases hn : n ≤ cs.length
  · rw [Nat.min_eq_left hn] at hlength
    rw [List.take_append_of_le_length hlength.ge, List.take_of_length_le hlength.le]
  · rw [List.drop_eq_nil_of_le (by omega)]
    have hnil : Bytes.utf8 (String.ofList []) = [] := rfl
    rw [hnil, List.append_nil, List.take_of_length_le (by omega)]

/-! ## Lines -/

/-- What text mode reads as the end of a line is one character. -/
def newlines : List Char → List Char
  | [] => []
  | '\r' :: '\n' :: cs => '\n' :: newlines cs
  | '\r' :: cs => '\n' :: newlines cs
  | c :: cs => c :: newlines cs

/-- The characters that `str.splitlines` splits at. -/
def isBreak (c : Char) : Bool :=
  c = '\n' || c = '\r' || c.toNat = 0x0b || c.toNat = 0x0c || c.toNat = 0x1c || c.toNat = 0x1d ||
    c.toNat = 0x1e || c.toNat = 0x85 || c.toNat = 0x2028 || c.toNat = 0x2029

/-- `text.splitlines()` of a text that text mode read, so without `\r`. -/
def splitLines : List Char → List (List Char)
  | [] => []
  | c :: cs =>
    if isBreak c then [] :: splitLines cs
    else match splitLines cs with
      | [] => [[c]]
      | line :: lines => (c :: line) :: lines

/-- Lines, each with its newline. -/
def joinLines (lines : List (List Char)) : List Char :=
  lines.flatMap fun line => line ++ ['\n']

/-- A line without breaks in it. -/
def IsLine (line : List Char) : Prop :=
  ∀ c ∈ line, isBreak c = false

instance (line : List Char) : Decidable (IsLine line) :=
  List.decidableBAll _ line

theorem isBreak_newline : isBreak '\n' = true := by decide

theorem newlines_eq_self : ∀ {cs : List Char}, (∀ c ∈ cs, c ≠ '\r') → newlines cs = cs
  | [], _ => rfl
  | c :: cs, h => by
    have hc : c ≠ '\r' := h c (by simp)
    have hrest : newlines cs = cs := newlines_eq_self fun d hd => h d (by simp [hd])
    rw [newlines]
    · rw [hrest]
    · rintro cs' rfl
      exact absurd rfl hc
    · rintro rfl
      exact absurd rfl hc

theorem ne_return_of_isLine {line : List Char} (h : IsLine line) : ∀ c ∈ line, c ≠ '\r' := by
  rintro c hc rfl
  have hbreak := h _ hc
  revert hbreak
  decide

/-- Every line that is read is without breaks. -/
theorem isLine_of_mem_splitLines : ∀ {cs line : List Char}, line ∈ splitLines cs → IsLine line
  | [], line, h => by cases h
  | c :: cs, line, h => by
    rw [splitLines] at h
    by_cases hbreak : isBreak c = true
    · rw [if_pos hbreak] at h
      rcases List.mem_cons.mp h with rfl | h
      · exact fun d hd => by cases hd
      · exact isLine_of_mem_splitLines h
    rw [if_neg hbreak] at h
    have hc : isBreak c = false := by simpa using hbreak
    cases hrest : splitLines cs with
    | nil =>
      rw [hrest] at h
      obtain rfl := List.mem_singleton.mp h
      intro d hd
      obtain rfl := List.mem_singleton.mp hd
      exact hc
    | cons first lines =>
      have hlines : ∀ l ∈ first :: lines, IsLine l := fun l hl =>
        isLine_of_mem_splitLines (by rwa [← hrest] at hl)
      rw [hrest] at h
      rcases List.mem_cons.mp h with rfl | h
      · intro d hd
        rcases List.mem_cons.mp hd with rfl | hd
        · exact hc
        · exact hlines first (by simp) d hd
      · exact hlines line (by simp [h])

/-- A line and its newline are read as the line. -/
theorem splitLines_line_append {line : List Char} (h : IsLine line) (cs : List Char) :
    splitLines (line ++ '\n' :: cs) = line :: splitLines cs := by
  induction line with
  | nil => rw [List.nil_append, splitLines, if_pos isBreak_newline]
  | cons c line ih =>
    have hc : isBreak c = false := h c (by simp)
    rw [List.cons_append, splitLines, if_neg (by simp [hc]), ih fun d hd => h d (by simp [hd])]

/-- A line at the end may have no newline. -/
theorem splitLines_line {line : List Char} (h : IsLine line) (hne : line ≠ []) :
    splitLines line = [line] := by
  induction line with
  | nil => exact absurd rfl hne
  | cons c line ih =>
    have hc : isBreak c = false := h c (by simp)
    rw [splitLines, if_neg (by simp [hc])]
    cases line with
    | nil => rfl
    | cons d line => rw [ih (fun e he => h e (by simp [he])) (by simp)]

/-- Lines that were written are read back, and what follows them is read by itself. -/
theorem splitLines_append {lines : List (List Char)} (h : ∀ line ∈ lines, IsLine line)
    (cs : List Char) : splitLines (joinLines lines ++ cs) = lines ++ splitLines cs := by
  induction lines with
  | nil => rfl
  | cons line lines ih =>
    have hjoin : joinLines (line :: lines) ++ cs = line ++ '\n' :: (joinLines lines ++ cs) := by
      simp [joinLines]
    rw [hjoin, splitLines_line_append (h line (by simp)), ih fun l hl => h l (by simp [hl]),
      List.cons_append]

theorem splitLines_joinLines {lines : List (List Char)} (h : ∀ line ∈ lines, IsLine line) :
    splitLines (joinLines lines) = lines := by
  have hlines := splitLines_append h []
  rwa [List.append_nil, splitLines, List.append_nil] at hlines

theorem joinLines_append (xs ys : List (List Char)) :
    joinLines (xs ++ ys) = joinLines xs ++ joinLines ys := List.flatMap_append

theorem mem_joinLines {lines : List (List Char)} {c : Char} (h : c ∈ joinLines lines) :
    (∃ line ∈ lines, c ∈ line) ∨ c = '\n' := by
  obtain ⟨line, hline, hc⟩ := List.mem_flatMap.mp h
  rcases List.mem_append.mp hc with hc | hc
  · exact Or.inl ⟨line, hline, hc⟩
  · exact Or.inr (List.mem_singleton.mp hc)

theorem ne_return_of_joinLines {lines : List (List Char)} (h : ∀ line ∈ lines, IsLine line) :
    ∀ c ∈ joinLines lines, c ≠ '\r' := by
  intro c hc
  rcases mem_joinLines hc with ⟨line, hline, hc⟩ | rfl
  · exact ne_return_of_isLine (h line hline) c hc
  · decide

end TextFile
