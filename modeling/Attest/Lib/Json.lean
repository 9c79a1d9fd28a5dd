import Mathlib.Data.List.Sort
import Attest.Lib.Bytes
import Attest.Lib.PyFloat

/-!
# JSON values and their canonical text

`JVal` is what `json.loads` returns : an object is the list of its items in insertion
order. `print` is `json.dumps` with the separators `,` and `:` and without ASCII
escapes, and `canonical` prints the value with the keys of every object sorted.

The text of a value is self-delimiting before a comma, a closing bracket or the end
(`print_append_inj`), so `print` is injective, and two values have one canonical text
exactly when they differ in the order of object keys alone (`canonical_inj`).
-/

/-- A JSON value. -/
inductive JVal where
  | null
  | bool (b : Bool)
  | int (n : Int)
  | float (x : PyFloat)
  | str (s : String)
  | arr (items : List JVal)
  | obj (items : List (String × JVal))

/-- The items of a JSON object, in insertion order. -/
abbrev Dict := List (String × JVal)

namespace Dict

/-- `d.get(key)`, `none` for a missing key. -/
def get? (d : Dict) (key : String) : Option JVal :=
  (d.find? fun item => item.1 = key).map Prod.snd

/-- `d.get(key, default)`. -/
def getD (d : Dict) (key : String) (default : JVal) : JVal :=
  (d.get? key).getD default

/-- `d.get(key)`, where a missing key reads as `None`. -/
def get (d : Dict) (key : String) : JVal :=
  d.getD key .null

/-- `key in d`. -/
def has (d : Dict) (key : String) : Bool :=
  (d.get? key).isSome

end Dict

/-- `d[key] = value`. -/
def setItem {α : Type} (d : List (String × α)) (item : String × α) : List (String × α) :=
  if d.any fun x => x.1 = item.1 then d.map fun x => if x.1 = item.1 then item else x
  else d ++ [item]

/-- A dictionary filled item by item. -/
def dictOf {α : Type} (items : List (String × α)) : List (String × α) :=
  items.foldl setItem []

theorem mem_of_mem_setItem {α : Type} {d : List (String × α)} {item x : String × α}
    (h : x ∈ setItem d item) : x ∈ d ∨ x = item := by
  unfold setItem at h
  split at h
  · obtain ⟨y, hy, rfl⟩ := List.mem_map.mp h
    by_cases hkey : y.1 = item.1
    · exact Or.inr (if_pos hkey)
    · rw [if_neg hkey]
      exact Or.inl hy
  · simpa using h

theorem mem_of_mem_dictOf {α : Type} {items : List (String × α)} {x : String × α}
    (h : x ∈ dictOf items) : x ∈ items := by
  induction items using List.reverseRecOn with
  | nil => exact h
  | append_singleton items item ih =>
    rw [dictOf, List.foldl_append] at h
    rcases mem_of_mem_setItem h with h | rfl
    · exact List.mem_append_left _ (ih h)
    · simp

/-- Another item leaves a key alone. -/
theorem get?_setItem_of_ne {d : Dict} {item : String × JVal} {key : String} (h : item.1 ≠ key) :
    Dict.get? (setItem d item) key = d.get? key := by
  unfold setItem Dict.get?
  split
  · have hkey : ((fun x : String × JVal => decide (x.1 = key)) ∘
        fun x => if x.1 = item.1 then item else x) = fun x => decide (x.1 = key) := by
      funext x
      simp only [Function.comp_apply]
      split
      · rename_i hx
        rw [hx]
      · rfl
    rw [List.find?_map, hkey]
    cases hfound : d.find? fun x => decide (x.1 = key) with
    | none => rfl
    | some x =>
      have hx : x.1 ≠ item.1 := by
        rw [of_decide_eq_true (List.find?_some hfound :)]
        exact h.symm
      simp [hx]
  · rw [List.find?_append]
    simp [h]

theorem get?_setItem_self (d : Dict) (key : String) (value : JVal) :
    Dict.get? (setItem d (key, value)) key = some value := by
  unfold setItem Dict.get?
  split
  · rename_i hany
    have hkey : ((fun x : String × JVal => decide (x.1 = key)) ∘
        fun x => if x.1 = key then (key, value) else x) = fun x => decide (x.1 = key) := by
      funext x
      by_cases hx : x.1 = key <;> simp [hx]
    obtain ⟨x, hx, hxkey⟩ := List.any_eq_true.mp hany
    rw [List.find?_map, hkey]
    cases hfound : d.find? fun x => decide (x.1 = key) with
    | none => exact absurd hxkey (List.find?_eq_none.mp hfound x hx)
    | some y =>
      have hy : y.1 = key := of_decide_eq_true (List.find?_some hfound :)
      simp [hy]
  · rename_i hany
    have hnone : d.find? (fun x => decide (x.1 = key)) = none :=
      List.find?_eq_none.mpr fun x hx hxkey => hany (List.any_eq_true.mpr ⟨x, hx, hxkey⟩)
    rw [List.find?_append, hnone]
    simp

theorem keys_setItem_of_any {α : Type} {d : List (String × α)} {item : String × α}
    (hany : (d.any fun x => x.1 = item.1) = true) :
    (setItem d item).map Prod.fst = d.map Prod.fst := by
  rw [setItem, if_pos hany, List.map_map]
  refine List.map_congr_left fun x _ => ?_
  simp only [Function.comp_apply]
  split
  · rename_i h
    exact h.symm
  · rfl

theorem mem_keys_setItem {α : Type} {d : List (String × α)} {item : String × α} {key : String} :
    key ∈ (setItem d item).map Prod.fst ↔ key ∈ d.map Prod.fst ∨ key = item.1 := by
  by_cases hany : (d.any fun x => x.1 = item.1) = true
  · obtain ⟨y, hy, hkey⟩ := List.any_eq_true.mp hany
    have hin : item.1 ∈ d.map Prod.fst := List.mem_map.mpr ⟨y, hy, of_decide_eq_true hkey⟩
    rw [keys_setItem_of_any hany]
    constructor
    · exact Or.inl
    · rintro (h | rfl)
      · exact h
      · exact hin
  · rw [setItem, if_neg hany]
    simp

/-- No key is set twice. -/
theorem nodup_keys_setItem {α : Type} {d : List (String × α)} {item : String × α}
    (h : (d.map Prod.fst).Nodup) : ((setItem d item).map Prod.fst).Nodup := by
  by_cases hany : (d.any fun x => x.1 = item.1) = true
  · rw [keys_setItem_of_any hany]
    exact h
  · rw [setItem, if_neg hany, List.map_append]
    refine List.Nodup.append h (List.nodup_singleton _) ?_
    intro key hkey hitem
    obtain rfl : key = item.1 := by simpa using hitem
    obtain ⟨x, hx, hkey⟩ := List.mem_map.mp hkey
    exact hany (List.any_eq_true.mpr ⟨x, hx, decide_eq_true hkey⟩)

theorem nodup_keys_dictOf {α : Type} (items : List (String × α)) :
    ((dictOf items).map Prod.fst).Nodup := by
  induction items using List.reverseRecOn with
  | nil => exact List.nodup_nil
  | append_singleton items item ih =>
    rw [dictOf, List.foldl_append]
    exact nodup_keys_setItem ih

/-- A key that was set is in the dictionary. -/
theorem mem_keys_dictOf {α : Type} {items : List (String × α)} {key : String} :
    key ∈ (dictOf items).map Prod.fst ↔ key ∈ items.map Prod.fst := by
  induction items using List.reverseRecOn with
  | nil => exact Iff.rfl
  | append_singleton items item ih =>
    have hstep : dictOf (items ++ [item]) = setItem (dictOf items) item := by
      rw [dictOf, List.foldl_append]
      rfl
    rw [hstep, mem_keys_setItem, ih]
    simp

namespace JVal

mutual
def decEq : (v w : JVal) → Decidable (v = w)
  | .null, .null => isTrue rfl
  | .bool a, .bool b => decidable_of_iff (a = b) (by simp)
  | .int a, .int b => decidable_of_iff (a = b) (by simp)
  | .float a, .float b => decidable_of_iff (a = b) (by simp)
  | .str a, .str b => decidable_of_iff (a = b) (by simp)
  | .arr a, .arr b => @decidable_of_iff _ (a = b) (by simp) (decEqList a b)
  | .obj a, .obj b => @decidable_of_iff _ (a = b) (by simp) (decEqItems a b)
  | .null, .bool _ | .null, .int _ | .null, .float _ | .null, .str _ | .null, .arr _
  | .null, .obj _ | .bool _, .null | .bool _, .int _ | .bool _, .float _ | .bool _, .str _
  | .bool _, .arr _ | .bool _, .obj _ | .int _, .null | .int _, .bool _ | .int _, .float _
  | .int _, .str _ | .int _, .arr _ | .int _, .obj _ | .float _, .null | .float _, .bool _
  | .float _, .int _ | .float _, .str _ | .float _, .arr _ | .float _, .obj _ | .str _, .null
  | .str _, .bool _ | .str _, .int _ | .str _, .float _ | .str _, .arr _ | .str _, .obj _
  | .arr _, .null | .arr _, .bool _ | .arr _, .int _ | .arr _, .float _ | .arr _, .str _
  | .arr _, .obj _ | .obj _, .null | .obj _, .bool _ | .obj _, .int _ | .obj _, .float _
  | .obj _, .str _ | .obj _, .arr _ => isFalse nofun

def decEqList : (vs ws : List JVal) → Decidable (vs = ws)
  | [], [] => isTrue rfl
  | [], _ :: _ | _ :: _, [] => isFalse nofun
  | v :: vs, w :: ws =>
    @decidable_of_iff _ (v = w ∧ vs = ws) (by simp)
      (@instDecidableAnd _ _ (decEq v w) (decEqList vs ws))

def decEqItems : (vs ws : List (String × JVal)) → Decidable (vs = ws)
  | [], [] => isTrue rfl
  | [], _ :: _ | _ :: _, [] => isFalse nofun
  | (k, v) :: vs, (l, w) :: ws =>
    @decidable_of_iff _ (k = l ∧ v = w ∧ vs = ws) (by simp [and_assoc])
      (@instDecidableAnd _ _ (inferInstanceAs (Decidable (k = l)))
        (@instDecidableAnd _ _ (decEq v w) (decEqItems vs ws)))
end

instance : DecidableEq JVal := decEq

/-! ## Printing -/

/-- How a character is written inside a string. -/
def escape (c : Char) : List Char :=
  if c = '"' then ['\\', '"']
  else if c = '\\' then ['\\', '\\']
  else if c = '\n' then ['\\', 'n']
  else if c = '\r' then ['\\', 'r']
  else if c = '\t' then ['\\', 't']
  else if c.toNat = 12 then ['\\', 'f']
  else if c.toNat = 8 then ['\\', 'b']
  else if c.toNat < 32 then
    ['\\', 'u', '0', '0', Bytes.hexDigit (c.toNat / 16), Bytes.hexDigit (c.toNat % 16)]
  else [c]

def escapeAll (cs : List Char) : List Char :=
  cs.flatMap escape

/-- A string literal. -/
def quote (s : String) : List Char :=
  '"' :: escapeAll s.toList ++ ['"']

/-- `str(n)`. -/
def intText : Int → List Char
  | .ofNat n => Nat.toDigits 10 n
  | .negSucc n => '-' :: Nat.toDigits 10 (n + 1)

mutual
/-- The text of a value. `sep` of the helpers is what stands before the next item. -/
def print : JVal → List Char
  | .null => ['n', 'u', 'l', 'l']
  | .bool true => ['t', 'r', 'u', 'e']
  | .bool false => ['f', 'a', 'l', 's', 'e']
  | .int n => intText n
  | .float x => x.token.toList
  | .str s => quote s
  | .arr items => '[' :: printList [] items
  | .obj items => '{' :: printItems [] items

def printList (sep : List Char) : List JVal → List Char
  | [] => [']']
  | v :: vs => sep ++ print v ++ printList [','] vs

def printItems (sep : List Char) : List (String × JVal) → List Char
  | [] => ['}']
  | (k, v) :: rest => sep ++ quote k ++ ':' :: print v ++ printItems [','] rest
end

/-! ## Sorted keys -/

/-- Insert an item before the first item with a key that is not smaller. -/
def sortItems (items : Dict) : Dict :=
  items.insertionSort fun a b => a.1 ≤ b.1

mutual
/-- The value with the keys of every object sorted. -/
def sortKeys : JVal → JVal
  | .arr items => .arr (sortKeysList items)
  | .obj items => .obj (sortItems (sortKeysItems items))
  | v => v

def sortKeysList : List JVal → List JVal
  | [] => []
  | v :: vs => sortKeys v :: sortKeysList vs

def sortKeysItems : List (String × JVal) → List (String × JVal)
  | [] => []
  | (k, v) :: rest => (k, sortKeys v) :: sortKeysItems rest
end

/-- `json.dumps(v, sort_keys=True, separators=(",", ":"), ensure_ascii=False)`. -/
def canonical (v : JVal) : String :=
  String.ofList (print (sortKeys v))

/-! ## Printing is injective -/

/-- The character a text starts with, read back from how `escape` writes it. -/
def readEscaped : List Char → Option (Char × List Char)
  | '\\' :: '"' :: r => some ('"', r)
  | '\\' :: '\\' :: r => some ('\\', r)
  | '\\' :: 'n' :: r => some ('\n', r)
  | '\\' :: 'r' :: r => some ('\r', r)
  | '\\' :: 't' :: r => some ('\t', r)
  | '\\' :: 'f' :: r => some (Char.ofNat 12, r)
  | '\\' :: 'b' :: r => some (Char.ofNat 8, r)
  | '\\' :: 'u' :: '0' :: '0' :: hi :: lo :: r =>
    match Bytes.hexVal hi, Bytes.hexVal lo with
    | some a, some b => some (Char.ofNat (16 * a + b), r)
    | _, _ => none
  | c :: r => some (c, r)
  | [] => none

theorem readEscaped_escape (c : Char) (r : List Char) :
    readEscaped (escape c ++ r) = some (c, r) := by
  unfold escape
  split_ifs with hq hb hn hr ht hf hbs hc
  · simp [readEscaped, hq]
  · simp [readEscaped, hb]
  · simp [readEscaped, hn]
  · simp [readEscaped, hr]
  · simp [readEscaped, ht]
  · simpa [readEscaped] using congrArg Char.ofNat hf.symm
  · simpa [readEscaped] using congrArg Char.ofNat hbs.symm
  · have hi : c.toNat / 16 < 16 := by omega
    have lo : c.toNat % 16 < 16 := Nat.mod_lt _ (by decide)
    have hsum : 16 * (c.toNat / 16) + c.toNat % 16 = c.toNat := Nat.div_add_mod _ _
    simp [readEscaped, Bytes.hexVal_hexDigit hi, Bytes.hexVal_hexDigit lo, hsum]
  · unfold readEscaped
    split <;> simp_all

theorem head_escape_append (c : Char) (r s : List Char) : escape c ++ r ≠ '"' :: s := by
  intro h
  unfold escape at h
  split_ifs at h <;> simp_all

theorem escapeAll_append_inj : ∀ {cs ds s t : List Char},
    escapeAll cs ++ '"' :: s = escapeAll ds ++ '"' :: t → cs = ds ∧ s = t
  | [], [], s, t, h => by simpa [escapeAll] using h
  | [], d :: ds, s, t, h => by
    simp only [escapeAll, List.flatMap_nil, List.flatMap_cons, List.nil_append,
      List.append_assoc] at h
    exact absurd h.symm (head_escape_append d _ _)
  | c :: cs, [], s, t, h => by
    simp only [escapeAll, List.flatMap_nil, List.flatMap_cons, List.nil_append,
      List.append_assoc] at h
    exact absurd h (head_escape_append c _ _)
  | c :: cs, d :: ds, s, t, h => by
    simp only [escapeAll, List.flatMap_cons, List.append_assoc] at h
    have hread := congrArg readEscaped h
    rw [readEscaped_escape, readEscaped_escape, Option.some.injEq, Prod.mk.injEq] at hread
    obtain ⟨rfl, hrest⟩ := hread
    obtain ⟨rfl, rfl⟩ := escapeAll_append_inj hrest
    exact ⟨rfl, rfl⟩

theorem quote_append_inj {a b : String} {s t : List Char} (h : quote a ++ s = quote b ++ t) :
    a = b ∧ s = t := by
  simp only [quote, List.cons_append, List.append_assoc, List.cons.injEq, true_and,
    List.nil_append] at h
  obtain ⟨hab, hst⟩ := escapeAll_append_inj h
  exact ⟨String.toList_inj.mp hab, hst⟩

/-- The characters of a literal that is not a string, an array or an object. -/
def isWordChar (c : Char) : Bool :=
  !(['"', '[', ']', '{', '}', ',', ':'].contains c)

/-- What may stand after a value. -/
def Delimited (s : List Char) : Prop :=
  ∀ c ∈ s.head?, isWordChar c = false

/-- The text of a literal. -/
def word : JVal → Option (List Char)
  | .str _ | .arr _ | .obj _ => none
  | v => some (print v)

theorem isDigit_toDigits (n : Nat) : (Nat.toDigits 10 n).all Char.isDigit = true := by
  rw [List.all_eq_true]
  exact fun c hc => Nat.isDigit_of_mem_toDigits (by decide) (by decide) hc

theorem toDigits_injective {m n : Nat} (h : Nat.toDigits 10 m = Nat.toDigits 10 n) : m = n := by
  have := congrArg (Nat.ofDigitChars 10 · 0) h
  simpa only [Nat.ofDigitChars_ten_toDigits] using this

theorem toDigits_ne_cons_minus (m : Nat) (cs : List Char) : Nat.toDigits 10 m ≠ '-' :: cs := by
  intro h
  have := isDigit_toDigits m
  rw [h] at this
  simp at this

theorem intText_injective : ∀ {m n : Int}, intText m = intText n → m = n
  | .ofNat m, .ofNat n, h => congrArg Int.ofNat (toDigits_injective h)
  | .ofNat m, .negSucc n, h => absurd h (toDigits_ne_cons_minus m _)
  | .negSucc m, .ofNat n, h => absurd h.symm (toDigits_ne_cons_minus n _)
  | .negSucc m, .negSucc n, h => by
    have := toDigits_injective (List.cons.inj h).2
    rw [Nat.succ_injective this]

theorem all_isDigit_splitSign_intText (n : Int) :
    (PyFloat.splitSign (intText n)).2.all Char.isDigit = true := by
  cases n with
  | ofNat n =>
    have hdigits := isDigit_toDigits n
    simp only [intText]
    unfold PyFloat.splitSign
    split
    · rename_i cs h
      exact absurd h (toDigits_ne_cons_minus n cs)
    · exact hdigits
  | negSucc n => exact isDigit_toDigits (n + 1)

/-- No float is written like an integer. -/
theorem token_ne_intText (x : PyFloat) (n : Int) : x.token.toList ≠ intText n := by
  intro h
  have hdigits := all_isDigit_splitSign_intText n
  rw [← h] at hdigits
  rcases PyFloat.isToken_cases x.isToken_token with hx | hx | hx
  · rw [hx] at hdigits
    exact absurd hdigits (by decide)
  · rw [hx] at hdigits
    exact absurd hdigits (by decide)
  · simp [PyFloat.isDecimal, hdigits] at hx

theorem isWordChar_of_isDigit {c : Char} (h : c.isDigit = true) : isWordChar c = true := by
  unfold isWordChar
  simp only [List.contains_cons, List.contains_nil, Bool.or_false, Bool.not_eq_true',
    Bool.or_eq_false_iff, beq_eq_false_iff_ne]
  refine ⟨?_, ?_, ?_, ?_, ?_, ?_, ?_⟩ <;> (rintro rfl; exact absurd h (by decide))

theorem all_isWordChar_of_splitSign {cs : List Char}
    (h : (PyFloat.splitSign cs).2.all isWordChar = true) : cs.all isWordChar = true := by
  unfold PyFloat.splitSign at h
  split at h
  · rw [List.all_cons, h]
    decide
  · exact h

theorem all_isWordChar_token (x : PyFloat) : x.token.toList.all isWordChar = true := by
  rcases PyFloat.isToken_cases x.isToken_token with hx | hx | hx
  · rw [hx]
    decide
  · apply all_isWordChar_of_splitSign
    rw [hx]
    decide
  · apply all_isWordChar_of_splitSign
    simp only [PyFloat.isDecimal, Bool.and_eq_true] at hx
    rw [List.all_eq_true] at hx ⊢
    intro c hc
    have := hx.1.2 c hc
    rcases Bool.or_eq_true_iff.mp this with hd | hd
    · exact isWordChar_of_isDigit hd
    · have : c = '+' ∨ c = '-' ∨ c = '.' ∨ c = 'e' := by simpa using hd
      rcases this with rfl | rfl | rfl | rfl <;> decide

theorem all_isWordChar_intText (n : Int) : (intText n).all isWordChar = true := by
  apply all_isWordChar_of_splitSign
  have := all_isDigit_splitSign_intText n
  rw [List.all_eq_true] at this ⊢
  exact fun c hc => isWordChar_of_isDigit (this c hc)

theorem token_ne_nil (x : PyFloat) : x.token.toList ≠ [] := by
  intro h
  have hx := x.isToken_token
  have : x.token = "" := String.toList_inj.mp h
  rw [this] at hx
  exact absurd hx (by decide)

theorem intText_ne_nil (n : Int) : intText n ≠ [] := by
  cases n with
  | ofNat n => exact Nat.toDigits_ne_nil
  | negSucc n => exact List.cons_ne_nil _ _

/-- A text that is neither a number of digits nor a float is written for no number. -/
theorem intText_ne_of_head {c : Char} {cs : List Char} (hd : c.isDigit = false) (hm : c ≠ '-')
    (n : Int) : intText n ≠ c :: cs := by
  intro h
  have := all_isDigit_splitSign_intText n
  rw [h] at this
  unfold PyFloat.splitSign at this
  split at this
  · simp_all
  · simp [hd] at this

theorem token_ne_of_not_isToken (x : PyFloat) {s : String} (h : PyFloat.isToken s = false) :
    x.token.toList ≠ s.toList := by
  intro hx
  have := x.isToken_token
  rw [String.toList_inj.mp hx, h] at this
  exact Bool.false_ne_true this


theorem word_spec {v : JVal} {w : List Char} (h : word v = some w) :
    print v = w ∧ w.all isWordChar = true ∧ w ≠ [] := by
  cases v <;> simp only [word, reduceCtorEq, Option.some.injEq] at h <;> subst h
  case null => decide
  case bool b => cases b <;> decide
  case int n => exact ⟨rfl, all_isWordChar_intText n, intText_ne_nil n⟩
  case float x => exact ⟨rfl, all_isWordChar_token x, token_ne_nil x⟩

theorem print_injective_of_word {v w : JVal} {a b : List Char} (hv : word v = some a)
    (hw : word w = some b) (h : print v = print w) : v = w := by
  have int_ne {c : Char} {cs : List Char} (hd : c.isDigit = false) (hm : c ≠ '-') (n : Int) :
      intText n ≠ c :: cs :=
    intText_ne_of_head hd hm n
  cases v <;> cases w <;> simp only [word, reduceCtorEq] at hv hw
  case null.null => rfl
  case int.int m n => rw [intText_injective h]
  case float.float x y => rw [PyFloat.ext (String.toList_inj.mp h)]
  case int.float n x => exact absurd h.symm (token_ne_intText x n)
  case float.int x n => exact absurd h (token_ne_intText x n)
  case null.int n => exact absurd h.symm (int_ne (by decide) (by decide) n)
  case int.null n => exact absurd h (int_ne (by decide) (by decide) n)
  case null.float x =>
    exact absurd h.symm (token_ne_of_not_isToken x (s := "null") (by decide))
  case float.null x =>
    exact absurd h (token_ne_of_not_isToken x (s := "null") (by decide))
  case null.bool b => cases b <;> exact absurd h (by decide)
  case bool.null b => cases b <;> exact absurd h (by decide)
  case bool.bool b c =>
    cases b <;> cases c
    · rfl
    · exact absurd h (by decide)
    · exact absurd h (by decide)
    · rfl
  case bool.int b n =>
    cases b
    · exact absurd h.symm (int_ne (by decide) (by decide) n)
    · exact absurd h.symm (int_ne (by decide) (by decide) n)
  case int.bool n b =>
    cases b
    · exact absurd h (int_ne (by decide) (by decide) n)
    · exact absurd h (int_ne (by decide) (by decide) n)
  case bool.float b x =>
    cases b
    · exact absurd h.symm (token_ne_of_not_isToken x (s := "false") (by decide))
    · exact absurd h.symm (token_ne_of_not_isToken x (s := "true") (by decide))
  case float.bool x b =>
    cases b
    · exact absurd h (token_ne_of_not_isToken x (s := "false") (by decide))
    · exact absurd h (token_ne_of_not_isToken x (s := "true") (by decide))

/-- Two words before delimiters are the same word. -/
theorem word_append_inj {a b s t : List Char} (ha : a.all isWordChar = true)
    (hb : b.all isWordChar = true) (hs : Delimited s) (ht : Delimited t)
    (h : a ++ s = b ++ t) : a = b ∧ s = t := by
  have htake {l r : List Char} (hl : l.all isWordChar = true) (hr : Delimited r) :
      (l ++ r).takeWhile isWordChar = l := by
    rw [List.takeWhile_append_of_pos (List.all_eq_true.mp hl)]
    cases r with
    | nil => simp
    | cons c r => simp [hr c (by simp)]
  have hab : a = b := by rw [← htake ha hs, h, htake hb ht]
  subst hab
  exact ⟨rfl, List.append_cancel_left h⟩

/-- The character a value's text starts with. -/
def lead : JVal → Char
  | .str _ => '"'
  | .arr _ => '['
  | .obj _ => '{'
  | v => (print v).headD ' '

theorem exists_print_eq (v : JVal) : ∃ r, print v = lead v :: r := by
  have hword {v : JVal} {w : List Char} (h : word v = some w) :
      ∃ r, print v = (print v).headD ' ' :: r := by
    obtain ⟨hprint, -, hne⟩ := word_spec h
    obtain ⟨c, r, rfl⟩ := List.exists_cons_of_ne_nil hne
    exact ⟨r, by rw [hprint, List.headD_cons]⟩
  cases v with
  | str s => exact ⟨_, rfl⟩
  | arr items => exact ⟨_, rfl⟩
  | obj items => exact ⟨_, rfl⟩
  | null => exact hword rfl
  | bool b => exact hword rfl
  | int n => exact hword rfl
  | float x => exact hword rfl

theorem lead_eq_of_append {v w : JVal} {s t : List Char} (h : print v ++ s = print w ++ t) :
    lead v = lead w := by
  obtain ⟨r, hr⟩ := exists_print_eq v
  obtain ⟨q, hq⟩ := exists_print_eq w
  rw [hr, hq] at h
  exact (List.cons.inj h).1

theorem isWordChar_lead {v : JVal} {a : List Char} (h : word v = some a) :
    isWordChar (lead v) = true := by
  obtain ⟨hprint, hall, hne⟩ := word_spec h
  obtain ⟨r, hr⟩ := exists_print_eq v
  rw [← hprint, hr, List.all_cons, Bool.and_eq_true] at hall
  exact hall.1

/-- What the first character says about the value. -/
theorem lead_cases (v : JVal) : (isWordChar (lead v) = true ∧ ∃ a, word v = some a) ∨
    (lead v = '"' ∧ ∃ s, v = .str s) ∨ (lead v = '[' ∧ ∃ vs, v = .arr vs) ∨
      lead v = '{' ∧ ∃ kvs, v = .obj kvs := by
  cases v with
  | str s => exact Or.inr (Or.inl ⟨rfl, s, rfl⟩)
  | arr vs => exact Or.inr (Or.inr (Or.inl ⟨rfl, vs, rfl⟩))
  | obj kvs => exact Or.inr (Or.inr (Or.inr ⟨rfl, kvs, rfl⟩))
  | null => exact Or.inl ⟨isWordChar_lead rfl, _, rfl⟩
  | bool b => exact Or.inl ⟨isWordChar_lead rfl, _, rfl⟩
  | int n => exact Or.inl ⟨isWordChar_lead rfl, _, rfl⟩
  | float x => exact Or.inl ⟨isWordChar_lead rfl, _, rfl⟩

theorem isWordChar_ne {c d : Char} (h : isWordChar c = true) (hd : isWordChar d = false) :
    c ≠ d := by
  rintro rfl
  rw [h] at hd
  exact Bool.noConfusion hd

/-- No value's text starts with a closing bracket. -/
theorem lead_ne_close (v : JVal) : lead v ≠ ']' ∧ lead v ≠ '}' := by
  rcases lead_cases v with ⟨h, -⟩ | ⟨h, -⟩ | ⟨h, -⟩ | ⟨h, -⟩
  · exact ⟨isWordChar_ne h (by decide), isWordChar_ne h (by decide)⟩
  · rw [h]
    decide
  · rw [h]
    decide
  · rw [h]
    decide

theorem delimited_close {c : Char} (h : isWordChar c = false) (s : List Char) :
    Delimited (c :: s) := by
  intro d hd
  obtain rfl : c = d := by simpa using hd
  exact h

theorem delimited_printList (vs : List JVal) (s : List Char) :
    Delimited (printList [','] vs ++ s) := by
  cases vs with
  | nil => exact delimited_close (by decide) _
  | cons v vs => exact delimited_close (by decide) _

theorem delimited_printItems (kvs : Dict) (s : List Char) :
    Delimited (printItems [','] kvs ++ s) := by
  cases kvs with
  | nil => exact delimited_close (by decide) _
  | cons kv kvs => exact delimited_close (by decide) _

theorem printList_cons_ne (sep : List Char) (hsep : sep = [] ∨ sep = [',']) (v : JVal)
    (vs : List JVal) (s t : List Char) : printList sep (v :: vs) ++ s ≠ ']' :: t := by
  intro h
  rcases hsep with rfl | rfl
  · obtain ⟨r, hr⟩ := exists_print_eq v
    simp only [printList, hr, List.nil_append, List.cons_append, List.cons.injEq] at h
    exact (lead_ne_close v).1 h.1
  · simp [printList] at h

theorem printItems_cons_ne (sep : List Char) (hsep : sep = [] ∨ sep = [',']) (kv : String × JVal)
    (kvs : Dict) (s t : List Char) : printItems sep (kv :: kvs) ++ s ≠ '}' :: t := by
  intro h
  rcases hsep with rfl | rfl <;> simp [printItems, quote] at h

theorem word_of_lead_eq {v w : JVal} {a : List Char} (hv : word v = some a)
    (h : lead v = lead w) : ∃ b, word w = some b := by
  have hlead := isWordChar_lead hv
  rw [h] at hlead
  rcases lead_cases w with ⟨-, hw⟩ | ⟨hw, -⟩ | ⟨hw, -⟩ | ⟨hw, -⟩
  · exact hw
  all_goals exact absurd hw (isWordChar_ne hlead (by decide))

/-- A word is told from every other value, and from what follows it. -/
theorem word_print_append_inj {v w : JVal} {a s t : List Char} (hv : word v = some a)
    (hs : Delimited s) (ht : Delimited t) (h : print v ++ s = print w ++ t) : v = w ∧ s = t := by
  obtain ⟨b, hw⟩ := word_of_lead_eq hv (lead_eq_of_append h)
  obtain ⟨hpv, hav, -⟩ := word_spec hv
  obtain ⟨hpw, haw, -⟩ := word_spec hw
  rw [hpv, hpw] at h
  obtain ⟨rfl, rfl⟩ := word_append_inj hav haw hs ht h
  exact ⟨print_injective_of_word hv hw (hpv.trans hpw.symm), rfl⟩

theorem eq_str_of_lead {w : JVal} (h : lead w = '"') : ∃ s, w = .str s := by
  rcases lead_cases w with ⟨hw, -⟩ | ⟨-, hs⟩ | ⟨hw, -⟩ | ⟨hw, -⟩
  · exact absurd h (isWordChar_ne hw (by decide))
  · exact hs
  all_goals exact absurd (hw.symm.trans h) (by decide)

theorem eq_arr_of_lead {w : JVal} (h : lead w = '[') : ∃ vs, w = .arr vs := by
  rcases lead_cases w with ⟨hw, -⟩ | ⟨hw, -⟩ | ⟨-, hs⟩ | ⟨hw, -⟩
  · exact absurd h (isWordChar_ne hw (by decide))
  · exact absurd (hw.symm.trans h) (by decide)
  · exact hs
  · exact absurd (hw.symm.trans h) (by decide)

theorem eq_obj_of_lead {w : JVal} (h : lead w = '{') : ∃ kvs, w = .obj kvs := by
  rcases lead_cases w with ⟨hw, -⟩ | ⟨hw, -⟩ | ⟨hw, -⟩ | ⟨-, hs⟩
  · exact absurd h (isWordChar_ne hw (by decide))
  · exact absurd (hw.symm.trans h) (by decide)
  · exact absurd (hw.symm.trans h) (by decide)
  · exact hs

mutual
/-- What follows a value is not part of its text. -/
theorem print_append_inj : ∀ (v w : JVal) {s t : List Char}, Delimited s → Delimited t →
    print v ++ s = print w ++ t → v = w ∧ s = t
  | .str a, w, s, t, _, _, h => by
    obtain ⟨b, rfl⟩ := eq_str_of_lead (lead_eq_of_append h).symm
    obtain ⟨rfl, rfl⟩ := quote_append_inj h
    exact ⟨rfl, rfl⟩
  | .arr vs, w, s, t, _, _, h => by
    obtain ⟨ws, rfl⟩ := eq_arr_of_lead (lead_eq_of_append h).symm
    simp only [print, List.cons_append, List.cons.injEq, true_and] at h
    obtain ⟨rfl, rfl⟩ := printList_append_inj vs ws [] (Or.inl rfl) h
    exact ⟨rfl, rfl⟩
  | .obj vs, w, s, t, _, _, h => by
    obtain ⟨ws, rfl⟩ := eq_obj_of_lead (lead_eq_of_append h).symm
    simp only [print, List.cons_append, List.cons.injEq, true_and] at h
    obtain ⟨rfl, rfl⟩ := printItems_append_inj vs ws [] (Or.inl rfl) h
    exact ⟨rfl, rfl⟩
  | .null, _, _, _, hs, ht, h => word_print_append_inj rfl hs ht h
  | .bool _, _, _, _, hs, ht, h => word_print_append_inj rfl hs ht h
  | .int _, _, _, _, hs, ht, h => word_print_append_inj rfl hs ht h
  | .float _, _, _, _, hs, ht, h => word_print_append_inj rfl hs ht h

theorem printList_append_inj : ∀ (vs ws : List JVal) (sep : List Char),
    sep = [] ∨ sep = [','] → ∀ {s t : List Char},
      printList sep vs ++ s = printList sep ws ++ t → vs = ws ∧ s = t
  | [], [], sep, hsep, s, t, h => by simpa [printList] using h
  | [], w :: ws, sep, hsep, s, t, h => absurd h.symm (printList_cons_ne sep hsep w ws t _)
  | v :: vs, [], sep, hsep, s, t, h => absurd h (printList_cons_ne sep hsep v vs s _)
  | v :: vs, w :: ws, sep, hsep, s, t, h => by
    simp only [printList, List.append_assoc] at h
    obtain ⟨rfl, hrest⟩ := print_append_inj v w (delimited_printList vs s)
      (delimited_printList ws t) (List.append_cancel_left h)
    obtain ⟨rfl, rfl⟩ := printList_append_inj vs ws [','] (Or.inr rfl) hrest
    exact ⟨rfl, rfl⟩

theorem printItems_append_inj : ∀ (vs ws : List (String × JVal)) (sep : List Char),
    sep = [] ∨ sep = [','] → ∀ {s t : List Char},
      printItems sep vs ++ s = printItems sep ws ++ t → vs = ws ∧ s = t
  | [], [], sep, hsep, s, t, h => by simpa [printItems] using h
  | [], w :: ws, sep, hsep, s, t, h => absurd h.symm (printItems_cons_ne sep hsep w ws t _)
  | v :: vs, [], sep, hsep, s, t, h => absurd h (printItems_cons_ne sep hsep v vs s _)
  | (k, v) :: vs, (l, w) :: ws, sep, hsep, s, t, h => by
    simp only [printItems, List.append_assoc, List.cons_append] at h
    obtain ⟨rfl, hcolon⟩ := quote_append_inj (List.append_cancel_left h)
    obtain ⟨rfl, hrest⟩ := print_append_inj v w (delimited_printItems vs s)
      (delimited_printItems ws t) (List.cons.inj hcolon).2
    obtain ⟨rfl, rfl⟩ := printItems_append_inj vs ws [','] (Or.inr rfl) hrest
    exact ⟨rfl, rfl⟩
end

theorem print_injective : Function.Injective print := by
  intro v w h
  have hnil : Delimited [] := by simp [Delimited]
  exact (print_append_inj v w hnil hnil (congrArg (· ++ []) h)).1

/-- Two values have one canonical text exactly when they differ in the order of
object keys alone. -/
@[simp] theorem canonical_inj {v w : JVal} :
    canonical v = canonical w ↔ sortKeys v = sortKeys w := by
  unfold canonical
  rw [String.ofList_inj]
  exact print_injective.eq_iff

/-! ## Objects with one canonical text -/

theorem sortItems_perm (items : Dict) : List.Perm (sortItems items) items :=
  List.perm_insertionSort _ items

theorem get?_sortKeysItems (key : String) : ∀ items : Dict,
    Dict.get? (sortKeysItems items) key = (Dict.get? items key).map sortKeys
  | [] => rfl
  | (k, v) :: rest => by
    have ih := get?_sortKeysItems key rest
    simp only [Dict.get?, sortKeysItems, List.find?_cons] at ih ⊢
    by_cases hk : k = key
    · simp [hk]
    · simpa [hk] using ih

theorem map_fst_sortKeysItems : ∀ items : Dict,
    (sortKeysItems items).map Prod.fst = items.map Prod.fst
  | [] => rfl
  | (k, v) :: rest => by
    simp only [sortKeysItems, List.map_cons, map_fst_sortKeysItems rest]

/-- With distinct keys, the order of the items does not matter to a lookup. -/
theorem get?_eq_of_perm {a b : Dict} (h : List.Perm a b) (hnodup : (a.map Prod.fst).Nodup)
    (key : String) : a.get? key = b.get? key := by
  induction h with
  | nil => rfl
  | cons item _ ih =>
    simp only [List.map_cons, List.nodup_cons] at hnodup
    have := ih hnodup.2
    simp only [Dict.get?, List.find?_cons] at this ⊢
    by_cases hk : item.1 = key <;> simp [hk, this]
  | swap x y l =>
    simp only [List.map_cons, List.nodup_cons, List.mem_cons, not_or] at hnodup
    simp only [Dict.get?, List.find?_cons]
    by_cases hx : x.1 = key
    · by_cases hy : y.1 = key
      · exact absurd (hy.trans hx.symm) hnodup.1.1
      · simp [hx, hy]
    · by_cases hy : y.1 = key <;> simp [hx, hy]
  | trans hab _ ih₁ ih₂ =>
    exact (ih₁ hnodup).trans (ih₂ ((hab.map Prod.fst).nodup_iff.mp hnodup))

/-- Objects with one canonical text agree at every key, up to the order of keys
further down. -/
theorem get?_eq_of_sortKeys_eq {a b : Dict} (h : sortKeys (.obj a) = sortKeys (.obj b))
    (hnodup : (a.map Prod.fst).Nodup) (key : String) :
    (a.get? key).map sortKeys = (b.get? key).map sortKeys := by
  simp only [sortKeys, obj.injEq] at h
  have hperm : List.Perm (sortKeysItems a) (sortKeysItems b) := by
    have := sortItems_perm (sortKeysItems a)
    rw [h] at this
    exact this.symm.trans (sortItems_perm (sortKeysItems b))
  rw [← get?_sortKeysItems, ← get?_sortKeysItems]
  exact get?_eq_of_perm hperm (by rwa [map_fst_sortKeysItems]) key

theorem sortKeys_eq_str {v : JVal} {s : String} : sortKeys v = .str s ↔ v = .str s := by
  cases v <;> simp [sortKeys]

/-! ## Length -/

theorem one_le_length_escape (c : Char) : 1 ≤ (escape c).length := by
  unfold escape
  split_ifs <;> simp

theorem length_le_length_escapeAll : ∀ cs : List Char, cs.length ≤ (escapeAll cs).length
  | [] => le_refl _
  | c :: cs => by
    have hc := one_le_length_escape c
    have ih := length_le_length_escapeAll cs
    simp only [escapeAll, List.flatMap_cons, List.length_cons, List.length_append] at ih ⊢
    omega

theorem length_quote (s : String) : s.length + 2 ≤ (quote s).length := by
  have := length_le_length_escapeAll s.toList
  simp only [quote, List.length_cons, List.length_append, List.length_nil, String.length_toList]
    at this ⊢
  omega

/-- The room an object's keys take. -/
def keyRoom (items : Dict) : Nat :=
  (items.map fun item => item.1.length + 3).sum

theorem keyRoom_le_length_printItems : ∀ (sep : List Char) (items : Dict),
    keyRoom items ≤ (printItems sep items).length
  | _, [] => by simp [keyRoom]
  | sep, (k, v) :: rest => by
    have ih := keyRoom_le_length_printItems [','] rest
    have hk := length_quote k
    simp only [keyRoom, List.map_cons, List.sum_cons, printItems, List.length_append,
      List.length_cons] at ih ⊢
    omega

theorem keyRoom_sortKeysItems (items : Dict) : keyRoom (sortKeysItems items) = keyRoom items := by
  have := congrArg (fun keys : List String => (keys.map fun k => k.length + 3).sum)
    (map_fst_sortKeysItems items)
  simpa [keyRoom, List.map_map, Function.comp_def] using this

/-- An object's canonical text is at least as long as its keys, each with its quotes
and its colon. -/
theorem keyRoom_le_length_canonical (items : Dict) :
    keyRoom items ≤ (canonical (.obj items)).length := by
  have hperm := ((sortItems_perm (sortKeysItems items)).map fun item => item.1.length + 3).sum_eq
  have hroom := keyRoom_sortKeysItems items
  have hprint := keyRoom_le_length_printItems [] (sortItems (sortKeysItems items))
  simp only [canonical, sortKeys, print, String.length_ofList, List.length_cons]
  simp only [keyRoom] at hperm hroom hprint ⊢
  omega

example : canonical (.obj [("b", .int (-3)), ("a", .arr [.null, .str "x\n"])]) =
    "\x7b\"a\":[null,\"x\\n\"],\"b\":-3\x7d" := by
  decide

end JVal
