import Attest.Cures
import Attest.Redaction

/-!
# What softening leaves

Softening replaces two texts, as they are spelt in lower case, in three fields of a payload.
The detector finds seven phrases in any case and in every text. A softened text holds a phrase
where one of its phrases is neither of the two, and where a `risk-free` stands before another
`free`, which its replacement turns into a phrase (`labelsOf_softened`).

The proof follows the text and the softened one side by side (`Softens`). A phrase that begins
outside of what was replaced begins in both or in neither, unless it runs into a replaced
text, which only the `no risk` of a `no risk-free` does (`somewhere_softens`).
-/

set_option linter.unusedSectionVars false

namespace Attest

open Regex

/-! ## The replaced texts -/

def guaranteed : List Char := ['g', 'u', 'a', 'r', 'a', 'n', 't', 'e', 'e', 'd']

def may : List Char := ['m', 'a', 'y']

def riskFree : List Char := ['r', 'i', 's', 'k', '-', 'f', 'r', 'e', 'e']

def subjectToRisk : List Char :=
  ['s', 'u', 'b', 'j', 'e', 'c', 't', ' ', 't', 'o', ' ', 'r', 'i', 's', 'k']

/-- What softening makes of a text. -/
def softened (text : String) : String :=
  replaceText "risk-free" "subject to risk" (replaceText "guaranteed" "may" text)

/-- A text and its softened form, side by side. -/
inductive Softens : List Char → List Char → Prop
  | nil : Softens [] []
  | keep {c : Char} {t s : List Char} (hguaranteed : ¬List.IsPrefix guaranteed (c :: t))
      (hriskFree : ¬List.IsPrefix riskFree (c :: t)) (h : Softens t s) : Softens (c :: t) (c :: s)
  | guaranteed {t s : List Char} (h : Softens t s) : Softens (guaranteed ++ t) (may ++ s)
  | riskFree {t s : List Char} (h : Softens t s) : Softens (riskFree ++ t) (subjectToRisk ++ s)

theorem replaceFrom_skip (old new rest : List Char) : ∀ (u : List Char),
    replaceFrom old new u.length (u ++ rest) = replaceFrom old new 0 rest
  | [] => rfl
  | _ :: u => replaceFrom_skip old new rest u

theorem replaceFrom_of_prefix {old : List Char} (hold : old ≠ []) (new rest : List Char) :
    replaceFrom old new 0 (old ++ rest) = new ++ replaceFrom old new 0 rest := by
  obtain ⟨c, u, rfl⟩ := List.exists_cons_of_ne_nil hold
  have hpre : (c :: u).isPrefixOf (c :: (u ++ rest)) = true :=
    List.isPrefixOf_iff_prefix.mpr ⟨rest, rfl⟩
  rw [List.cons_append, replaceFrom, if_pos hpre, List.length_cons, Nat.add_sub_cancel,
    replaceFrom_skip]

theorem head_ne_of_all {old u : List Char} {a : Char} (ha : old.head? = some a)
    (h : u.all (fun c => a != c) = true) : ∀ c ∈ u, ∃ a ∈ old.head?, a ≠ c :=
  fun c hc => ⟨a, ha, bne_iff_ne.mp (List.all_eq_true.mp h c hc)⟩

/-- A text that the replaced one cannot begin in is kept. -/
theorem replaceFrom_append {old : List Char} (new rest : List Char) : ∀ {u : List Char},
    (∀ c ∈ u, ∃ a ∈ old.head?, a ≠ c) →
      replaceFrom old new 0 (u ++ rest) = u ++ replaceFrom old new 0 rest
  | [], _ => rfl
  | c :: u, h => by
    obtain ⟨hc, hu⟩ := List.forall_mem_cons.mp h
    have hno : ¬old.isPrefixOf (c :: (u ++ rest)) = true := by
      obtain ⟨a, ha, hac⟩ := hc
      obtain ⟨more, rfl⟩ := List.head?_eq_some_iff.mp ha
      simp [List.isPrefixOf, hac]
    rw [List.cons_append, replaceFrom, if_neg hno, replaceFrom_append new rest hu,
      List.cons_append]

/-- What a replaced text begins with the text began with, if no character of it starts the
new text. -/
theorem prefix_of_replaceFrom {old new : List Char} : ∀ {w t : List Char},
    (∀ c ∈ w, ∃ m ∈ new.head?, m ≠ c) → List.IsPrefix w (replaceFrom old new 0 t) →
      List.IsPrefix w t
  | [], _, _, _ => List.nil_prefix
  | a :: w, [], _, h => h
  | a :: w, c :: t, hm, h => by
    obtain ⟨ha, hw⟩ := List.forall_mem_cons.mp hm
    rw [replaceFrom] at h
    split at h
    · obtain ⟨m, hm, hma⟩ := ha
      obtain ⟨more, rfl⟩ := List.head?_eq_some_iff.mp hm
      rw [List.cons_append, List.cons_prefix_cons] at h
      exact absurd h.1.symm hma
    · rw [List.cons_prefix_cons] at h ⊢
      exact ⟨h.1, prefix_of_replaceFrom hw h.2⟩

theorem softens_replaceFrom : ∀ (n : Nat) (t : List Char), t.length ≤ n →
    Softens t (replaceFrom riskFree subjectToRisk 0 (replaceFrom guaranteed may 0 t))
  | _, [], _ => .nil
  | n + 1, c :: t, hn => by
    by_cases hg : List.IsPrefix guaranteed (c :: t)
    · obtain ⟨rest, hrest⟩ := hg
      have hlen : rest.length ≤ n := by
        have hlength := congrArg List.length hrest
        rw [List.length_append, List.length_cons] at hlength
        have hten : guaranteed.length = 10 := rfl
        rw [List.length_cons] at hn
        omega
      rw [← hrest, replaceFrom_of_prefix (by decide : guaranteed ≠ []),
        replaceFrom_append _ _ (head_ne_of_all rfl rfl)]
      exact .guaranteed (softens_replaceFrom n rest hlen)
    · by_cases hr : List.IsPrefix riskFree (c :: t)
      · obtain ⟨rest, hrest⟩ := hr
        have hlen : rest.length ≤ n := by
          have hlength := congrArg List.length hrest
          rw [List.length_append, List.length_cons] at hlength
          have hnine : riskFree.length = 9 := rfl
          rw [List.length_cons] at hn
          omega
        rw [← hrest, replaceFrom_append _ _ (head_ne_of_all rfl rfl),
          replaceFrom_of_prefix (by decide : riskFree ≠ [])]
        exact .riskFree (softens_replaceFrom n rest hlen)
      · have hfirst : replaceFrom guaranteed may 0 (c :: t) =
            c :: replaceFrom guaranteed may 0 t := by
          rw [replaceFrom, if_neg (mt List.isPrefixOf_iff_prefix.mp hg)]
        have hno : ¬List.IsPrefix riskFree (c :: replaceFrom guaranteed may 0 t) := by
          intro hpre
          rw [← hfirst] at hpre
          exact hr (prefix_of_replaceFrom (head_ne_of_all rfl rfl) hpre)
        rw [hfirst, replaceFrom, if_neg (mt List.isPrefixOf_iff_prefix.mp hno)]
        exact .keep hg hr (softens_replaceFrom n t (Nat.le_of_succ_le_succ hn))

theorem toList_replaceText (old new text : String) :
    (replaceText old new text).toList = replaceFrom old.toList new.toList 0 text.toList :=
  String.toList_ofList

theorem softens_softened (text : String) : Softens text.toList (softened text).toList := by
  rw [softened, toList_replaceText, toList_replaceText]
  exact softens_replaceFrom _ text.toList le_rfl

/-! ## Phrases letter by letter -/

/-- The character is the lower-case one of a phrase, in some case. -/
def folds (a c : Char) : Bool :=
  c.toLower == a || (CharClass.extraCases a).contains c

/-- The position behind a phrase. -/
def consume : List Char → Pos → Option Pos
  | [], p => some p
  | _ :: _, (_, []) => none
  | a :: w, (_, c :: cs) => if folds a c then consume w (some c, cs) else none

theorem consume_append : ∀ (u v : List Char) (p : Pos),
    consume (u ++ v) p = (consume u p).bind (consume v)
  | [], _, _ => rfl
  | _ :: _, _, (_, []) => rfl
  | a :: u, v, (_, c :: cs) => by
    simp only [List.cons_append, consume]
    split
    · exact consume_append u v (some c, cs)
    · rfl

/-- What `guaranteed_return` finds, each spelling by itself. -/
def returnPhrases : List String :=
  ["guaranteed", "risk-free", "risk free", "riskfree", "will return", "assured profit"]

/-- What `absolute_claim` finds. -/
def claimPhrases : List String := ["100% certain", "no risk", "cannot lose"]

section Phrases

variable [PyUnicode]

/-- A phrase read from the position ends at a word boundary. -/
def Spells (w : List Char) (p : Pos) : Prop := ∃ q, consume w p = some q ∧ atBound q = true

/-- A phrase begins at the position, between word boundaries. -/
def PhraseAt (p : Pos) : Prop :=
  atBound p = true ∧ ∃ w ∈ returnPhrases ++ claimPhrases, Spells w.toList p

theorem mem_run_seqs_append {q : Pos} : ∀ {rs rs' : List Regex} {p : Pos},
    q ∈ (seqs (rs ++ rs')).run p ↔ ∃ m ∈ (seqs rs).run p, q ∈ (seqs rs').run m
  | [], rs', p => by
    constructor
    · exact fun h => ⟨p, List.mem_singleton.mpr rfl, h⟩
    · rintro ⟨m, hm, hq⟩
      obtain rfl := List.mem_singleton.mp hm
      exact hq
  | r :: rs, rs', p => by
    constructor
    · intro h
      obtain ⟨first, hfirst, hq⟩ := List.mem_flatMap.mp h
      obtain ⟨m, hm, hq⟩ := mem_run_seqs_append.mp hq
      exact ⟨m, List.mem_flatMap.mpr ⟨first, hfirst, hm⟩, hq⟩
    · rintro ⟨m, hm, hq⟩
      obtain ⟨first, hfirst, hm⟩ := List.mem_flatMap.mp hm
      exact List.mem_flatMap.mpr ⟨first, hfirst, mem_run_seqs_append.mpr ⟨m, hm, hq⟩⟩

theorem test_litI (a c : Char) : (CharClass.litI a).test c = folds a c := rfl

theorem mem_run_folded {q : Pos} : ∀ {w : List Char} {p : Pos},
    q ∈ (seqs (w.map fun c => .cls (.litI c))).run p ↔ consume w p = some q
  | [], p => by
    rw [consume, Option.some.injEq, eq_comm]
    exact List.mem_singleton
  | _ :: _, (_, []) => ⟨nofun, nofun⟩
  | a :: w, (b, c :: cs) => by
    rw [consume]
    constructor
    · intro h
      obtain ⟨m, hm, hq⟩ := List.mem_flatMap.mp h
      unfold run at hm
      split at hm
      · rename_i hfolds
        rw [test_litI] at hfolds
        obtain rfl := List.mem_singleton.mp hm
        rw [if_pos hfolds]
        exact mem_run_folded.mp hq
      · cases hm
    · intro h
      obtain ⟨hfolds, h⟩ := Option.ite_none_right_eq_some.mp h
      refine List.mem_flatMap.mpr ⟨(some c, cs), ?_, mem_run_folded.mpr h⟩
      unfold run
      rw [test_litI, if_pos hfolds]
      exact List.mem_singleton.mpr rfl

/-- A pattern between word boundaries. -/
theorem exists_mem_run_bounded {r : Regex} {p : Pos} :
    (∃ q, q ∈ (seqs [.bound, r, .bound]).run p) ↔
      atBound p = true ∧ ∃ q ∈ r.run p, atBound q = true := by
  have hbound (q q' : Pos) : q' ∈ (seqs [.bound]).run q ↔ q' = q ∧ atBound q = true := by
    simp only [seqs, run, List.mem_flatMap]
    split
    · rename_i h
      simp [h]
    · rename_i h
      simp [h]
  constructor
  · rintro ⟨q', hq'⟩
    obtain ⟨m, hm, hq'⟩ := List.mem_flatMap.mp hq'
    obtain ⟨q, hq, hend⟩ := List.mem_flatMap.mp hq'
    unfold run at hm
    split at hm
    · rename_i hopen
      obtain rfl := List.mem_singleton.mp hm
      exact ⟨hopen, q, hq, ((hbound q q').mp hend).2⟩
    · cases hm
  · rintro ⟨hopen, q, hq, hclose⟩
    refine ⟨q, List.mem_flatMap.mpr ⟨p, ?_, List.mem_flatMap.mpr ⟨q, hq, ?_⟩⟩⟩
    · unfold run
      rw [if_pos hopen]
      exact List.mem_singleton.mpr rfl
    · exact (hbound q q).mpr ⟨rfl, hclose⟩

theorem toLower_cases (c : Char) : c.toLower = c ∨ 97 ≤ c.toLower.toNat ∧ 65 ≤ c.toNat := by
  by_cases h : 'A'.val ≤ c.val ∧ c.val ≤ 'Z'.val
  · have hlower : c.toLower = _ := dif_pos h
    simp only [UInt32.le_iff_toNat_le, Char.reduceVal, UInt32.reduceToNat] at h
    rw [hlower]
    simp only [Char.toNat, UInt32.toNat_add, Char.reduceVal, UInt32.reduceSub, UInt32.reduceToNat]
    exact Or.inr (by omega)
  · exact Or.inl (dif_neg h)

/-- A character that is no letter has no cases. -/
theorem folds_of_not_letter {a c : Char} (ha : a = '-' ∨ a = ' ') : folds a c = (a == c) := by
  have hextra : CharClass.extraCases a = [] := by
    rcases ha with rfl | rfl <;> rfl
  have hsmall : a.toNat < 65 := by
    rcases ha with rfl | rfl <;> decide
  have hlower : (c.toLower == a) = (a == c) := by
    rw [BEq.comm]
    rcases toLower_cases c with heq | ⟨hlower, hupper⟩
    · rw [heq]
    · have hne : a ≠ c.toLower := fun heq => by
        rw [heq] at hsmall
        omega
      have hne' : a ≠ c := fun heq => by
        rw [heq] at hsmall
        omega
      rw [beq_eq_false_iff_ne.mpr hne, beq_eq_false_iff_ne.mpr hne']
  rw [folds, hextra, List.contains_nil, Bool.or_false, hlower]

theorem mem_run_seqs_singleton {r : Regex} {p q : Pos} : q ∈ (seqs [r]).run p ↔ q ∈ r.run p := by
  constructor
  · intro h
    obtain ⟨m, hm, hq⟩ := List.mem_flatMap.mp h
    obtain rfl := List.mem_singleton.mp hq
    exact hm
  · exact fun h => List.mem_flatMap.mpr ⟨q, h, List.mem_singleton.mpr rfl⟩

theorem mem_run_separator {p q : Pos} :
    q ∈ (cls (.union (.lit '-') (.lit ' '))).run p ↔
      consume ['-'] p = some q ∨ consume [' '] p = some q := by
  obtain ⟨b, cs⟩ := p
  cases cs with
  | nil => simp [run, consume]
  | cons c cs =>
    have htest : CharClass.test (.union (.lit '-') (.lit ' ')) c =
        (folds '-' c || folds ' ' c) := by
      rw [folds_of_not_letter (Or.inl rfl), folds_of_not_letter (Or.inr rfl)]
      rfl
    have hdash : consume ['-'] (b, c :: cs) = some q ↔ folds '-' c = true ∧ q = (some c, cs) := by
      rw [consume, Option.ite_none_right_eq_some, consume, Option.some.injEq, eq_comm (a := q)]
    have hspace : consume [' '] (b, c :: cs) = some q ↔ folds ' ' c = true ∧ q = (some c, cs) := by
      rw [consume, Option.ite_none_right_eq_some, consume, Option.some.injEq, eq_comm (a := q)]
    rw [hdash, hspace, run, htest, ← or_and_right, ← Bool.or_eq_true]
    split
    · rename_i h
      rw [List.mem_singleton, and_iff_right h]
    · rename_i h
      exact ⟨fun hmem => absurd hmem List.not_mem_nil, fun hboth => absurd hboth.1 h⟩

/-- The optional dash or space inside `risk-free`. -/
theorem mem_run_riskFree {p q : Pos} :
    q ∈ (seqs (litI "risk" ++ [.opt (.cls (.union (.lit '-') (.lit ' ')))] ++ litI "free")).run p ↔
      consume "risk-free".toList p = some q ∨ consume "risk free".toList p = some q ∨
        consume "riskfree".toList p = some q := by
  have hfree (m : Pos) : q ∈ (seqs (litI "free")).run m ↔
      consume "free".toList m = some q := mem_run_folded
  have hrisk (m : Pos) : m ∈ (seqs (litI "risk")).run p ↔
      consume "risk".toList p = some m := mem_run_folded
  have hopt (m m' : Pos) : m' ∈ (seqs [.opt (.cls (.union (.lit '-') (.lit ' ')))]).run m ↔
      (consume ['-'] m = some m' ∨ consume [' '] m = some m') ∨ m' = m := by
    rw [mem_run_seqs_singleton, ← mem_run_separator]
    exact List.mem_append.trans (or_congr Iff.rfl List.mem_singleton)
  have hsplit (v : List Char) : consume ("risk".toList ++ (v ++ "free".toList)) p = some q ↔
      ∃ m, consume "risk".toList p = some m ∧ ∃ m', consume v m = some m' ∧
        consume "free".toList m' = some q := by
    simp only [consume_append, Option.bind_eq_some_iff]
  have hdash : "risk-free".toList = "risk".toList ++ (['-'] ++ "free".toList) := rfl
  have hspace : "risk free".toList = "risk".toList ++ ([' '] ++ "free".toList) := rfl
  have hnone : "riskfree".toList = "risk".toList ++ ([] ++ "free".toList) := rfl
  rw [hdash, hspace, hnone, hsplit, hsplit, hsplit, mem_run_seqs_append]
  constructor
  · rintro ⟨m', hm', hq⟩
    obtain ⟨m, hm, hm'⟩ := mem_run_seqs_append.mp hm'
    rw [hrisk] at hm
    rw [hfree] at hq
    rcases (hopt m m').mp hm' with (hm' | hm') | rfl
    · exact Or.inl ⟨m, hm, m', hm', hq⟩
    · exact Or.inr (Or.inl ⟨m, hm, m', hm', hq⟩)
    · exact Or.inr (Or.inr ⟨m', hm, m', rfl, hq⟩)
  · have hback {m m' : Pos} (hm : consume "risk".toList p = some m)
        (hm' : (consume ['-'] m = some m' ∨ consume [' '] m = some m') ∨ m' = m)
        (hq : consume "free".toList m' = some q) :
        ∃ m' ∈ (seqs (litI "risk" ++ [.opt (.cls (.union (.lit '-') (.lit ' ')))])).run p,
          q ∈ (seqs (litI "free")).run m' :=
      ⟨m', mem_run_seqs_append.mpr ⟨m, (hrisk m).mpr hm, (hopt m m').mpr hm'⟩, (hfree m').mpr hq⟩
    rintro (⟨m, hm, m', hm', hq⟩ | ⟨m, hm, m', hm', hq⟩ | ⟨m, hm, m', hm', hq⟩)
    · exact hback hm (Or.inl (Or.inl hm')) hq
    · exact hback hm (Or.inl (Or.inr hm')) hq
    · exact hback hm (Or.inr (Option.some.inj hm').symm) hq

/-- The detector's patterns match from a position exactly where a phrase begins. -/
theorem phraseAt_iff {p : Pos} :
    PhraseAt p ↔ ∃ entry ∈ prohibitedPhrasePatterns, ∃ q, q ∈ entry.2.run p := by
  have hword (word : String) (q : Pos) : q ∈ (seqs (litI word)).run p ↔
      consume word.toList p = some q := mem_run_folded
  have hreturn (q : Pos) : q ∈ (alts (seqs (litI "guaranteed"))
      [seqs (litI "risk" ++ [.opt (.cls (.union (.lit '-') (.lit ' ')))] ++ litI "free"),
        seqs (litI "will return"), seqs (litI "assured profit")]).run p ↔
      ∃ w ∈ returnPhrases, consume w.toList p = some q := by
    unfold alts alts alts alts run
    rw [List.mem_append, run, List.mem_append, run, List.mem_append, hword, mem_run_riskFree,
      hword, hword, or_assoc, or_assoc]
    unfold returnPhrases
    simp only [List.exists_mem_cons_iff, List.not_mem_nil, false_and, exists_false, or_false]
  have hclaim (q : Pos) : q ∈ (alts (seqs (litI "100% certain"))
      [seqs (litI "no risk"), seqs (litI "cannot lose")]).run p ↔
      ∃ w ∈ claimPhrases, consume w.toList p = some q := by
    unfold alts alts alts run
    rw [List.mem_append, run, List.mem_append, hword, hword, hword]
    unfold claimPhrases
    simp only [List.exists_mem_cons_iff, List.not_mem_nil, false_and, exists_false, or_false]
  have hpatterns : (∃ entry ∈ prohibitedPhrasePatterns, ∃ q, q ∈ entry.2.run p) ↔
      (∃ q, q ∈ guaranteedReturn.run p) ∨ ∃ q, q ∈ absoluteClaim.run p := by
    unfold prohibitedPhrasePatterns
    rw [List.exists_mem_cons_iff, List.exists_mem_cons_iff]
    simp only [List.not_mem_nil, false_and, exists_false, or_false]
  rw [hpatterns, guaranteedReturn, absoluteClaim, exists_mem_run_bounded, exists_mem_run_bounded,
    ← and_or_left, PhraseAt]
  refine and_congr_right fun _ => ?_
  simp only [hreturn, hclaim, List.mem_append]
  constructor
  · rintro ⟨w, hw | hw, q, hq, hbound⟩
    · exact Or.inl ⟨q, ⟨w, hw, hq⟩, hbound⟩
    · exact Or.inr ⟨q, ⟨w, hw, hq⟩, hbound⟩
  · rintro (⟨q, ⟨w, hw, hq⟩, hbound⟩ | ⟨q, ⟨w, hw, hq⟩, hbound⟩)
    · exact ⟨w, Or.inl hw, q, hq, hbound⟩
    · exact ⟨w, Or.inr hw, q, hq, hbound⟩

/-! ## Side by side -/

/-- The phrase reads on over the text, as far as both go. -/
def agrees : List Char → List Char → Bool
  | a :: w, c :: cs => folds a c && agrees w cs
  | _, _ => true

/-- No part of the phrase runs into a replaced text or into what replaces it. -/
def apart : List Char → Bool
  | [] => true
  | a :: w => !agrees (a :: w) guaranteed && !agrees (a :: w) riskFree &&
      !agrees (a :: w) may && !agrees (a :: w) subjectToRisk && apart w

theorem consume_of_disagree : ∀ {w block : List Char} (b : Option Char) (rest : List Char),
    agrees w block = false → consume w (b, block ++ rest) = none
  | a :: w, c :: cs, b, rest, h => by
    rw [agrees] at h
    rw [List.cons_append, consume]
    split
    · rename_i hfolds
      rw [hfolds, Bool.true_and] at h
      exact consume_of_disagree (some c) rest h
    · rfl

/-- The character before a position matters to what is read only if nothing is read. -/
theorem consume_before {a : Char} {w cs : List Char} (b b' : Option Char) :
    consume (a :: w) (b, cs) = consume (a :: w) (b', cs) := by
  cases cs <;> rfl

/-- A position in a softened text and one in the text. -/
structure Aligned (p' p : Pos) : Prop where
  softens : Softens p.2 p'.2
  word : p'.1.any PyText.isWord = p.1.any PyText.isWord

theorem Softens.head_word {t s : List Char} (h : Softens t s) :
    s.head?.any PyText.isWord = t.head?.any PyText.isWord := by
  cases h <;> rfl

theorem Aligned.bound {p' p : Pos} (h : Aligned p' p) : atBound p' = atBound p := by
  obtain ⟨b', s⟩ := p'
  obtain ⟨b, t⟩ := p
  rw [atBound, atBound, h.word, h.softens.head_word]

theorem consume_aligned : ∀ {w : List Char} {p' p : Pos}, apart w = true → Aligned p' p →
    (∀ q, consume w p = some q → ∃ q', consume w p' = some q' ∧ Aligned q' q) ∧
      ∀ q', consume w p' = some q' → ∃ q, consume w p = some q ∧ Aligned q' q
  | [], p', p, _, h => by
    refine ⟨fun q hq => ⟨p', rfl, ?_⟩, fun q' hq' => ⟨p, rfl, ?_⟩⟩
    · rwa [← Option.some.inj hq]
    · rwa [← Option.some.inj hq']
  | a :: w, (b', s), (b, t), hw, h => by
    simp only [apart, Bool.and_eq_true, Bool.not_eq_true'] at hw
    obtain ⟨⟨⟨⟨hguaranteed, hriskFree⟩, hmay⟩, hsubject⟩, hw⟩ := hw
    have hneither (hp : consume (a :: w) (b, t) = none) (hp' : consume (a :: w) (b', s) = none) :
        (∀ q, consume (a :: w) (b, t) = some q →
            ∃ q', consume (a :: w) (b', s) = some q' ∧ Aligned q' q) ∧
          ∀ q', consume (a :: w) (b', s) = some q' →
            ∃ q, consume (a :: w) (b, t) = some q ∧ Aligned q' q := by
      rw [hp, hp']
      exact ⟨nofun, nofun⟩
    have hsoftens : Softens t s := h.softens
    cases hsoftens with
    | nil => exact hneither rfl rfl
    | keep hg hr hrest =>
      simp only [consume]
      split
      · exact consume_aligned hw ⟨hrest, rfl⟩
      · exact ⟨nofun, nofun⟩
    | guaranteed hrest =>
      exact hneither (consume_of_disagree b _ hguaranteed) (consume_of_disagree b' _ hmay)
    | riskFree hrest =>
      exact hneither (consume_of_disagree b _ hriskFree) (consume_of_disagree b' _ hsubject)

theorem spells_aligned {w : List Char} {p' p : Pos} (hw : apart w = true) (h : Aligned p' p) :
    Spells w p' ↔ Spells w p := by
  constructor
  · rintro ⟨q', hq', hbound⟩
    obtain ⟨q, hq, haligned⟩ := (consume_aligned hw h).2 q' hq'
    exact ⟨q, hq, haligned.bound ▸ hbound⟩
  · rintro ⟨q, hq, hbound⟩
    obtain ⟨q', hq', haligned⟩ := (consume_aligned hw h).1 q hq
    exact ⟨q', hq', haligned.bound ▸ hbound⟩

/-- A phrase that begins with a character that is kept. -/
theorem spells_keep {a c : Char} {w t s : List Char} {b' b : Option Char} (hw : apart w = true)
    (h : Softens t s) : Spells (a :: w) (b', c :: s) ↔ Spells (a :: w) (b, c :: t) := by
  unfold Spells
  simp only [consume]
  split
  · exact spells_aligned hw ⟨h, rfl⟩
  · exact Iff.rfl

/-! ## Phrases that stay and phrases that are made -/

/-- The text begins with `no risk-free`, its first word in any case. -/
def NoRiskFree (cs : List Char) : Prop :=
  ∃ q, consume "no ".toList (none, cs) = some q ∧ List.IsPrefix riskFree q.2

/-- The text begins with `free`, perhaps behind a dash or a space, and a word ends there. -/
def FreeFollows (cs : List Char) : Prop :=
  ∃ w ∈ ["free", "-free", " free"], Spells w.toList (none, cs)

/-- A phrase that softening leaves begins at the position, or one that it makes ends there. -/
def LeavesAt (p : Pos) : Prop :=
  (atBound p = true ∧ ¬List.IsPrefix guaranteed p.2 ∧ ¬List.IsPrefix riskFree p.2 ∧
      ∃ w ∈ returnPhrases ++ claimPhrases, Spells w.toList p ∧ (w = "no risk" → ¬NoRiskFree p.2)) ∨
    (List.IsPrefix riskFree p.2 ∧ FreeFollows (p.2.drop riskFree.length))

/-- The predicate holds at a position of the text. -/
def Somewhere (P : Pos → Prop) : Option Char → List Char → Prop
  | b, [] => P (b, [])
  | b, c :: cs => P (b, c :: cs) ∨ Somewhere P (some c) cs

theorem freeFollows_softens {t s : List Char} (h : Softens t s) :
    FreeFollows s ↔ FreeFollows t := by
  have haligned : Aligned (none, s) (none, t) := ⟨h, rfl⟩
  unfold FreeFollows
  refine exists_congr fun w => and_congr_right fun hw => spells_aligned ?_ haligned
  simp only [List.mem_cons, List.not_mem_nil, or_false] at hw
  rcases hw with rfl | rfl | rfl <;> decide

theorem spells_append {u v : List Char} {p : Pos} :
    Spells (u ++ v) p ↔ ∃ m, consume u p = some m ∧ Spells v m := by
  unfold Spells
  simp only [consume_append, Option.bind_eq_some_iff]
  constructor
  · rintro ⟨q, ⟨m, hm, hq⟩, hbound⟩
    exact ⟨m, hm, q, hq, hbound⟩
  · rintro ⟨m, hm, q, hq, hbound⟩
    exact ⟨q, ⟨m, hm, hq⟩, hbound⟩

theorem not_spells_of_disagree {w block : List Char} (b : Option Char) (rest : List Char)
    (h : agrees w block = false) : ¬Spells w (b, block ++ rest) := by
  rintro ⟨q, hq, -⟩
  rw [consume_of_disagree b rest h] at hq
  cases hq

theorem spells_risk {p' p : Pos} (h : Aligned p' p) :
    Spells "risk".toList p' ↔ Spells "risk".toList p ∧ ¬List.IsPrefix riskFree p.2 := by
  obtain ⟨b', s⟩ := p'
  obtain ⟨b, t⟩ := p
  have hsoftens : Softens t s := h.softens
  cases hsoftens with
  | nil => exact iff_of_false (fun ⟨_, hq, _⟩ => nomatch hq) fun hboth => nomatch hboth.1
  | keep hg hr hrest =>
    rw [and_iff_left hr]
    exact spells_keep (w := "isk".toList) (by decide) hrest
  | guaranteed hrest =>
    refine iff_of_false (not_spells_of_disagree b' _ (by decide)) fun hboth => ?_
    exact not_spells_of_disagree b _ (by decide) hboth.1
  | riskFree hrest =>
    refine iff_of_false (not_spells_of_disagree b' _ (by decide)) fun hboth => ?_
    exact hboth.2 ⟨_, rfl⟩

/-- `no risk` is read in a softened text where the text had it, and not as part of a
`no risk-free`. -/
theorem spells_noRisk {c : Char} {t s : List Char} {b' b : Option Char} (h : Softens t s) :
    Spells "no risk".toList (b', c :: s) ↔
      Spells "no risk".toList (b, c :: t) ∧ ¬NoRiskFree (c :: t) := by
  have hword : "no risk".toList = "no ".toList ++ "risk".toList := rfl
  have hfirst {cs : List Char} (b : Option Char) : consume "no ".toList (b, c :: cs) =
      if folds 'n' c then consume "o ".toList (some c, cs) else none := rfl
  have haligned : Aligned (some c, s) (some c, t) := ⟨h, rfl⟩
  have hrest := consume_aligned (w := "o ".toList) (by decide) haligned
  rw [hword, spells_append, spells_append, NoRiskFree]
  simp only [hfirst]
  by_cases hn : folds 'n' c = true
  · simp only [if_pos hn]
    constructor
    · rintro ⟨m', hm', hrisk⟩
      obtain ⟨m, hm, halign⟩ := hrest.2 m' hm'
      obtain ⟨hrisk, hnot⟩ := (spells_risk halign).mp hrisk
      refine ⟨⟨m, hm, hrisk⟩, ?_⟩
      rintro ⟨q, hq, hpre⟩
      rw [hm] at hq
      exact hnot (Option.some.inj hq ▸ hpre)
    · rintro ⟨⟨m, hm, hrisk⟩, hnot⟩
      obtain ⟨m', hm', halign⟩ := hrest.1 m hm
      exact ⟨m', hm', (spells_risk halign).mpr ⟨hrisk, fun hpre => hnot ⟨m, hm, hpre⟩⟩⟩
  · simp only [if_neg hn]
    exact iff_of_false (fun ⟨_, hm, _⟩ => nomatch hm) fun ⟨⟨_, hm, _⟩, _⟩ => nomatch hm

/-- The phrases other than `no risk` do not run into what is replaced, once they begin. -/
theorem apart_phrases : ∀ w ∈ returnPhrases ++ claimPhrases, w ≠ "no risk" →
    ∃ a rest, w.toList = a :: rest ∧ apart rest = true := by
  intro w hw hne
  simp only [returnPhrases, claimPhrases, List.cons_append, List.nil_append, List.mem_cons,
    List.not_mem_nil, or_false] at hw
  rcases hw with rfl | rfl | rfl | rfl | rfl | rfl | rfl | rfl | rfl
  all_goals first
    | exact absurd rfl hne
    | exact ⟨_, _, rfl, by decide⟩

/-- A phrase begins with a character that is kept, in the softened text, where one begins in the
text that softening leaves. -/
theorem phraseAt_keep {c : Char} {t s : List Char} {b' b : Option Char}
    (hg : ¬List.IsPrefix guaranteed (c :: t)) (hr : ¬List.IsPrefix riskFree (c :: t))
    (h : Softens t s) (hword : b'.any PyText.isWord = b.any PyText.isWord) :
    PhraseAt (b', c :: s) ↔ LeavesAt (b, c :: t) := by
  have hbound : atBound (b', c :: s) = atBound (b, c :: t) := by
    rw [atBound, atBound, hword]
    rfl
  have hspells (w : String) (hw : w ∈ returnPhrases ++ claimPhrases) :
      Spells w.toList (b', c :: s) ↔
        Spells w.toList (b, c :: t) ∧ (w = "no risk" → ¬NoRiskFree (c :: t)) := by
    by_cases hne : w = "no risk"
    · rw [hne, forall_prop_of_true rfl]
      exact spells_noRisk h
    · obtain ⟨a, rest, hlist, hapart⟩ := apart_phrases w hw hne
      rw [hlist, forall_prop_of_false hne, and_true]
      exact spells_keep hapart h
  rw [PhraseAt, LeavesAt, hbound, and_iff_right hg, and_iff_right hr, or_iff_left fun hmade =>
    hr hmade.1]
  refine and_congr_right fun _ => exists_congr fun w => ?_
  exact and_congr_right fun hw => hspells w hw

/-- No phrase begins in the block. -/
def phraseless : List Char → Bool
  | [] => true
  | c :: cs => (returnPhrases ++ claimPhrases).all (fun w => !agrees w.toList (c :: cs)) &&
      phraseless cs

theorem consume_riskFree (b : Option Char) (rest : List Char) :
    consume riskFree (b, riskFree ++ rest) = some (some 'e', rest) := rfl

theorem not_begins_of_phraseless {c : Char} {cs : List Char} (b : Option Char)
    (rest : List Char) (h : phraseless (c :: cs) = true) :
    ¬PhraseAt (b, c :: cs ++ rest) ∧ ¬LeavesAt (b, c :: cs ++ rest) := by
  rw [phraseless, Bool.and_eq_true, List.all_eq_true] at h
  have hnone (w : String) (hw : w ∈ returnPhrases ++ claimPhrases) :
      agrees w.toList (c :: cs) = false := by simpa using h.1 w hw
  refine ⟨?_, ?_⟩
  · rintro ⟨-, w, hw, hspells⟩
    exact not_spells_of_disagree b rest (hnone w hw) hspells
  · rintro (⟨-, -, -, w, hw, hspells, -⟩ | ⟨⟨more, hmore⟩, -⟩)
    · exact not_spells_of_disagree b rest (hnone w hw) hspells
    · have hconsume := consume_riskFree b more
      have hdisagree : agrees riskFree (c :: cs) = false := hnone "risk-free" (by decide)
      rw [hmore, consume_of_disagree b rest hdisagree] at hconsume
      cases hconsume

/-- Nothing is found in a block in which no phrase begins. -/
theorem somewhere_phraseless (rest : List Char) : ∀ (block : List Char) (b : Option Char),
    phraseless block = true →
      (Somewhere PhraseAt b (block ++ rest) ↔ Somewhere PhraseAt (lastOr b block) rest) ∧
        (Somewhere LeavesAt b (block ++ rest) ↔ Somewhere LeavesAt (lastOr b block) rest)
  | [], b, _ => ⟨Iff.rfl, Iff.rfl⟩
  | c :: cs, b, h => by
    obtain ⟨hphrase, hleaves⟩ := not_begins_of_phraseless b rest h
    rw [phraseless, Bool.and_eq_true] at h
    obtain ⟨ihphrase, ihleaves⟩ := somewhere_phraseless rest cs (some c) h.2
    rw [lastOr_cons, ← ihphrase, ← ihleaves]
    exact ⟨or_iff_right hphrase, or_iff_right hleaves⟩

theorem not_begins_nil (b : Option Char) : ¬PhraseAt (b, []) ∧ ¬LeavesAt (b, []) := by
  have hnone (w : String) (hw : w ∈ returnPhrases ++ claimPhrases) : ¬Spells w.toList (b, []) := by
    have hne : ∀ w ∈ returnPhrases ++ claimPhrases, w.toList ≠ [] := by decide
    obtain ⟨a, rest, hlist⟩ := List.exists_cons_of_ne_nil (hne w hw)
    rw [hlist]
    exact fun ⟨_, hq, _⟩ => nomatch hq
  refine ⟨?_, ?_⟩
  · rintro ⟨-, w, hw, hspells⟩
    exact hnone w hw hspells
  · rintro (⟨-, -, -, w, hw, hspells, -⟩ | ⟨hpre, -⟩)
    · exact hnone w hw hspells
    · exact absurd (List.prefix_nil.mp hpre) (by decide)

/-- The `risk` that a `risk-free` is replaced by begins a phrase where a `free` follows. -/
theorem phraseAt_risk (s : List Char) :
    PhraseAt (some ' ', "risk".toList ++ s) ↔ FreeFollows s := by
  have hrisk (v : String) (hv : v.toList ≠ []) :
      Spells ("risk".toList ++ v.toList) (some ' ', "risk".toList ++ s) ↔
        Spells v.toList (none, s) := by
    obtain ⟨a, rest, hlist⟩ := List.exists_cons_of_ne_nil hv
    have hconsume : consume ("risk".toList ++ v.toList) (some ' ', "risk".toList ++ s) =
        consume v.toList (some 'k', s) := rfl
    rw [Spells, hconsume, hlist, consume_before (some 'k') none, Spells]
  have hfree := hrisk "free" (by decide)
  have hdash := hrisk "-free" (by decide)
  have hspace := hrisk " free" (by decide)
  constructor
  · rintro ⟨-, w, hw, hspells⟩
    have hagrees : agrees w.toList "risk".toList = true := by
      by_contra hno
      exact not_spells_of_disagree _ s (Bool.not_eq_true _ ▸ hno) hspells
    simp only [returnPhrases, claimPhrases, List.cons_append, List.nil_append, List.mem_cons,
      List.not_mem_nil, or_false] at hw
    rcases hw with rfl | rfl | rfl | rfl | rfl | rfl | rfl | rfl | rfl
    · exact absurd hagrees (by decide)
    · exact ⟨"-free", by decide, hdash.mp hspells⟩
    · exact ⟨" free", by decide, hspace.mp hspells⟩
    · exact ⟨"free", by decide, hfree.mp hspells⟩
    all_goals exact absurd hagrees (by decide)
  · rintro ⟨v, hv, hspells⟩
    simp only [List.mem_cons, List.not_mem_nil, or_false] at hv
    refine ⟨rfl, ?_⟩
    rcases hv with rfl | rfl | rfl
    · exact ⟨"riskfree", by decide, hfree.mpr hspells⟩
    · exact ⟨"risk-free", by decide, hdash.mpr hspells⟩
    · exact ⟨"risk free", by decide, hspace.mpr hspells⟩

/-- A softened text holds a phrase where softening leaves one. -/
theorem somewhere_softens {t s : List Char} (h : Softens t s) : ∀ {b' b : Option Char},
    b'.any PyText.isWord = b.any PyText.isWord →
      (Somewhere PhraseAt b' s ↔ Somewhere LeavesAt b t) := by
  induction h with
  | nil =>
    intro b' b hword
    exact iff_of_false (not_begins_nil b').1 (not_begins_nil b).2
  | keep hg hr hrest ih =>
    intro b' b hword
    exact or_congr (phraseAt_keep hg hr hrest hword) (ih rfl)
  | guaranteed hrest ih =>
    rename_i t s
    intro b' b hword
    have hfirst : ¬LeavesAt (b, guaranteed ++ t) := by
      rintro (⟨-, hno, -⟩ | ⟨⟨more, hmore⟩, -⟩)
      · exact hno ⟨t, rfl⟩
      · exact absurd (List.cons.inj hmore).1 (by decide)
    have hnew : Somewhere PhraseAt b' (may ++ s) ↔ Somewhere PhraseAt (some 'y') s :=
      (somewhere_phraseless s may b' (by decide)).1
    have hold : Somewhere LeavesAt (some 'g') ("uaranteed".toList ++ t) ↔
        Somewhere LeavesAt (some 'd') t :=
      (somewhere_phraseless t "uaranteed".toList (some 'g') (by decide)).2
    have hrest : Somewhere PhraseAt (some 'y') s ↔ Somewhere LeavesAt (some 'd') t := ih rfl
    exact hnew.trans (hrest.trans (hold.symm.trans (or_iff_right hfirst).symm))
  | riskFree hrest ih =>
    rename_i t s
    intro b' b hword
    have hfirst : LeavesAt (b, riskFree ++ t) ↔ FreeFollows t := by
      constructor
      · rintro (⟨-, -, hno, -⟩ | ⟨-, hfree⟩)
        · exact absurd ⟨t, rfl⟩ hno
        · rwa [List.drop_left] at hfree
      · intro hfree
        refine Or.inr ⟨⟨t, rfl⟩, ?_⟩
        rwa [List.drop_left]
    have hblock := (somewhere_phraseless ("risk".toList ++ s) "subject to ".toList b'
      (by decide)).1
    have hnew : Somewhere PhraseAt (some 'r') ("isk".toList ++ s) ↔
        Somewhere PhraseAt (some 'k') s :=
      (somewhere_phraseless s "isk".toList (some 'r') (by decide)).1
    have hold : Somewhere LeavesAt (some 'r') ("isk-free".toList ++ t) ↔
        Somewhere LeavesAt (some 'e') t :=
      (somewhere_phraseless t "isk-free".toList (some 'r') (by decide)).2
    have hrest' : Somewhere PhraseAt (some 'k') s ↔ Somewhere LeavesAt (some 'e') t := ih rfl
    refine hblock.trans ?_
    exact or_congr ((phraseAt_risk s).trans ((freeFollows_softens hrest).trans hfirst.symm))
      (hnew.trans (hrest'.trans hold.symm))

/-! ## What the detector finds -/

theorem exists_mem_iff {α : Type} {l : List α} : (∃ a, a ∈ l) ↔ (!l.isEmpty) = true := by
  cases l <;> simp

theorem somewhere_phraseAt : ∀ {b : Option Char} {cs : List Char}, Somewhere PhraseAt b cs ↔
    ∃ entry ∈ prohibitedPhrasePatterns, entry.2.searchFrom b cs = true
  | b, [] => by
    simp only [Somewhere, phraseAt_iff, searchFrom, exists_mem_iff]
  | b, c :: cs => by
    simp only [Somewhere, phraseAt_iff, searchFrom, exists_mem_iff, somewhere_phraseAt,
      Bool.or_eq_true, and_or_left, exists_or]

/-- Softening leaves a phrase in the text : one that is not replaced, or one that it makes. -/
def Unsoftened (text : String) : Prop := Somewhere LeavesAt none text.toList

/-- The detector finds a phrase in a softened text exactly where softening leaves one. -/
theorem labelsOf_softened (text : String) :
    labelsOf prohibitedPhrasePatterns (softened text) = [] ↔ ¬Unsoftened text := by
  have hsome : (∃ entry ∈ prohibitedPhrasePatterns,
      entry.2.searchFrom none (softened text).toList = true) ↔ Unsoftened text :=
    somewhere_phraseAt.symm.trans (somewhere_softens (softens_softened text) rfl)
  rw [labelsOf_eq_nil, ← hsome]
  simp only [not_exists, not_and, Bool.not_eq_true]
  rfl

end Phrases

end Attest
