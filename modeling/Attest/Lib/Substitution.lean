import Attest.Lib.Regex

/-!
# Substituting the matches of a pattern

What `sub` leaves of a text holds no match, and no match of another pattern that the text
did not hold before (`searchFrom_subFrom`). The patterns stand between word boundaries, and
the mark that replaces a match begins and ends with characters that no pattern takes
(`Guarded`, `Mark`).

A match in the new text then lies in a stretch of the old one. The position before a mark
and the position after it were word boundaries in the old text, so a boundary of the new
text is one of the old, and the same characters match there (`Sim`, `mem_run_of_sim`).
-/

set_option linter.unusedSectionVars false

namespace Regex

variable [PyUnicode]

/-! ## What a match takes -/

/-- A class of the pattern takes the character. -/
def takes : Regex → Char → Bool
  | .empty, _ => false
  | .cls p, c => p.test c
  | .bound, _ => false
  | .seq r s, c => r.takes c || s.takes c
  | .alt r s, c => r.takes c || s.takes c
  | .opt r, c => r.takes c
  | .plus p, c => p.test c

/-- Every match takes a character of the kind. -/
def Needs (key : Char → Bool) : Regex → Prop
  | .empty => False
  | .cls p => ∀ c, p.test c = true → key c = true
  | .bound => False
  | .seq r s => r.Needs key ∨ s.Needs key
  | .alt r s => r.Needs key ∧ s.Needs key
  | .opt _ => False
  | .plus p => ∀ c, p.test c = true → key c = true

/-- The character before a position, once a text was taken. -/
def lastOr (b : Option Char) (taken : List Char) : Option Char :=
  taken.getLast?.or b

@[simp] theorem lastOr_nil (b : Option Char) : lastOr b [] = b := rfl

theorem lastOr_append (b : Option Char) (s t : List Char) :
    lastOr b (s ++ t) = lastOr (lastOr b s) t := by
  unfold lastOr
  rw [List.getLast?_append, Option.or_assoc]

theorem lastOr_cons (b : Option Char) (c : Char) (t : List Char) :
    lastOr b (c :: t) = lastOr (some c) t :=
  lastOr_append b [c] t

/-- A match takes a part of the text, of characters the pattern takes. -/
structure Takes (r : Regex) (p q : Pos) (taken : List Char) : Prop where
  text : p.2 = taken ++ q.2
  before : q.1 = lastOr p.1 taken
  all : ∀ c ∈ taken, r.takes c = true
  needs : ∀ key, r.Needs key → ∃ c ∈ taken, key c = true

theorem takes_runPlus {p : CharClass} {q : Pos} : ∀ {b : Option Char} {cs : List Char},
    q ∈ runPlus p b cs → ∃ taken, Takes (.plus p) (b, cs) q taken
  | b, c :: cs, h => by
    unfold runPlus at h
    split at h
    · rename_i hc
      rcases List.mem_append.mp h with h | h
      · obtain ⟨taken, htaken⟩ := takes_runPlus h
        refine ⟨c :: taken, ?_, ?_, ?_, ?_⟩
        · rw [List.cons_append, ← htaken.text]
        · rw [lastOr_cons]
          exact htaken.before
        · exact List.forall_mem_cons.mpr ⟨hc, htaken.all⟩
        · exact fun key hkey => ⟨c, List.mem_cons_self, hkey c hc⟩
      · obtain rfl := List.mem_singleton.mp h
        exact ⟨[c], rfl, rfl, List.forall_mem_singleton.mpr hc,
        fun key hkey => ⟨c, List.mem_singleton_self c, hkey c hc⟩⟩
    · cases h

theorem takes_run : ∀ (r : Regex) {p q : Pos}, q ∈ r.run p → ∃ taken, Takes r p q taken
  | .empty, p, q, h => by
    obtain rfl := List.mem_singleton.mp h
    exact ⟨[], rfl, rfl, nofun, nofun⟩
  | .cls k, (b, []), q, h => by cases h
  | .cls k, (b, c :: cs), q, h => by
    unfold run at h
    split at h
    · rename_i hc
      obtain rfl := List.mem_singleton.mp h
      exact ⟨[c], rfl, rfl, List.forall_mem_singleton.mpr hc,
        fun key hkey => ⟨c, List.mem_singleton_self c, hkey c hc⟩⟩
    · cases h
  | .bound, p, q, h => by
    unfold run at h
    split at h
    · obtain rfl := List.mem_singleton.mp h
      exact ⟨[], rfl, rfl, nofun, nofun⟩
    · cases h
  | .seq r s, p, q, h => by
    obtain ⟨m, hm, hq⟩ := List.mem_flatMap.mp h
    obtain ⟨first, hfirst⟩ := takes_run r hm
    obtain ⟨second, hsecond⟩ := takes_run s hq
    refine ⟨first ++ second, ?_, ?_, ?_, ?_⟩
    · rw [hfirst.text, hsecond.text, List.append_assoc]
    · rw [hsecond.before, hfirst.before, lastOr_append]
    · intro c hc
      rw [takes, Bool.or_eq_true]
      exact (List.mem_append.mp hc).imp (hfirst.all c) (hsecond.all c)
    · rintro key (hkey | hkey)
      · obtain ⟨c, hc, hkey⟩ := hfirst.needs key hkey
        exact ⟨c, List.mem_append_left _ hc, hkey⟩
      · obtain ⟨c, hc, hkey⟩ := hsecond.needs key hkey
        exact ⟨c, List.mem_append_right _ hc, hkey⟩
  | .alt r s, p, q, h => by
    rcases List.mem_append.mp h with h | h
    · obtain ⟨taken, htaken⟩ := takes_run r h
      exact ⟨taken, htaken.text, htaken.before,
        fun c hc => by rw [takes, htaken.all c hc, Bool.true_or],
        fun key hkey => htaken.needs key hkey.1⟩
    · obtain ⟨taken, htaken⟩ := takes_run s h
      exact ⟨taken, htaken.text, htaken.before,
        fun c hc => by rw [takes, htaken.all c hc, Bool.or_true],
        fun key hkey => htaken.needs key hkey.2⟩
  | .opt r, p, q, h => by
    rcases List.mem_append.mp h with h | h
    · obtain ⟨taken, htaken⟩ := takes_run r h
      exact ⟨taken, htaken.text, htaken.before, htaken.all, nofun⟩
    · obtain rfl := List.mem_singleton.mp h
      exact ⟨[], rfl, rfl, nofun, nofun⟩
  | .plus k, (b, cs), q, h => takes_runPlus h

/-! ## Positions that read on alike -/

/-- Two positions read on alike up to a character that stops a match, or the end, and where the
first is a word boundary so is the second. -/
inductive Sim (stops : Char → Bool) : Pos → Pos → Prop
  | stop {p' p : Pos} (hbound : atBound p' = true → atBound p = true)
      (hstop : ∀ c ∈ p'.2.head?, stops c = true) : Sim stops p' p
  | step {b' b : Option Char} {c : Char} {cs' cs : List Char}
      (hbound : atBound (b', c :: cs') = true → atBound (b, c :: cs) = true)
      (hrest : Sim stops (some c, cs') (some c, cs)) : Sim stops (b', c :: cs') (b, c :: cs)

theorem Sim.bound {stops : Char → Bool} {p' p : Pos} (h : Sim stops p' p) :
    atBound p' = true → atBound p = true := by
  cases h with
  | stop hbound hstop => exact hbound
  | step hbound hrest => exact hbound

theorem Sim.runPlus {stops : Char → Bool} {k : CharClass}
    (hk : ∀ c, stops c = true → k.test c = false) {p' p q' : Pos} (h : Sim stops p' p)
    (hq' : q' ∈ runPlus k p'.1 p'.2) : ∃ q ∈ Regex.runPlus k p.1 p.2, Sim stops q' q := by
  induction h with
  | stop hbound hstop =>
    rename_i p' p
    obtain ⟨b', cs'⟩ := p'
    cases cs' with
    | nil => cases hq'
    | cons c cs' =>
      have hc := hk c (hstop c rfl)
      simp only [Regex.runPlus, hc, Bool.false_eq_true, if_false] at hq'
      cases hq'
  | step hbound hrest ih =>
    rename_i b' b c cs' cs
    unfold Regex.runPlus at hq' ⊢
    split at hq'
    · rename_i hc
      rw [if_pos hc]
      rcases List.mem_append.mp hq' with hq' | hq'
      · obtain ⟨q, hq, hsim⟩ := ih hq'
        exact ⟨q, List.mem_append_left _ hq, hsim⟩
      · obtain rfl := List.mem_singleton.mp hq'
        exact ⟨_, List.mem_append_right _ (List.mem_singleton.mpr rfl), hrest⟩
    · cases hq'

/-- A match from the first position is one from the second. -/
theorem mem_run_of_sim {stops : Char → Bool} : ∀ (r : Regex)
    (_ : ∀ c, stops c = true → r.takes c = false) {p' p q' : Pos}, Sim stops p' p →
    q' ∈ r.run p' → ∃ q ∈ r.run p, Sim stops q' q
  | .empty, _, p', p, q', h, hq' => by
    obtain rfl := List.mem_singleton.mp hq'
    exact ⟨p, List.mem_singleton.mpr rfl, h⟩
  | .cls k, hr, p', p, q', h, hq' => by
    cases h with
    | stop hbound hstop =>
      obtain ⟨b', cs'⟩ := p'
      cases cs' with
      | nil => cases hq'
      | cons c cs' =>
        have hc : k.test c = false := hr c (hstop c rfl)
        simp only [run, hc, Bool.false_eq_true, if_false] at hq'
        cases hq'
    | step hbound hrest =>
      unfold run at hq' ⊢
      split at hq'
      · rename_i hc
        obtain rfl := List.mem_singleton.mp hq'
        rw [if_pos hc]
        exact ⟨_, List.mem_singleton.mpr rfl, hrest⟩
      · cases hq'
  | .bound, _, p', p, q', h, hq' => by
    unfold run at hq' ⊢
    split at hq'
    · rename_i hbound
      obtain rfl := List.mem_singleton.mp hq'
      rw [if_pos (h.bound hbound)]
      exact ⟨p, List.mem_singleton.mpr rfl, h⟩
    · cases hq'
  | .seq r s, hr, p', p, q', h, hq' => by
    have hboth (c : Char) (hc : stops c = true) : r.takes c = false ∧ s.takes c = false :=
      Bool.or_eq_false_iff.mp (hr c hc)
    obtain ⟨m', hm', hq'⟩ := List.mem_flatMap.mp hq'
    obtain ⟨m, hm, hsim⟩ := mem_run_of_sim r (fun c hc => (hboth c hc).1) h hm'
    obtain ⟨q, hq, hsim⟩ := mem_run_of_sim s (fun c hc => (hboth c hc).2) hsim hq'
    exact ⟨q, List.mem_flatMap.mpr ⟨m, hm, hq⟩, hsim⟩
  | .alt r s, hr, p', p, q', h, hq' => by
    have hboth (c : Char) (hc : stops c = true) : r.takes c = false ∧ s.takes c = false :=
      Bool.or_eq_false_iff.mp (hr c hc)
    rcases List.mem_append.mp hq' with hq' | hq'
    · obtain ⟨q, hq, hsim⟩ := mem_run_of_sim r (fun c hc => (hboth c hc).1) h hq'
      exact ⟨q, List.mem_append_left _ hq, hsim⟩
    · obtain ⟨q, hq, hsim⟩ := mem_run_of_sim s (fun c hc => (hboth c hc).2) h hq'
      exact ⟨q, List.mem_append_right _ hq, hsim⟩
  | .opt r, hr, p', p, q', h, hq' => by
    rcases List.mem_append.mp hq' with hq' | hq'
    · obtain ⟨q, hq, hsim⟩ := mem_run_of_sim r hr h hq'
      exact ⟨q, List.mem_append_left _ hq, hsim⟩
    · obtain rfl := List.mem_singleton.mp hq'
      exact ⟨p, List.mem_append_right _ (List.mem_singleton.mpr rfl), h⟩
  | .plus k, hr, p', p, q', h, hq' => h.runPlus hr hq'

/-! ## Patterns and marks -/

/-- A pattern between word boundaries that takes no character that stops it, and a key. -/
structure Guarded (stops key : Char → Bool) (r : Regex) : Prop where
  avoids : ∀ c, stops c = true → r.takes c = false
  needs : r.Needs key
  opens : ∀ p, ∀ q ∈ r.run p, atBound p = true
  closes : ∀ p, ∀ q ∈ r.run p, atBound q = true

/-- A text without keys, that begins and ends with characters that stop a match. -/
structure Mark (stops key : Char → Bool) (repl : List Char) : Prop where
  opens : ∃ c rest, repl = c :: rest ∧ stops c = true
  closes : ∃ c init, repl = init ++ [c] ∧ stops c = true
  keyless : ∀ c ∈ repl, key c = false

theorem opens_seqs (rs : List Regex) (p : Pos) :
    ∀ q ∈ (seqs (.bound :: rs)).run p, atBound p = true := by
  intro q hq
  obtain ⟨m, hm, -⟩ := List.mem_flatMap.mp hq
  unfold run at hm
  split at hm
  · assumption
  · cases hm

theorem closes_seqs : ∀ (rs : List Regex) (p : Pos),
    ∀ q ∈ (seqs (rs ++ [.bound])).run p, atBound q = true
  | [], p, q, hq => by
    obtain ⟨m, hm, hend⟩ := List.mem_flatMap.mp hq
    unfold run at hm
    split at hm
    · rename_i hbound
      obtain rfl := List.mem_singleton.mp hm
      obtain rfl := List.mem_singleton.mp hend
      exact hbound
    · cases hm
  | r :: rs, p, q, hq => by
    obtain ⟨m, -, hq⟩ := List.mem_flatMap.mp hq
    exact closes_seqs rs m q hq

variable {stops key : Char → Bool} {r r' : Regex} {repl : List Char}

theorem needs_seqs : ∀ {rs : List Regex}, r ∈ rs → r.Needs key → (seqs rs).Needs key
  | s :: rs, hr, hneeds => by
    rcases List.mem_cons.mp hr with rfl | hr
    · exact Or.inl hneeds
    · exact Or.inr (needs_seqs hr hneeds)

/-- A sequence between word boundaries with a part that takes a key. -/
theorem guarded_seqs (rs : List Regex) (hr : r ∈ rs) (hneeds : r.Needs key)
    (havoids : ∀ c, stops c = true → (seqs (.bound :: rs ++ [.bound])).takes c = false) :
    Guarded stops key (seqs (.bound :: rs ++ [.bound])) where
  avoids := havoids
  needs := Or.inr (needs_seqs (List.mem_append_left _ hr) hneeds)
  opens := opens_seqs (rs ++ [Regex.bound])
  closes := closes_seqs (.bound :: rs)

/-- No match begins in a mark. -/
theorem run_mark_eq_nil (hr : Guarded stops key r) {t : List Char} {c : Char}
    (hkeyless : ∀ d ∈ t ++ [c], key d = false) (hstop : stops c = true) (b : Option Char)
    (rest : List Char) : r.run (b, t ++ [c] ++ rest) = [] := by
  rw [List.eq_nil_iff_forall_not_mem]
  intro q hq
  obtain ⟨taken, htaken⟩ := takes_run r hq
  obtain ⟨d, hd, hkey⟩ := htaken.needs key hr.needs
  rcases List.append_eq_append_iff.mp htaken.text with ⟨more, htake, -⟩ | ⟨more, htake, -⟩
  · -- the match would run over the end of the mark
    have hc : c ∈ taken := by
      rw [htake]
      simp
    have := htaken.all c hc
    rw [hr.avoids c hstop] at this
    cases this
  · have hd' : d ∈ t ++ [c] := by
      rw [htake]
      exact List.mem_append_left _ hd
    rw [hkeyless d hd'] at hkey
    cases hkey

theorem searchFrom_mark (hr : Guarded stops key r) {c : Char} (hstop : stops c = true)
    (rest : List Char) : ∀ (t : List Char) (b : Option Char),
      (∀ d ∈ t ++ [c], key d = false) →
      r.searchFrom b (t ++ [c] ++ rest) = r.searchFrom (some c) rest
  | [], b, hkeyless => by
    have hrun := run_mark_eq_nil hr hkeyless hstop b rest
    simp only [List.nil_append, List.singleton_append] at hrun ⊢
    rw [searchFrom, hrun]
    rfl
  | d :: t, b, hkeyless => by
    have hrun := run_mark_eq_nil hr hkeyless hstop b rest
    have ih := searchFrom_mark hr hstop rest t (some d) fun e he =>
      hkeyless e (List.mem_cons_of_mem _ he)
    simp only [List.cons_append] at hrun ⊢
    rw [searchFrom, hrun, ih]
    rfl

/-! ## What is left after a substitution -/

/-- Dropping the characters of a match. -/
theorem subFrom_taken (r : Regex) (repl rest : List Char) : ∀ (taken : List Char) (b : Option Char),
    r.subFrom repl b taken.length (taken ++ rest) = r.subFrom repl (lastOr b taken) 0 rest
  | [], b => rfl
  | c :: taken, b => by
    rw [List.length_cons, List.cons_append, subFrom, subFrom_taken r repl rest taken (some c),
      lastOr_cons]

variable (repl) in
/-- A match is replaced, and the text goes on behind it. -/
theorem subFrom_match (hr : Guarded stops key r) {b : Option Char} {c : Char} {cs : List Char}
    {q : Pos} {qs : List Pos} (h : r.run (b, c :: cs) = q :: qs) :
    r.subFrom repl b 0 (c :: cs) = repl ++ r.subFrom repl q.1 0 q.2 ∧
      ∃ taken, c :: cs = taken ++ q.2 ∧ taken ≠ [] ∧ q.1 = lastOr b taken := by
  have hq : q ∈ r.run (b, c :: cs) := h ▸ List.mem_cons_self
  obtain ⟨taken, htaken⟩ := takes_run r hq
  obtain ⟨d, hd, -⟩ := htaken.needs key hr.needs
  have htext : c :: cs = taken ++ q.2 := htaken.text
  refine ⟨?_, taken, htext, List.ne_nil_of_mem hd, htaken.before⟩
  obtain ⟨c', taken', rfl⟩ := List.exists_cons_of_ne_nil (List.ne_nil_of_mem hd)
  obtain ⟨rfl, hcs⟩ : c = c' ∧ cs = taken' ++ q.2 := List.cons.inj htext
  have hlength : cs.length - q.2.length = taken'.length := by
    rw [hcs, List.length_append, Nat.add_sub_cancel]
  have hbefore : q.1 = lastOr (some c) taken' := by
    rw [htaken.before, lastOr_cons]
  rw [subFrom, h]
  simp only
  rw [hlength, hbefore, hcs, subFrom_taken]

/-- The new text reads on as the old one, up to the next mark. -/
theorem sim_subFrom (hr : Guarded stops key r) (hrepl : Mark stops key repl) :
    ∀ (cs : List Char) (b b' : Option Char), b' = b ∨ atBound (b, cs) = true →
      Sim stops (b', r.subFrom repl b 0 cs) (b, cs)
  | [], b, b', hb => .stop (fun hbound => by
      rcases hb with rfl | hb
      · exact hbound
      · exact hb) nofun
  | c :: cs, b, b', hb => by
    cases hrun : r.run (b, c :: cs) with
    | nil =>
      rw [subFrom, hrun]
      refine .step (fun hbound => ?_) (sim_subFrom hr hrepl cs (some c) (some c) (Or.inl rfl))
      rcases hb with rfl | hb
      · exact hbound
      · exact hb
    | cons q qs =>
      rw [(subFrom_match repl hr hrun).1]
      obtain ⟨d, rest, rfl, hstop⟩ := hrepl.opens
      refine .stop (fun _ => hr.opens _ q (hrun ▸ List.mem_cons_self)) fun e he => ?_
      obtain rfl : d = e := by simpa using he
      exact hstop

theorem run_eq_nil_of_sim (hr : Guarded stops key r) {p' p : Pos} (h : Sim stops p' p)
    (hp : r.run p = []) : r.run p' = [] := by
  rw [List.eq_nil_iff_forall_not_mem]
  intro q' hq'
  obtain ⟨q, hq, -⟩ := mem_run_of_sim r hr.avoids h hq'
  rw [hp] at hq
  cases hq

theorem searchFrom_suffix {rest : List Char} : ∀ {taken : List Char} {b : Option Char},
    r.searchFrom b (taken ++ rest) = false → r.searchFrom (lastOr b taken) rest = false
  | [], b, h => h
  | c :: taken, b, h => by
    rw [List.cons_append, searchFrom, Bool.or_eq_false_iff] at h
    rw [lastOr_cons]
    exact searchFrom_suffix h.2

theorem run_of_searchFrom {b : Option Char} {cs : List Char} (h : r.searchFrom b cs = false) :
    r.run (b, cs) = [] := by
  cases cs with
  | nil => simpa [searchFrom] using h
  | cons c cs =>
    rw [searchFrom, Bool.or_eq_false_iff] at h
    simpa using h.1

theorem run_nil (hr : Guarded stops key r) (b : Option Char) : r.run (b, []) = [] := by
  rw [List.eq_nil_iff_forall_not_mem]
  intro q hq
  obtain ⟨taken, htaken⟩ := takes_run r hq
  obtain ⟨d, hd, -⟩ := htaken.needs key hr.needs
  rw [(List.append_eq_nil_iff.mp htaken.text.symm).1] at hd
  cases hd

/-- A substitution leaves no match of its own pattern, and of another one no match where there
was none. -/
theorem searchFrom_subFrom (hr : Guarded stops key r) (hr' : Guarded stops key r')
    (hrepl : Mark stops key repl) : ∀ (cs : List Char) (b b' : Option Char),
      b' = b ∨ atBound (b, cs) = true → r = r' ∨ r.searchFrom b cs = false →
      r.searchFrom b' (r'.subFrom repl b 0 cs) = false
  | [], b, b', _, _ => by
    rw [subFrom, searchFrom, run_nil hr]
    rfl
  | c :: cs, b, b', hb, hold => by
    cases hrun : r'.run (b, c :: cs) with
    | nil =>
      have hnone : r.run (b, c :: cs) = [] := by
        rcases hold with rfl | hold
        · exact hrun
        · exact run_of_searchFrom hold
      have hrest : r = r' ∨ r.searchFrom (some c) cs = false :=
        hold.imp id fun hold => by
          rw [searchFrom, Bool.or_eq_false_iff] at hold
          exact hold.2
      have hnew := run_eq_nil_of_sim hr (sim_subFrom hr' hrepl (c :: cs) b b' hb) hnone
      have hrec := searchFrom_subFrom hr hr' hrepl cs (some c) (some c) (Or.inl rfl) hrest
      rw [subFrom, hrun] at hnew ⊢
      simp only at hnew ⊢
      rw [searchFrom, hnew, hrec]
      rfl
    | cons q qs =>
      obtain ⟨hsub, taken, htext, hne, hbefore⟩ := subFrom_match repl hr' hrun
      obtain ⟨d, init, hinit, hstop⟩ := hrepl.closes
      have hkeyless := hrepl.keyless
      have hbound : atBound (q.1, q.2) = true := hr'.closes _ q (hrun ▸ List.mem_cons_self)
      have hrest : r = r' ∨ r.searchFrom q.1 q.2 = false :=
        hold.imp id fun hold => by
          rw [htext] at hold
          rw [hbefore]
          exact searchFrom_suffix hold
      have hshorter : q.2.length ≤ cs.length := by
        have hlength := congrArg List.length htext
        rw [List.length_cons, List.length_append] at hlength
        have := List.length_pos_iff.mpr hne
        omega
      have hrec := searchFrom_subFrom hr hr' hrepl q.2 q.1 (some d) (Or.inr hbound) hrest
      rw [hinit] at hkeyless
      rw [hsub, ← hrec]
      generalize r'.subFrom repl q.1 0 q.2 = rest
      rw [hinit]
      exact searchFrom_mark hr hstop rest init b' hkeyless
  termination_by cs => cs.length

/-- `sub` leaves no match. -/
theorem search_sub (hr : Guarded stops key r) (repl text : String)
    (hrepl : Mark stops key repl.toList) : r.search (r.sub repl text) = false := by
  rw [search, sub, String.toList_ofList]
  exact searchFrom_subFrom hr hr hrepl text.toList none none (Or.inl rfl) (Or.inl rfl)

/-- `sub` makes no match of another pattern. -/
theorem search_sub_of_search (hr : Guarded stops key r) (hr' : Guarded stops key r')
    (repl text : String) (hrepl : Mark stops key repl.toList) (h : r.search text = false) :
    r.search (r'.sub repl text) = false := by
  rw [search, sub, String.toList_ofList]
  exact searchFrom_subFrom hr hr' hrepl text.toList none none (Or.inl rfl) (Or.inr h)

end Regex
