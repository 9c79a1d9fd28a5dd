import Mathlib.Data.List.DropRight
import Attest.Provisions

/-!
# Where a confirmed citation is

A citation that is published is in the text the watch was given, up to white space and
case (`confirmed_in_text`). That is the page with its markup : a script is looked through
as the visible text is, and a citation is found at the head of a longer one. Where a page
has no markup, the citation is in its visible text, that the drift is told by.
-/

set_option linter.unusedSectionVars false

namespace Attest

section Watch

variable [PyUnicode] [PyCasefold]

/-! ## Occurrences -/

/-- A claim is in a text, up to white space and case. -/
def Occurs (claim text : String) : Prop :=
  PyText.isBlank claim = false ∧ (normalise claim).toList <:+: (normalise text).toList

/-- A claim is in a text as a whole : it is no part of a longer word there. -/
def OccursWhole (claim text : String) : Prop :=
  ∃ before after, (normalise text).toList = before ++ (normalise claim).toList ++ after ∧
    (∀ c ∈ before.getLast?, c.isAlphanum = false) ∧ ∀ c ∈ after.head?, c.isAlphanum = false

theorem contains_iff {s needle : String} :
    PyText.contains s needle = true ↔ needle.toList <:+: s.toList := by
  rw [PyText.contains, List.any_eq_true, List.infix_iff_prefix_suffix]
  simp only [List.mem_tails, List.isPrefixOf_iff_prefix, and_comm]

theorem appearsVerbatim_iff {claim text : String} :
    appearsVerbatim claim text = true ↔ Occurs claim text := by
  rw [appearsVerbatim, Bool.and_eq_true, Bool.not_eq_true', contains_iff]
  rfl

/-! ## A text that is cut -/

/-- What `collapseFrom` makes of a text, and whether it has just written a space. -/
theorem collapseFrom_append (cs ds : List Char) (blank : Bool) :
    ∃ blank', collapseFrom blank (cs ++ ds) = collapseFrom blank cs ++ collapseFrom blank' ds := by
  induction cs generalizing blank with
  | nil => exact ⟨blank, rfl⟩
  | cons c cs ih =>
    simp only [List.cons_append, collapseFrom]
    by_cases hspace : PyText.isSpace c = true
    · obtain ⟨blank', hrest⟩ := ih true
      refine ⟨blank', ?_⟩
      cases blank <;> simp [hspace, hrest]
    · obtain ⟨blank', hrest⟩ := ih false
      exact ⟨blank', by simp [hspace, hrest]⟩

theorem rdropWhile_prefix_append (p : Char → Bool) (cs ds : List Char) :
    cs.rdropWhile p <+: (cs ++ ds).rdropWhile p := by
  induction ds using List.reverseRecOn with
  | nil => rw [List.append_nil]
  | append_singleton ds d ih =>
    rw [← List.append_assoc]
    by_cases hd : p d = true
    · rw [List.rdropWhile_concat_pos _ _ _ hd]
      exact ih
    · rw [List.rdropWhile_concat_neg _ _ _ hd, List.append_assoc]
      exact (List.rdropWhile_prefix p cs).trans (List.prefix_append _ _)

/-- The text that is left of a head is at the head of what is left of the text. -/
theorem stripBy_prefix_append (p : Char → Bool) (cs ds : List Char) :
    PyText.stripBy p cs <+: PyText.stripBy p (cs ++ ds) := by
  show (cs.dropWhile p).rdropWhile p <+: ((cs ++ ds).dropWhile p).rdropWhile p
  rw [List.dropWhile_append]
  split
  · rename_i hempty
    rw [List.isEmpty_iff.mp hempty]
    exact List.nil_prefix
  · exact rdropWhile_prefix_append p _ ds

/-- The normal form of a text that is cut is at the head of its normal form. -/
theorem normalise_take (text : String) (n : Nat) :
    (normalise (String.ofList (text.toList.take n))).toList <+: (normalise text).toList := by
  obtain ⟨blank, hcollapse⟩ := collapseFrom_append (text.toList.take n) (text.toList.drop n) false
  rw [List.take_append_drop] at hcollapse
  simp only [normalise, String.toList_ofList, hcollapse]
  obtain ⟨rest, hrest⟩ := stripBy_prefix_append PyText.isSpace
    (collapseFrom false (text.toList.take n)) (collapseFrom blank (text.toList.drop n))
  rw [← hrest, casefold, casefold, List.flatMap_append]
  exact List.prefix_append _ _

/-- What is in the snapshot of a text is in the text. -/
theorem occurs_of_snapshotOf {claim text : String} (h : Occurs claim (snapshotOf text)) :
    Occurs claim text :=
  ⟨h.1, h.2.trans (normalise_take text snapshotLimit).isInfix⟩

/-! ## A text without markup -/

theorem blankFrom_eq_self {after : List Char → Option (List Char)} :
    ∀ {cs : List Char}, (∀ c cs', c ∈ cs → after (c :: cs') = none) → blankFrom after 0 cs = cs
  | [], _ => rfl
  | c :: cs, h => by
    rw [blankFrom, h c cs (by simp)]
    exact congrArg (c :: ·) (blankFrom_eq_self fun d cs' hd => h d cs' (by simp [hd]))

/-- A page without markup is all visible. -/
theorem visibleText_of_no_markup {text : String} (h : '<' ∉ text.toList) :
    visibleText text = text := by
  have hhead : ∀ c ∈ text.toList, ¬ '<' = c := fun c hc heq => h (heq ▸ hc)
  have hscript : ∀ c, ∀ cs : List Char, c ∈ text.toList → afterScriptStyle (c :: cs) = none := by
    intro c cs hc
    simp [afterScriptStyle, afterText, hhead c hc]
  have hcomment : ∀ c, ∀ cs : List Char, c ∈ text.toList → afterComment (c :: cs) = none := by
    intro c cs hc
    simp [afterComment, afterText, hhead c hc]
  have htag : ∀ c, ∀ cs : List Char, c ∈ text.toList → afterTag (c :: cs) = none := by
    intro c cs hc
    simp [afterTag, afterText, hhead c hc]
  rw [visibleText, blankFrom_eq_self hscript, blankFrom_eq_self hcomment, blankFrom_eq_self htag,
    String.ofList_toList]

/-! ## Publications -/

/-- A citation that a call publishes is the candidate of a rule, and is in the text that the
watch was given, as far as it is kept as the snapshot. Where the text has no markup, it is in
the visible text. -/
theorem confirmed_in_text {db db' : WatchDb} {source : RegulationSource} {call : WatchCall}
    {fresh : WatchFresh} {changes : List RegulationChange} {c : RegulationChange}
    (hsource : db.getSource source.packCode source.url = some source)
    (h : call.run db source fresh = .ok (db', changes)) (hc : c ∈ changes)
    (hstatus : c.status = .autoPublished) : ∃ text base confirmed, call.text = some text ∧
      db.latestPack source.packCode = some base ∧ c.evidence.get "confirmed" = textDict confirmed ∧
      (db'.getSource source.packCode source.url).bind RegulationSource.snapshot =
        some (snapshotOf text) ∧
      ∀ item ∈ confirmed,
        (∃ rules rule, iterRules base.doc = .ok rules ∧ .obj rule ∈ rules ∧
          PyText.str (Dict.get rule "id") = item.1 ∧
          PyText.str (Dict.get rule "provision_candidate") = item.2) ∧
        Occurs item.2 (snapshotOf text) ∧
          ('<' ∉ text.toList → Occurs item.2 (visibleText text)) := by
  obtain ⟨text, base, row, confirmed, rules, rules', hpublishes, source', -, rfl⟩ :=
    WatchCall.publishes_of_mem h hc hstatus
  refine ⟨text, base, confirmed, hpublishes.fetched, hpublishes.latest, rfl,
    hpublishes.snapshot (Option.isSome_iff_exists.mpr ⟨_, hsource⟩), fun item hitem => ?_⟩
  obtain ⟨rules₁, hrules₁, hconfirmed⟩ := extractConfirmations_eq_ok.mp hpublishes.extracted
  rw [hconfirmed] at hitem
  obtain ⟨_, hmem, hitem⟩ := List.mem_filterMap.mp (mem_of_mem_dictOf hitem)
  obtain ⟨rule, rfl, hid, hcandidate, happears⟩ := confirmable_spec hitem
  have hoccurs := appearsVerbatim_iff.mp happears
  refine ⟨⟨rules₁, rule, hrules₁, hmem, hid, hcandidate⟩, hoccurs, fun hmarkup => ?_⟩
  rw [visibleText_of_no_markup hmarkup]
  exact occurs_of_snapshotOf hoccurs

end Watch

/-! ## Samples -/

section Samples

open Sample

namespace Sample

/-- A check of the page confirms the candidate of the sample pack. -/
def Confirms (text : String) (db' : WatchDb) (c : RegulationChange) : Prop :=
  (WatchCall.check (.answered 200 text) true).run (watchDb "1") (RegulationSource.new "p" "u")
    watchFresh = .ok (db', [c]) ∧ c.status = .autoPublished ∧
    c.evidence.get "confirmed" = textDict [("R1", "Art. 9")]

theorem exists_confirms {text : String}
    (h : (checkSource (watchDb "1") (RegulationSource.new "p" "u") (.answered 200 text) true
      watchFresh).map (fun out => out.2.map fun c => (c.status, c.evidence.get "confirmed")) =
        .ok [(.autoPublished, textDict [("R1", "Art. 9")])]) : ∃ db' c, Confirms text db' c := by
  obtain ⟨⟨db', changes⟩, hrun, hchanges⟩ := Except.map_eq_ok.mp h
  obtain ⟨c, _, rfl, hc, hrest⟩ := List.map_eq_cons_iff.mp hchanges
  obtain rfl := List.map_eq_nil_iff.mp hrest
  exact ⟨db', c, hrun, congrArg Prod.fst hc, congrArg Prod.snd hc⟩

/-- A page that has the citation in a script. -/
def scriptPage : String := "<script>Art. 9</script>"

theorem not_occurs_scriptPage : ¬ Occurs "Art. 9" (visibleText scriptPage) := by
  rw [← appearsVerbatim_iff]
  decide +kernel

/-- No occurrence in a longer citation is of the whole. -/
theorem not_occursWhole_longer : ¬ OccursWhole "Art. 9" (visibleText "Art. 99") := by
  have hneedle : (normalise "Art. 9").toList = "art. 9".toList := by decide
  have htext : (normalise (visibleText "Art. 99")).toList = "art. 99".toList := by decide
  rintro ⟨before, after, heq, -, hafter⟩
  rw [hneedle, htext] at heq
  have hlength := congrArg List.length heq
  simp only [List.length_append, show "art. 99".toList.length = 7 by decide,
    show "art. 9".toList.length = 6 by decide] at hlength
  match before, heq, hlength with
  | [], heq, _ =>
    obtain rfl : ['9'] = after :=
      (List.append_cancel_left (show "art. 9".toList ++ ['9'] = "art. 9".toList ++ after from heq))
    exact absurd (hafter '9' rfl) (by decide)
  | [c], heq, hlength =>
    obtain rfl : after = [] := List.length_eq_zero_iff.mp (by simpa using hlength)
    have htail : "art. 99".toList.tail = "art. 9".toList := congrArg List.tail heq
    exact absurd htail (by decide)
  | _ :: _ :: _, _, hlength =>
    simp only [List.length_cons] at hlength
    omega

end Sample

theorem confirmed_in_text_sample : ∃ db' c, Confirms "Art. 9" db' c ∧
    ∃ text base confirmed, (WatchCall.check (.answered 200 "Art. 9") true).text = some text ∧
      (watchDb "1").latestPack "p" = some base ∧ c.evidence.get "confirmed" = textDict confirmed ∧
      (db'.getSource "p" "u").bind RegulationSource.snapshot = some (snapshotOf text) ∧
      ∀ item ∈ confirmed,
        (∃ rules rule, iterRules base.doc = .ok rules ∧ .obj rule ∈ rules ∧
          PyText.str (Dict.get rule "id") = item.1 ∧
          PyText.str (Dict.get rule "provision_candidate") = item.2) ∧
        Occurs item.2 (snapshotOf text) ∧
          ('<' ∉ text.toList → Occurs item.2 (visibleText text)) := by
  obtain ⟨db', c, hconfirms⟩ : ∃ db' c, Confirms "Art. 9" db' c :=
    exists_confirms (by decide +kernel)
  exact ⟨db', c, hconfirms, confirmed_in_text
    (show (watchDb "1").getSource (RegulationSource.new "p" "u").packCode
      (RegulationSource.new "p" "u").url = some (RegulationSource.new "p" "u") by decide)
        hconfirms.1 (List.mem_singleton_self c) hconfirms.2.1⟩

/-- A citation is confirmed in a script, and at the head of a longer citation. -/
theorem not_confirmed_visible_sample :
    (∃ db' c, Confirms scriptPage db' c ∧ ¬ Occurs "Art. 9" (visibleText scriptPage)) ∧
      ∃ db' c, Confirms "Art. 99" db' c ∧ ¬ OccursWhole "Art. 9" (visibleText "Art. 99") := by
  obtain ⟨db₁, c₁, hscript⟩ : ∃ db' c, Confirms scriptPage db' c :=
    exists_confirms (by decide +kernel)
  obtain ⟨db₂, c₂, hlonger⟩ : ∃ db' c, Confirms "Art. 99" db' c :=
    exists_confirms (by decide +kernel)
  exact ⟨⟨db₁, c₁, hscript, not_occurs_scriptPage⟩, db₂, c₂, hlonger, not_occursWhole_longer⟩

end Samples

end Attest
