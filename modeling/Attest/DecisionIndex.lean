import Attest.Gate

/-!
# The decision index

A decision that was evaluated has a row in the index, which a gate call stamps with its
verdict and a later compliant output may close. `IndexOk` is what keeps the rows apart :
every row tells of an event of its trace, so a new decision is numbered past all of them.
Every call adds at most one row, and changes of the others no more than the link to the
decision that cured them (`IndexGrows`).
-/

namespace Attest

/-! ## Sequence numbers -/

/-- The next number of a trace is past every number in it. -/
theorem lt_nextSeq {db : Db} {orgId : String} {traceId : Uuid} {e : Event} (he : e ∈ db.events)
    (horg : e.orgId = orgId) (htrace : e.traceId = traceId) :
    e.seq < nextSeq (db.lastEventForTrace orgId traceId) := by
  have hrow : e ∈ db.traceRows orgId traceId := Db.mem_traceRows.mpr ⟨he, horg, htrace⟩
  cases hlast : db.lastEventForTrace orgId traceId with
  | none =>
    rw [latestBy_eq_none.mp hlast] at hrow
    cases hrow
  | some last =>
    have hle := le_of_latestBy hlast e hrow
    simp only [nextSeq]
    omega

/-! ## Rows -/

/-- The verdict stamped onto a row of the index. -/
def PolicyDecisionSummary.stamped (s : PolicyDecisionSummary) (status : Status) (event : EventOut) :
    PolicyDecisionSummary :=
  { s with status := some status.name, outputSeq := some event.seq, outputHash := some event.hash }

/-- A row of the index after a decision that was offered as the cure of another. -/
def PolicyDecisionSummary.closedBy (remediated : Option PolicyDecisionSummary) (d : DecisionOut)
    (s : PolicyDecisionSummary) : PolicyDecisionSummary :=
  match remediated with
  | some r => if d.status = .compliant ∧ s.id = r.id then { s with remediatedBySeq := some d.seq }
    else s
  | none => s

/-- What a row of the index is looked up by. -/
def PolicyDecisionSummary.key (s : PolicyDecisionSummary) : String × Uuid × Int :=
  (s.orgId, s.traceId, s.seq)

/-- Every row of the index tells of an event of its trace, and no two have one id or tell
of one event. -/
structure IndexOk (db : Db) : Prop where
  ids : (db.summaries.map PolicyDecisionSummary.id).Nodup
  keys : (db.summaries.map PolicyDecisionSummary.key).Nodup
  told : ∀ s ∈ db.summaries, ∃ e ∈ db.events, e.orgId = s.orgId ∧ e.traceId = s.traceId ∧
    e.seq = s.seq

/-- A row of the index is numbered before the next event of its trace. -/
theorem IndexOk.lt_next {db : Db} (h : IndexOk db) {s : PolicyDecisionSummary}
    (hs : s ∈ db.summaries) : s.seq < nextSeq (db.lastEventForTrace s.orgId s.traceId) := by
  obtain ⟨e, he, horg, htrace, hseq⟩ := h.told s hs
  rw [← hseq]
  exact lt_nextSeq he horg htrace

/-- No row tells of the next event of a trace. -/
theorem IndexOk.summariesOf_next {db : Db} (h : IndexOk db) (orgId : String) (traceId : Uuid) :
    db.summariesOf orgId traceId (nextSeq (db.lastEventForTrace orgId traceId)) = [] := by
  refine List.filter_eq_nil_iff.mpr fun s hs => ?_
  have hlt := h.lt_next hs
  simp only [decide_eq_true_eq]
  rintro ⟨horg, htrace, hseq⟩
  rw [horg, htrace, ← hseq] at hlt
  omega

/-! ## How the index grows -/

theorem nodup_of_length_le_one {α : Type} : ∀ {l : List α}, l.length ≤ 1 → l.Nodup
  | [], _ => List.nodup_nil
  | [a], _ => List.nodup_singleton a

/-- The row is as it was, but for the link to the decision that cured it. -/
def PolicyDecisionSummary.SameButLink (s s' : PolicyDecisionSummary) : Prop :=
  s' = { s with remediatedBySeq := s'.remediatedBySeq }

theorem closedBy_same (remediated : Option PolicyDecisionSummary) (d : DecisionOut)
    (s : PolicyDecisionSummary) : s.SameButLink (s.closedBy remediated d) := by
  unfold PolicyDecisionSummary.closedBy
  cases remediated with
  | none => rfl
  | some r =>
    by_cases hcured : d.status = .compliant ∧ s.id = r.id
    · simp only [if_pos hcured]
      rfl
    · simp only [if_neg hcured]
      rfl

/-- The events `es` and the rows `added` were added, and the rows there were kept but for
their links. A row that was added tells of the next event of its trace. -/
structure IndexGrows (db db' : Db) (relink : PolicyDecisionSummary → PolicyDecisionSummary)
    (added : List PolicyDecisionSummary) (es : List Event) : Prop where
  events_eq : db'.events = db.events ++ es
  summaries_eq : db'.summaries = db.summaries.map relink ++ added
  same : ∀ s : PolicyDecisionSummary, s.SameButLink (relink s)
  sole : added.length ≤ 1
  new : ∀ row ∈ added, (∀ s ∈ db.summaries, s.id ≠ row.id) ∧
    row.seq = nextSeq (db.lastEventForTrace row.orgId row.traceId) ∧
    ∃ e ∈ es, e.orgId = row.orgId ∧ e.traceId = row.traceId ∧ e.seq = row.seq

namespace IndexGrows

variable {db db' : Db} {relink : PolicyDecisionSummary → PolicyDecisionSummary}
  {added : List PolicyDecisionSummary} {es : List Event}

theorem id_eq (h : IndexGrows db db' relink added es) (s : PolicyDecisionSummary) :
    (relink s).id = s.id := by
  rw [h.same s]

theorem key_eq (h : IndexGrows db db' relink added es) (s : PolicyDecisionSummary) :
    (relink s).key = s.key := by
  rw [h.same s]
  rfl

/-- No row there was tells of the event of a new one. -/
theorem key_ne (h : IndexGrows db db' relink added es) (hok : IndexOk db)
    {row s : PolicyDecisionSummary} (hrow : row ∈ added) (hs : s ∈ db.summaries) :
    s.key ≠ row.key := by
  intro hkey
  have hkey' : s.orgId = row.orgId ∧ s.traceId = row.traceId ∧ s.seq = row.seq := by
    simpa [PolicyDecisionSummary.key] using hkey
  have hlt := hok.lt_next hs
  rw [hkey'.1, hkey'.2.1, ← (h.new row hrow).2.1, hkey'.2.2] at hlt
  omega

/-- The index stays in order. -/
theorem indexOk (h : IndexGrows db db' relink added es) (hok : IndexOk db) : IndexOk db' := by
  have hids : (db.summaries.map relink).map PolicyDecisionSummary.id =
      db.summaries.map PolicyDecisionSummary.id := by
    rw [List.map_map]
    exact List.map_congr_left fun s _ => h.id_eq s
  have hkeys : (db.summaries.map relink).map PolicyDecisionSummary.key =
      db.summaries.map PolicyDecisionSummary.key := by
    rw [List.map_map]
    exact List.map_congr_left fun s _ => h.key_eq s
  have hnodup {α : Type} (f : PolicyDecisionSummary → α) : (added.map f).Nodup :=
    nodup_of_length_le_one (by rw [List.length_map]; exact h.sole)
  refine ⟨?_, ?_, ?_⟩
  · rw [h.summaries_eq, List.map_append, hids]
    refine List.nodup_append.mpr ⟨hok.ids, hnodup _, ?_⟩
    intro i hi j hj
    obtain ⟨s, hs, rfl⟩ := List.mem_map.mp hi
    obtain ⟨row, hrow, rfl⟩ := List.mem_map.mp hj
    exact (h.new row hrow).1 s hs
  · rw [h.summaries_eq, List.map_append, hkeys]
    refine List.nodup_append.mpr ⟨hok.keys, hnodup _, ?_⟩
    intro i hi j hj
    obtain ⟨s, hs, rfl⟩ := List.mem_map.mp hi
    obtain ⟨row, hrow, rfl⟩ := List.mem_map.mp hj
    exact h.key_ne hok hrow hs
  · intro s hs
    rw [h.events_eq]
    rw [h.summaries_eq] at hs
    rcases List.mem_append.mp hs with hs | hs
    · obtain ⟨s, hmem, rfl⟩ := List.mem_map.mp hs
      obtain ⟨e, he, htold⟩ := hok.told s hmem
      refine ⟨e, List.mem_append_left _ he, ?_⟩
      rw [h.same s]
      exact htold
    · obtain ⟨e, he, htold⟩ := (h.new s hs).2.2
      exact ⟨e, List.mem_append_right _ he, htold⟩

/-- Looked up by its key, a row there was is found as it was, but for its link. -/
theorem summariesOf_eq (h : IndexGrows db db' relink added es) (hok : IndexOk db)
    {s : PolicyDecisionSummary} (hs : s ∈ db.summaries) :
    db'.summariesOf s.orgId s.traceId s.seq =
      (db.summariesOf s.orgId s.traceId s.seq).map relink := by
  have hadded : added.filter (fun x => x.orgId = s.orgId ∧ x.traceId = s.traceId ∧
      x.seq = s.seq) = [] := by
    refine List.filter_eq_nil_iff.mpr fun row hrow => ?_
    have hne := h.key_ne hok hrow hs
    simp only [decide_eq_true_eq]
    rintro ⟨horg, htrace, hseq⟩
    exact hne (by simp [PolicyDecisionSummary.key, horg, htrace, hseq])
  unfold Db.summariesOf
  rw [h.summaries_eq, List.filter_append, hadded, List.append_nil, List.filter_map]
  congr 1
  refine List.filter_congr fun x _ => ?_
  simp only [Function.comp_apply]
  rw [h.same x]

/-- A new row is the only one of its event. -/
theorem summariesOf_new (h : IndexGrows db db' relink added es) (hok : IndexOk db)
    {row : PolicyDecisionSummary} (hrow : added = [row]) :
    db'.summariesOf row.orgId row.traceId row.seq = [row] := by
  subst hrow
  have hold : (db.summaries.map relink).filter (fun x => x.orgId = row.orgId ∧
      x.traceId = row.traceId ∧ x.seq = row.seq) = [] := by
    refine List.filter_eq_nil_iff.mpr fun x hx => ?_
    obtain ⟨s, hs, rfl⟩ := List.mem_map.mp hx
    have hne := h.key_ne hok (List.mem_singleton_self row) hs
    rw [← h.key_eq s] at hne
    simp only [decide_eq_true_eq]
    rintro ⟨horg, htrace, hseq⟩
    exact hne (by simp [PolicyDecisionSummary.key, horg, htrace, hseq])
  unfold Db.summariesOf
  rw [h.summaries_eq, List.filter_append, hold]
  simp

end IndexGrows

theorem IndexGrows.of_summaries_eq {db db' : Db} {es : List Event}
    (hevents : db'.events = db.events ++ es)
    (hsame : db'.summaries = db.summaries) : IndexGrows db db' id [] es where
  events_eq := hevents
  summaries_eq := by rw [hsame, List.map_id, List.append_nil]
  same _ := rfl
  sole := Nat.zero_le 1
  new := List.forall_mem_nil _

end Attest
