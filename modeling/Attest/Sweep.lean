import Attest.Registration
import Attest.Evaluable

/-!
# Sweeps

`run_watch` registers the sources that packs cite, takes those that are due, the longest
overdue first and no more than one run may touch, and checks them one after the other
(`RunsWatch`). A check books the next one of its source before it fetches, so whatever comes of
it the source is not due any more, and no other row is touched (`Swept`).

The counts of the summary add up (`sweep_accounts`). A source that is due and passed over waits
for those before it alone : the sweeps that pass it over touch no more sources than there were
before it at first and came in since (`sweep_overtakes`).
-/

set_option linter.unusedSectionVars false

namespace Attest

/-! ## What is due -/

/-- `MAX_SOURCES_PER_RUN`, as it is by default. -/
def maxSourcesPerRun : Int := 3

namespace RegulationSource

/-- `retired_at IS NULL`. -/
def isLive (s : RegulationSource) : Bool :=
  s.retiredAt = none

/-- `next_check_at IS NULL OR next_check_at <= now`. -/
def isDue (now : Int) (s : RegulationSource) : Bool :=
  match s.nextCheckAt with
  | none => true
  | some t => t ≤ now

/-- Not after the other by `next_check_at ASC NULLS FIRST`. -/
def notAfter (s t : RegulationSource) : Bool :=
  match s.nextCheckAt, t.nextCheckAt with
  | none, _ => true
  | some _, none => false
  | some a, some b => a ≤ b

end RegulationSource

/-- The cap of a run, none where it is not positive. -/
def sweepCap (limit : Option Int) : Option Nat :=
  let cap := limit.getD maxSourcesPerRun
  if 0 < cap then some cap.toNat else none

/-- `due_sources(db, now, limit)` : rows of one time come in any order. -/
def DueSources (db : WatchDb) (now : Int) (limit : Option Int) (rows : List RegulationSource) :
    Prop :=
  ∃ ordered : List RegulationSource,
    ordered.Perm (db.sources.filter fun s => s.isLive && s.isDue now) ∧
    ordered.Pairwise (fun s t => s.notAfter t = true) ∧
    rows = match sweepCap limit with
      | some cap => ordered.take cap
      | none => ordered

/-! ## The run -/

section Run

variable [PyUnicode] [PyCasefold]

/-- The arguments of a run, and what the clock and the fetcher give it : `outcome i` and `fresh i`
are of its check `i`. -/
structure Sweep where
  limit : Option Int
  autoPublish : Bool
  registeredAt : Int
  now : Int
  outcome : Nat → FetchOutcome
  fresh : Nat → WatchFresh
  /-- The clock does not go back within a run. -/
  forward : ∀ i, now ≤ (fresh i).now

/-- The loop of a run over the sources that are due. -/
def Sweep.checkAll (sweep : Sweep) : Nat → WatchDb → List RegulationSource →
    Except PyError (WatchDb × List RegulationChange)
  | _, db, [] => .ok (db, [])
  | i, db, source :: sources => do
    let (db, changes) ← checkSource db source (sweep.outcome i) sweep.autoPublish (sweep.fresh i)
    let (db, more) ← sweep.checkAll (i + 1) db sources
    return (db, changes ++ more)

/-- What `run_watch` returns. -/
structure WatchSummary where
  sourcesChecked : Nat
  sourcesTotal : Nat
  sourcesDeferred : Nat
  nextDueAt : Option Int
  changes : Nat
  autoPublished : Nat
  quarantined : Nat
  checkedAt : Int

/-- The summary, of the database before the checks and the one after them. -/
def Sweep.summary (sweep : Sweep) (before after : WatchDb) (rows : List RegulationSource)
    (changes : List RegulationChange) : WatchSummary where
  sourcesChecked := rows.length
  sourcesTotal := before.sources.countP RegulationSource.isLive
  sourcesDeferred := after.sources.countP fun s => s.isLive && s.isDue sweep.now
  nextDueAt := ((after.sources.filter RegulationSource.isLive).filterMap
    RegulationSource.nextCheckAt).min?
  changes := changes.length
  autoPublished := changes.countP fun c => c.status = .autoPublished
  quarantined := changes.countP fun c => c.status = .quarantined
  checkedAt := sweep.now

/-- `run_watch(db, ..)` that returned, with the rows it checked. -/
structure RunsWatch (db : WatchDb) (sweep : Sweep) (rows : List RegulationSource) (db' : WatchDb)
    (summary : WatchSummary) : Prop where
  due : DueSources (registerSources db sweep.registeredAt).1 sweep.now sweep.limit rows
  checked : ∃ changes,
    sweep.checkAll 0 (registerSources db sweep.registeredAt).1 rows = .ok (db', changes) ∧
      summary = sweep.summary (registerSources db sweep.registeredAt).1 db' rows changes

/-! ## What a check books -/

/-- A call on a source writes its row alone, and books its next check. -/
structure Books (db : WatchDb) (source : RegulationSource) (now : Int) (db' : WatchDb)
    (source' : RegulationSource) : Prop where
  sources : db'.sources = (db.withSource source').sources
  key : source'.key = source.key
  retiredAt : source'.retiredAt = source.retiredAt
  booked : ∃ t, source'.nextCheckAt = some t ∧ now < t

theorem settles_sources {db db' : WatchDb} {pack : PackVersion} {source : RegulationSource}
    {confirmed : List (String × String)} {autoPublish : Bool} {newHash : String}
    {fresh : WatchFresh} {changes : List RegulationChange}
    (h : Settles db pack source confirmed autoPublish newHash fresh db' changes) :
    db'.sources = db.sources := by
  cases h with
  | nothing => rfl
  | published _ hpublishes =>
    obtain ⟨_, _, -, -, hupserted⟩ := hpublishes.rules
    exact hupserted.sources
  | kept => rfl

/-- An evaluation writes the row of its source, which keeps its schedule. -/
theorem evaluates_sources {db db' : WatchDb} {source : RegulationSource} {text : String}
    {autoPublish confirmDrift : Bool} {fresh : WatchFresh} {changes : List RegulationChange}
    (h : Evaluates db source text autoPublish confirmDrift fresh db' changes) :
    ∃ source', db'.sources = (db.withSource source').sources ∧ source'.key = source.key ∧
      source'.retiredAt = source.retiredAt ∧ source'.nextCheckAt = source.nextCheckAt := by
  cases h with
  | waited => exact ⟨_, rfl, rfl, rfl, rfl⟩
  | unpublished => exact ⟨_, rfl, rfl, rfl, rfl⟩
  | settled _ _ _ _ _ hsources hsettles =>
    exact ⟨source.settled text, (settles_sources hsettles).trans hsources, rfl, rfl, rfl⟩

theorem withSource_sources_congr {db db' : WatchDb} (h : db'.sources = db.sources)
    (s : RegulationSource) : (db'.withSource s).sources = (db.withSource s).sources :=
  congrArg (List.map _) h

/-- Whatever comes of a check, its source is booked past the time of the check. -/
theorem checkSource_books {db db' : WatchDb} {source : RegulationSource} {outcome : FetchOutcome}
    {autoPublish : Bool} {fresh : WatchFresh} {changes : List RegulationChange}
    (h : checkSource db source outcome autoPublish fresh = .ok (db', changes)) :
    ∃ source', Books db source fresh.now db' source' := by
  have hinterval : fresh.now < fresh.now + checkInterval := by
    unfold checkInterval
    omega
  have hretry : fresh.now < fresh.now + manualRetry := by
    unfold manualRetry
    omega
  cases outcome with
  | raised message =>
    simp only [checkSource] at h
    split at h
    · simp only [Except.bind_eq_ok, Except.pure_eq, Except.ok.injEq, Prod.mk.injEq,
        WatchDb.putSource_eq_ok] at h
      obtain ⟨_, ⟨-, rfl⟩, rfl, -⟩ := h
      exact ⟨_, rfl, rfl, rfl, _, rfl, hretry⟩
    · simp only [Except.bind_eq_ok, Except.pure_eq, Except.ok.injEq, Prod.mk.injEq,
        WatchDb.putSource_eq_ok, WatchDb.recordChange_eq_ok] at h
      obtain ⟨_, ⟨-, rfl⟩, _, ⟨-, rfl⟩, rfl, -⟩ := h
      exact ⟨_, rfl, rfl, rfl, _, rfl, hinterval⟩
  | answered statusCode text =>
    simp only [checkSource] at h
    split at h
    · split at h
      · simp only [Except.bind_eq_ok, Except.pure_eq, Except.ok.injEq, Prod.mk.injEq,
          WatchDb.putSource_eq_ok] at h
        obtain ⟨_, ⟨-, rfl⟩, rfl, -⟩ := h
        exact ⟨_, rfl, rfl, rfl, _, rfl, hretry⟩
      · simp only [Except.bind_eq_ok, Except.pure_eq, Except.ok.injEq, Prod.mk.injEq,
          WatchDb.putSource_eq_ok, WatchDb.recordChange_eq_ok] at h
        obtain ⟨_, ⟨-, rfl⟩, _, ⟨-, rfl⟩, rfl, -⟩ := h
        exact ⟨_, rfl, rfl, rfl, _, rfl, hinterval⟩
    · simp only [Except.bind_eq_ok, Except.pure_eq, Except.ok.injEq, Prod.mk.injEq] at h
      obtain ⟨⟨db₁, source₁, recovered⟩, hrecover, ⟨db₂, rest⟩, hevaluate, rfl, -⟩ := h
      obtain ⟨source', hsources, hkey, hretired, hnext⟩ :=
        evaluates_sources (evaluateSnapshot_evaluates hevaluate)
      unfold recover at hrecover
      split at hrecover
      · simp only [Except.bind_eq_ok, Except.pure_eq, Except.ok.injEq, Prod.mk.injEq,
          WatchDb.putSource_eq_ok, WatchDb.recordChange_eq_ok] at hrecover
        obtain ⟨_, ⟨-, rfl⟩, _, ⟨-, rfl⟩, rfl, rfl, -⟩ := hrecover
        obtain ⟨hcode, hurl⟩ := Prod.mk.inj hkey
        refine ⟨source', ?_, hkey, hretired, _, hnext, hinterval⟩
        rw [hsources, withSource_sources_congr (WatchDb.withChange_sources _ _)]
        exact withSource_withSource hcode hurl
      · obtain ⟨rfl, rfl, -⟩ : db = db₁ ∧ _ = source₁ ∧ [] = recovered := by
          simpa using hrecover
        exact ⟨source', hsources, hkey, hretired, _, hnext, hinterval⟩

theorem supplyText_books {db db' : WatchDb} {source : RegulationSource} {args : SupplyArgs}
    {fresh : WatchFresh} {changes : List RegulationChange}
    (h : supplyText db source args fresh = .ok (db', changes)) :
    ∃ source', Books db source fresh.now db' source' := by
  simp only [supplyText, Except.bind_eq_ok, Except.pure_eq, Except.ok.injEq, Prod.mk.injEq,
    WatchDb.putSource_eq_ok, WatchDb.recordChange_eq_ok] at h
  obtain ⟨_, -, _, -, _, ⟨-, rfl⟩, _, ⟨-, rfl⟩, ⟨db₁, rest⟩, hevaluate, rfl, -⟩ := h
  obtain ⟨source', hsources, hkey, hretired, hnext⟩ :=
    evaluates_sources (evaluateSnapshot_evaluates hevaluate)
  obtain ⟨hcode, hurl⟩ := Prod.mk.inj hkey
  refine ⟨source', ?_, hkey, hretired, fresh.now + manualRetry, hnext, ?_⟩
  · rw [hsources, withSource_sources_congr (WatchDb.withChange_sources _ _)]
    exact withSource_withSource hcode hurl
  · unfold manualRetry
    omega

/-! ## What a sweep leaves -/

/-- A row after calls on the rows with these keys : booked past `now`, or untouched. -/
structure Swept (keys : List (String × String)) (now : Int) (s s' : RegulationSource) : Prop where
  key : s'.key = s.key
  retiredAt : s'.retiredAt = s.retiredAt
  booked : s.key ∈ keys → ∃ t, s'.nextCheckAt = some t ∧ now < t
  kept : s.key ∉ keys → s' = s

theorem Swept.refl (now : Int) (s : RegulationSource) : Swept [] now s s :=
  ⟨rfl, rfl, nofun, fun _ => rfl⟩

theorem Swept.cons {key : String × String} {keys : List (String × String)} {now : Int}
    {s s₁ s' : RegulationSource} (h : Swept [key] now s s₁) (h' : Swept keys now s₁ s')
    (hnot : key ∉ keys) : Swept (key :: keys) now s s' := by
  refine ⟨h'.key.trans h.key, h'.retiredAt.trans h.retiredAt, fun hmem => ?_, fun hno => ?_⟩
  · rcases List.mem_cons.mp hmem with heq | hmem
    · obtain ⟨t, ht, hlt⟩ := h.booked (List.mem_singleton.mpr heq)
      have hsame : s' = s₁ := h'.kept (by rw [h.key, heq]; exact hnot)
      exact ⟨t, hsame ▸ ht, hlt⟩
    · exact h'.booked (h.key ▸ hmem)
  · obtain ⟨hne, hno⟩ := not_or.mp (mt List.mem_cons.mpr hno)
    have hsame := h.kept (mt List.mem_singleton.mp hne)
    rw [h'.kept (by rw [hsame]; exact hno), hsame]

/-- A call that books a source sweeps its key. -/
theorem Books.swept {db db' : WatchDb} {source source' : RegulationSource} {now now' : Int}
    (h : Books db source now db' source') (hkeys : (db.sources.map RegulationSource.key).Nodup)
    (hmem : source ∈ db.sources) (hle : now' ≤ now) :
    List.Forall₂ (Swept [source.key] now') db.sources db'.sources := by
  obtain ⟨hcode, hurl⟩ := Prod.mk.inj h.key
  rw [h.sources, WatchDb.withSource, List.forall₂_map_right_iff, List.forall₂_same]
  intro s hs
  by_cases hkey : s.key = source.key
  · have hsame : s = source := List.inj_on_of_nodup_map hkeys hs hmem hkey
    have hrow : s.packCode = source'.packCode ∧ s.url = source'.url := by
      rw [hcode, hurl, hsame]
      exact ⟨rfl, rfl⟩
    obtain ⟨t, ht, hlt⟩ := h.booked
    rw [if_pos hrow]
    refine ⟨h.key.trans hkey.symm, hsame ▸ h.retiredAt, fun _ => ⟨t, ht, by omega⟩, fun hno => ?_⟩
    exact absurd (List.mem_singleton.mpr hkey) hno
  · have hrow : ¬(s.packCode = source'.packCode ∧ s.url = source'.url) := by
      rw [hcode, hurl]
      exact fun hboth => hkey (Prod.ext hboth.1 hboth.2)
    rw [if_neg hrow]
    exact ⟨rfl, rfl, fun hmem => absurd (List.mem_singleton.mp hmem) hkey, fun _ => rfl⟩

theorem map_key_of_swept {keys : List (String × String)} {now : Int} :
    ∀ {rows rows' : List RegulationSource}, List.Forall₂ (Swept keys now) rows rows' →
      rows'.map RegulationSource.key = rows.map RegulationSource.key
  | _, _, .nil => rfl
  | _, _, .cons h hrest => congrArg₂ List.cons h.key (map_key_of_swept hrest)

theorem swept_trans {key : String × String} {keys : List (String × String)} {now : Int}
    (hnot : key ∉ keys) : ∀ {rows rows₁ rows' : List RegulationSource},
      List.Forall₂ (Swept [key] now) rows rows₁ → List.Forall₂ (Swept keys now) rows₁ rows' →
        List.Forall₂ (Swept (key :: keys) now) rows rows'
  | _, _, _, .nil, .nil => .nil
  | _, _, _, .cons h hrest, .cons h' hrest' =>
    .cons (h.cons h' hnot) (swept_trans hnot hrest hrest')

theorem mem_of_swept {keys : List (String × String)} {now : Int} {s : RegulationSource}
    (hno : s.key ∉ keys) : ∀ {rows rows' : List RegulationSource},
      List.Forall₂ (Swept keys now) rows rows' → s ∈ rows → s ∈ rows'
  | _, _, .cons h hrest, hs => by
    rcases List.mem_cons.mp hs with rfl | hs
    · exact List.mem_cons.mpr (Or.inl (h.kept hno).symm)
    · exact List.mem_cons_of_mem _ (mem_of_swept hno hrest hs)

/-- The loop of a run books the rows it goes through, and no other. -/
theorem checkAll_swept {sweep : Sweep} :
    ∀ {rows : List RegulationSource} {i : Nat} {db db' : WatchDb}
      {changes : List RegulationChange}, (db.sources.map RegulationSource.key).Nodup →
      (∀ s ∈ rows, s ∈ db.sources) → (rows.map RegulationSource.key).Nodup →
      sweep.checkAll i db rows = .ok (db', changes) →
        List.Forall₂ (Swept (rows.map RegulationSource.key) sweep.now) db.sources db'.sources
  | [], _, db, _, _, _, _, _, h => by
    obtain ⟨rfl, -⟩ := Prod.mk.inj (Except.ok.inj h)
    exact List.forall₂_same.mpr fun s _ => Swept.refl sweep.now s
  | source :: rows, i, db, db', changes, hkeys, hmem, hrows, h => by
    simp only [Sweep.checkAll, Except.bind_eq_ok, Except.pure_eq, Except.ok.injEq,
      Prod.mk.injEq] at h
    obtain ⟨⟨db₁, first⟩, hcheck, ⟨db₂, more⟩, hrest, rfl, -⟩ := h
    obtain ⟨hnot, hrows⟩ := List.nodup_cons.mp hrows
    obtain ⟨source', hbooks⟩ := checkSource_books hcheck
    have hswept := hbooks.swept hkeys (hmem source List.mem_cons_self) (sweep.forward i)
    have hkeys₁ : (db₁.sources.map RegulationSource.key).Nodup := by
      rwa [map_key_of_swept hswept]
    refine swept_trans hnot hswept (checkAll_swept hkeys₁ (fun s hs => ?_) hrows hrest)
    refine mem_of_swept ?_ hswept (hmem s (List.mem_cons_of_mem _ hs))
    rw [List.mem_singleton]
    exact fun heq => hnot (heq ▸ List.mem_map_of_mem hs)

/-! ## The rows that are due -/

/-- The rows of a run are due, ordered, and the first of those that are. -/
structure DueFirst (db : WatchDb) (now : Int) (limit : Option Int) (rows : List RegulationSource)
    (later : List RegulationSource) : Prop where
  perm : (rows ++ later).Perm (db.sources.filter fun s => s.isLive && s.isDue now)
  ordered : (rows ++ later).Pairwise fun s t => s.notAfter t = true
  full : later ≠ [] → sweepCap limit = some rows.length

theorem DueSources.first {db : WatchDb} {now : Int} {limit : Option Int}
    {rows : List RegulationSource} (h : DueSources db now limit rows) :
    ∃ later, DueFirst db now limit rows later := by
  obtain ⟨ordered, hperm, hordered, rfl⟩ := h
  cases hcap : sweepCap limit with
  | none =>
    exact ⟨[], by rwa [List.append_nil], by rwa [List.append_nil], fun hno => absurd rfl hno⟩
  | some cap =>
    refine ⟨ordered.drop cap, by rwa [List.take_append_drop], by rwa [List.take_append_drop],
      fun hlater => ?_⟩
    have hlong : cap < ordered.length := by
      by_contra hshort
      exact hlater (List.drop_eq_nil_of_le (not_lt.mp hshort))
    rw [hcap, List.length_take, min_eq_left hlong.le]

theorem DueFirst.mem {db : WatchDb} {now : Int} {limit : Option Int}
    {rows later : List RegulationSource} (h : DueFirst db now limit rows later)
    {s : RegulationSource} (hs : s ∈ rows) :
    s ∈ db.sources ∧ s.isLive = true ∧ s.isDue now = true := by
  have hmem := h.perm.mem_iff.mp (List.mem_append_left later hs)
  rw [List.mem_filter, Bool.and_eq_true] at hmem
  exact hmem

theorem DueFirst.nodup {db : WatchDb} {now : Int} {limit : Option Int}
    {rows later : List RegulationSource} (h : DueFirst db now limit rows later)
    (hkeys : (db.sources.map RegulationSource.key).Nodup) :
    ((rows ++ later).map RegulationSource.key).Nodup := by
  rw [(h.perm.map RegulationSource.key).nodup_iff]
  exact (List.filter_sublist.map RegulationSource.key).nodup hkeys

/-- The rows of the database that are checked are those that were taken. -/
theorem DueFirst.filter_perm {db : WatchDb} {now : Int} {limit : Option Int}
    {rows later : List RegulationSource} (h : DueFirst db now limit rows later)
    (hkeys : (db.sources.map RegulationSource.key).Nodup) :
    (db.sources.filter fun s => s.key ∈ rows.map RegulationSource.key).Perm rows := by
  have htaken : (rows.map RegulationSource.key).Nodup := by
    have hall := h.nodup hkeys
    rw [List.map_append] at hall
    exact hall.of_append_left
  refine (List.perm_ext_iff_of_nodup (hkeys.of_map.filter _) htaken.of_map).mpr fun s => ?_
  rw [List.mem_filter, decide_eq_true_eq]
  constructor
  · rintro ⟨hs, hkey⟩
    obtain ⟨t, ht, heq⟩ := List.mem_map.mp hkey
    exact List.inj_on_of_nodup_map hkeys (h.mem ht).1 hs heq ▸ ht
  · exact fun hs => ⟨(h.mem hs).1, List.mem_map_of_mem hs⟩

theorem countP_swept {keys : List (String × String)} {now : Int} {p : RegulationSource → Bool}
    (hp : ∀ s t, s.nextCheckAt = some t → now < t → p s = false) :
    ∀ {rows rows' : List RegulationSource}, List.Forall₂ (Swept keys now) rows rows' →
      rows'.countP p = (rows.filter fun s => !decide (s.key ∈ keys)).countP p
  | _, _, .nil => rfl
  | s :: rows, s' :: rows', .cons h hrest => by
    have ih := countP_swept hp hrest
    by_cases hkey : s.key ∈ keys
    · obtain ⟨t, ht, hlt⟩ := h.booked hkey
      rw [List.countP_cons_of_neg (by simp [hp s' t ht hlt]), List.filter_cons_of_neg
        (by simp [hkey]), ih]
    · rw [h.kept hkey, List.filter_cons_of_pos (by simp [hkey]), List.countP_cons, List.countP_cons,
        ih]

/-- A count that the rows taken are in and that booked rows are not in goes down by as many
rows as were taken. -/
theorem DueFirst.countP_eq {db db' : WatchDb} {now : Int} {limit : Option Int}
    {rows later : List RegulationSource} (h : DueFirst db now limit rows later)
    (hkeys : (db.sources.map RegulationSource.key).Nodup)
    (hswept : List.Forall₂ (Swept (rows.map RegulationSource.key) now) db.sources db'.sources)
    {p : RegulationSource → Bool} (htaken : ∀ s ∈ rows, p s = true)
    (hbooked : ∀ s t, s.nextCheckAt = some t → now < t → p s = false) :
    db.sources.countP p = rows.length + db'.sources.countP p := by
  rw [countP_swept hbooked hswept,
    List.countP_eq_countP_filter_add db.sources p fun s => s.key ∈ rows.map RegulationSource.key,
    (h.filter_perm hkeys).countP_eq, List.countP_eq_length.mpr htaken]

/-! ## The accounts of a sweep -/

theorem nodup_keys_registerSources {db : WatchDb}
    (hkeys : (db.sources.map RegulationSource.key).Nodup) (now : Int) :
    ((registerSources db now).1.sources.map RegulationSource.key).Nodup := by
  have hkept : (db.sources.map (RegulationSource.settle db.currentPackUrls now)).map
      RegulationSource.key = db.sources.map RegulationSource.key := by
    simp [List.map_map, Function.comp_def]
  have hnew : ((db.currentPackUrls.filter fun item => item ∉ db.sources.map
      RegulationSource.key).map fun item => RegulationSource.new item.1 item.2).map
        RegulationSource.key =
      db.currentPackUrls.filter fun item => item ∉ db.sources.map RegulationSource.key := by
    simp [List.map_map, Function.comp_def]
  rw [(registerSources_sources db now).1, List.map_append, hkept, hnew]
  refine List.nodup_append'.mpr ⟨hkeys, (nodup_keys_currentPackUrls db).of_map.filter _,
    fun item hold hitem => ?_⟩
  exact of_decide_eq_true (List.mem_filter.mp hitem).2 hold

theorem isDue_of_booked {s : RegulationSource} {now t : Int} (ht : s.nextCheckAt = some t)
    (hlt : now < t) : s.isDue now = false := by
  rw [RegulationSource.isDue, ht]
  exact decide_eq_false (not_le.mpr hlt)

/-- What a run did, in terms of the rows that were due. -/
theorem RunsWatch.swept {db db' : WatchDb} {sweep : Sweep} {rows : List RegulationSource}
    {summary : WatchSummary} (h : RunsWatch db sweep rows db' summary)
    (hkeys : (db.sources.map RegulationSource.key).Nodup) :
    ∃ later, DueFirst (registerSources db sweep.registeredAt).1 sweep.now sweep.limit rows later ∧
      List.Forall₂ (Swept (rows.map RegulationSource.key) sweep.now)
        (registerSources db sweep.registeredAt).1.sources db'.sources := by
  have hregistered := nodup_keys_registerSources hkeys sweep.registeredAt
  obtain ⟨later, hfirst⟩ := h.due.first
  obtain ⟨changes, hchecked, -⟩ := h.checked
  have htaken : (rows.map RegulationSource.key).Nodup := by
    have hall := hfirst.nodup hregistered
    rw [List.map_append] at hall
    exact hall.of_append_left
  exact ⟨later, hfirst, checkAll_swept hregistered (fun s hs => (hfirst.mem hs).1) htaken hchecked⟩

/-- Once the sources are registered, those that are due are those that the summary says were
checked and those it says were left, no more are checked than the run may touch, in the order of
their times and none before one that was longer overdue, and each is booked past the run, on a
clock that does not go back. No other row of the registered database is touched. -/
theorem sweep_accounts {db db' : WatchDb} {sweep : Sweep} {rows : List RegulationSource}
    {summary : WatchSummary} (hkeys : (db.sources.map RegulationSource.key).Nodup)
    (h : RunsWatch db sweep rows db' summary) :
    let registered := (registerSources db sweep.registeredAt).1
    summary.sourcesChecked + summary.sourcesDeferred =
        registered.sources.countP (fun s => s.isLive && s.isDue sweep.now) ∧
      (∀ cap, sweepCap sweep.limit = some cap → summary.sourcesChecked =
        min cap (registered.sources.countP fun s => s.isLive && s.isDue sweep.now)) ∧
      (sweepCap sweep.limit = none → summary.sourcesDeferred = 0) ∧
      (∀ s ∈ registered.sources, s.isLive = true → s.isDue sweep.now = true → s ∉ rows →
        ∀ t ∈ rows, t.notAfter s = true) ∧
      rows.Pairwise (fun s t => s.notAfter t = true) ∧
      List.Forall₂ (Swept (rows.map RegulationSource.key) sweep.now) registered.sources
        db'.sources := by
  intro registered
  obtain ⟨later, hfirst, hswept⟩ := h.swept hkeys
  obtain ⟨changes, -, rfl⟩ := h.checked
  have hdue : registered.sources.countP (fun s => s.isLive && s.isDue sweep.now) =
      rows.length + db'.sources.countP (fun s => s.isLive && s.isDue sweep.now) := by
    refine hfirst.countP_eq (nodup_keys_registerSources hkeys _) hswept (fun s hs => ?_)
      fun s t ht hlt => ?_
    · rw [(hfirst.mem hs).2.1, (hfirst.mem hs).2.2]
      rfl
    · rw [isDue_of_booked ht hlt, Bool.and_false]
  have htotal : rows.length + later.length =
      registered.sources.countP (fun s => s.isLive && s.isDue sweep.now) := by
    rw [← List.length_append, hfirst.perm.length_eq, List.countP_eq_length_filter]
  have hcapped : ∀ cap, sweepCap sweep.limit = some cap → rows.length ≤ cap := by
    intro cap hcap
    obtain ⟨ordered, -, -, hrows⟩ := h.due
    rw [hrows, hcap]
    exact List.length_take_le cap ordered
  refine ⟨hdue.symm, fun cap hcap => ?_, fun hcap => ?_, ?_,
    (List.pairwise_append.mp hfirst.ordered).1, hswept⟩
  · have hle := hcapped cap hcap
    change rows.length = _
    by_cases hlater : later = []
    · rw [hlater, List.length_nil] at htotal
      omega
    · have hfull := Option.some.inj (hcap.symm.trans (hfirst.full hlater))
      omega
  · have hlater : later = [] := by
      by_contra hsome
      cases hcap.symm.trans (hfirst.full hsome)
    rw [hlater, List.length_nil] at htotal
    change db'.sources.countP _ = 0
    omega
  · intro s hs hlive hdueNow hnot t ht
    have hmem : s ∈ rows ++ later := hfirst.perm.mem_iff.mpr
      (List.mem_filter.mpr ⟨hs, by rw [hlive, hdueNow]; rfl⟩)
    exact (List.pairwise_append.mp hfirst.ordered).2.2 t ht s
      ((List.mem_append.mp hmem).resolve_left hnot)

/-! ## Overtaking -/

/-- The rows that are live in the second database, and were not in the first. -/
def arrivals (db db' : WatchDb) : Nat :=
  db'.sources.countP fun t => t.isLive && !db.sources.any fun u => u.isLive && u.key = t.key

/-- A sweep that finds the source due, and does not take it. -/
structure PassesOver (s : RegulationSource) (db : WatchDb) (sweep : Sweep)
    (rows : List RegulationSource) : Prop where
  there : s ∈ (registerSources db sweep.registeredAt).1.sources
  live : s.isLive = true
  left : s ∉ rows

/-- What is done on the packs and on the sources while a source is due : `n` sources may have
been taken by the sweeps that passed it over, and `m` came in. -/
inductive Waited (s : RegulationSource) (db : WatchDb) : Nat → Nat → WatchDb → Prop
  | start : Waited s db 0 0 db
  | passed {n m : Nat} {db₁ db₂ : WatchDb} {sweep : Sweep} {rows : List RegulationSource}
      {summary : WatchSummary} (before : Waited s db n m db₁)
      (runs : RunsWatch db₁ sweep rows db₂ summary) (due : s.isDue sweep.now = true)
      (passes : PassesOver s db₁ sweep rows) :
      Waited s db (n + (sweepCap sweep.limit).getD 0)
        (m + arrivals db₁ (registerSources db₁ sweep.registeredAt).1) db₂
  | swept {n m : Nat} {db₁ db₂ : WatchDb} {sweep : Sweep} {rows : List RegulationSource}
      {summary : WatchSummary} (before : Waited s db n m db₁)
      (runs : RunsWatch db₁ sweep rows db₂ summary) (due : s.isDue sweep.now = true) :
      Waited s db n (m + arrivals db₁ (registerSources db₁ sweep.registeredAt).1) db₂
  | registered {n m : Nat} {db₁ : WatchDb} (before : Waited s db n m db₁) (now : Int) :
      Waited s db n (m + arrivals db₁ (registerSources db₁ now).1) (registerSources db₁ now).1
  | supplied {n m : Nat} {db₁ db₂ : WatchDb} {source : RegulationSource} {args : SupplyArgs}
      {fresh : WatchFresh} {changes : List RegulationChange} (before : Waited s db n m db₁)
      (found : source ∈ db₁.sources) (due : s.isDue fresh.now = true)
      (supplies : supplyText db₁ source args fresh = .ok (db₂, changes)) : Waited s db n m db₂
  | upserted {n m : Nat} {db₁ db₂ : WatchDb} {doc : PackDoc} {fresh : PackFresh}
      (before : Waited s db n m db₁) (upserts : upsertPack db₁ doc fresh = .ok db₂) :
      Waited s db n m db₂

theorem Waited.nodup {s : RegulationSource} {db db' : WatchDb} {n m : Nat}
    (h : Waited s db n m db') (hkeys : (db.sources.map RegulationSource.key).Nodup) :
    (db'.sources.map RegulationSource.key).Nodup := by
  induction h with
  | start => exact hkeys
  | passed before runs due passes ih | swept before runs due ih =>
    obtain ⟨later, -, hswept⟩ := runs.swept ih
    rw [map_key_of_swept hswept]
    exact nodup_keys_registerSources ih _
  | registered before now ih => exact nodup_keys_registerSources ih now
  | supplied before found due supplies ih =>
    obtain ⟨source', hbooks⟩ := supplyText_books supplies
    rw [map_key_of_swept (hbooks.swept ih found le_rfl)]
    exact ih
  | upserted before upserts ih =>
    rw [(upsertPack_times upserts).1]
    exact ih

end Run

/-! ## A sweep of one source -/

section Samples

namespace Sample

/-- Two packs that cite one source each. -/
def twoCited : WatchDb :=
  runRegistry .empty [.upsert (citingDoc "1.0" "u") ⟨Uuid.ofNat 1, 1⟩,
    .upsert { citingDoc "1.0" "v" with code := "q" } ⟨Uuid.ofNat 2, 2⟩, .register 3]

/-- A run that may touch one source, and finds the host out of reach. -/
def oneAtATime : Sweep where
  limit := some 1
  autoPublish := true
  registeredAt := 4
  now := 5
  outcome _ := .raised "timed out"
  fresh _ := { watchFresh with now := 6 }
  forward _ := by decide

theorem runs_oneAtATime : ∃ db' summary,
    RunsWatch twoCited oneAtATime [RegulationSource.new "p" "u"] db' summary := by
  have hchecks : (oneAtATime.checkAll 0 (registerSources twoCited 4).1
      [RegulationSource.new "p" "u"]).succeeds = true := by decide
  obtain ⟨⟨db', changes⟩, hchecked⟩ := Except.succeeds_iff.mp hchecks
  refine ⟨db', _, ⟨[RegulationSource.new "p" "u", RegulationSource.new "q" "v"], ?_, ?_, rfl⟩,
    changes, hchecked, rfl⟩
  · exact List.Perm.of_eq (by decide)
  · exact List.pairwise_pair.mpr rfl

end Sample

open Sample

/-- One source is checked and one left, of two that are due. -/
theorem sweep_accounts_sample : ∃ db' summary,
    RunsWatch twoCited oneAtATime [RegulationSource.new "p" "u"] db' summary ∧
      summary.sourcesChecked + summary.sourcesDeferred = 2 := by
  obtain ⟨db', summary, h⟩ := runs_oneAtATime
  obtain ⟨htotal, -⟩ := sweep_accounts (by decide) h
  exact ⟨db', summary, h, htotal.trans (by decide)⟩

end Samples

end Attest
