import Attest.Watching

/-!
# Registering the sources that packs cite

`registerSources` takes the address that the latest version of each pack cites
(`currentPackUrls`), adds a row for every one that has none, brings back those that were
retired, and retires the rows that no pack cites any more. In the end each row that was
there is settled in place, and what was missing follows (`registerSources_sources`).

So after a call the sources that are not retired are those the packs cite now, whatever was
published before, no row loses more than its retirement, and a second call changes nothing
(`registration_mirrors_packs`).
-/

namespace Attest

/-! ## The call -/

/-- The key of a row : `UNIQUE(pack_code, url)`. -/
def RegulationSource.key (s : RegulationSource) : String × String :=
  (s.packCode, s.url)

namespace WatchDb

/-- `order_by(RegulationPack.created_at.asc())`. -/
def packsByAge (db : WatchDb) : List PackVersion :=
  db.packs.insertionSort fun p q => p.createdAt ≤ q.createdAt

/-- `latest` : the last version of each code that was written. -/
def latestPacks (db : WatchDb) : List (String × PackVersion) :=
  dictOf (db.packsByAge.map fun p => (p.code, p))

/-- `current_pack_urls(db)`. -/
def currentPackUrls (db : WatchDb) : List (String × String) :=
  db.latestPacks.filterMap fun item =>
    match item.2.sourceUrl with
    | some url => if url = "" then none else some (item.1, url)
    | none => none

end WatchDb

/-- `if source.retired_at is not None: source.retired_at = None`. -/
def RegulationSource.revive (s : RegulationSource) : RegulationSource :=
  if s.retiredAt.isSome then { s with retiredAt := none } else s

/-- `if wanted.get(code) != url and source.retired_at is None: source.retired_at = now`. -/
def RegulationSource.retire (wanted : List (String × String)) (now : Int) (s : RegulationSource) :
    RegulationSource :=
  if wanted.lookup s.packCode ≠ some s.url ∧ s.retiredAt = none then
    { s with retiredAt := some now }
  else s

/-- The loop over `wanted`, for one item. `existing` are the keys read before it. -/
def registerOne (existing : List (String × String)) (acc : List RegulationSource × Nat)
    (item : String × String) : List RegulationSource × Nat :=
  if item ∈ existing then
    (acc.1.map fun s => if s.key = item then s.revive else s, acc.2)
  else (acc.1 ++ [RegulationSource.new item.1 item.2], acc.2 + 1)

/-- `register_sources(db)`. -/
def registerSources (db : WatchDb) (now : Int) : WatchDb × Nat :=
  let wanted := db.currentPackUrls
  let existing := db.sources.map RegulationSource.key
  let added := wanted.foldl (registerOne existing) (db.sources, 0)
  ({ db with sources := added.1.map fun s =>
      if s.key ∈ existing then s.retire wanted now else s }, added.2)

/-! ## What the packs cite -/

theorem mem_dictOf_concat {α : Type} {items : List (String × α)} {item x : String × α} :
    x ∈ dictOf (items ++ [item]) ↔ x = item ∨ x ∈ dictOf items ∧ x.1 ≠ item.1 := by
  have hstep : dictOf (items ++ [item]) = setItem (dictOf items) item := by
    rw [dictOf, List.foldl_append]
    rfl
  rw [hstep, setItem]
  split
  · rename_i hany
    obtain ⟨y, hy, hkey⟩ := List.any_eq_true.mp hany
    rw [List.mem_map]
    constructor
    · rintro ⟨z, hz, rfl⟩
      by_cases hzkey : z.1 = item.1
      · exact Or.inl (if_pos hzkey)
      · rw [if_neg hzkey]
        exact Or.inr ⟨hz, hzkey⟩
    · rintro (rfl | ⟨hx, hne⟩)
      · exact ⟨y, hy, if_pos (of_decide_eq_true hkey)⟩
      · exact ⟨x, hx, if_neg hne⟩
  · rename_i hany
    have hne (y : String × α) (hy : y ∈ dictOf items) : y.1 ≠ item.1 := fun hkey =>
      hany (List.any_eq_true.mpr ⟨y, hy, decide_eq_true hkey⟩)
    rw [List.mem_append, List.mem_singleton, or_comm]
    exact or_congr_right ⟨fun hx => ⟨hx, hne x hx⟩, And.left⟩

/-- Of rows in the order of their keys, the dictionary keeps the greatest of each code. -/
theorem mem_dictOf_ascending {α : Type} (code : α → String) (key : α → Int) {c : String} {p : α} :
    ∀ {rows : List α}, rows.Pairwise (fun a b => key a < key b) →
      ((c, p) ∈ dictOf (rows.map fun q => (code q, q)) ↔
        p ∈ rows ∧ code p = c ∧ ∀ q ∈ rows, code q = c → key q ≤ key p) := by
  intro rows h
  induction rows using List.reverseRecOn with
  | nil => simp [dictOf]
  | append_singleton rows r ih =>
    obtain ⟨hrows, -, hlast⟩ := List.pairwise_append.mp h
    have hlt (q : α) (hq : q ∈ rows) : key q < key r := hlast q hq r List.mem_cons_self
    rw [List.map_append, List.map_cons, List.map_nil, mem_dictOf_concat, ih hrows]
    simp only [Prod.mk.injEq, List.mem_append, List.mem_singleton]
    constructor
    · rintro (⟨rfl, rfl⟩ | ⟨⟨hp, rfl, hmax⟩, hne⟩)
      · refine ⟨Or.inr rfl, rfl, fun q hq _ => ?_⟩
        rcases hq with hq | rfl
        · exact (hlt q hq).le
        · exact le_refl _
      · refine ⟨Or.inl hp, rfl, fun q hq hcode => ?_⟩
        rcases hq with hq | rfl
        · exact hmax q hq hcode
        · exact absurd hcode.symm hne
    · rintro ⟨hp, rfl, hmax⟩
      by_cases hcode : code p = code r
      · rcases hp with hp | rfl
        · have := hmax r (Or.inr rfl) hcode.symm
          have := hlt p hp
          omega
        · exact Or.inl ⟨rfl, rfl⟩
      · rcases hp with hp | rfl
        · exact Or.inr ⟨⟨hp, rfl, fun q hq => hmax q (Or.inl hq)⟩, hcode⟩
        · exact absurd rfl hcode

/-- Rows of different ages : the latest is the one no other row of its code is after. -/
theorem WatchDb.mem_latestPacks {db : WatchDb} (htimes : (db.packs.map fun p => p.createdAt).Nodup)
    {code : String} {p : PackVersion} :
    (code, p) ∈ db.latestPacks ↔ db.latestPack code = some p := by
  have hperm : db.packsByAge.Perm db.packs := List.perm_insertionSort _ _
  have hsorted : db.packsByAge.Pairwise fun p q => p.createdAt ≤ q.createdAt :=
    @List.pairwise_insertionSort _ (fun p q : PackVersion => p.createdAt ≤ q.createdAt) _
      ⟨fun _ _ => Int.le_total _ _⟩ ⟨fun _ _ _ => le_trans⟩ _
  have hdistinct : db.packsByAge.Pairwise fun p q => p.createdAt ≠ q.createdAt :=
    List.pairwise_map.mp ((hperm.map _).nodup_iff.mpr htimes)
  have hstrict : db.packsByAge.Pairwise fun p q => p.createdAt < q.createdAt :=
    (hsorted.and hdistinct).imp fun h => lt_of_le_of_ne h.1 h.2
  have hinj {p q : PackVersion} (hp : p ∈ db.packs) (hq : q ∈ db.packs)
      (h : p.createdAt = q.createdAt) : p = q := List.inj_on_of_nodup_map htimes hp hq h
  have hlast := mem_dictOf_ascending (fun p : PackVersion => p.code) (fun p => p.createdAt)
    (c := code) (p := p) hstrict
  rw [WatchDb.latestPacks, hlast]
  simp only [hperm.mem_iff]
  constructor
  · rintro ⟨hp, rfl, hmax⟩
    cases hlatest : db.latestPack p.code with
    | none =>
      have hnone := latestBy_eq_none.mp hlatest
      have hmem : p ∈ db.packs.filter fun q => q.code = p.code := by simp [hp]
      rw [hnone] at hmem
      cases hmem
    | some q =>
      have hq := mem_of_latestBy hlatest
      have hle := le_of_latestBy hlatest p (by simp [hp])
      simp only [List.mem_filter, decide_eq_true_eq] at hq
      have := hmax q hq.1 hq.2
      rw [hinj hp hq.1 (by omega)]
  · intro hlatest
    have hp := mem_of_latestBy hlatest
    simp only [List.mem_filter, decide_eq_true_eq] at hp
    exact ⟨hp.1, hp.2, fun q hq hcode => le_of_latestBy hlatest q (by simp [hq, hcode])⟩

/-- The address is of the latest version of the code. -/
def Cites (db : WatchDb) (code url : String) : Prop :=
  ∃ p, db.latestPack code = some p ∧ p.sourceUrl = some url ∧ url ≠ ""

theorem mem_currentPackUrls {db : WatchDb} (htimes : (db.packs.map fun p => p.createdAt).Nodup)
    {code url : String} : (code, url) ∈ db.currentPackUrls ↔ Cites db code url := by
  simp only [WatchDb.currentPackUrls, List.mem_filterMap, Prod.exists]
  constructor
  · rintro ⟨c, p, hp, hitem⟩
    split at hitem
    · rename_i link hlink
      split at hitem
      · cases hitem
      · rename_i hne
        simp only [Option.some.injEq, Prod.mk.injEq] at hitem
        obtain ⟨rfl, rfl⟩ := hitem
        exact ⟨p, (WatchDb.mem_latestPacks htimes).mp hp, hlink, hne⟩
    · cases hitem
  · rintro ⟨p, hlatest, hlink, hne⟩
    exact ⟨code, p, (WatchDb.mem_latestPacks htimes).mpr hlatest, by simp [hlink, hne]⟩

/-- A code is cited with one address. -/
theorem nodup_keys_currentPackUrls (db : WatchDb) : (db.currentPackUrls.map Prod.fst).Nodup := by
  have hsub : (db.currentPackUrls.map Prod.fst).Sublist (db.latestPacks.map Prod.fst) := by
    unfold WatchDb.currentPackUrls
    induction db.latestPacks with
    | nil => exact List.Sublist.refl _
    | cons item items ih =>
      cases hlink : item.2.sourceUrl with
      | none => simpa [hlink] using ih.cons item.1
      | some url =>
        by_cases hempty : url = ""
        · simpa [hlink, hempty] using ih.cons item.1
        · simpa [hlink, hempty] using ih.cons_cons item.1
  exact hsub.nodup (nodup_keys_dictOf _)

theorem lookup_eq_some_iff {d : List (String × String)} (h : (d.map Prod.fst).Nodup)
    {code url : String} : d.lookup code = some url ↔ (code, url) ∈ d := by
  induction d with
  | nil => simp
  | cons item d ih =>
    obtain ⟨hhead, hrest⟩ := List.nodup_cons.mp h
    by_cases hcode : code = item.1
    · subst hcode
      have hnot : (item.1, url) ∉ d := fun hmem => hhead (List.mem_map.mpr ⟨_, hmem, rfl⟩)
      rw [List.lookup_cons, beq_self_eq_true, List.mem_cons]
      constructor
      · intro hurl
        exact Or.inl (Prod.ext rfl (Option.some.inj hurl).symm)
      · rintro (heq | hmem)
        · rw [← heq]
        · exact absurd hmem hnot
    · have hne : (code == item.1) = false := by simpa using hcode
      rw [List.lookup_cons, hne, List.mem_cons, ih hrest]
      have hitem : (code, url) ≠ item := fun heq => hcode (congrArg Prod.fst heq)
      simp [hitem]

/-! ## What a call settles -/

/-- A row that was there, once a call has settled it. -/
def RegulationSource.settle (wanted : List (String × String)) (now : Int) (s : RegulationSource) :
    RegulationSource :=
  if s.key ∈ wanted then s.revive else s.retire wanted now

@[simp] theorem RegulationSource.key_new (code url : String) :
    (RegulationSource.new code url).key = (code, url) := rfl

@[simp] theorem RegulationSource.key_revive (s : RegulationSource) : s.revive.key = s.key := by
  unfold revive
  split <;> rfl

@[simp] theorem RegulationSource.key_settle (wanted : List (String × String)) (now : Int)
    (s : RegulationSource) : (s.settle wanted now).key = s.key := by
  unfold settle revive retire
  split_ifs <;> rfl

@[simp] theorem RegulationSource.retiredAt_revive (s : RegulationSource) :
    s.revive.retiredAt = none := by
  unfold revive
  split
  · rfl
  · simpa using ‹¬ s.retiredAt.isSome = true›

theorem RegulationSource.revive_revive (s : RegulationSource) : s.revive.revive = s.revive := by
  rw [revive, retiredAt_revive]
  rfl

/-- Nothing but the retirement of a row changes. -/
theorem RegulationSource.settle_eq (wanted : List (String × String)) (now : Int)
    (s : RegulationSource) :
    s.settle wanted now = { s with retiredAt := (s.settle wanted now).retiredAt } := by
  unfold settle revive retire
  split_ifs <;> rfl

/-- A cited row is not retired, and one that is not cited keeps its retirement. -/
theorem RegulationSource.retire_of_wanted {wanted : List (String × String)}
    (hkeys : (wanted.map Prod.fst).Nodup) (now : Int) {s : RegulationSource} (h : s.key ∈ wanted) :
    s.retire wanted now = s := by
  rw [retire, if_neg (by simp [(lookup_eq_some_iff hkeys).mpr h])]

theorem RegulationSource.retiredAt_settle {wanted : List (String × String)}
    (hkeys : (wanted.map Prod.fst).Nodup) (now : Int) (s : RegulationSource) :
    (s.settle wanted now).retiredAt = none ↔ s.key ∈ wanted := by
  unfold settle
  split
  · simp [*]
  · rename_i hnot
    have hlookup : wanted.lookup s.packCode ≠ some s.url := fun h =>
      hnot ((lookup_eq_some_iff hkeys).mp h)
    unfold retire
    by_cases hretired : s.retiredAt = none <;> simp [hlookup, hretired, hnot]

theorem RegulationSource.settle_settle {wanted : List (String × String)}
    (hkeys : (wanted.map Prod.fst).Nodup) (now now' : Int) (s : RegulationSource) :
    (s.settle wanted now).settle wanted now' = s.settle wanted now := by
  have hretired := retiredAt_settle hkeys now s
  by_cases h : s.key ∈ wanted
  · rw [settle, key_settle, if_pos h, revive, hretired.mpr h]
    rfl
  · rw [settle, key_settle, if_neg h, retire, if_neg]
    exact fun hnone => h (hretired.mp hnone.2)

/-- The loop over what is wanted revives the rows that are there and appends the others. -/
theorem foldl_registerOne (existing : List (String × String)) :
    ∀ (items : List (String × String)) (rows : List RegulationSource) (n : Nat),
      items.foldl (registerOne existing) (rows, n) =
        (rows.map (fun s => if s.key ∈ items ∧ s.key ∈ existing then s.revive else s) ++
            (items.filter fun item => item ∉ existing).map fun item => .new item.1 item.2,
          n + (items.filter fun item => item ∉ existing).length)
  | [], rows, n => by simp
  | item :: items, rows, n => by
    by_cases hitem : item ∈ existing
    · rw [List.foldl_cons, registerOne, if_pos hitem, foldl_registerOne existing items]
      have hfilter : (item :: items).filter (fun item => item ∉ existing) =
          items.filter fun item => item ∉ existing := List.filter_cons_of_neg (by simpa using hitem)
      rw [hfilter, List.map_map]
      refine Prod.ext (congrArg (· ++ _) (List.map_congr_left fun s _ => ?_)) rfl
      simp only [Function.comp_apply]
      by_cases hkey : s.key = item
      · by_cases hmem : item ∈ items <;>
          simp [hkey, hitem, hmem, RegulationSource.revive_revive]
      · simp [hkey]
    · rw [List.foldl_cons, registerOne, if_neg hitem, foldl_registerOne existing items]
      have hfilter : (item :: items).filter (fun item => item ∉ existing) =
          item :: items.filter fun item => item ∉ existing :=
        List.filter_cons_of_pos (by simpa using hitem)
      rw [hfilter, List.map_append, List.append_assoc]
      refine Prod.ext ?_ (by simp only [List.length_cons]; omega)
      refine congrArg₂ (· ++ ·) (List.map_congr_left fun s _ => ?_) (by simp [hitem])
      by_cases hkey : s.key = item
      · simp [hkey, hitem]
      · simp [hkey]

/-- The rows after a call, and how many were added. -/
theorem registerSources_sources (db : WatchDb) (now : Int) :
    (registerSources db now).1.sources =
        db.sources.map (RegulationSource.settle db.currentPackUrls now) ++
          (db.currentPackUrls.filter fun item => item ∉ db.sources.map RegulationSource.key).map
            (fun item => .new item.1 item.2) ∧
      (registerSources db now).2 =
        (db.currentPackUrls.filter fun item =>
          item ∉ db.sources.map RegulationSource.key).length := by
  have hkeys := nodup_keys_currentPackUrls db
  simp only [registerSources, foldl_registerOne, Nat.zero_add, List.map_append, List.map_map,
    and_true]
  refine congrArg₂ (· ++ ·) (List.map_congr_left fun s hs => ?_)
    (List.map_congr_left fun x hx => ?_)
  · have hexisting : s.key ∈ db.sources.map RegulationSource.key := List.mem_map_of_mem hs
    simp only [Function.comp_apply, hexisting, and_true]
    by_cases hwanted : s.key ∈ db.currentPackUrls
    · have hrevived : s.revive.key ∈ db.currentPackUrls := by simpa using hwanted
      rw [if_pos hwanted, RegulationSource.key_revive, if_pos hexisting,
        RegulationSource.retire_of_wanted hkeys now hrevived, RegulationSource.settle,
        if_pos hwanted]
    · rw [if_neg hwanted, if_pos hexisting, RegulationSource.settle, if_neg hwanted]
  · simp only [List.mem_filter, decide_eq_true_eq] at hx
    simp only [Function.comp_apply, RegulationSource.key_new, Prod.mk.eta, if_neg hx.2]

/-! ## Runs -/

/-- A call on the packs or on their sources. -/
inductive RegistryCall where
  | upsert (doc : PackDoc) (fresh : PackFresh)
  | register (now : Int)

/-- The database after a call. One that raises is rolled back. -/
def RegistryCall.run (db : WatchDb) : RegistryCall → WatchDb
  | .upsert doc fresh => (upsertPack db doc fresh).toOption.getD db
  | .register now => (registerSources db now).1

/-- The creation times that the calls give to new rows. -/
def creationTimes (calls : List RegistryCall) : List Int :=
  calls.filterMap fun
    | .upsert _ fresh => some fresh.createdAt
    | .register _ => none

def runRegistry (db : WatchDb) (calls : List RegistryCall) : WatchDb :=
  calls.foldl RegistryCall.run db

def WatchDb.empty : WatchDb where
  packs := []
  sources := []
  changes := []

/-- No two rows of sources have one key, no two versions one creation time. -/
structure RegistryKeys (db : WatchDb) : Prop where
  sources : (db.sources.map RegulationSource.key).Nodup
  times : (db.packs.map fun p => p.createdAt).Nodup

theorem upsertPack_times {db db' : WatchDb} {doc : PackDoc} {fresh : PackFresh}
    (h : upsertPack db doc fresh = .ok db') : db'.sources = db.sources ∧
      ((db'.packs.map fun p => p.createdAt) = (db.packs.map fun p => p.createdAt) ∨
        (db'.packs.map fun p => p.createdAt) =
          (db.packs.map fun p => p.createdAt) ++ [fresh.createdAt]) := by
  unfold upsertPack at h
  split at h
  · rename_i existing _
    simp only [Except.bind_eq_ok, Except.pure_eq, Except.ok.injEq] at h
    obtain ⟨_, -, rfl⟩ := h
    refine ⟨rfl, Or.inl ?_⟩
    rw [List.map_map]
    refine List.map_congr_left fun p _ => ?_
    by_cases hid : p.id = existing.id
    · simp [hid, PackDoc.refresh]
    · simp [hid]
  · simp only [Except.bind_eq_ok, Except.pure_eq, Except.ok.injEq] at h
    obtain ⟨_, -, _, -, rfl⟩ := h
    refine ⟨rfl, Or.inr ?_⟩
    rw [List.map_append]
    rfl

theorem registerSources_keys {db : WatchDb} (h : RegistryKeys db) (now : Int) :
    RegistryKeys (registerSources db now).1 := by
  refine ⟨?_, h.times⟩
  have hkept : (db.sources.map (RegulationSource.settle db.currentPackUrls now)).map
      RegulationSource.key = db.sources.map RegulationSource.key := by
    simp [List.map_map, Function.comp_def]
  have hnew : ((db.currentPackUrls.filter fun item => item ∉ db.sources.map
      RegulationSource.key).map fun item => RegulationSource.new item.1 item.2).map
        RegulationSource.key =
      db.currentPackUrls.filter fun item => item ∉ db.sources.map RegulationSource.key := by
    simp [List.map_map, Function.comp_def]
  rw [(registerSources_sources db now).1, List.map_append, hkept, hnew]
  have hwanted : db.currentPackUrls.Nodup := (nodup_keys_currentPackUrls db).of_map
  refine List.nodup_append'.mpr ⟨h.sources, hwanted.filter _, fun item hold hitem => ?_⟩
  simp only [List.mem_filter, decide_eq_true_eq] at hitem
  exact hitem.2 hold

/-- What one call keeps : the keys, and that the times come from the calls. -/
theorem RegistryCall.run_keys {db : WatchDb} (call : RegistryCall) (h : RegistryKeys db)
    (hfresh : ∀ t ∈ creationTimes [call], ∀ p ∈ db.packs, p.createdAt ≠ t) :
    RegistryKeys (call.run db) ∧
      ∀ p ∈ (call.run db).packs, (∃ q ∈ db.packs, p.createdAt = q.createdAt) ∨
        p.createdAt ∈ creationTimes [call] := by
  cases call with
  | register now => exact ⟨registerSources_keys h now, fun p hp => Or.inl ⟨p, hp, rfl⟩⟩
  | upsert doc fresh =>
    rw [run]
    cases hupsert : upsertPack db doc fresh with
    | error e => exact ⟨h, fun p hp => Or.inl ⟨p, hp, rfl⟩⟩
    | ok db' =>
      obtain ⟨hsources, htimes⟩ := upsertPack_times hupsert
      simp only [Except.toOption, Option.getD_some]
      have hold (t : Int) (ht : t ∈ db.packs.map fun p => p.createdAt) :
          ∃ q ∈ db.packs, t = q.createdAt := by
        obtain ⟨q, hq, rfl⟩ := List.mem_map.mp ht
        exact ⟨q, hq, rfl⟩
      rcases htimes with htimes | htimes
      · refine ⟨⟨hsources ▸ h.sources, htimes ▸ h.times⟩, fun p hp => Or.inl (hold _ ?_)⟩
        rw [← htimes]
        exact List.mem_map_of_mem (f := fun p => p.createdAt) hp
      · refine ⟨⟨hsources ▸ h.sources, ?_⟩, fun p hp => ?_⟩
        · rw [htimes]
          refine List.nodup_append'.mpr ⟨h.times, List.nodup_singleton _, fun t ht hlast => ?_⟩
          obtain ⟨q, hq, rfl⟩ := hold t ht
          exact hfresh fresh.createdAt (by simp [creationTimes]) q hq (List.mem_singleton.mp hlast)
        · have hmem := List.mem_map_of_mem (f := fun p => p.createdAt) hp
          rw [htimes, List.mem_append] at hmem
          refine hmem.imp (hold _) fun hlast => ?_
          simpa [creationTimes] using hlast

/-- The keys are kept by every run whose creation times differ. -/
theorem runRegistry_keys : ∀ (calls : List RegistryCall) {db : WatchDb}, RegistryKeys db →
    (creationTimes calls).Nodup → (∀ t ∈ creationTimes calls, ∀ p ∈ db.packs, p.createdAt ≠ t) →
      RegistryKeys (runRegistry db calls)
  | [], db, h, _, _ => h
  | call :: calls, db, h, htimes, hfresh => by
    have hsplit : creationTimes (call :: calls) = creationTimes [call] ++ creationTimes calls := by
      rw [creationTimes, ← List.singleton_append, List.filterMap_append]
      rfl
    rw [hsplit] at htimes hfresh
    obtain ⟨-, hrest, hdisjoint⟩ := List.nodup_append'.mp htimes
    obtain ⟨hkeys, hold⟩ := call.run_keys h fun t ht => hfresh t (List.mem_append_left _ ht)
    refine runRegistry_keys calls hkeys hrest fun t ht p hp heq => ?_
    rcases hold p hp with ⟨q, hq, hqtime⟩ | hown
    · exact hfresh t (List.mem_append_right _ ht) q hq (hqtime.symm.trans heq)
    · exact hdisjoint (heq ▸ hown) ht

/-! ## What registration mirrors -/

/-- `before` and `after` a call : nothing but rows of sources changed, of them nothing but
the retirement, and the rows that were added are new. -/
structure OnlyRetires (before after : WatchDb) : Prop where
  packs : after.packs = before.packs
  changes : after.changes = before.changes
  sources : ∃ kept added, after.sources = kept ++ added ∧
    List.Forall₂ (fun s s' => s' = { s with retiredAt := s'.retiredAt }) before.sources kept ∧
      ∀ s ∈ added, s = .new s.packCode s.url

theorem registerSources_onlyRetires (db : WatchDb) (now : Int) :
    OnlyRetires db (registerSources db now).1 := by
  refine ⟨rfl, rfl, _, _, (registerSources_sources db now).1, ?_, fun s hs => ?_⟩
  · rw [List.forall₂_map_right_iff]
    exact List.forall₂_same.mpr fun s _ => s.settle_eq _ _
  · obtain ⟨item, -, rfl⟩ := List.mem_map.mp hs
    rfl

/-- What a call leaves : the sources that are not retired are the addresses cited. -/
theorem exists_unretired_iff (db : WatchDb) (now : Int) (code url : String) :
    (∃ s ∈ (registerSources db now).1.sources, s.key = (code, url) ∧ s.retiredAt = none) ↔
      (code, url) ∈ db.currentPackUrls := by
  have hkeys := nodup_keys_currentPackUrls db
  rw [(registerSources_sources db now).1]
  simp only [List.mem_append, List.mem_map, List.mem_filter, decide_eq_true_eq]
  constructor
  · rintro ⟨s, ⟨t, -, rfl⟩ | ⟨item, ⟨hitem, -⟩, rfl⟩, hkey, hretired⟩
    · rw [RegulationSource.key_settle] at hkey
      exact hkey ▸ (t.retiredAt_settle hkeys now).mp hretired
    · rw [RegulationSource.key_new, Prod.mk.eta] at hkey
      exact hkey ▸ hitem
  · intro hwanted
    by_cases hold : (code, url) ∈ db.sources.map RegulationSource.key
    · obtain ⟨s, hs, hkey⟩ := List.mem_map.mp hold
      refine ⟨_, Or.inl ⟨s, hs, rfl⟩, (s.key_settle _ _).trans hkey, ?_⟩
      exact (s.retiredAt_settle hkeys now).mpr (hkey ▸ hwanted)
    · exact ⟨_, Or.inr ⟨(code, url), ⟨hwanted, by simpa using hold⟩, rfl⟩, rfl, rfl⟩

/-- A second call changes nothing. -/
theorem registerSources_again (db : WatchDb) (now now' : Int) :
    registerSources (registerSources db now).1 now' = ((registerSources db now).1, 0) := by
  have hkeys := nodup_keys_currentPackUrls db
  have hsources := (registerSources_sources db now).1
  generalize hafter : (registerSources db now).1 = after at hsources ⊢
  have hpacks : after.packs = db.packs := by rw [← hafter]; rfl
  have hwanted : after.currentPackUrls = db.currentPackUrls := by
    simp only [WatchDb.currentPackUrls, WatchDb.latestPacks, WatchDb.packsByAge, hpacks]
  have hnone : (after.currentPackUrls.filter fun item =>
      item ∉ after.sources.map RegulationSource.key) = [] := by
    rw [hwanted, List.filter_eq_nil_iff]
    rintro ⟨code, url⟩ hitem
    obtain ⟨s, hs, hkey, -⟩ := (exists_unretired_iff db now code url).mpr hitem
    rw [hafter] at hs
    simpa using ⟨s, hs, hkey⟩
  have hagain := registerSources_sources after now'
  rw [hnone, hwanted] at hagain
  obtain ⟨hsame, hcount⟩ := hagain
  have hsettled : after.sources.map (RegulationSource.settle db.currentPackUrls now') =
      after.sources := by
    rw [hsources, List.map_append, List.map_map, List.map_map]
    refine congrArg₂ (· ++ ·) (List.map_congr_left fun s _ => s.settle_settle hkeys now now')
      (List.map_congr_left fun item hitem => ?_)
    -- A row that was added is cited and not retired.
    rw [Function.comp_apply, RegulationSource.settle, RegulationSource.key_new, Prod.mk.eta,
      if_pos (List.mem_of_mem_filter hitem)]
    rfl
  rw [hsettled, List.map_nil, List.append_nil] at hsame
  have hrows : registerSources after now' =
      ({ after with sources := (registerSources after now').1.sources },
        (registerSources after now').2) := rfl
  rw [hrows, hsame, hcount]
  rfl

/-- Registration mirrors what packs cite. After any publications and registrations from any
registry, and one registration more, the sources not retired are the addresses that the latest
versions cite, with one row each. That registration deleted no row and changed of the others
nothing but their retirement, and one right after it registers and changes nothing. -/
theorem registration_mirrors_packs {db : WatchDb} (hdb : RegistryKeys db)
    (calls : List RegistryCall) (htimes : (creationTimes calls).Nodup)
    (hfresh : ∀ t ∈ creationTimes calls, ∀ p ∈ db.packs, p.createdAt ≠ t) (now now' : Int) :
    let before := runRegistry db calls
    let after := (registerSources before now).1
    (∀ code url, (∃ s ∈ after.sources, s.key = (code, url) ∧ s.retiredAt = none) ↔
        Cites after code url) ∧
      (after.sources.map RegulationSource.key).Nodup ∧ OnlyRetires before after ∧
        registerSources after now' = (after, 0) := by
  intro before after
  have hkeys : RegistryKeys before := runRegistry_keys calls hdb htimes hfresh
  have hcites (code url : String) : Cites after code url ↔ Cites before code url := Iff.rfl
  refine ⟨fun code url => ?_, (registerSources_keys hkeys now).sources,
    registerSources_onlyRetires before now, registerSources_again before now now'⟩
  rw [exists_unretired_iff, mem_currentPackUrls hkeys.times, hcites]

/-! ## A link that was corrected -/

section Samples

namespace Sample

/-- A version of a pack that cites an address. -/
def citingDoc (version url : String) : PackDoc where
  code := "p"
  jurisdiction := "difc"
  jurisdictions := .null
  sectors := .null
  name := "Test"
  version := version
  instrument := "Test Instrument"
  instrumentNotes := none
  sourceUrl := some url
  effectiveDate := none
  verificationStatus := "unverified"
  schemaVersion := .int 2
  engine := .str "json"
  rules := .arr []

/-- A registry with a source that was fetched. -/
def fetchedRegistry : WatchDb where
  packs := [(citingDoc "0.9" "t").row ⟨Uuid.ofNat 9, 0⟩]
  sources := [{ RegulationSource.new "p" "t" with
    contentHash := some "0"
    snapshot := some "Art. 1"
    nextCheckAt := some 9 }]
  changes := []

/-- A dead link is registered and corrected. -/
def correction : List RegistryCall :=
  [.upsert (citingDoc "1.0" "u") ⟨Uuid.ofNat 1, 1⟩, .register 2,
    .upsert (citingDoc "1.1" "v") ⟨Uuid.ofNat 2, 3⟩]

end Sample

open Sample

theorem registration_mirrors_packs_sample :
    let before := runRegistry fetchedRegistry correction
    let after := (registerSources before 4).1
    (∀ code url, (∃ s ∈ after.sources, s.key = (code, url) ∧ s.retiredAt = none) ↔
        Cites after code url) ∧
      (after.sources.map RegulationSource.key).Nodup ∧ OnlyRetires before after ∧
        registerSources after 5 = (after, 0) := by
  have hkeys : RegistryKeys fetchedRegistry := ⟨by decide, by decide⟩
  exact registration_mirrors_packs hkeys correction (by decide) (by decide) 4 5

example : ((registerSources (runRegistry fetchedRegistry correction) 4).1.sources.map fun s =>
    (s.url, s.retiredAt, s.contentHash)) =
      [("t", some 2, some "0"), ("u", some 4, none), ("v", none, none)] := by decide

end Samples

end Attest
