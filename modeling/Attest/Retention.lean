import Attest.Vault

/-!
# What can be read, and for how long

Content is stored once for each organisation and fingerprint, so what can be read of an
event is settled by the rows of its fingerprint alone (`SameRows.read`), and a call
changes them only where it stores the content or erases it (`VaultOp.run_sameRows`).

An erasure leaves every other fingerprint as it was (`erase_frame`), and takes the
content from all the events that share it. What is recorded can be read until it is
erased, but for content that had been erased before : its row stays behind and is not
stored again (`recorded_readable_iff`). A switch to customer keys makes later content
dark, but for content that was there before (`dark_iff`). However the rows are moved
about, what is read for a fingerprint is what was recorded for it
(`read_of_rearranged`).
-/

set_option linter.unusedSectionVars false

namespace Attest

/-! ## The rows of one content -/

/-- The rows of one content are the same in both databases. -/
structure SameRows (db db' : Db) (orgId payloadHash : String) : Prop where
  payload : db'.getPayload orgId payloadHash = db.getPayload orgId payloadHash
  key : db'.getPayloadKey orgId payloadHash = db.getPayloadKey orgId payloadHash

theorem SameRows.refl (db : Db) (orgId payloadHash : String) : SameRows db db orgId payloadHash :=
  ⟨rfl, rfl⟩

theorem SameRows.trans {db db₁ db₂ : Db} {orgId payloadHash : String}
    (h : SameRows db db₁ orgId payloadHash) (h' : SameRows db₁ db₂ orgId payloadHash) :
    SameRows db db₂ orgId payloadHash :=
  ⟨h'.payload.trans h.payload, h'.key.trans h.key⟩

/-- What is read depends on these rows alone. -/
theorem SameRows.read {db db' : Db} {orgId payloadHash : String}
    (h : SameRows db db' orgId payloadHash) :
    readPayloadContent db' orgId payloadHash = readPayloadContent db orgId payloadHash := by
  simp only [readPayloadContent, h.payload, h.key]

theorem shred_sameRows (db : Db) {orgId payloadHash orgId' payloadHash' : String} (now : String)
    (hother : ¬(orgId = orgId' ∧ payloadHash = payloadHash')) :
    SameRows db (db.shred orgId' payloadHash' now) orgId payloadHash := by
  constructor
  · have hcols (p : Payload) : decide ((if p.orgId = orgId' ∧ p.payloadHash = payloadHash' ∧
        p.erasedAt = none then { p with erasedAt := some now } else p).orgId = orgId ∧
          (if p.orgId = orgId' ∧ p.payloadHash = payloadHash' ∧ p.erasedAt = none then
            { p with erasedAt := some now } else p).payloadHash = payloadHash) =
        decide (p.orgId = orgId ∧ p.payloadHash = payloadHash) := by
      split <;> rfl
    simp only [Db.getPayload, Db.shred, List.find?_map, Function.comp_def, hcols]
    cases hfind : db.payloads.find? fun p => p.orgId = orgId ∧ p.payloadHash = payloadHash with
    | none => rfl
    | some p =>
      obtain ⟨horg, hhash⟩ : p.orgId = orgId ∧ p.payloadHash = payloadHash := by
        simpa using List.find?_some hfind
      rw [Option.map_some, if_neg fun h => hother ⟨horg ▸ h.1, hhash ▸ h.2.1⟩]
  · simp only [Db.getPayloadKey, Db.shred, List.find?_filter]
    congr 1
    funext k
    by_cases hk : k.orgId = orgId ∧ k.payloadHash = payloadHash
    · simp [hk, hother]
    · simp [hk]

section Calls

variable [SignatureScheme] [KeyUnwrapping] [PyUnicode]

/-- Content that is there is not stored again. -/
theorem Recorded.sameRows {db db' : Db} {args : RecordArgs} {fresh : Fresh} {e : Event}
    (hr : Recorded db args fresh e db') {orgId payloadHash : String}
    (hthere : (db.getPayload orgId payloadHash).isSome = true) :
    SameRows db db' orgId payloadHash := by
  rcases hr.content with ⟨-, hpayloads, hkeys⟩ | ⟨hnone, rows, hrows, hpayloads, hkeys⟩
  · exact ⟨by rw [Db.getPayload, hpayloads]; rfl, by rw [Db.getPayloadKey, hkeys]; rfl⟩
  · have hother : ¬(args.orgId = orgId ∧ e.payloadHash = payloadHash) := by
      rintro ⟨rfl, rfl⟩
      rw [hnone] at hthere
      cases hthere
    have hcols : rows.2.orgId = args.orgId ∧ rows.2.payloadHash = e.payloadHash := by
      rw [hrows]
      exact ⟨rfl, rfl⟩
    constructor
    · obtain ⟨p, hp⟩ := Option.isSome_iff_exists.mp hthere
      have hfind : (db.payloads.find? fun p => p.orgId = orgId ∧ p.payloadHash = payloadHash) =
        some p := hp
      rw [hp, Db.getPayload, hpayloads, List.find?_append, hfind]
      rfl
    · have hnew : ([rows.2].find? fun k => k.orgId = orgId ∧
          k.payloadHash = payloadHash) = none := by
        simp only [List.find?_cons, List.find?_nil, hcols.1, hcols.2, hother, decide_false]
      rw [Db.getPayloadKey, hkeys, List.find?_append, hnew, Option.or_none]
      rfl

/-- The call erases this content. -/
def VaultOp.Erases (db : Db) (orgId payloadHash : String) : VaultOp → Prop
  | .erase args _ => args.orgId = orgId ∧
    ∃ target, args.target db = some target ∧ target.payloadHash = payloadHash
  | _ => False

theorem Touched.sameRows {db db₁ : Db} {op : VaultOp} (ht : Touched db op db₁)
    {orgId payloadHash : String} (hkeeps : ¬op.Erases db orgId payloadHash) :
    SameRows db db₁ orgId payloadHash := by
  cases ht with
  | kept _ hpayloads hkeys _ _ _ _ =>
    exact ⟨by rw [Db.getPayload, hpayloads]; rfl, by rw [Db.getPayloadKey, hkeys]; rfl⟩
  | @shredded args fresh target _ _ htarget _ _ _ =>
    refine shred_sameRows db fresh.erasedAt ?_
    rintro ⟨rfl, rfl⟩
    exact hkeeps ⟨rfl, target, htarget, rfl⟩
  | switched _ => exact ⟨rfl, rfl⟩

/-- A call leaves the rows of stored content as they are, unless it erases it. -/
theorem VaultOp.run_sameRows {svc : SigningKeyPair} {db db' : Db} {op : VaultOp}
    (hrun : op.run svc db = .ok db') {orgId payloadHash : String}
    (hthere : (db.getPayload orgId payloadHash).isSome = true)
    (hkeeps : ¬op.Erases db orgId payloadHash) : SameRows db db' orgId payloadHash := by
  obtain ⟨db₁, htouched, rfl | ⟨args, fresh, e, -, he⟩⟩ := VaultOp.run_touched hrun
  · exact htouched.sameRows hkeeps
  · have hsame := htouched.sameRows hkeeps
    exact hsame.trans (he.sameRows (hsame.payload ▸ hthere))

variable {svc : SigningKeyPair} {allowed : Db → VaultOp → Prop}

/-- So does every run without such a call. -/
theorem sameRows_of_run {w w' : Vault} {orgId payloadHash : String}
    (hkeeps : ∀ db op, allowed db op → ¬op.Erases db orgId payloadHash)
    (hthere : (w.db.getPayload orgId payloadHash).isSome = true)
    (hrun : (vault svc allowed).Run w w') : SameRows w.db w'.db orgId payloadHash := by
  induction hrun with
  | refl => exact .refl w.db orgId payloadHash
  | tail _ hstep ih =>
    obtain ⟨hallowed, hcall⟩ := hstep
    exact ih.trans (VaultOp.run_sameRows hcall (ih.payload ▸ hthere) (hkeeps _ _ hallowed))

/-! ## What is held and what is read -/

/-- The same JSON object, but for the order of keys. -/
def SameContent (a b : Dict) : Prop :=
  canonicalBytes a = canonicalBytes b

/-- The organisation has never switched to customer keys. -/
def Db.Managed (db : Db) (orgId : String) : Prop :=
  ∀ o ∈ db.orgs, o.id = orgId → o.confidentialityMode = "attest_managed"

theorem Db.Managed.wrapsTo {db : Db} {orgId : String} (h : db.Managed orgId) :
    db.wrapsTo orgId = none := by
  unfold Db.wrapsTo
  cases hget : db.getOrgById orgId with
  | none => rfl
  | some o =>
    have hid : o.id = orgId := by simpa using List.find?_some hget
    have hmode := h o (List.mem_of_find?_eq_some hget) hid
    simp [Org.wrapsTo, hmode]

/-- A key in the clear, of an organisation that has never switched. -/
def RawWhileManaged (db : Db) : Prop :=
  ∀ k ∈ db.payloadKeys, db.Managed k.orgId → k.wrapAlg = none

theorem Touched.rawWhileManaged {db db₁ : Db} {op : VaultOp} (ht : Touched db op db₁)
    (h : RawWhileManaged db) : RawWhileManaged db₁ := by
  cases ht with
  | kept horgs _ hkeys _ _ _ _ =>
    intro k hk hmanaged
    rw [hkeys] at hk
    exact h k hk (by rwa [Db.Managed, horgs] at hmanaged)
  | shredded _ _ _ _ =>
    intro k hk hmanaged
    exact h k (Db.mem_payloadKeys_shred.mp hk).1 hmanaged
  | @switched orgId pem orgs hswitch =>
    intro k hk hmanaged
    refine h k hk fun o ho hid => ?_
    unfold enableCustomerKeyMode at hswitch
    cases hget : db.getOrgById orgId with
    | none => simp [hget] at hswitch
    | some _ =>
      simp only [hget, Except.ok.injEq, Db.mk.injEq, true_and] at hswitch
      rw [Db.Managed, ← hswitch.1] at hmanaged
      have hmode := hmanaged _ (List.mem_map_of_mem ho)
      by_cases horg : o.id = orgId
      · simp only [horg, if_true] at hmode
        exact absurd (hmode (horg.symm.trans hid)) (by decide)
      · simp only [horg, if_false] at hmode
        exact hmode hid

theorem Recorded.rawWhileManaged {db db' : Db} {args : RecordArgs} {fresh : Fresh} {e : Event}
    (hr : Recorded db args fresh e db') (h : RawWhileManaged db) : RawWhileManaged db' := by
  obtain ⟨ts, ps, ks, hdb⟩ := hr.others
  intro k hk hmanaged
  have hmanaged' : db.Managed k.orgId := by rwa [Db.Managed, hdb] at hmanaged
  rcases hr.content with ⟨-, -, hkeys⟩ | ⟨-, rows, hrows, -, hkeys⟩
  · exact h k (hkeys ▸ hk) hmanaged'
  · rw [hkeys] at hk
    rcases List.mem_append.mp hk with hk | hk
    · exact h k hk hmanaged'
    · obtain rfl := List.mem_singleton.mp hk
      have horg : rows.2.orgId = args.orgId := by rw [hrows]; rfl
      rw [horg] at hmanaged'
      rw [hrows, hmanaged'.wrapsTo]
      rfl

theorem rawWhileManaged_of_reachable {w : Vault} (h : (vault svc allowed).Reachable w) :
    RawWhileManaged w.db := by
  refine TransitionSystem.invariant (P := fun w => RawWhileManaged w.db) ?_ ?_ h
  · rintro w ⟨-, hbare⟩ k hk
    rw [hbare.payloadKeys] at hk
    cases hk
  · rintro w w' hw ⟨-, hrun⟩
    obtain ⟨db₁, htouched, rfl | ⟨args, fresh, e, -, he⟩⟩ := VaultOp.run_touched hrun
    · exact htouched.rawWhileManaged hw
    · exact he.rawWhileManaged (htouched.rawWhileManaged hw)

/-- What is held for a content : its row, not erased, and its key in the clear. -/
theorem Db.Stocked.read_of_raw {db : Db} (h : db.Stocked) {p : Payload} (hp : p ∈ db.payloads)
    (hunerased : p.erasedAt = none) (hraw : ∀ k ∈ db.payloadKeys, k.orgId = p.orgId →
      k.payloadHash = p.payloadHash → k.wrapAlg = none) :
    readPayloadContent db p.orgId p.payloadHash = some p.encryptedBlob.content := by
  obtain ⟨k, hk, horg, hhash⟩ := h.locked p hp hunerased
  obtain ⟨q, hq, hqorg, hqhash, -, wrapsTo, hkey⟩ := h.keys k hk
  have hrow := Db.getPayload_of_mem h.keyed.payloads hp
  obtain rfl : q = p := by
    have hrow' := Db.getPayload_of_mem h.keyed.payloads hq
    rw [hqorg, hqhash, horg, hhash] at hrow'
    exact Option.some.inj (hrow'.symm.trans hrow)
  have hkeyrow := Db.getPayloadKey_of_mem h.keyed.payloadKeys hk
  rw [horg, hhash] at hkeyrow
  obtain ⟨halg, haad, -⟩ := h.sealed q hq
  refine readPayloadContent_of_rows hrow hkeyrow hunerased halg haad ?_
  obtain ⟨hstored, hwrap⟩ := Prod.mk.inj hkey
  have hnone := hraw k hk horg hhash
  cases wrapsTo with
  | none => exact ⟨hnone, hstored⟩
  | some pem =>
    rw [hwrap] at hnone
    cases hnone

/-- The row a call leaves for its content, there before it or new. -/
theorem Recorded.row {db db' : Db} {args : RecordArgs} {fresh : Fresh} {e : Event}
    (hr : Recorded db args fresh e db') : ∃ p ∈ db'.payloads, p.orgId = args.orgId ∧
      p.payloadHash = e.payloadHash ∧ (db.getPayload args.orgId e.payloadHash = some p ∨
        db.getPayload args.orgId e.payloadHash = none ∧ p.erasedAt = none ∧
          p.encryptedBlob.content = (redactPayload args.payload).1) := by
  rcases hr.content with ⟨hsome, hpayloads, -⟩ | ⟨hnone, rows, hrows, hpayloads, -⟩
  · obtain ⟨p, hp⟩ := Option.isSome_iff_exists.mp hsome
    obtain ⟨hmem, horg, hhash⟩ := Db.mem_of_getPayload hp
    exact ⟨p, hpayloads ▸ hmem, horg, hhash, Or.inl hp⟩
  · refine ⟨rows.1, hpayloads ▸ List.mem_append_right _ (List.mem_singleton.mpr rfl), ?_⟩
    rw [hrows]
    exact ⟨rfl, rfl, Or.inr ⟨hnone, rfl, rfl⟩⟩

/-- A shredded content is not read. -/
theorem read_shred (db : Db) (orgId payloadHash now : String) :
    readPayloadContent (db.shred orgId payloadHash now) orgId payloadHash = none := by
  cases hread : readPayloadContent (db.shred orgId payloadHash now) orgId payloadHash with
  | none => rfl
  | some content =>
    obtain ⟨p, k, -, hk, -⟩ := readPayloadContent_eq_some hread
    obtain ⟨hmem, horg, hhash⟩ := Db.mem_of_getPayloadKey hk
    exact absurd ⟨horg, hhash⟩ (Db.mem_payloadKeys_shred.mp hmem).2

/-- What an erasure targets is not read any more, for whichever event. -/
theorem erase_dark {db db' : Db} {args : EraseArgs} {fresh : EraseFresh} {target : Event}
    (herased : Erased db args fresh target db') :
    readPayloadContent db' args.orgId target.payloadHash = none := by
  obtain ⟨p, hp, -⟩ := herased.payload
  obtain ⟨f, e, -, he⟩ := herased.recorded
  obtain ⟨hmem, horg, hhash⟩ := Db.mem_of_getPayload hp
  have hthere : ((db.shred args.orgId target.payloadHash fresh.erasedAt).getPayload args.orgId
      target.payloadHash).isSome = true := by
    refine Db.getPayload_isSome.mpr ⟨_, Db.mem_payloads_shred.mpr ⟨p, hmem, rfl⟩, ?_⟩
    split
    · exact ⟨horg, hhash⟩
    · exact ⟨horg, hhash⟩
  rw [(he.sameRows hthere).read, read_shred]

/-! ## Recording alone -/

/-- Recording calls alone. -/
def records (_ : Db) (op : VaultOp) : Prop :=
  ∃ args fresh, op = .record args fresh

theorem records_keeps (orgId payloadHash : String) (db : Db) (op : VaultOp) (h : records db op) :
    ¬op.Erases db orgId payloadHash := by
  obtain ⟨args, fresh, rfl⟩ := h
  exact id

/-- What the calls since `base` stored for the organisation has its key wrapped as
`wrapsTo` says, and nothing is erased. -/
structure StoredSince (base : Db) (orgId : String) (wrapsTo : Option String) (db : Db) : Prop where
  stocked : db.Stocked
  wraps : db.wrapsTo orgId = wrapsTo
  unerased : ∀ p ∈ db.payloads, p.erasedAt = none
  keys : ∀ k ∈ db.payloadKeys, k.orgId = orgId →
    k ∈ base.payloadKeys ∨ k.wrapAlg = wrapsTo.map fun _ => defaultWrapAlgorithm

theorem Recorded.storedSince {base db db' : Db} {orgId : String} {wrapsTo : Option String}
    {args : RecordArgs} {fresh : Fresh} {e : Event} (hr : Recorded db args fresh e db')
    (h : StoredSince base orgId wrapsTo db) : StoredSince base orgId wrapsTo db' := by
  have hwraps : ∀ o, db'.wrapsTo o = db.wrapsTo o := by
    obtain ⟨ts, ps, ks, hdb⟩ := hr.others
    rw [hdb]
    exact fun _ => rfl
  rcases hr.content with ⟨-, hpayloads, hkeys⟩ | ⟨-, rows, hrows, hpayloads, hkeys⟩
  · exact ⟨hr.stocked h.stocked, (hwraps orgId).trans h.wraps, hpayloads ▸ h.unerased,
      hkeys ▸ h.keys⟩
  · refine ⟨hr.stocked h.stocked, (hwraps orgId).trans h.wraps, ?_, ?_⟩
    · rw [hpayloads]
      intro p hp
      rcases List.mem_append.mp hp with hp | hp
      · exact h.unerased p hp
      · obtain rfl := List.mem_singleton.mp hp
        rw [hrows]
        rfl
    · rw [hkeys]
      intro k hk horg
      rcases List.mem_append.mp hk with hk | hk
      · exact h.keys k hk horg
      · obtain rfl := List.mem_singleton.mp hk
        have horg' : rows.2.orgId = args.orgId := by rw [hrows]; rfl
        rw [hrows, horg'.symm.trans horg, h.wraps]
        right
        cases wrapsTo <;> rfl

theorem storedSince_of_run {base : Db} {orgId : String} {wrapsTo : Option String} {w w' : Vault}
    (h : StoredSince base orgId wrapsTo w.db) (hrun : (vault svc records).Run w w') :
    StoredSince base orgId wrapsTo w'.db := by
  induction hrun with
  | refl => exact h
  | tail _ hstep ih =>
    obtain ⟨⟨args, fresh, rfl⟩, hcall⟩ := hstep
    obtain ⟨⟨_, out⟩, hrecord, rfl⟩ := Except.map_eq_ok.mp hcall
    obtain ⟨e, he, -⟩ := recordEvent_recorded hrecord
    exact he.storedSince ih

theorem unerased_of_records {w : Vault} (h : (vault svc records).Reachable w) :
    ∀ p ∈ w.db.payloads, p.erasedAt = none := by
  obtain ⟨w₀, ⟨-, hbare⟩, hrun⟩ := h
  have hbase : StoredSince w₀.db "" (w₀.db.wrapsTo "") w₀.db :=
    ⟨hbare.stocked, rfl, by simp [hbare.payloads], fun k hk _ => Or.inl hk⟩
  exact (storedSince_of_run hbase hrun).unerased

/-! ## Sample runs -/

theorem managed_sampleBlank : sampleBlank.Managed "acme" := by
  intro o ho _
  obtain rfl := List.mem_singleton.mp ho
  rfl

theorem reachable_sampleBlank : (vault svc allowed).Reachable ⟨sampleBlank, []⟩ :=
  .init ⟨rfl, bare_sampleBlank⟩

/-- The first event of the first trace. -/
theorem exists_recorded_sample (svc : SigningKeyPair) : ∃ db out e,
    recordEvent svc sampleBlank (sampleFirst 1 sampleArgs.payload) (sampleFreshOf 1) =
        .ok (db, out) ∧
      Recorded sampleBlank (sampleFirst 1 sampleArgs.payload) (sampleFreshOf 1) e db ∧
        db.traces.map Trace.id = [Uuid.ofNat 1] ∧ db.events.map Event.id = [Uuid.ofNat 1] :=
  bare_sampleBlank.stocked.exists_first svc 1 sampleArgs.payload rfl nofun nofun nofun

/-- It can be read. -/
theorem exists_readable_sample (svc : SigningKeyPair) : ∃ w e content,
    (vault svc records).Reachable w ∧ w.db.orgs = [sampleOrg] ∧ w.db.Managed "acme" ∧
      w.db.events = [e] ∧ e.id = Uuid.ofNat 1 ∧ w.db.traces.map Trace.id = [Uuid.ofNat 1] ∧
      e.Records (sampleFirst 1 sampleArgs.payload) ∧
      (w.db.getPayload "acme" (sha256Hex (redactPayload sampleArgs.payload).1)).isSome = true ∧
      readPayloadContent w.db "acme" (sha256Hex (redactPayload sampleArgs.payload).1) =
        some content := by
  obtain ⟨db, out, e, hrecord, hr, htraces, -⟩ := exists_recorded_sample svc
  have hreach : (vault svc records).Reachable ⟨db, _⟩ :=
    reachable_sampleBlank.step (.call ⟨_, _, rfl⟩ (VaultOp.run_record hrecord))
  obtain ⟨ts, ps, ks, hdb⟩ := hr.others
  have horgs : db.orgs = [sampleOrg] := by rw [hdb]; rfl
  have hmanaged : db.Managed "acme" := by
    rw [Db.Managed, horgs]
    exact managed_sampleBlank
  have hevents : db.events = [e] := by rw [hdb]; rfl
  have hstocked := stocked_of_reachable hreach
  obtain ⟨p, hp, hporg, hphash⟩ := hstocked.stored e (by simp [hevents])
  have horg : p.orgId = "acme" := hporg.trans hr.records.orgId_eq
  have hhash : p.payloadHash = sha256Hex (redactPayload sampleArgs.payload).1 :=
    hphash.trans hr.hash_eq
  have hread := hstocked.read_of_raw hp (unerased_of_records hreach p hp) fun k hk hkorg _ =>
    rawWhileManaged_of_reachable hreach k hk (by rwa [hkorg, horg])
  rw [horg, hhash] at hread
  exact ⟨⟨db, _⟩, e, _, hreach, horgs, hmanaged, hevents, hr.id_eq, htraces, hr.records,
    Db.getPayload_isSome.mpr ⟨p, hp, horg, hhash⟩, hread⟩

def sampleErase : EraseArgs := ⟨"acme", Uuid.ofNat 1, 1, "officer", "request of the subject"⟩

def sampleEraseFresh : EraseFresh := ⟨sampleFresh.now, sampleFreshOf 9, sampleFreshOf 9⟩

/-- Two first events, and an erasure that targets one of them. -/
theorem exists_erased_sample (svc : SigningKeyPair) (payload : Dict) : ∃ w e f db' out,
    (vault svc records).Reachable w ∧ w.db.events = [e, f] ∧
      (e.id = Uuid.ofNat 1 ∧ e.payloadHash = sha256Hex (redactPayload sampleArgs.payload).1) ∧
      (f.id = Uuid.ofNat 2 ∧ f.orgId = "acme" ∧
        f.payloadHash = sha256Hex (redactPayload payload).1) ∧
      w.db.Managed "acme" ∧ w.db.hasOrg "acme" = true ∧
      w.db.traces.map Trace.id = [Uuid.ofNat 1, Uuid.ofNat 2] ∧
      eraseEventPayload svc w.db sampleErase sampleEraseFresh = .ok (db', out) ∧
        Erased w.db sampleErase sampleEraseFresh e db' ∧ out.targetPayloadHash = e.payloadHash := by
  obtain ⟨⟨db₁, past⟩, e, -, hreach₁, horgs₁, hmanaged₁, hevents₁, heid, htraces₁, he, -⟩ :=
    exists_readable_sample svc
  have hids₁ : db₁.events.map Event.id = [Uuid.ofNat 1] := by rw [hevents₁, ← heid]; rfl
  obtain ⟨db₂, out₂, f, hrecord₂, hr₂, htraces₂, hids₂⟩ :=
    (stocked_of_reachable hreach₁).exists_first svc 2 payload (by rw [Db.hasOrg, horgs₁]; rfl)
      (by simp [hmanaged₁.wrapsTo]) (by rw [htraces₁]; decide) (by rw [hids₁]; decide)
  have hreach₂ : (vault svc records).Reachable ⟨db₂, _⟩ :=
    hreach₁.step (.call ⟨_, _, rfl⟩ (VaultOp.run_record hrecord₂))
  obtain ⟨ts₂, ps₂, ks₂, hdb₂⟩ := hr₂.others
  have horgs₂ : db₂.orgs = [sampleOrg] := by rw [hdb₂, ← horgs₁]
  have hmanaged₂ : db₂.Managed "acme" := by
    rw [Db.Managed, horgs₂]
    exact managed_sampleBlank
  have hevents₂ : db₂.events = [e, f] := by rw [hdb₂, hevents₁]; rfl
  have hstocked := stocked_of_reachable hreach₂
  have htarget : sampleErase.target db₂ = some e := by
    have hrows : db₂.traceRows "acme" (Uuid.ofNat 1) = [e] := by
      have hf : f.traceId ≠ Uuid.ofNat 1 :=
        hr₂.records.traceId_eq.trans_ne (show Uuid.ofNat 2 ≠ Uuid.ofNat 1 by decide)
      have hcols : e.orgId = "acme" ∧ e.traceId = Uuid.ofNat 1 := ⟨he.orgId_eq, he.traceId_eq⟩
      simp [Db.traceRows, hevents₂, hcols, hf]
    have hseq : e.seq = 1 := he.seq_eq
    simp [EraseArgs.target, sampleErase, Db.eventsForTrace, hrows, hseq]
  obtain ⟨p, hp, horg, hhash⟩ := hstocked.stored e (by simp [hevents₂])
  have horg' : p.orgId = "acme" := horg.trans he.orgId_eq
  have hget := Db.getPayload_of_mem hstocked.keyed.payloads hp
  rw [horg', hhash] at hget
  have hpv : optTextOk e.policyVersion = true := by rw [he.policyVersion_eq]; rfl
  have hid : ∀ x ∈ db₂.events, x.id ≠ sampleEraseFresh.event.eventId := by
    intro x hx heq
    have hmem := List.mem_map_of_mem (f := Event.id) hx
    rw [heq, hids₂, hids₁] at hmem
    revert hmem
    decide
  obtain ⟨db', out, herase⟩ := hstocked.erasable svc htarget hget
    (unerased_of_records hreach₂ p hp) hpv (by rw [Db.hasOrg, sampleErase, horgs₂]; rfl) hid
    (by simp [sampleErase, hmanaged₂.wrapsTo])
  obtain ⟨target, herased, hout⟩ := eraseEventPayload_erased herase
  obtain rfl := Option.some.inj (htarget.symm.trans herased.target_eq)
  exact ⟨⟨db₂, _⟩, e, f, db', out, hreach₂, hevents₂, ⟨heid, he.payloadHash_eq⟩,
    ⟨hr₂.id_eq, hr₂.records.orgId_eq, hr₂.hash_eq⟩, hmanaged₂, by rw [Db.hasOrg, horgs₂]; rfl,
    by rw [htraces₂, htraces₁]; rfl, herase, herased, hout⟩

/-! ## Erasing one content -/

/-- An erasure leaves what is read for every event with another organisation or
fingerprint than its target. -/
theorem erase_frame {w : Vault} (h : (vault svc anyCall).Reachable w) {args : EraseArgs}
    {fresh : EraseFresh} {db' : Db} {out : EraseOut}
    (herase : eraseEventPayload svc w.db args fresh = .ok (db', out)) {f : Event}
    (hf : f ∈ w.db.events)
    (hother : ¬(f.orgId = args.orgId ∧ f.payloadHash = out.targetPayloadHash)) :
    readPayloadContent db' f.orgId f.payloadHash =
      readPayloadContent w.db f.orgId f.payloadHash := by
  obtain ⟨target, herased, hhash⟩ := eraseEventPayload_erased herase
  have hrun := VaultOp.run_erase herase
  refine (VaultOp.run_sameRows hrun ?_ ?_).read
  · exact Db.getPayload_isSome.mpr ((stocked_of_reachable h).stored f hf)
  · rintro ⟨horg, target', htarget, hsame⟩
    obtain rfl := Option.some.inj (herased.target_eq.symm.trans htarget)
    exact hother ⟨horg.symm, hsame.symm.trans hhash.symm⟩

end Calls

section Samples

open Sample

/-- An erasure takes the content from the other events that share it. -/
theorem erase_takes_equal : ¬ ∀ (w : Vault) (args : EraseArgs) (fresh : EraseFresh) (db' : Db)
    (out : EraseOut) (target : Event), (vault sampleKey anyCall).Reachable w →
    args.target w.db = some target →
    eraseEventPayload sampleKey w.db args fresh = .ok (db', out) →
    ∀ f ∈ w.db.events, f ≠ target →
      readPayloadContent db' f.orgId f.payloadHash =
        readPayloadContent w.db f.orgId f.payloadHash := by
  intro hclaim
  obtain ⟨w, e, f, db', out, hreach, hevents, ⟨heid, hehash⟩, ⟨hfid, hforg, hfhash⟩, hmanaged, -, -,
    herase, herased, -⟩ := exists_erased_sample sampleKey sampleArgs.payload
  have hne : f ≠ e := by
    rintro rfl
    exact absurd (hfid.symm.trans heid) (by decide)
  have hf : f ∈ w.db.events := by simp [hevents]
  have hsame := hclaim w _ _ db' out e (vault_mono (fun _ _ _ => trivial) hreach)
    herased.target_eq herase f hf hne
  have hstocked := stocked_of_reachable hreach
  obtain ⟨p, hp, horg, hhash⟩ := hstocked.stored f hf
  have hread := hstocked.read_of_raw hp (unerased_of_records hreach p hp) fun k hk hkorg _ =>
    rawWhileManaged_of_reachable hreach k hk (by rwa [hkorg, horg, hforg])
  have hdark : readPayloadContent db' "acme" e.payloadHash = none := erase_dark herased
  rw [horg, hhash, ← hsame, hforg, hfhash, ← hehash, hdark] at hread
  cases hread

theorem erase_frame_sample : ∃ (w : Vault) (f : Event) (db' : Db) (out : EraseOut),
    eraseEventPayload sampleKey w.db sampleErase sampleEraseFresh = .ok (db', out) ∧
      f ∈ w.db.events ∧ readPayloadContent db' f.orgId f.payloadHash =
        readPayloadContent w.db f.orgId f.payloadHash := by
  obtain ⟨w, e, f, db', out, hreach, hevents, ⟨-, hehash⟩, ⟨-, -, hfhash⟩, -, -, -,
      herase, -, hout⟩ :=
    exists_erased_sample sampleKey []
  have hf : f ∈ w.db.events := by simp [hevents]
  have hother : ¬(f.orgId = sampleErase.orgId ∧ f.payloadHash = out.targetPayloadHash) := by
    rw [hfhash, hout, hehash]
    exact fun h => absurd h.2 (by decide +kernel)
  exact ⟨w, f, db', out, herase, hf, erase_frame (vault_mono (fun _ _ _ => trivial) hreach)
    herase hf hother⟩

end Samples

/-! ## Reading what was recorded -/

section Calls

variable [SignatureScheme] [KeyUnwrapping] [PyUnicode] {svc : SigningKeyPair}
  {allowed : Db → VaultOp → Prop}


/-- Until it is erased, what an organisation without customer keys recorded can be read
exactly where the same fingerprint had not been erased before, nor stands for another
content. -/
theorem recorded_readable_iff {w : Vault} (h : (vault svc anyCall).Reachable w)
    {args : RecordArgs} {fresh : Fresh} {db₁ : Db} {out : EventOut}
    (hmode : w.db.Managed args.orgId)
    (hrecord : recordEvent svc w.db args fresh = .ok (db₁, out)) :
    (∀ w', (vault svc fun db op => ¬op.Erases db args.orgId
        (sha256Hex (redactPayload args.payload).1)).Run
          ⟨db₁, (.record args fresh, w.db) :: w.past⟩ w' →
      ∃ content, readPayloadContent w'.db args.orgId (sha256Hex (redactPayload args.payload).1) =
        some content ∧ SameContent content (redactPayload args.payload).1) ↔
    ∀ p, w.db.getPayload args.orgId (sha256Hex (redactPayload args.payload).1) = some p →
      p.erasedAt = none ∧ SameContent p.encryptedBlob.content (redactPayload args.payload).1 := by
  obtain ⟨e, hr, -⟩ := recordEvent_recorded hrecord
  have hstocked : db₁.Stocked := hr.stocked (stocked_of_reachable h)
  have hraw := hr.rawWhileManaged (rawWhileManaged_of_reachable h)
  obtain ⟨p, hp, horg, hhash, hrow⟩ := hr.row
  have hmode' : db₁.Managed args.orgId := by
    obtain ⟨ts, ps, ks, hdb⟩ := hr.others
    rw [hdb]
    exact hmode
  have hget : db₁.getPayload args.orgId e.payloadHash = some p := by
    have hget := Db.getPayload_of_mem hstocked.keyed.payloads hp
    rwa [horg, hhash] at hget
  rw [← hr.hash_eq]
  constructor
  · intro hreads q hq
    obtain ⟨content, hread, hsame⟩ := hreads _ Relation.ReflTransGen.refl
    obtain ⟨q', k, hq', -, hunerased, -, -, rfl, -⟩ := readPayloadContent_eq_some hread
    obtain rfl := Option.some.inj (hget.symm.trans hq')
    rcases hrow with hold | ⟨hnone, -⟩
    · obtain rfl := Option.some.inj (hq.symm.trans hold)
      exact ⟨hunerased, hsame⟩
    · rw [hnone] at hq
      cases hq
  · intro hfirst w' hrun
    obtain ⟨hunerased, hsame⟩ : p.erasedAt = none ∧
        SameContent p.encryptedBlob.content (redactPayload args.payload).1 := by
      rcases hrow with hold | ⟨-, hunerased, hcontent⟩
      · exact hfirst p hold
      · exact ⟨hunerased, congrArg canonicalBytes hcontent⟩
    have hread := hstocked.read_of_raw hp hunerased fun k hk hkorg _ =>
      hraw k hk (by rwa [hkorg, horg])
    rw [horg, hhash] at hread
    refine ⟨_, ?_, hsame⟩
    rw [(sameRows_of_run (fun _ _ hallowed => hallowed) (hget ▸ rfl) hrun).read]
    exact hread

end Calls

section Samples

open Sample

/-- What was recorded once, erased and recorded again cannot be read. -/
theorem erased_content_stays_dark : ¬ ∀ (w : Vault) (args : RecordArgs) (fresh : Fresh) (db₁ : Db)
    (out : EventOut), (vault sampleKey anyCall).Reachable w → w.db.Managed args.orgId →
    recordEvent sampleKey w.db args fresh = .ok (db₁, out) →
    ∀ w', (vault sampleKey fun db op => ¬op.Erases db args.orgId
        (sha256Hex (redactPayload args.payload).1)).Run
          ⟨db₁, (.record args fresh, w.db) :: w.past⟩ w' →
      ∃ content, readPayloadContent w'.db args.orgId (sha256Hex (redactPayload args.payload).1) =
        some content ∧ SameContent content (redactPayload args.payload).1 := by
  intro hclaim
  obtain ⟨w, e, f, db', out, hreach, hevents, ⟨heid, hehash⟩, ⟨hfid, -, -⟩, hmanaged, horg, htraces,
    herase, herased, -⟩ := exists_erased_sample sampleKey sampleArgs.payload
  have hcall : (VaultOp.erase sampleErase sampleEraseFresh).run sampleKey w.db = .ok db' :=
    VaultOp.run_erase herase
  have hreach' : (vault sampleKey anyCall).Reachable ⟨db', _⟩ :=
    (vault_mono (fun _ _ _ => trivial) hreach).step (.call trivial hcall)
  obtain ⟨g, x, hg, hx⟩ := herased.recorded
  obtain ⟨ts, ps, ks, hdb⟩ := hx.others
  have horgs : db'.orgs = w.db.orgs := by rw [hdb]; rfl
  have hmanaged' : db'.Managed "acme" := by rwa [Db.Managed, horgs]
  have hids : db'.events.map Event.id = [Uuid.ofNat 1, Uuid.ofNat 2, Uuid.ofNat 9] := by
    have hxid : x.id = Uuid.ofNat 9 := by
      rcases hg with rfl | rfl
      · exact hx.id_eq
      · exact hx.id_eq
    rw [hdb]
    simp only [Db.shred, hevents, List.cons_append, List.nil_append, List.map_cons, List.map_nil,
      heid, hfid, hxid]
  have hnew : Uuid.ofNat 3 ∉ db'.traces.map Trace.id := by
    obtain ⟨-, -, opened, rows, hopens, -, rfl⟩ := hx
    intro hmem
    rw [List.map_append, List.mem_append] at hmem
    rcases hmem with hmem | hmem
    · rw [Db.shred, htraces] at hmem
      exact absurd hmem (by decide)
    · obtain ⟨t, ht, htid⟩ := List.mem_map.mp hmem
      have hopened := (hopens.new t (Option.mem_toList.mp ht)).1
      exact absurd (htid.symm.trans hopened) (show Uuid.ofNat 3 ≠ Uuid.ofNat 1 by decide)
  obtain ⟨db₁, out₁, y, hrecord, hy, -⟩ := (stocked_of_reachable hreach').exists_first sampleKey 3
    sampleArgs.payload (by rwa [Db.hasOrg, horgs]) (by simp [hmanaged'.wrapsTo]) hnew
    (by rw [hids]; decide)
  obtain ⟨content, hread, -⟩ := hclaim _ _ _ db₁ out₁ hreach' hmanaged' hrecord _ .refl
  have hdark : readPayloadContent db' "acme" e.payloadHash = none := erase_dark herased
  have hthere : (db'.getPayload "acme" e.payloadHash).isSome = true := by
    have he : e ∈ db'.events := by
      rw [hdb]
      exact List.mem_append_left _ herased.target_mem.1
    have hrow := (stocked_of_reachable hreach').stored e he
    rw [herased.target_mem.2.1] at hrow
    exact Db.getPayload_isSome.mpr hrow
  have hstill : readPayloadContent db₁ "acme" e.payloadHash = none :=
    (hy.sameRows hthere).read.trans hdark
  rw [hehash] at hstill
  cases hstill.symm.trans hread

/-- One content is recorded in two traces. The second time it is there already, and stays
readable. -/
theorem recorded_readable_iff_sample : ∃ db₁ out₁ db₂ out₂,
    recordEvent sampleKey sampleBlank (sampleFirst 1 sampleArgs.payload) (sampleFreshOf 1) =
        .ok (db₁, out₁) ∧
      recordEvent sampleKey db₁ (sampleFirst 2 sampleArgs.payload) (sampleFreshOf 2) =
        .ok (db₂, out₂) ∧
      (db₁.getPayload "acme" (sha256Hex (redactPayload sampleArgs.payload).1)).isSome = true ∧
      ∃ content, readPayloadContent db₂ "acme" (sha256Hex (redactPayload sampleArgs.payload).1) =
        some content ∧ SameContent content (redactPayload sampleArgs.payload).1 := by
  obtain ⟨db₁, out₁, e, hrecord₁, hr₁, htraces₁, hids₁⟩ := exists_recorded_sample sampleKey
  have hreads₁ := (recorded_readable_iff reachable_sampleBlank managed_sampleBlank
    hrecord₁).mpr nofun
  obtain ⟨content, hread, hsame⟩ := hreads₁ _ .refl
  obtain ⟨p, k, hp, -, hlive, -, -, rfl, -⟩ := readPayloadContent_eq_some hread
  have hreach₁ : (vault sampleKey anyCall).Reachable ⟨db₁, _⟩ :=
    reachable_sampleBlank.step (.call trivial (VaultOp.run_record hrecord₁))
  have horgs₁ : db₁.orgs = [sampleOrg] := by
    obtain ⟨ts, ps, ks, hdb⟩ := hr₁.others
    rw [hdb]
    rfl
  have hmanaged₁ : db₁.Managed "acme" := by
    rw [Db.Managed, horgs₁]
    exact managed_sampleBlank
  obtain ⟨db₂, out₂, e₂, hrecord₂, -⟩ := (stocked_of_reachable hreach₁).exists_first sampleKey 2
    sampleArgs.payload (by rw [Db.hasOrg, horgs₁]; rfl) (by simp [hmanaged₁.wrapsTo])
    (by rw [htraces₁]; decide) (by rw [hids₁]; decide)
  have hreads₂ := (recorded_readable_iff hreach₁ hmanaged₁ hrecord₂).mpr fun q hq => by
    obtain rfl := Option.some.inj (hp.symm.trans hq)
    exact ⟨hlive, hsame⟩
  exact ⟨db₁, out₁, db₂, out₂, hrecord₁, hrecord₂, Option.isSome_of_eq_some hp, hreads₂ _ .refl⟩

end Samples

/-! ## Switching to customer keys -/

section Calls

variable [SignatureScheme] [KeyUnwrapping] [PyUnicode] {svc : SigningKeyPair}
  {allowed : Db → VaultOp → Prop}

/-- The key of an organisation that has switched. -/
theorem enableCustomerKeyMode_wrapsTo {db db' : Db} {orgId pem : String}
    (h : enableCustomerKeyMode db orgId pem = .ok db') :
    (∀ o, db'.wrapsTo o =
      if o = orgId then (if pem = "" then none else some pem) else db.wrapsTo o) ∧
      ∃ orgs, db' = { db with orgs := orgs } ∧ orgs.map Org.id = db.orgs.map Org.id := by
  unfold enableCustomerKeyMode at h
  cases hget : db.getOrgById orgId with
  | none => simp [hget] at h
  | some org =>
    rw [hget] at h
    obtain rfl := Except.ok.inj h
    refine ⟨fun o => ?_, _, rfl, ?_⟩
    · have hid (x : Org) : decide ((if x.id = orgId then
          { x with confidentialityMode := "customer_key", wrappingPublicPem := some pem }
          else x).id = o) = decide (x.id = o) := by
        split <;> rfl
      simp only [Db.wrapsTo, Db.getOrgById, List.find?_map, Function.comp_def, hid]
      by_cases ho : o = orgId
      · subst ho
        have horg : org.id = o := by simpa using List.find?_some hget
        have hfind : (db.orgs.find? fun x => x.id = o) = some org := hget
        simp only [hfind, Option.map_some, Option.bind_some, Org.wrapsTo, horg, if_true]
      · rw [if_neg ho]
        cases hfind : db.orgs.find? fun x => x.id = o with
        | none => rfl
        | some x =>
          have hx : x.id = o := by simpa using List.find?_some hfind
          simp only [Option.map_some, Option.bind_some, hx, if_neg ho]
    · rw [List.map_map]
      refine List.map_congr_left fun o _ => ?_
      simp only [Function.comp_apply]
      split <;> rfl

/-- What an organisation records after its switch is dark from then on exactly where the
wrapping key is not empty and it had not recorded the same fingerprint before. -/
theorem dark_iff {w : Vault} (h : (vault svc records).Reachable w) {args : RecordArgs}
    {pem : String} {db₁ : Db} (hmode : w.db.Managed args.orgId)
    (hswitch : enableCustomerKeyMode w.db args.orgId pem = .ok db₁) {w₁ : Vault}
    (hrun : (vault svc records).Run ⟨db₁, (.enableCustomerKey args.orgId pem, w.db) :: w.past⟩ w₁)
    {fresh : Fresh} {db₂ : Db} {out : EventOut}
    (hrecord : recordEvent svc w₁.db args fresh = .ok (db₂, out)) :
    (∀ w', (vault svc records).Run ⟨db₂, (.record args fresh, w₁.db) :: w₁.past⟩ w' →
      readPayloadContent w'.db args.orgId (sha256Hex (redactPayload args.payload).1) = none) ↔
    pem ≠ "" ∧ ∀ e ∈ w.db.events, e.orgId = args.orgId →
      e.payloadHash ≠ sha256Hex (redactPayload args.payload).1 := by
  have hstocked := stocked_of_reachable h
  have hraw := rawWhileManaged_of_reachable h
  obtain ⟨hwraps, orgs, rfl, hids⟩ := enableCustomerKeyMode_wrapsTo hswitch
  have hstocked₁ : ({ w.db with orgs := orgs } : Db).Stocked :=
    Touched.stocked (.switched hswitch) hstocked
  have hsince₁ : StoredSince w.db args.orgId (if pem = "" then none else some pem)
      { w.db with orgs := orgs } :=
    ⟨hstocked₁, (hwraps args.orgId).trans (if_pos rfl), unerased_of_records h,
      fun k hk _ => Or.inl hk⟩
  have hsince := storedSince_of_run hsince₁ hrun
  obtain ⟨e, hr, -⟩ := recordEvent_recorded hrecord
  have hsince₂ := hr.storedSince hsince
  rw [← hr.hash_eq]
  constructor
  · intro hdark
    have hdark₂ := hdark _ Relation.ReflTransGen.refl
    refine ⟨?_, fun x hx hxorg hxhash => ?_⟩
    · -- Nothing is wrapped to an empty PEM.
      rintro rfl
      obtain ⟨p, hp, horg, hhash, -⟩ := hr.row
      have hread := hsince₂.stocked.read_of_raw hp (hsince₂.unerased p hp) fun k hk hkorg _ =>
        (hsince₂.keys k hk (hkorg.trans horg)).elim
          (fun hold => hraw k hold (by rwa [hkorg, horg])) id
      rw [horg, hhash, hdark₂] at hread
      cases hread
    · -- The row of the earlier event is still there, and in the clear.
      obtain ⟨p, hp, horg, hhash⟩ := hstocked.stored x hx
      have hread := hstocked.read_of_raw hp (unerased_of_records h p hp) fun k hk hkorg _ =>
        hraw k hk (by rwa [hkorg, horg, hxorg])
      rw [horg, hhash, hxorg, hxhash] at hread
      have hthere : (w.db.getPayload args.orgId e.payloadHash).isSome = true :=
        Db.getPayload_isSome.mpr ⟨p, hp, horg.trans hxorg, hhash.trans hxhash⟩
      have hswitched : SameRows w.db { w.db with orgs := orgs } args.orgId e.payloadHash :=
        ⟨rfl, rfl⟩
      have hlater : SameRows { w.db with orgs := orgs } w₁.db args.orgId e.payloadHash :=
        sameRows_of_run (records_keeps args.orgId e.payloadHash) (by exact hthere) hrun
      have hthen := hswitched.trans hlater
      have hsame := hthen.trans (hr.sameRows (hthen.payload ▸ hthere))
      rw [hsame.read, hread] at hdark₂
      cases hdark₂
  · rintro ⟨hpem, hnew⟩ w' hrun'
    have hsince' := storedSince_of_run hsince₂ hrun'
    cases hread : readPayloadContent w'.db args.orgId e.payloadHash with
    | none => rfl
    | some content =>
      obtain ⟨p, k, -, hk, -, hclear, -⟩ := readPayloadContent_eq_some hread
      obtain ⟨hmem, horg, hhash⟩ := Db.mem_of_getPayloadKey hk
      rcases hsince'.keys k hmem horg with hold | hwrapped
      · obtain ⟨q, hq, hqorg, hqhash, -⟩ := hstocked.keys k hold
        obtain ⟨x, hx, hxorg, hxhash⟩ := hstocked.recorded q hq
        exact absurd (hxhash.trans (hqhash.trans hhash))
          (hnew x hx (hxorg.trans (hqorg.trans horg)))
      · rw [hclear, if_neg hpem] at hwrapped
        cases hwrapped

end Calls

section Samples

open Sample

theorem exists_switched_sample {db : Db} (horgs : db.orgs = [sampleOrg]) : ∃ orgs,
    enableCustomerKeyMode db "acme" "pem" = .ok { db with orgs := orgs } ∧
      ({ db with orgs := orgs } : Db).hasOrg "acme" = true := by
  have hget : db.getOrgById "acme" = some sampleOrg := by simp [Db.getOrgById, horgs, sampleOrg]
  refine ⟨_, by rw [enableCustomerKeyMode, hget], ?_⟩
  simp [Db.hasOrg, horgs, sampleOrg]

/-- What was recorded before the switch is still read when it is recorded again. -/
theorem switched_content_stays_clear : ¬ ∀ (w : Vault) (args : RecordArgs) (pem : String)
    (db₁ : Db) (w₁ : Vault) (fresh : Fresh) (db₂ : Db) (out : EventOut),
    (vault sampleKey records).Reachable w → w.db.Managed args.orgId →
    enableCustomerKeyMode w.db args.orgId pem = .ok db₁ →
    (vault sampleKey records).Run ⟨db₁, (.enableCustomerKey args.orgId pem, w.db) :: w.past⟩ w₁ →
    recordEvent sampleKey w₁.db args fresh = .ok (db₂, out) →
    ∀ w', (vault sampleKey records).Run ⟨db₂, (.record args fresh, w₁.db) :: w₁.past⟩ w' →
      readPayloadContent w'.db args.orgId (sha256Hex (redactPayload args.payload).1) = none := by
  intro hclaim
  obtain ⟨⟨db, past⟩, e, content, hreach, horgs, hmanaged, hevents, hid, htraces, -,
      hthere, hread⟩ :=
    exists_readable_sample sampleKey
  obtain ⟨orgs, hswitch, horg⟩ := exists_switched_sample horgs
  have hstocked : ({ db with orgs := orgs } : Db).Stocked :=
    Touched.stocked (.switched hswitch) (stocked_of_reachable hreach)
  obtain ⟨db₂, out₂, f, hrecord, hr, -⟩ := hstocked.exists_first sampleKey 2 sampleArgs.payload horg
    (fun _ _ => rfl) (by rw [htraces]; decide) (by rw [hevents, List.map_singleton, hid]; decide)
  have hdark := hclaim _ _ _ _ _ _ _ _ hreach hmanaged hswitch .refl hrecord _ .refl
  have hstill := (hr.sameRows hthere).read.trans hread
  cases hdark.symm.trans hstill

theorem dark_iff_sample : ∃ db₂ out, recordEvent sampleKey
    { sampleBlank with orgs := [{ sampleOrg with confidentialityMode := "customer_key"
                                                 wrappingPublicPem := some "pem" }] }
    (sampleFirst 1 sampleArgs.payload) (sampleFreshOf 1) = .ok (db₂, out) ∧
      readPayloadContent db₂ "acme" (sha256Hex (redactPayload sampleArgs.payload).1) = none := by
  have hswitch : enableCustomerKeyMode sampleBlank "acme" "pem" = .ok { sampleBlank with
      orgs := [{ sampleOrg with confidentialityMode := "customer_key"
                                wrappingPublicPem := some "pem" }] } := rfl
  have hstocked := Touched.stocked (.switched hswitch) bare_sampleBlank.stocked
  obtain ⟨db₂, out, e, hrecord, -⟩ := hstocked.exists_first sampleKey 1 sampleArgs.payload rfl
    (fun _ _ => rfl) nofun nofun
  have hiff := dark_iff (w := ⟨sampleBlank, []⟩) reachable_sampleBlank managed_sampleBlank hswitch
    .refl hrecord
  have hnone (x : Event) (hx : x ∈ sampleBlank.events) : False := by cases hx
  exact ⟨db₂, out, hrecord, hiff.mpr ⟨by decide, fun x hx => (hnone x hx).elim⟩ _ .refl⟩

end Samples

/-! ## Rows that are moved about -/

section Calls

variable [SignatureScheme] [KeyUnwrapping] [PyUnicode] {svc : SigningKeyPair}
  {allowed : Db → VaultOp → Prop}

/-- Calls that record, and switches to customer keys. -/
def recordsOrSwitches (_ : Db) (op : VaultOp) : Prop :=
  (∃ args fresh, op = .record args fresh) ∨ ∃ orgId pem, op = .enableCustomerKey orgId pem

/-- The payloads and their keys with what they hold put into any rows, under any labels
and marks. -/
structure Rearranged (db db' : Db) : Prop where
  blobs : ∀ p ∈ db'.payloads, ∃ q ∈ db.payloads, p.encryptedBlob = q.encryptedBlob
  keys : ∀ k ∈ db'.payloadKeys, ∃ l ∈ db.payloadKeys, k.key = l.key

theorem aad_inj {a a' orgId orgId' payloadHash payloadHash' : String}
    (h : aad a orgId payloadHash = aad a' orgId' payloadHash') :
    a = a' ∧ orgId = orgId' ∧ payloadHash = payloadHash' := by
  have hkey (key : String) := JVal.get?_eq_of_sortKeys_eq (canonicalBytes_inj.mp h)
    (by simp) key
  have halg : a = a' := by simpa [Dict.get?, JVal.sortKeys] using hkey "alg"
  have horg : orgId = orgId' := by simpa [Dict.get?, JVal.sortKeys] using hkey "org_id"
  have hhash : payloadHash = payloadHash' := by
    simpa [Dict.get?, JVal.sortKeys] using hkey "payload_hash"
  exact ⟨halg, horg, hhash⟩

/-- A call of the run recorded this content for the organisation. -/
def Vault.RecordedFor (w : Vault) (orgId : String) (content : Dict) : Prop :=
  ∃ args fresh db, (.record args fresh, db) ∈ w.past ∧ args.orgId = orgId ∧
    (redactPayload args.payload).1 = content

theorem recordedFor_of_reachable {w : Vault} (h : (vault svc recordsOrSwitches).Reachable w) :
    ∀ p ∈ w.db.payloads, w.RecordedFor p.orgId p.encryptedBlob.content := by
  refine TransitionSystem.invariant (P := fun w => ∀ p ∈ w.db.payloads,
    w.RecordedFor p.orgId p.encryptedBlob.content) ?_ ?_ h
  · rintro w ⟨-, hbare⟩ p hp
    rw [hbare.payloads] at hp
    cases hp
  · rintro w w' ih ⟨hallowed, hcall⟩ p hp
    have hlater {p : Payload} (hp : p ∈ w.db.payloads) {op : VaultOp} {db' : Db} :
        Vault.RecordedFor ⟨db', (op, w.db) :: w.past⟩ p.orgId p.encryptedBlob.content := by
      obtain ⟨args, fresh, db, hmem, hrest⟩ := ih p hp
      exact ⟨args, fresh, db, List.mem_cons_of_mem _ hmem, hrest⟩
    rcases hallowed with ⟨args, fresh, rfl⟩ | ⟨orgId, pem, rfl⟩
    · obtain ⟨⟨_, out⟩, hrecord, rfl⟩ := Except.map_eq_ok.mp hcall
      obtain ⟨e, he, -⟩ := recordEvent_recorded hrecord
      rcases he.content with ⟨-, hpayloads, -⟩ | ⟨-, rows, hrows, hpayloads, -⟩
      · exact hlater (hpayloads ▸ hp)
      · rcases List.mem_append.mp (hpayloads ▸ hp) with hp | hp
        · exact hlater hp
        · obtain rfl := List.mem_singleton.mp hp
          refine ⟨args, fresh, w.db, List.mem_cons_self, ?_⟩
          rw [hrows]
          exact ⟨rfl, rfl⟩
    · obtain ⟨-, orgs, rfl, -⟩ := enableCustomerKeyMode_wrapsTo hcall
      exact hlater hp

/-- What is read for an organisation and a fingerprint, after any rearrangement of the
rows, was recorded for both. -/
theorem read_of_rearranged {w : Vault} (h : (vault svc recordsOrSwitches).Reachable w) {db' : Db}
    (hmoved : Rearranged w.db db') {orgId payloadHash : String} {content : Dict}
    (hread : readPayloadContent db' orgId payloadHash = some content) :
    w.RecordedFor orgId content ∧ sha256Hex content = payloadHash := by
  obtain ⟨p, k, hp, -, -, -, -, rfl, haad⟩ := readPayloadContent_eq_some hread
  obtain ⟨q, hq, hblob⟩ := hmoved.blobs p (Db.mem_of_getPayload hp).1
  obtain ⟨-, hqaad, hqhash⟩ := (stocked_of_reachable h).sealed q hq
  rw [hblob, hqaad] at haad
  obtain ⟨-, rfl, rfl⟩ := aad_inj haad
  rw [hblob]
  exact ⟨recordedFor_of_reachable h q hq, hqhash⟩

end Calls

section Samples

open Sample

/-- The rows, and copies of them moved to another organisation. -/
def Db.copiedTo (db : Db) (orgId : String) : Db :=
  { db with
    payloads := db.payloads ++ db.payloads.map fun p => { p with orgId := orgId }
    payloadKeys := db.payloadKeys ++ db.payloadKeys.map fun k => { k with orgId := orgId } }

theorem rearranged_copiedTo (db : Db) (orgId : String) : Rearranged db (db.copiedTo orgId) where
  blobs p hp := by
    rcases List.mem_append.mp hp with hp | hp
    · exact ⟨p, hp, rfl⟩
    · obtain ⟨q, hq, rfl⟩ := List.mem_map.mp hp
      exact ⟨q, hq, rfl⟩
  keys k hk := by
    rcases List.mem_append.mp hk with hk | hk
    · exact ⟨k, hk, rfl⟩
    · obtain ⟨l, hl, rfl⟩ := List.mem_map.mp hk
      exact ⟨l, hl, rfl⟩

/-- Rows copied to another organisation read for their own alone. -/
theorem read_of_rearranged_sample : ∃ (w : Vault) (payloadHash : String),
    ((w.db.copiedTo "globex").getPayload "globex" payloadHash).isSome = true ∧
      (∃ content, readPayloadContent (w.db.copiedTo "globex") "acme" payloadHash = some content ∧
        w.RecordedFor "acme" content) ∧
      readPayloadContent (w.db.copiedTo "globex") "globex" payloadHash = none := by
  obtain ⟨db, out, e, hrecord, hr, -⟩ := exists_recorded_sample sampleKey
  obtain ⟨content, hread, -⟩ := (recorded_readable_iff reachable_sampleBlank managed_sampleBlank
    hrecord).mpr nofun _ .refl
  have hreach : (vault sampleKey recordsOrSwitches).Reachable ⟨db, _⟩ :=
    reachable_sampleBlank.step (.call (Or.inl ⟨_, _, rfl⟩) (VaultOp.run_record hrecord))
  have hmoved := rearranged_copiedTo db "globex"
  obtain ⟨p, k, hp, hk, -⟩ := readPayloadContent_eq_some hread
  have hsame : readPayloadContent (db.copiedTo "globex") "acme"
      (sha256Hex (redactPayload sampleArgs.payload).1) = some content := by
    have hp' : (db.copiedTo "globex").getPayload "acme"
        (sha256Hex (redactPayload sampleArgs.payload).1) = some p := by
      rw [Db.getPayload, Db.copiedTo, List.find?_append]
      exact congrArg (Option.or · _) hp
    have hk' : (db.copiedTo "globex").getPayloadKey "acme"
        (sha256Hex (redactPayload sampleArgs.payload).1) = some k := by
      rw [Db.getPayloadKey, Db.copiedTo, List.find?_append]
      exact congrArg (Option.or · _) hk
    rw [← hread, readPayloadContent, readPayloadContent, hp, hk, hp', hk']
    rfl
  refine ⟨⟨db, _⟩, _, ?_, ⟨content, hsame, (read_of_rearranged hreach hmoved hsame).1⟩, ?_⟩
  · obtain ⟨hmem, -, hhash⟩ := Db.mem_of_getPayload hp
    exact Db.getPayload_isSome.mpr ⟨{ p with orgId := "globex" },
      List.mem_append_right _ (List.mem_map_of_mem hmem), rfl, hhash⟩
  · cases hread' : readPayloadContent (db.copiedTo "globex") "globex"
        (sha256Hex (redactPayload sampleArgs.payload).1) with
    | none => rfl
    | some stolen =>
      obtain ⟨args, fresh, db₀, hpast, horg, -⟩ := (read_of_rearranged hreach hmoved hread').1
      obtain ⟨hcall, -⟩ := Prod.mk.inj (List.mem_singleton.mp hpast)
      obtain ⟨rfl, -⟩ := VaultOp.record.inj hcall
      exact absurd horg (by decide)

end Samples

end Attest
