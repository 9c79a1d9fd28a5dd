import Attest.Events

/-!
# What recording takes and leaves

A call of `recordEvent` appends its event and stores the redacted payload once per
organisation and fingerprint : rows for a payload that is there already are left as
they are, new ones are sealed under the call's key (`recordEvent_recorded`). It goes
through where its arguments are stored texts, its number is the next one and the
wrapping key can be used (`recordEvent_succeeds`).

A row sealed with the associated data of its own columns, whose key is held as it is,
reads back (`readPayloadContent_of_rows`).
-/

set_option linter.unusedSectionVars false

namespace Attest

/-! ## The rows of a content -/

/-- The stored form of a content key and its wrapping suite. -/
def storedKey (wrapsTo : Option String) (key : Bytes) : StoredKey × Option String :=
  match wrapsTo with
  | some pem => (.wrapped pem key, some defaultWrapAlgorithm)
  | none => (.raw key, none)

/-- The two rows of a content that is not there. -/
def contentRows (wrapsTo : Option String) (orgId payloadHash : String) (content : Dict)
    (piiLabels : List String) (key : Bytes) : Payload × PayloadKey :=
  (⟨orgId, payloadHash, ⟨key, aad defaultContentAlgorithm orgId payloadHash, content⟩,
      defaultContentAlgorithm, piiLabels, none⟩,
    ⟨orgId, payloadHash, (storedKey wrapsTo key).1, (storedKey wrapsTo key).2⟩)

/-- The key content of the organisation is wrapped to. -/
def Db.wrapsTo (db : Db) (orgId : String) : Option String :=
  (db.getOrgById orgId).bind Org.wrapsTo

/-- The database with the rows of a content, if any, in the content tables. -/
def Db.withRows (db : Db) (rows : Option (Payload × PayloadKey)) : Db :=
  { db with payloads := db.payloads ++ rows.toList.map Prod.fst
            payloadKeys := db.payloadKeys ++ rows.toList.map Prod.snd }

theorem Db.mem_of_getPayload {db : Db} {orgId payloadHash : String} {p : Payload}
    (h : db.getPayload orgId payloadHash = some p) :
    p ∈ db.payloads ∧ p.orgId = orgId ∧ p.payloadHash = payloadHash :=
  ⟨List.mem_of_find?_eq_some h, by simpa using List.find?_some h⟩

theorem Db.mem_of_getPayloadKey {db : Db} {orgId payloadHash : String} {k : PayloadKey}
    (h : db.getPayloadKey orgId payloadHash = some k) :
    k ∈ db.payloadKeys ∧ k.orgId = orgId ∧ k.payloadHash = payloadHash :=
  ⟨List.mem_of_find?_eq_some h, by simpa using List.find?_some h⟩

theorem Db.getPayload_eq_none {db : Db} {orgId payloadHash : String} :
    db.getPayload orgId payloadHash = none ↔
      ∀ p ∈ db.payloads, p.orgId = orgId → p.payloadHash ≠ payloadHash := by
  simp [getPayload, List.find?_eq_none]

section Store

variable [KeyWrapping]

/-- The rows a store adds. -/
theorem sealPayload_eq_ok {db : Db} {orgId payloadHash : String} {content : Dict}
    {labels : List String} {key : Bytes} {rows : Option (Payload × PayloadKey)} :
    sealPayload db orgId payloadHash content labels key = .ok rows ↔
      (rows = none ∧ (db.getPayload orgId payloadHash).isSome = true) ∨
        (db.getPayload orgId payloadHash = none ∧
          (∀ pem, db.wrapsTo orgId = some pem → KeyWrapping.publicKind pem = .usable) ∧
          rows = some (contentRows (db.wrapsTo orgId) orgId payloadHash content labels key)) := by
  unfold sealPayload
  cases hget : db.getPayload orgId payloadHash with
  | some p =>
    simp [eq_comm]
  | none =>
    have hwraps : (db.getOrgById orgId).bind Org.wrapsTo = db.wrapsTo orgId := rfl
    simp only [hwraps]
    cases hpem : db.wrapsTo orgId with
    | none => simp [contentRows, storedKey, eq_comm]
    | some pem =>
      simp only [wrapKey]
      cases hkind : KeyWrapping.publicKind pem with
      | usable => simp [Except.map, contentRows, storedKey, eq_comm, hkind]
      | other => simp [Except.map, hkind]
      | invalid => simp [Except.map, hkind]

theorem insertSealed_withRows {db db' : Db} {rows : Option (Payload × PayloadKey)}
    (h : insertSealed db rows = .ok db') : db' = db.withRows rows := by
  cases rows with
  | none =>
    obtain rfl := Except.ok.inj h
    simp [Db.withRows]
  | some rows => exact (Db.insertPayload_eq_ok.mp h).2

/-- Where every key row has its payload, the rows of a content can be inserted. -/
theorem insertSealed_of_sealPayload {db : Db} {orgId payloadHash : String} {content : Dict}
    {labels : List String} {key : Bytes} {rows : Option (Payload × PayloadKey)}
    (h : sealPayload db orgId payloadHash content labels key = .ok rows)
    (horg : db.hasOrg orgId = true)
    (hkeyed : ∀ k ∈ db.payloadKeys, (db.getPayload k.orgId k.payloadHash).isSome = true) :
    insertSealed db rows = .ok (db.withRows rows) := by
  rcases sealPayload_eq_ok.mp h with ⟨rfl, -⟩ | ⟨hnone, -, rfl⟩
  · simp [insertSealed, Db.withRows]
  · refine Db.insertPayload_eq_ok.mpr ⟨⟨Db.getPayload_eq_none.mp hnone, ?_, horg⟩, rfl⟩
    rintro k hk (rfl : k.orgId = orgId) (rfl : k.payloadHash = payloadHash)
    have hsome := hkeyed k hk
    rw [hnone] at hsome
    cases hsome

variable [SignatureScheme] [PyUnicode]

/-- The trace of a call : there, or opened by it. -/
structure Opens (db : Db) (orgId : String) (traceId : Uuid) (opened : Option Trace) : Prop where
  new : ∀ t, opened = some t → t.id = traceId ∧ t.orgId = orgId ∧ ∀ x ∈ db.traces, x.id ≠ traceId
  there : ∃ t ∈ db.traces ++ opened.toList, t.id = traceId ∧ t.orgId = orgId

theorem getOrCreateTrace_opens {db db' : Db} {orgId : String} {traceId : Uuid} {pv : Option String}
    (h : getOrCreateTrace db orgId traceId pv = .ok db') : ∃ opened, Opens db orgId traceId opened ∧
      db' = { db with traces := db.traces ++ opened.toList } := by
  obtain ⟨opened, hopen, hinsert⟩ := Except.bind_eq_ok.mp h
  refine ⟨opened, ?_⟩
  rcases openTrace_eq_ok hopen with ⟨rfl, t, ht, hid, horg⟩ | ⟨rfl, hnone⟩
  · obtain rfl := Except.ok.inj hinsert
    exact ⟨⟨by simp, t, by simpa using ht, hid, horg⟩, by simp⟩
  · obtain ⟨⟨-, hnew, -⟩, rfl⟩ := Db.insertTrace_eq_ok.mp hinsert
    refine ⟨⟨?_, ⟨traceId, orgId, pv⟩, by simp, rfl, rfl⟩, rfl⟩
    rintro t ht
    obtain rfl := Option.some.inj ht
    exact ⟨rfl, rfl, hnew⟩

/-- What a call leaves behind : its event, and the rows of its content where they were
not there. -/
structure Recorded (db : Db) (args : RecordArgs) (fresh : Fresh) (e : Event) (db' : Db) :
    Prop where
  records : e.Records args
  id_eq : e.id = fresh.eventId
  tables : ∃ opened rows, Opens db args.orgId args.traceId opened ∧
    sealPayload db args.orgId e.payloadHash (redactPayload args.payload).1
      (redactPayload args.payload).2 fresh.contentKey = .ok rows ∧
    db' = { db.withRows rows with traces := db.traces ++ opened.toList, events := db.events ++ [e] }

/-- The spec of `recordEvent`. -/
theorem recordEvent_recorded {svc : SigningKeyPair} {db db' : Db} {args : RecordArgs}
    {fresh : Fresh} {out : EventOut} (h : recordEvent svc db args fresh = .ok (db', out)) :
    ∃ e, Recorded db args fresh e db' ∧ out = EventOut.ofEvent e := by
  simp only [recordEvent, Except.bind_eq_ok, Except.pure_eq, Except.ok.injEq,
    Prod.mk.injEq] at h
  obtain ⟨_, -, _, htrace, _, -, d, hdraft, _, hcommit, rfl, rfl⟩ := h
  obtain ⟨opened, hopens, rfl⟩ := getOrCreateTrace_opens htrace
  obtain ⟨hrecords, hid, -⟩ := draftEvent_records hdraft
  obtain ⟨db₁, hsealed, hevent⟩ := Except.bind_eq_ok.mp hcommit
  obtain rfl := insertSealed_withRows hsealed
  obtain ⟨-, rfl⟩ := Db.insertEventRow_eq_ok.mp hevent
  refine ⟨d.event, ⟨hrecords, hid, opened, d.content, hopens, ?_, rfl⟩, rfl⟩
  simp only [draftEvent, Except.bind_eq_ok, Except.pure_eq, Except.ok.injEq] at hdraft
  obtain ⟨_, -, content, hcontent, rfl⟩ := hdraft
  exact hcontent

namespace Recorded

variable {db db' : Db} {args : RecordArgs} {fresh : Fresh} {e : Event}

/-- The other tables are as they were. -/
theorem others (h : Recorded db args fresh e db') : ∃ ts ps ks, db' = { db with
    traces := ts, payloads := ps, payloadKeys := ks, events := db.events ++ [e] } := by
  obtain ⟨-, -, opened, rows, -, -, rfl⟩ := h
  exact ⟨_, _, _, rfl⟩

/-- The fingerprint of the event is that of the content. -/
theorem hash_eq (h : Recorded db args fresh e db') :
    e.payloadHash = sha256Hex (redactPayload args.payload).1 :=
  h.records.payloadHash_eq

/-- The content tables : as they were, or with the rows of the content. -/
theorem content (h : Recorded db args fresh e db') :
    ((db.getPayload args.orgId e.payloadHash).isSome = true ∧ db'.payloads = db.payloads ∧
        db'.payloadKeys = db.payloadKeys) ∨
      (db.getPayload args.orgId e.payloadHash = none ∧
        ∃ rows, rows = contentRows (db.wrapsTo args.orgId) args.orgId e.payloadHash
            (redactPayload args.payload).1 (redactPayload args.payload).2 fresh.contentKey ∧
          db'.payloads = db.payloads ++ [rows.1] ∧
            db'.payloadKeys = db.payloadKeys ++ [rows.2]) := by
  obtain ⟨-, -, opened, rows, -, hrows, rfl⟩ := h
  rcases sealPayload_eq_ok.mp hrows with ⟨rfl, hsome⟩ | ⟨hnone, -, rfl⟩
  · exact Or.inl ⟨hsome, by simp [Db.withRows], by simp [Db.withRows]⟩
  · exact Or.inr ⟨hnone, _, rfl, rfl, rfl⟩

end Recorded

end Store

/-! ## Reading back -/

/-- The columns of the content tables are keys : no two rows share them. -/
structure Db.ContentKeyed (db : Db) : Prop where
  payloads : (db.payloads.map fun p => (p.orgId, p.payloadHash)).Nodup
  payloadKeys : (db.payloadKeys.map fun k => (k.orgId, k.payloadHash)).Nodup

theorem Db.getPayload_of_mem {db : Db}
    (h : (db.payloads.map fun p => (p.orgId, p.payloadHash)).Nodup) {p : Payload}
    (hp : p ∈ db.payloads) : db.getPayload p.orgId p.payloadHash = some p := by
  have hfind := find?_of_nodup h hp
  simpa [getPayload] using hfind

theorem Db.getPayloadKey_of_mem {db : Db}
    (h : (db.payloadKeys.map fun k => (k.orgId, k.payloadHash)).Nodup) {k : PayloadKey}
    (hk : k ∈ db.payloadKeys) : db.getPayloadKey k.orgId k.payloadHash = some k := by
  have hfind := find?_of_nodup h hk
  simpa [getPayloadKey] using hfind

/-- A row sealed for its own columns opens under its key, held as it is. -/
theorem readPayloadContent_of_rows {db : Db} {p : Payload} {k : PayloadKey}
    (hp : db.getPayload p.orgId p.payloadHash = some p)
    (hk : db.getPayloadKey p.orgId p.payloadHash = some k) (herased : p.erasedAt = none)
    (halg : p.encAlg = defaultContentAlgorithm)
    (haad : p.encryptedBlob.aad = aad p.encAlg p.orgId p.payloadHash)
    (hraw : k.wrapAlg = none ∧ k.key = .raw p.encryptedBlob.key) :
    readPayloadContent db p.orgId p.payloadHash = some p.encryptedBlob.content := by
  simp [readPayloadContent, hp, hk, herased, halg, hraw.1, hraw.2, decryptContent, haad,
    isSupportedContent, defaultContentAlgorithm]

/-- What is read comes from the row, opened under associated data that name it. -/
theorem readPayloadContent_eq_some {db : Db} {orgId payloadHash : String} {content : Dict}
    (h : readPayloadContent db orgId payloadHash = some content) :
    ∃ p k, db.getPayload orgId payloadHash = some p ∧
      db.getPayloadKey orgId payloadHash = some k ∧ p.erasedAt = none ∧ k.wrapAlg = none ∧
        k.key = .raw p.encryptedBlob.key ∧ p.encryptedBlob.content = content ∧
          p.encryptedBlob.aad = aad p.encAlg orgId payloadHash := by
  unfold readPayloadContent at h
  cases hp : db.getPayload orgId payloadHash with
  | none => simp [hp] at h
  | some p =>
    cases hk : db.getPayloadKey orgId payloadHash with
    | none => simp [hp, hk] at h
    | some k =>
      simp only [hp, hk] at h
      cases hkey : k.key with
      | wrapped pem key => simp [hkey] at h
      | raw key =>
        simp only [hkey, decryptContent] at h
        by_cases herased : p.erasedAt.isSome = true
        · simp [herased] at h
        · by_cases hwrap : k.wrapAlg.isSome = true
          · simp [herased, hwrap] at h
          · by_cases hopen : p.encryptedBlob.key = key ∧
              p.encryptedBlob.aad = aad p.encAlg orgId payloadHash
            · rw [if_pos hopen] at h
              refine ⟨p, k, rfl, rfl, by simpa using herased, by simpa using hwrap, ?_, ?_,
                hopen.2⟩
              · rw [hkey, hopen.1]
              · have hread : isSupportedContent p.encAlg = true ∧
                    p.encryptedBlob.content = content := by
                  simpa [herased, hwrap] using h
                exact hread.2
            · simp [hopen] at h

/-! ## Success -/

section Success

variable [SignatureScheme] [KeyWrapping] [PyUnicode]

/-- The content can be stored : it is there, or the key it is wrapped to can be used. -/
def Db.Stores (db : Db) (orgId : String) (payload : Dict) : Prop :=
  (db.getPayload orgId (sha256Hex (redactPayload payload).1)).isSome = true ∨
    ∀ pem, db.wrapsTo orgId = some pem → KeyWrapping.publicKind pem = .usable

/-- Nothing stands in the way of a call. -/
structure Recordable (db : Db) (args : RecordArgs) (fresh : Fresh) : Prop where
  named : PyText.isBlank args.eventType = false
  texts : textOk args.eventType = true ∧ optTextOk args.policyVersion = true
  org : db.hasOrg args.orgId = true
  trace : ∀ t, db.getTraceById args.traceId = some t → t.orgId = args.orgId
  next : args.seq = nextSeq (db.lastEventForTrace args.orgId args.traceId)
  id : ∀ x ∈ db.events, x.id ≠ fresh.eventId
  free : ∀ x ∈ db.events, x.traceId = args.traceId → x.seq ≠ args.seq
  keys : ∀ k ∈ db.signingKeys, k.Managed
  content : db.Stores args.orgId args.payload
  keyed : ∀ k ∈ db.payloadKeys, (db.getPayload k.orgId k.payloadHash).isSome = true

theorem signEventForOrg_succeeds (svc : SigningKeyPair) {db : Db} (orgId : String) (m : Bytes)
    (hkeys : ∀ k ∈ db.signingKeys, k.Managed) :
    ∃ r, signEventForOrg svc db orgId (Bytes.hex m) = .ok r := by
  unfold signEventForOrg
  rw [signHex_hex svc.isEd25519]
  cases hactive : db.activeSigningKey orgId with
  | none => exact ⟨_, rfl⟩
  | some key =>
    obtain ⟨pair, hpriv, -⟩ := hkeys key (Db.mem_of_activeSigningKey hactive).1
    simp only [hpriv]
    by_cases hempty : pair.privatePem = ""
    · rw [if_pos hempty]
      exact ⟨_, rfl⟩
    · rw [if_neg hempty, signHex_hex pair.isEd25519]
      exact ⟨_, rfl⟩

/-- The trace of a call is there, or can be opened. -/
theorem getOrCreateTrace_succeeds {db : Db} {orgId : String} {traceId : Uuid} {pv : Option String}
    (hpv : optTextOk pv = true) (horg : db.hasOrg orgId = true)
    (htrace : ∀ t, db.getTraceById traceId = some t → t.orgId = orgId) :
    ∃ ts, getOrCreateTrace db orgId traceId pv = .ok { db with traces := ts } ∧
      (∀ t ∈ db.traces, t ∈ ts) ∧ ∃ t ∈ ts, t.id = traceId ∧ t.orgId = orgId := by
  unfold getOrCreateTrace openTrace
  cases hget : db.getTraceById traceId with
  | some t =>
    obtain ⟨hmem, hid⟩ := Db.mem_of_getTraceById hget
    simp only [htrace t hget, if_true]
    exact ⟨db.traces, rfl, fun _ h => h, t, hmem, hid, htrace t hget⟩
  | none =>
    refine ⟨db.traces ++ [⟨traceId, orgId, pv⟩], Db.insertTrace_eq_ok.mpr ⟨⟨hpv, ?_, horg⟩, rfl⟩,
      fun t h => List.mem_append_left _ h, ⟨traceId, orgId, pv⟩, by simp, rfl, rfl⟩
    simpa [Db.getTraceById] using hget

/-- The event of a call can be drafted. -/
theorem draftEvent_succeeds (svc : SigningKeyPair) (db : Db) (args : RecordArgs)
    (last : Option Event) (fresh : Fresh) (hkeys : ∀ k ∈ db.signingKeys, k.Managed)
    (hcontent : db.Stores args.orgId args.payload) :
    ∃ d, draftEvent svc db args last fresh = .ok d ∧
      sealPayload db args.orgId (sha256Hex (redactPayload args.payload).1)
        (redactPayload args.payload).1 (redactPayload args.payload).2 fresh.contentKey =
          .ok d.content := by
  obtain ⟨rows, hrows⟩ : ∃ rows, sealPayload db args.orgId
      (sha256Hex (redactPayload args.payload).1) (redactPayload args.payload).1
      (redactPayload args.payload).2 fresh.contentKey = .ok rows := by
    by_cases hget : (db.getPayload args.orgId (sha256Hex (redactPayload args.payload).1)).isSome
    · exact ⟨none, sealPayload_eq_ok.mpr (Or.inl ⟨rfl, hget⟩)⟩
    · exact ⟨_, sealPayload_eq_ok.mpr (Or.inr ⟨by simpa using hget, hcontent.resolve_left hget,
        rfl⟩)⟩
  obtain ⟨⟨signature, keyId⟩, hsign⟩ := signEventForOrg_succeeds svc args.orgId
    (sha256 (canonicalBytes (buildEnvelope args.traceId.str args.seq args.eventType
      (sha256Hex (redactPayload args.payload).1) (last.map Event.hash) args.policyVersion
      (.str fresh.now) (.str defaultAlgorithm)))) hkeys
  have hdraft : ∃ d, draftEvent svc db args last fresh = .ok d ∧ d.content = rows := by
    simp only [draftEvent, sha256Hex] at hsign hrows ⊢
    simp only [hsign, hrows, Except.ok_bind', Except.pure_eq]
    exact ⟨_, rfl, rfl⟩
  obtain ⟨d, hdraft, rfl⟩ := hdraft
  exact ⟨d, hdraft, hrows⟩

theorem recordEvent_succeeds (svc : SigningKeyPair) {db : Db} {args : RecordArgs} {fresh : Fresh}
    (h : Recordable db args fresh) : ∃ db' out, recordEvent svc db args fresh = .ok (db', out) := by
  obtain ⟨ts, htrace, -, t, ht, hid, horg⟩ :=
    getOrCreateTrace_succeeds h.texts.2 h.org h.trace
  obtain ⟨d, hdraft, hseal⟩ := draftEvent_succeeds svc { db with traces := ts } args
    (db.lastEventForTrace args.orgId args.traceId) fresh h.keys h.content
  have htip : readTip { db with traces := ts } args.orgId args.traceId args.seq =
      .ok (db.lastEventForTrace args.orgId args.traceId) := readTip_eq_ok.mpr ⟨rfl, h.next⟩
  obtain ⟨hrecords, heid, -⟩ := draftEvent_records hdraft
  have hsealed : insertSealed { db with traces := ts } d.content =
      .ok ({ db with traces := ts }.withRows d.content) :=
    insertSealed_of_sealPayload hseal h.org h.keyed
  have hinsert : d.insert { db with traces := ts } =
      .ok { db.withRows d.content with traces := ts, events := db.events ++ [d.event] } := by
    rw [Draft.insert, hsealed, Except.ok_bind']
    refine Db.insertEventRow_eq_ok.mpr ⟨⟨?_, ?_, ?_, ?_, ?_, ?_⟩, rfl⟩
    · rw [hrecords.type_eq]
      exact h.texts.1
    · rw [hrecords.policyVersion_eq]
      exact h.texts.2
    · rw [heid]
      exact h.id
    · rw [hrecords.traceId_eq, hrecords.seq_eq]
      exact h.free
    · rw [hrecords.orgId_eq]
      exact h.org
    · rw [hrecords.traceId_eq]
      simpa [Db.hasTrace, Db.withRows] using ⟨t, ht, hid⟩
  refine ⟨{ db.withRows d.content with traces := ts, events := db.events ++ [d.event] },
    EventOut.ofEvent d.event, ?_⟩
  simp only [recordEvent, checkEventType, h.named, require, Bool.not_false, if_true,
    Except.ok_bind', htrace, htip, hdraft, hinsert, Except.pure_eq]

end Success

end Attest
