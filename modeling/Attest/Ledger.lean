import Attest.Batching
import Attest.Events
import Attest.Verification
import Attest.Lib.Run

/-!
# Any interleaving of writers

The ledger is a database with the `record_event` calls in flight. A call opens its
trace, reads the tip, drafts and signs the event, and commits, each as a step of its
own, against whatever the database has become by then; it may stop at any point and
leave nothing behind. Between the steps of a call anything else may happen : other
calls, key rotations, sealing, a switch to customer-key mode.

`Sound` is the invariant : every event is signed as its columns say, belongs to a trace
of its organisation, and the events of each trace are a chain numbered from one. It
holds in every reachable state (`sound_of_reachable`), and in such a state a trace
replays with every row verified (`Sound.replayTrace`).

A commit keeps the chain because the tip a call read is still in the trace : were it
not the last event any more, the next number would be taken, and the insert fails.
-/

namespace Attest

/-! ## The system -/

section Steps

variable [SignatureScheme] [KeyWrapping] [PyUnicode]

/-- How far a call has come. -/
inductive Stage where
  /-- With the row `get_or_create_trace` adds. -/
  | opened (trace : Option Trace)
  | tipRead (trace : Option Trace) (last : Option Event)
  | drafted (trace : Option Trace) (last : Option Event) (draft : Draft)

/-- A `record_event` in flight. -/
structure Call where
  args : RecordArgs
  stage : Stage

/-- The database and the calls in flight. -/
structure World where
  db : Db
  calls : List Call

/-- `enable_customer_key_mode(db, org_id, wrapping_public_pem)`. -/
def enableCustomerKeyMode (db : Db) (orgId wrappingPublicPem : String) : Except PyError Db :=
  match db.getOrgById orgId with
  | none => .error (.lookupError ("org not found: " ++ orgId))
  | some _ =>
    .ok { db with orgs := db.orgs.map fun o =>
      if o.id = orgId then
        { o with confidentialityMode := "customer_key"
                 wrappingPublicPem := some wrappingPublicPem }
      else o }

/-- The inserts a drafted call makes. -/
def commitCall (db : Db) (trace : Option Trace) (draft : Draft) : Except PyError Db := do
  let db ← insertOpened db trace
  draft.insert db

/-- One step of the service. -/
inductive Step (svc : SigningKeyPair) : World → World → Prop where
  | begin {db : Db} {calls : List Call} {args : RecordArgs} {trace : Option Trace} :
      checkEventType args.eventType = .ok () →
      openTrace db args.orgId args.traceId args.policyVersion = .ok trace →
        Step svc ⟨db, calls⟩ ⟨db, ⟨args, .opened trace⟩ :: calls⟩
  | readTip {db : Db} {before after : List Call} {args : RecordArgs} {trace : Option Trace}
      {last : Option Event} :
      readTip db args.orgId args.traceId args.seq = .ok last →
        Step svc ⟨db, before ++ ⟨args, .opened trace⟩ :: after⟩
          ⟨db, before ++ ⟨args, .tipRead trace last⟩ :: after⟩
  | draft {db : Db} {before after : List Call} {args : RecordArgs} {trace : Option Trace}
      {last : Option Event} {fresh : Fresh} {draft : Draft} :
      draftEvent svc db args last fresh = .ok draft →
        Step svc ⟨db, before ++ ⟨args, .tipRead trace last⟩ :: after⟩
          ⟨db, before ++ ⟨args, .drafted trace last draft⟩ :: after⟩
  | commit {db db' : Db} {before after : List Call} {args : RecordArgs} {trace : Option Trace}
      {last : Option Event} {draft : Draft} :
      commitCall db trace draft = .ok db' →
        Step svc ⟨db, before ++ ⟨args, .drafted trace last draft⟩ :: after⟩
          ⟨db', before ++ after⟩
  | rollback {db : Db} {before after : List Call} {call : Call} :
      Step svc ⟨db, before ++ call :: after⟩ ⟨db, before ++ after⟩
  | provision {db db' : Db} {calls : List Call} {orgId : String} {pair : SigningKeyPair}
      {keyId : Uuid} {createdAt : Int} :
      provisionManagedSigningKey db orgId pair keyId createdAt = .ok db' →
        Step svc ⟨db, calls⟩ ⟨db', calls⟩
  | sealBatch {db db' : Db} {calls : List Call} {events : List Event} {batchId : Uuid}
      {now : String} {result : Option SealedBatchResult} :
      UnbatchedEvents db events → sealBatch svc db events batchId now = .ok (db', result) →
        Step svc ⟨db, calls⟩ ⟨db', calls⟩
  | customerKey {db db' : Db} {calls : List Call} {orgId pem : String} :
      enableCustomerKeyMode db orgId pem = .ok db' → Step svc ⟨db, calls⟩ ⟨db', calls⟩

/-- Nothing recorded yet, for any organisations, policies and packs. -/
structure Blank (w : World) : Prop where
  calls : w.calls = []
  traces : w.db.traces = []
  events : w.db.events = []
  signingKeys : w.db.signingKeys = []
  batches : w.db.batches = []
  anchors : w.db.anchors = []

/-- The service, from a database with nothing recorded. -/
def ledger (svc : SigningKeyPair) : TransitionSystem World where
  init := Blank
  step := Step svc

end Steps

/-! ## The invariant -/

/-- The events of a trace, in the order they were inserted. -/
def Db.chain (db : Db) (traceId : Uuid) : List Event :=
  db.events.filter fun e => e.traceId = traceId

/-- A chain numbered from one. -/
structure Chained (es : List Event) : Prop where
  linked : HashChain.Linked Event.hash Event.prevHash none es
  seqs : es.map Event.seq = (List.range es.length).map fun i : Nat => (i : Int) + 1

/-- The event less its batch, which sealing sets. -/
def Event.core (e : Event) : Event :=
  { e with batchId := none }

/-- What a later state keeps of an earlier one. -/
structure Later (db db' : Db) : Prop where
  traces : ∀ t ∈ db.traces, t ∈ db'.traces
  keys : ∀ k ∈ db.signingKeys, ∃ k' ∈ db'.signingKeys, k'.keyId = k.keyId ∧
    k'.publicPem = k.publicPem ∧ k'.privatePem = k.privatePem
  events : ∀ e ∈ db.events, ∃ e' ∈ db'.events, e'.core = e.core

/-- The trace a call works on is there, or is the row it adds. -/
def OpenedOk (db : Db) (args : RecordArgs) : Option Trace → Prop
  | none => ∃ t ∈ db.traces, t.id = args.traceId ∧ t.orgId = args.orgId
  | some t => t.id = args.traceId ∧ t.orgId = args.orgId

/-- The tip a call read is still an event of the trace. -/
structure TipOk (db : Db) (args : RecordArgs) (last : Option Event) : Prop where
  seq_eq : args.seq = nextSeq last
  mem : ∀ e, last = some e → ∃ e' ∈ db.events, e'.core = e.core ∧ e'.traceId = args.traceId

theorem Event.eq_of_core {e e' : Event} (h : e'.core = e.core) :
    e' = { e with batchId := e'.batchId } := by
  cases e
  cases e'
  simp_all [Event.core]

/-! ## Later states -/

theorem Later.refl (db : Db) : Later db db :=
  ⟨fun _ h => h, fun k h => ⟨k, h, rfl, rfl, rfl⟩, fun e h => ⟨e, h, rfl⟩⟩

theorem Later.trans {db₁ db₂ db₃ : Db} (h : Later db₁ db₂) (h' : Later db₂ db₃) :
    Later db₁ db₃ where
  traces t ht := h'.traces t (h.traces t ht)
  keys k hk := by
    obtain ⟨k₂, hk₂, hid, hpub, hpriv⟩ := h.keys k hk
    obtain ⟨k₃, hk₃, hid', hpub', hpriv'⟩ := h'.keys k₂ hk₂
    exact ⟨k₃, hk₃, hid'.trans hid, hpub'.trans hpub, hpriv'.trans hpriv⟩
  events e he := by
    obtain ⟨e₂, he₂, hcore⟩ := h.events e he
    obtain ⟨e₃, he₃, hcore'⟩ := h'.events e₂ he₂
    exact ⟨e₃, he₃, hcore'.trans hcore⟩

theorem OpenedOk.later {db db' : Db} {args : RecordArgs} {trace : Option Trace}
    (h : Later db db') (ho : OpenedOk db args trace) : OpenedOk db' args trace := by
  cases trace with
  | some t => exact ho
  | none =>
    obtain ⟨t, ht, hid⟩ := ho
    exact ⟨t, h.traces t ht, hid⟩

theorem TipOk.later {db db' : Db} {args : RecordArgs} {last : Option Event} (h : Later db db')
    (ht : TipOk db args last) : TipOk db' args last := by
  refine ⟨ht.seq_eq, ?_⟩
  intro e he
  obtain ⟨e₁, he₁, hcore, htrace⟩ := ht.mem e he
  obtain ⟨e₂, he₂, hcore₂⟩ := h.events e₁ he₁
  refine ⟨e₂, he₂, hcore₂.trans hcore, ?_⟩
  have := congrArg Event.traceId hcore₂
  exact this.trans htrace

/-! ## Chains -/

theorem Chained.getElem_seq {es : List Event} (h : Chained es) {i : Nat} (hi : i < es.length) :
    es[i].seq = (i : Int) + 1 := by
  have := congrArg (fun l : List Int => l[i]?) h.seqs
  simpa [hi] using this

/-- A chain grows by an event that names an event of the chain as the one before it and
takes a number no other has. -/
theorem Chained.concat {es : List Event} (h : Chained es) {e : Event} {last : Option Event}
    (hseq : e.seq = nextSeq last) (hprev : e.prevHash = last.map Event.hash)
    (hlast : ∀ l, last = some l → ∃ x ∈ es, x.seq = l.seq ∧ x.hash = l.hash)
    (hfresh : ∀ x ∈ es, x.seq ≠ e.seq) : Chained (es ++ [e]) := by
  -- The named event is the last one : otherwise the next number is taken.
  have htip : e.seq = (es.length : Int) + 1 ∧
      e.prevHash = HashChain.tip Event.hash none es := by
    cases last with
    | none =>
      have hnil : es = [] := by
        by_contra hne
        have hpos : 0 < es.length := List.length_pos_iff.mpr hne
        have := hfresh _ (List.getElem_mem hpos)
        rw [h.getElem_seq hpos, hseq] at this
        exact this (by simp [nextSeq])
      subst hnil
      exact ⟨by simp [hseq, nextSeq], by simp [hprev, HashChain.tip]⟩
    | some l =>
      obtain ⟨x, hx, hxseq, hxhash⟩ := hlast l rfl
      obtain ⟨i, hi, rfl⟩ := List.getElem_of_mem hx
      have hnext : e.seq = (i : Int) + 2 := by
        rw [hseq, nextSeq, ← hxseq, h.getElem_seq hi]
        ring
      have hlen : es.length = i + 1 := by
        by_contra hne
        have hi' : i + 1 < es.length := by omega
        have := hfresh _ (List.getElem_mem hi')
        rw [h.getElem_seq hi', hnext] at this
        exact this (by push_cast; ring)
      refine ⟨by rw [hnext, hlen]; push_cast; ring, ?_⟩
      have hgetLast : es.getLast? = some es[i] := by
        rw [List.getLast?_eq_getElem?, hlen, Nat.add_sub_cancel, List.getElem?_eq_getElem hi]
      rw [hprev, HashChain.tip_eq_getLast?, hgetLast, Option.map_some, Option.map_some, hxhash]
  refine ⟨HashChain.linked_append_singleton h.linked htip.2, ?_⟩
  simp [h.seqs, List.range_succ, htip.1]

theorem Chained.map {es : List Event} (h : Chained es) (f : Event → Event)
    (hf : ∀ e, (f e).seq = e.seq ∧ (f e).hash = e.hash ∧ (f e).prevHash = e.prevHash) :
    Chained (es.map f) := by
  constructor
  · rw [HashChain.linked_map]
    simpa [hf] using h.linked
  · simpa [hf, Function.comp_def] using h.seqs

theorem chained_nil : Chained [] :=
  ⟨trivial, rfl⟩

theorem mem_chain {db : Db} {traceId : Uuid} {e : Event} :
    e ∈ db.chain traceId ↔ e ∈ db.events ∧ e.traceId = traceId := by
  simp [Db.chain]

/-- Sealing sets the batch of an event and nothing else. -/
theorem Event.assign_eq (ids : List Uuid) (batchId : Uuid) (e : Event) :
    e.assign ids batchId = { e with batchId := (e.assign ids batchId).batchId } := by
  unfold Event.assign
  split <;> rfl

@[simp] theorem Event.assign_core (ids : List Uuid) (batchId : Uuid) (e : Event) :
    (e.assign ids batchId).core = e.core := by
  unfold Event.assign
  split <;> rfl


theorem nodup_map_concat {α β : Type} {f : α → β} {xs : List α} {y : α} (h : (xs.map f).Nodup)
    (hy : ∀ x ∈ xs, f x ≠ f y) : ((xs ++ [y]).map f).Nodup := by
  rw [List.map_append, List.nodup_append]
  refine ⟨h, by simp, ?_⟩
  intro a ha b hb
  obtain ⟨x, hx, rfl⟩ := List.mem_map.mp ha
  obtain rfl : b = f y := by simpa using hb
  exact hy x hx

theorem chain_concat {db db' : Db} {e : Event} (h : db'.events = db.events ++ [e])
    (traceId : Uuid) : db'.chain traceId =
      if e.traceId = traceId then db.chain traceId ++ [e] else db.chain traceId := by
  by_cases ht : e.traceId = traceId <;> simp [Db.chain, h, List.filter_append, ht]

theorem Later.of_eq {db db' : Db} (ht : db'.traces = db.traces) (he : db'.events = db.events)
    (hk : db'.signingKeys = db.signingKeys) : Later db db' where
  traces t h := by rwa [ht]
  keys k h := ⟨k, by rwa [hk], rfl, rfl, rfl⟩
  events e h := ⟨e, by rwa [he], rfl⟩

/-- What the writes of a call leave. -/
theorem commitCall_eq_ok {db db' : Db} {trace : Option Trace} {draft : Draft}
    (h : commitCall db trace draft = .ok db') : ∃ ts ps ks, db' = { db with
      traces := ts, payloads := ps, payloadKeys := ks, events := db.events ++ [draft.event] } := by
  obtain ⟨db₁, hopen, hinsert⟩ := Except.bind_eq_ok.mp h
  obtain ⟨ts, rfl⟩ := insertOpened_eq_ok hopen
  obtain ⟨-, -, ps, ks, rfl⟩ := Draft.insert_eq_ok hinsert
  exact ⟨ts, ps, ks, rfl⟩

/-- The trace of a call that has inserted its row, or found it. -/
theorem OpenedOk.insertOpened {db db' : Db} {args : RecordArgs} {trace : Option Trace}
    (h : OpenedOk db args trace) (hins : insertOpened db trace = .ok db') :
    ∃ t ∈ db'.traces, t.id = args.traceId ∧ t.orgId = args.orgId := by
  cases trace with
  | none =>
    obtain rfl : db = db' := by simpa [Attest.insertOpened] using hins
    exact h
  | some t =>
    obtain ⟨-, rfl⟩ := Db.insertTrace_eq_ok.mp hins
    exact ⟨t, by simp, h⟩

theorem Chained.sorted {es : List Event} (h : Chained es) :
    es.Pairwise fun a b => a.seq ≤ b.seq := by
  rw [← List.pairwise_map (f := Event.seq) (R := fun a b => a ≤ b), h.seqs, List.pairwise_map]
  exact List.pairwise_lt_range.imp fun hlt => by omega

theorem tipOk_of_readTip {db : Db} {args : RecordArgs} {last : Option Event}
    (h : readTip db args.orgId args.traceId args.seq = .ok last) : TipOk db args last := by
  obtain ⟨hlast, hseq⟩ := readTip_eq_ok.mp h
  refine ⟨hseq, ?_⟩
  rintro e rfl
  obtain ⟨hmem, -, htrace⟩ := Db.mem_of_lastEventForTrace hlast.symm
  exact ⟨e, hmem, rfl, htrace⟩

theorem openedOk_of_openTrace {db : Db} {args : RecordArgs} {trace : Option Trace}
    (h : openTrace db args.orgId args.traceId args.policyVersion = .ok trace) :
    OpenedOk db args trace := by
  rcases openTrace_eq_ok h with ⟨rfl, ht⟩ | ⟨rfl, -⟩
  · exact ht
  · exact ⟨rfl, rfl⟩

section Invariant

variable [SignatureScheme] {svc : SigningKeyPair}

/-- What holds of the database whatever the writers did. -/
structure Sound (svc : SigningKeyPair) (db : Db) : Prop where
  traces_nodup : (db.traces.map Trace.id).Nodup
  keys_nodup : (db.signingKeys.map OrgSigningKey.keyId).Nodup
  managed : ∀ k ∈ db.signingKeys, k.Managed
  ids_nodup : (db.events.map Event.id).Nodup
  signed : ∀ e ∈ db.events, e.Signed svc db
  traced : ∀ e ∈ db.events, ∃ t ∈ db.traces, t.id = e.traceId ∧ t.orgId = e.orgId
  chained : ∀ traceId, Chained (db.chain traceId)

/-- What holds of a call in flight. -/
def CallOk (svc : SigningKeyPair) (db : Db) (c : Call) : Prop :=
  match c.stage with
  | .opened trace => OpenedOk db c.args trace
  | .tipRead trace last => OpenedOk db c.args trace ∧ TipOk db c.args last
  | .drafted trace last draft =>
    OpenedOk db c.args trace ∧ TipOk db c.args last ∧ draft.Follows svc db c.args last

theorem Later.keyPairOf {db db' : Db} (h : Later db db') {keyId : Option Uuid}
    {pair : SigningKeyPair} (hpair : keyPairOf svc db keyId pair) :
    keyPairOf svc db' keyId pair := by
  cases keyId with
  | none => exact hpair
  | some keyId =>
    obtain ⟨k, hk, hid, hpriv, hpub⟩ := hpair
    obtain ⟨k', hk', hid', hpub', hpriv'⟩ := h.keys k hk
    exact ⟨k', hk', hid'.trans hid, hpriv'.trans hpriv, hpub'.trans hpub⟩

theorem Event.Signed.later {db db' : Db} {e : Event} (h : Later db db')
    (hs : e.Signed svc db) : e.Signed svc db' := by
  obtain ⟨pair, hpair, hsig⟩ := hs.signature_eq
  exact ⟨hs.envelope_eq, hs.hash_eq, hs.alg_eq, pair, h.keyPairOf hpair, hsig⟩

theorem Draft.Follows.later {db db' : Db} {args : RecordArgs}
    {last : Option Event} {d : Draft} (h : Later db db') (hd : d.Follows svc db args last) :
    d.Follows svc db' args last :=
  ⟨hd.traceId_eq, hd.orgId_eq, hd.seq_eq, hd.prevHash_eq, hd.batchId_eq, hd.signed.later h⟩

theorem CallOk.later {db db' : Db} {c : Call} (h : Later db db')
    (hc : CallOk svc db c) : CallOk svc db' c := by
  obtain ⟨args, stage⟩ := c
  cases stage with
  | opened trace => exact OpenedOk.later h hc
  | tipRead trace last => exact ⟨OpenedOk.later h hc.1, TipOk.later h hc.2⟩
  | drafted trace last draft =>
    exact ⟨OpenedOk.later h hc.1, TipOk.later h hc.2.1, Draft.Follows.later h hc.2.2⟩

/-! ## Every operation keeps the invariant -/

/-- Other tables do not matter. -/
theorem Sound.of_eq {db db' : Db} (h : Sound svc db) (ht : db'.traces = db.traces)
    (he : db'.events = db.events) (hk : db'.signingKeys = db.signingKeys) : Sound svc db' where
  traces_nodup := by rw [ht]; exact h.traces_nodup
  keys_nodup := by rw [hk]; exact h.keys_nodup
  managed := by rw [hk]; exact h.managed
  ids_nodup := by rw [he]; exact h.ids_nodup
  signed := by
    rw [he]
    exact fun e hmem => (h.signed e hmem).later (Later.of_eq ht he hk)
  traced := by rw [he, ht]; exact h.traced
  chained := by
    intro traceId
    have : db'.chain traceId = db.chain traceId := by rw [Db.chain, Db.chain, he]
    rw [this]
    exact h.chained traceId

theorem Sound.insertOpened {db db' : Db} {trace : Option Trace} (h : Sound svc db)
    (hins : insertOpened db trace = .ok db') : Sound svc db' ∧ Later db db' := by
  cases trace with
  | none =>
    obtain rfl : db = db' := by simpa [Attest.insertOpened] using hins
    exact ⟨h, Later.refl db⟩
  | some t =>
    obtain ⟨⟨-, hfresh, -⟩, rfl⟩ := Db.insertTrace_eq_ok.mp hins
    have hlater : Later db { db with traces := db.traces ++ [t] } :=
      ⟨fun x hx => List.mem_append_left _ hx, fun k hk => ⟨k, hk, rfl, rfl, rfl⟩,
        fun e he => ⟨e, he, rfl⟩⟩
    refine ⟨⟨nodup_map_concat h.traces_nodup hfresh, h.keys_nodup, h.managed, h.ids_nodup,
      fun e he => (h.signed e he).later hlater, ?_, h.chained⟩, hlater⟩
    intro e he
    obtain ⟨x, hx, hid⟩ := h.traced e he
    exact ⟨x, List.mem_append_left _ hx, hid⟩

/-- A draft that follows its tip extends the chain of its trace. -/
theorem Sound.insertDraft {db db' : Db} {args : RecordArgs} {last : Option Event} {d : Draft}
    (h : Sound svc db) (htrace : ∃ t ∈ db.traces, t.id = args.traceId ∧ t.orgId = args.orgId)
    (htip : TipOk db args last) (hd : d.Follows svc db args last)
    (hins : d.insert db = .ok db') : Sound svc db' ∧ Later db db' := by
  obtain ⟨hid, hseq, ps, ks, hdb⟩ := Draft.insert_eq_ok hins
  have ht : db'.traces = db.traces := by rw [hdb]
  have hk : db'.signingKeys = db.signingKeys := by rw [hdb]
  have he : db'.events = db.events ++ [d.event] := by rw [hdb]
  have hlater : Later db db' :=
    ⟨fun t h => by rwa [ht], fun k h => ⟨k, by rwa [hk], rfl, rfl, rfl⟩,
      fun e h => ⟨e, by rw [he]; exact List.mem_append_left _ h, rfl⟩⟩
  refine ⟨⟨by rw [ht]; exact h.traces_nodup, by rw [hk]; exact h.keys_nodup,
    by rw [hk]; exact h.managed, by rw [he]; exact nodup_map_concat h.ids_nodup hid,
    ?_, ?_, ?_⟩, hlater⟩
  · intro e hmem
    rw [he] at hmem
    rcases List.mem_append.mp hmem with hmem | hmem
    · exact (h.signed e hmem).later hlater
    · rw [List.mem_singleton.mp hmem]
      exact hd.signed.later hlater
  · intro e hmem
    rw [he] at hmem
    rw [ht]
    rcases List.mem_append.mp hmem with hmem | hmem
    · exact h.traced e hmem
    · rw [List.mem_singleton.mp hmem, hd.traceId_eq, hd.orgId_eq]
      exact htrace
  · intro traceId
    rw [chain_concat he]
    split_ifs with htid
    · refine (h.chained traceId).concat (hd.seq_eq.trans htip.seq_eq) hd.prevHash_eq ?_ ?_
      · intro l hl
        obtain ⟨x, hx, hcore, hxtrace⟩ := htip.mem l hl
        have hchain : x ∈ db.chain traceId :=
          mem_chain.mpr ⟨hx, by rw [hxtrace, ← hd.traceId_eq, htid]⟩
        have hxseq := congrArg Event.seq hcore
        have hxhash := congrArg Event.hash hcore
        exact ⟨x, hchain, hxseq, hxhash⟩
      · intro x hx
        obtain ⟨hx, hxtrace⟩ := mem_chain.mp hx
        exact hseq x hx (hxtrace.trans htid.symm)
    · exact h.chained traceId

theorem Sound.commitCall {db db' : Db} {args : RecordArgs} {trace : Option Trace}
    {last : Option Event} {d : Draft} (h : Sound svc db) (hopened : OpenedOk db args trace)
    (htip : TipOk db args last) (hd : d.Follows svc db args last)
    (hcommit : commitCall db trace d = .ok db') : Sound svc db' ∧ Later db db' := by
  obtain ⟨db₁, hopen, hins⟩ := Except.bind_eq_ok.mp hcommit
  obtain ⟨h₁, hlater₁⟩ := h.insertOpened hopen
  obtain ⟨h₂, hlater₂⟩ := h₁.insertDraft (hopened.insertOpened hopen) (htip.later hlater₁)
    (hd.later hlater₁) hins
  exact ⟨h₂, hlater₁.trans hlater₂⟩

/-- Rotation keeps every key an event was signed under. -/
theorem Sound.provision {db db' : Db} {orgId : String} {pair : SigningKeyPair} {keyId : Uuid}
    {createdAt : Int} (h : Sound svc db)
    (hprov : provisionManagedSigningKey db orgId pair keyId createdAt = .ok db') :
    Sound svc db' ∧ Later db db' := by
  obtain ⟨hfresh, hdb⟩ := provisionManagedSigningKey_eq_ok hprov
  have ht : db'.traces = db.traces := by rw [hdb]
  have he : db'.events = db.events := by rw [hdb]
  have hk : db'.signingKeys = db.signingKeys.map (OrgSigningKey.retire orgId) ++ [⟨keyId, orgId,
      defaultAlgorithm, pair.publicPem, some pair.privatePem, "active", createdAt⟩] := by
    rw [hdb]
  have hlater : Later db db' := by
    refine ⟨fun t h => by rwa [ht], ?_, fun e h => ⟨e, by rwa [he], rfl⟩⟩
    intro k hmem
    refine ⟨k.retire orgId, ?_, by simp, by simp, by simp⟩
    rw [hk]
    exact List.mem_append_left _ (List.mem_map_of_mem hmem)
  refine ⟨⟨by rw [ht]; exact h.traces_nodup, ?_, ?_, by rw [he]; exact h.ids_nodup, ?_,
    by rw [he, ht]; exact h.traced, ?_⟩, hlater⟩
  · rw [hk]
    apply nodup_map_concat
    · simpa [Function.comp_def] using h.keys_nodup
    · intro k hmem
      obtain ⟨k₀, hk₀, rfl⟩ := List.mem_map.mp hmem
      rw [retire_keyId]
      exact hfresh k₀ hk₀
  · intro k hmem
    rw [hk] at hmem
    rcases List.mem_append.mp hmem with hmem | hmem
    · obtain ⟨k₀, hk₀, rfl⟩ := List.mem_map.mp hmem
      obtain ⟨pair₀, hpriv, hpub⟩ := h.managed k₀ hk₀
      exact ⟨pair₀, by rw [retire_privatePem, hpriv], by rw [retire_publicPem, hpub]⟩
    · rw [List.mem_singleton.mp hmem]
      exact ⟨pair, rfl, rfl⟩
  · rw [he]
    exact fun e hmem => (h.signed e hmem).later hlater
  · intro traceId
    have : db'.chain traceId = db.chain traceId := by rw [Db.chain, Db.chain, he]
    rw [this]
    exact h.chained traceId

theorem Event.Signed.of_core {db : Db} {e e' : Event} (hcore : e'.core = e.core)
    (h : e.Signed svc db) : e'.Signed svc db := by
  rw [Event.eq_of_core hcore]
  exact ⟨h.envelope_eq, h.hash_eq, h.alg_eq, h.signature_eq⟩

/-- Sealing changes nothing of an event but its batch. -/
theorem Sound.assignBatch {db db' : Db} (h : Sound svc db) (ids : List Uuid) (batchId : Uuid)
    (ht : db'.traces = db.traces) (hk : db'.signingKeys = db.signingKeys)
    (he : db'.events = db.events.map (Event.assign ids batchId)) :
    Sound svc db' ∧ Later db db' := by
  have hcore (e : Event) : (e.assign ids batchId).core = e.core := Event.assign_core ids batchId e
  have hlater : Later db db' := by
    refine ⟨fun t h => by rwa [ht], fun k h => ⟨k, by rwa [hk], rfl, rfl, rfl⟩, ?_⟩
    intro e hmem
    exact ⟨e.assign ids batchId, by rw [he]; exact List.mem_map_of_mem hmem, hcore e⟩
  refine ⟨⟨by rw [ht]; exact h.traces_nodup, by rw [hk]; exact h.keys_nodup,
    by rw [hk]; exact h.managed, ?_, ?_, ?_, ?_⟩, hlater⟩
  · have hids (e : Event) : (e.assign ids batchId).id = e.id := by rw [Event.assign_eq]
    simpa [he, Function.comp_def, hids] using h.ids_nodup
  · intro e hmem
    rw [he] at hmem
    obtain ⟨e₀, he₀, rfl⟩ := List.mem_map.mp hmem
    exact ((h.signed e₀ he₀).of_core (hcore e₀)).later hlater
  · intro e hmem
    rw [he] at hmem
    rw [ht]
    obtain ⟨e₀, he₀, rfl⟩ := List.mem_map.mp hmem
    obtain ⟨t, htrace, hid, horg⟩ := h.traced e₀ he₀
    exact ⟨t, htrace, hid.trans (congrArg Event.traceId (hcore e₀)).symm,
      horg.trans (congrArg Event.orgId (hcore e₀)).symm⟩
  · intro traceId
    have hchain : db'.chain traceId = (db.chain traceId).map (Event.assign ids batchId) := by
      have htid (e : Event) : (e.assign ids batchId).traceId = e.traceId := by
        rw [Event.assign_eq]
      simp [Db.chain, he, List.filter_map, Function.comp_def, htid]
    rw [hchain]
    refine (h.chained traceId).map _ fun e => ?_
    have hseq := congrArg Event.seq (hcore e)
    have hhash := congrArg Event.hash (hcore e)
    have hprev := congrArg Event.prevHash (hcore e)
    exact ⟨hseq, hhash, hprev⟩

theorem Sound.sealBatch {db db' : Db} {events : List Event} {batchId : Uuid} {now : String}
    {result : Option SealedBatchResult} (h : Sound svc db)
    (hseal : sealBatch svc db events batchId now = .ok (db', result)) :
    Sound svc db' ∧ Later db db' := by
  rcases sealBatch_eq_ok hseal with ⟨-, rfl⟩ | ⟨root, signature, -, -, -, -, hdb⟩
  · exact ⟨h, Later.refl db'⟩
  · exact h.assignBatch (events.map Event.id) batchId (by rw [hdb]) (by rw [hdb]) (by rw [hdb])

theorem Sound.enableCustomerKeyMode {db db' : Db} {orgId pem : String} (h : Sound svc db)
    (hmode : enableCustomerKeyMode db orgId pem = .ok db') : Sound svc db' ∧ Later db db' := by
  unfold Attest.enableCustomerKeyMode at hmode
  split at hmode
  · cases hmode
  · obtain rfl := Except.ok.inj hmode
    exact ⟨h.of_eq rfl rfl rfl, Later.of_eq rfl rfl rfl⟩

/-! ## Replay -/

/-- The key a row resolves to is the public half of the pair that signed it. -/
theorem resolveKey_of_keyPairOf {db : Db} {e : VerifiableEvent} {pair : SigningKeyPair}
    (hnodup : (db.signingKeys.map OrgSigningKey.keyId).Nodup)
    (h : keyPairOf svc db e.signingKeyId pair) : resolveKey svc db e = .ok pair.publicPem := by
  unfold resolveKey
  cases hkey : e.signingKeyId with
  | none =>
    rw [hkey] at h
    obtain rfl : pair = svc := h
    rfl
  | some keyId =>
    rw [hkey] at h
    obtain ⟨k, hk, hid, -, hpub⟩ := h
    have hfind : db.getSigningKey keyId = some k := by
      rw [← hid]
      exact find?_of_nodup hnodup hk
    simp [publicPemForKey, hfind, hpub]

theorem Event.Signed.rowVerifies {db : Db} (hideal : SignatureScheme.Ideal)
    (hnodup : (db.signingKeys.map OrgSigningKey.keyId).Nodup) {e : Event}
    (h : e.Signed svc db) :
    ∃ pem, resolveKey svc db e.verifiable = .ok pem ∧ RowVerifies e.verifiable pem := by
  obtain ⟨pair, hpair, hsig⟩ := h.signature_eq
  refine ⟨pair.publicPem, resolveKey_of_keyPairOf hnodup hpair, ?_⟩
  have hsuite : e.verifiable.suite = .str algSha256Ed25519V1 := by
    simp [VerifiableEvent.suite, Event.verifiable, h.alg_eq, JVal.orElse, JVal.truthy,
      defaultAlgorithm, algSha256Ed25519V1]
  refine ⟨⟨.str e.createdAt, ?_, ?_⟩, hsuite, ?_⟩
  · simp [Event.verifiable, h.envelope_eq, buildEnvelope, Dict.get?]
  · rw [VerifiableEvent.rebuilt, hsuite]
    simp only [Event.verifiable, h.hash_eq]
    rw [h.envelope_eq]
    rfl
  · simp only [Event.verifiable, h.hash_eq, hsig]
    exact verifyHex_sign hideal pair.isEd25519 _

/-- The query for a trace returns its chain. -/
theorem Sound.eventsForTrace {db : Db} (h : Sound svc db) {t : Trace} (ht : t ∈ db.traces) :
    db.eventsForTrace t.orgId t.id = db.chain t.id := by
  have hrows : db.traceRows t.orgId t.id = db.chain t.id := by
    apply List.filter_congr
    intro e he
    obtain ⟨t', ht', hid, horg⟩ := h.traced e he
    have : e.traceId = t.id → e.orgId = t.orgId := by
      intro htid
      obtain rfl := List.inj_on_of_nodup_map h.traces_nodup ht' ht (hid.trans htid)
      exact horg.symm
    simp only [decide_eq_decide]
    exact ⟨fun hboth => hboth.2, fun htid => ⟨this htid, htid⟩⟩
  rw [Db.eventsForTrace, hrows]
  exact (h.chained t.id).sorted.insertionSort_eq

theorem Sound.getTraceById {db : Db} (h : Sound svc db) {t : Trace} (ht : t ∈ db.traces) :
    db.getTraceById t.id = some t :=
  find?_of_nodup h.traces_nodup ht

/-- An event is in a trace of the database. -/
theorem Sound.exists_trace {db : Db} (h : Sound svc db) {e : Event} (he : e ∈ db.events) :
    ∃ t ∈ db.traces, e ∈ db.eventsForTrace t.orgId t.id := by
  obtain ⟨t, ht, hid, -⟩ := h.traced e he
  refine ⟨t, ht, ?_⟩
  rw [h.eventsForTrace ht]
  exact mem_chain.mpr ⟨he, hid.symm⟩

/-- In a sound database a trace with events replays with every row verified. -/
theorem Sound.replayTrace {db : Db} (hideal : SignatureScheme.Ideal) (h : Sound svc db)
    {t : Trace} (ht : t ∈ db.traces) (hne : db.eventsForTrace t.orgId t.id ≠ []) :
    ∃ r, replayTrace svc db t.orgId t.id = .ok r ∧ r.allVerified = true ∧
      (∀ row ∈ r.events, row.verified = true) ∧
        r.events.length = (db.eventsForTrace t.orgId t.id).length := by
  have hrows : ∀ e ∈ (db.eventsForTrace t.orgId t.id).map Event.verifiable,
      ∃ pem, resolveKey svc db e = .ok pem ∧ RowVerifies e pem := by
    intro e he
    obtain ⟨e, hmem, rfl⟩ := List.mem_map.mp he
    rw [h.eventsForTrace ht] at hmem
    exact (h.signed e (mem_chain.mp hmem).1).rowVerifies hideal h.keys_nodup
  have hlinked : HashChain.Linked VerifiableEvent.hash VerifiableEvent.prevHash none
      ((db.eventsForTrace t.orgId t.id).map Event.verifiable) := by
    rw [HashChain.linked_map, h.eventsForTrace ht]
    exact (h.chained t.id).linked
  obtain ⟨rs, hrs, hall, hlength⟩ := verifyRows_of_linked hrows hlinked
  have haccess : ensureTraceAccess db t.orgId t.id = .ok () :=
    ensureTraceAccess_eq_ok.mpr ⟨t, h.getTraceById ht, rfl⟩
  refine ⟨⟨t.id.str, rs.all EventVerifyResult.verified, rs⟩, ?_, hall, ?_, ?_⟩
  · simp [Attest.replayTrace, haccess, hne, verifyEventChain, hrs]
  · exact List.all_eq_true.mp hall
  · simpa using hlength

/-! ## Every run -/

/-- What holds of the ledger in every reachable state. -/
structure WorldOk (svc : SigningKeyPair) (w : World) : Prop where
  sound : Sound svc w.db
  calls : ∀ c ∈ w.calls, CallOk svc w.db c

theorem WorldOk.of_later {db db' : Db} {calls calls' : List Call} (hlater : Later db db')
    (hsound : Sound svc db') (hcalls : ∀ c ∈ calls, CallOk svc db c)
    (hsub : ∀ c ∈ calls', c ∈ calls) : WorldOk svc ⟨db', calls'⟩ :=
  ⟨hsound, fun c hc => (hcalls c (hsub c hc)).later hlater⟩

/-- A call moves on and the others stay. -/
theorem WorldOk.advance {db : Db} {before after : List Call} {c c' : Call}
    (h : WorldOk svc ⟨db, before ++ c :: after⟩) (hc : CallOk svc db c → CallOk svc db c') :
    WorldOk svc ⟨db, before ++ c' :: after⟩ := by
  refine ⟨h.sound, ?_⟩
  intro x hx
  rcases List.mem_append.mp hx with hx | hx
  · exact h.calls x (List.mem_append_left _ hx)
  · rcases List.mem_cons.mp hx with rfl | hx
    · exact hc (h.calls c (by simp))
    · exact h.calls x (by simp [hx])

theorem Blank.worldOk {w : World} (h : Blank w) : WorldOk svc w := by
  constructor
  · exact ⟨by simp [h.traces], by simp [h.signingKeys], by simp [h.signingKeys],
      by simp [h.events], by simp [h.events], by simp [h.events],
      fun traceId => by simpa [Db.chain, h.events] using chained_nil⟩
  · simp [h.calls]

variable [KeyWrapping] [PyUnicode]

/-- One step keeps what holds of the ledger, and what the database holds. -/
theorem WorldOk.step_later {w w' : World} (h : WorldOk svc w) (hstep : Step svc w w') :
    WorldOk svc w' ∧ Later w.db w'.db := by
  have hdrop {before after : List Call} {c : Call} : ∀ x ∈ before ++ after,
      x ∈ before ++ c :: after := by
    intro x hx
    rcases List.mem_append.mp hx with hx | hx
    · exact List.mem_append_left _ hx
    · exact List.mem_append_right _ (List.mem_cons_of_mem c hx)
  cases hstep with
  | begin _ hopen =>
    refine ⟨⟨h.sound, ?_⟩, Later.refl _⟩
    intro c hc
    rcases List.mem_cons.mp hc with rfl | hc
    · exact openedOk_of_openTrace hopen
    · exact h.calls c hc
  | readTip htip => exact ⟨h.advance fun hc => ⟨hc, tipOk_of_readTip htip⟩, Later.refl _⟩
  | draft hdraft =>
    exact ⟨h.advance fun hc => ⟨hc.1, hc.2, draftEvent_follows h.sound.managed hdraft⟩,
      Later.refl _⟩
  | commit hcommit =>
    obtain ⟨hopened, htip, hfollows⟩ := h.calls _ (List.mem_append_right _ List.mem_cons_self)
    obtain ⟨hsound, hlater⟩ := h.sound.commitCall hopened htip hfollows hcommit
    exact ⟨WorldOk.of_later hlater hsound h.calls hdrop, hlater⟩
  | rollback => exact ⟨⟨h.sound, fun x hx => h.calls x (hdrop x hx)⟩, Later.refl _⟩
  | provision hprov =>
    obtain ⟨hsound, hlater⟩ := h.sound.provision hprov
    exact ⟨WorldOk.of_later hlater hsound h.calls fun _ hc => hc, hlater⟩
  | sealBatch _ hseal =>
    obtain ⟨hsound, hlater⟩ := h.sound.sealBatch hseal
    exact ⟨WorldOk.of_later hlater hsound h.calls fun _ hc => hc, hlater⟩
  | customerKey hmode =>
    obtain ⟨hsound, hlater⟩ := h.sound.enableCustomerKeyMode hmode
    exact ⟨WorldOk.of_later hlater hsound h.calls fun _ hc => hc, hlater⟩

theorem worldOk_of_reachable {w : World} (h : (ledger svc).Reachable w) : WorldOk svc w :=
  TransitionSystem.invariant (P := WorldOk svc) (fun _ hinit => Blank.worldOk hinit)
    (fun _ _ hok hstep => (hok.step_later hstep).1) h

theorem sound_of_reachable {w : World} (h : (ledger svc).Reachable w) : Sound svc w.db :=
  (worldOk_of_reachable h).sound

/-- The steps of a `record_event` that runs on its own. -/
theorem recordEvent_stages {db db' : Db} {args : RecordArgs} {fresh : Fresh} {out : EventOut}
    (h : recordEvent svc db args fresh = .ok (db', out)) : ∃ trace last draft,
      checkEventType args.eventType = .ok () ∧
      openTrace db args.orgId args.traceId args.policyVersion = .ok trace ∧
      readTip db args.orgId args.traceId args.seq = .ok last ∧
      draftEvent svc db args last fresh = .ok draft ∧ commitCall db trace draft = .ok db' := by
  simp only [recordEvent, getOrCreateTrace, Except.bind_eq_ok, Except.pure_eq, Except.ok.injEq,
    Prod.mk.injEq] at h
  obtain ⟨_, htype, db₁, ⟨trace, hopen, hinsert⟩, last, htip, d, hdraft, db₂, hcommit, rfl, -⟩ := h
  obtain ⟨ts, rfl⟩ := insertOpened_eq_ok hinsert
  have hdraft' : draftEvent svc db args last fresh = .ok d := by
    rw [← hdraft]
    exact (draftEvent_congr rfl rfl rfl args last fresh).symm
  exact ⟨trace, last, d, htype, hopen, htip, hdraft', by simp [commitCall, hinsert, hcommit]⟩

/-- A `record_event` that runs on its own is a run of the ledger. -/
theorem run_recordEvent {db db' : Db} {args : RecordArgs} {fresh : Fresh} {out : EventOut}
    (h : recordEvent svc db args fresh = .ok (db', out)) (calls : List Call) :
    (ledger svc).Run ⟨db, calls⟩ ⟨db', calls⟩ := by
  obtain ⟨trace, last, d, htype, hopen, htip, hdraft, hcommit⟩ := recordEvent_stages h
  have hread : Step svc ⟨db, [] ++ ⟨args, .opened trace⟩ :: calls⟩
      ⟨db, [] ++ ⟨args, .tipRead trace last⟩ :: calls⟩ := .readTip htip
  have hsign : Step svc ⟨db, [] ++ ⟨args, .tipRead trace last⟩ :: calls⟩
      ⟨db, [] ++ ⟨args, .drafted trace last d⟩ :: calls⟩ := .draft hdraft
  have hwrite : Step svc ⟨db, [] ++ ⟨args, .drafted trace last d⟩ :: calls⟩ ⟨db', [] ++ calls⟩ :=
    .commit hcommit
  exact (((Relation.ReflTransGen.single (.begin htype hopen)).tail hread).tail hsign).tail hwrite

/-- Whatever the writers did, every trace is a chain of its organisation's events
numbered from one, and replays with every row verified. -/
theorem reachable_chain (hideal : SignatureScheme.Ideal) {w : World}
    (h : (ledger svc).Reachable w) :
    (∀ e ∈ w.db.events, ∃ t ∈ w.db.traces, t.id = e.traceId ∧ t.orgId = e.orgId) ∧
      ∀ t ∈ w.db.traces,
        (∀ e ∈ w.db.events, e.traceId = t.id →
          e.orgId = t.orgId ∧ e ∈ w.db.eventsForTrace t.orgId t.id) ∧
        (w.db.eventsForTrace t.orgId t.id).map Event.seq =
          (List.range (w.db.eventsForTrace t.orgId t.id).length).map
            (fun i : Nat => (i : Int) + 1) ∧
        HashChain.Linked Event.hash Event.prevHash none (w.db.eventsForTrace t.orgId t.id) ∧
        (w.db.eventsForTrace t.orgId t.id ≠ [] →
          ∃ r, replayTrace svc w.db t.orgId t.id = .ok r ∧ r.allVerified = true ∧
            ∀ row ∈ r.events, row.verified = true) := by
  have hsound := sound_of_reachable h
  refine ⟨hsound.traced, ?_⟩
  intro t ht
  have hevents := hsound.eventsForTrace ht
  refine ⟨?_, ?_, ?_, ?_⟩
  · intro e he htid
    have hchain := mem_chain.mpr ⟨he, htid⟩
    rw [← hevents] at hchain
    have horg : e.orgId = t.orgId := by
      rw [Db.eventsForTrace, List.mem_insertionSort] at hchain
      exact (Db.mem_traceRows.mp hchain).2.1
    exact ⟨horg, hchain⟩
  · rw [hevents]
    exact (hsound.chained t.id).seqs
  · rw [hevents]
    exact (hsound.chained t.id).linked
  · intro hne
    obtain ⟨r, hr, hall, hrows, -⟩ := hsound.replayTrace hideal ht hne
    exact ⟨r, hr, hall, hrows⟩

end Invariant

/-! ## A ledger of two events -/

def sampleOrg : Org := ⟨"acme", "Acme", "uae", "deny_on_error", "attest_managed", none⟩

def sampleArgs : RecordArgs where
  orgId := "acme"
  traceId := Uuid.ofNat 1
  seq := 1
  eventType := "model_completion"
  payload := [("text", .str "hello")]
  policyVersion := none

def sampleFresh : Fresh := ⟨"2025-01-01T00:00:00+00:00", Uuid.ofNat 2, []⟩

def sampleBlank : Db := { Db.empty with orgs := [sampleOrg] }

def sampleKey : @SigningKeyPair SignatureScheme.transparent :=
  @SigningKeyPair.mk SignatureScheme.transparent "service" rfl

theorem blank_sampleBlank : Blank ⟨sampleBlank, []⟩ :=
  ⟨rfl, rfl, rfl, rfl, rfl, rfl⟩

def nextArgs : RecordArgs :=
  { sampleArgs with seq := 2, payload := [("text", .str "bye")] }

def nextFresh : Fresh := ⟨"2025-01-01T00:00:01+00:00", Uuid.ofNat 3, [1]⟩

/-- After the first event of a trace, the second can be recorded. -/
theorem exists_recordEvent_two : ∃ db out db' out',
    @recordEvent .transparent .lenient .ascii sampleKey sampleBlank sampleArgs sampleFresh =
      .ok (db, out) ∧
    @recordEvent .transparent .lenient .ascii sampleKey db nextArgs nextFresh = .ok (db', out') ∧
      out.hash ≠ out'.hash := by
  have h : (@recordEvent .transparent .lenient .ascii sampleKey sampleBlank sampleArgs sampleFresh
      >>= fun first =>
        @recordEvent .transparent .lenient .ascii sampleKey first.1 nextArgs nextFresh
      >>= fun second => require (first.2.hash ≠ second.2.hash) .valueError).succeeds = true := by
    decide +kernel
  simp only [Except.succeeds_bind] at h
  obtain ⟨⟨db, out⟩, hfirst, ⟨db', out'⟩, hsecond, hrequire⟩ := h
  obtain ⟨_, hhash⟩ := Except.succeeds_iff.mp hrequire
  exact ⟨db, out, db', out', hfirst, hsecond, of_decide_eq_true (require_eq_ok.mp hhash)⟩

theorem exists_recordEvent_sample : ∃ db out,
    @recordEvent .transparent .lenient .ascii sampleKey sampleBlank sampleArgs sampleFresh =
      .ok (db, out) := by
  obtain ⟨db, out, _, _, hfirst, -⟩ := exists_recordEvent_two
  exact ⟨db, out, hfirst⟩

/-- A reachable ledger that holds two events, of one trace. -/
structure TwoEvents (w : World) (e e' : Event) : Prop where
  reach : (@ledger .transparent .lenient .ascii sampleKey).Reachable w
  events : w.db.events = [e, e']
  trace : e'.traceId = e.traceId
  hashes : e.hash ≠ e'.hash
  batches : w.db.batches = []
  signingKeys : w.db.signingKeys = []
  createdAt : e.createdAt = "2025-01-01T00:00:00+00:00" ∧ e'.createdAt = "2025-01-01T00:00:01+00:00"

/-- A run that records the events of `sampleArgs` and `nextArgs`. -/
theorem exists_twoEvents : ∃ (w : World) (e e' : Event), TwoEvents w e e' := by
  obtain ⟨db, out, db', out', hfirst, hsecond, hhash⟩ := exists_recordEvent_two
  have hreach : (@ledger .transparent .lenient .ascii sampleKey).Reachable ⟨db', []⟩ :=
    ⟨⟨sampleBlank, []⟩, blank_sampleBlank,
      (@run_recordEvent .transparent _ .lenient .ascii _ _ _ _ _ hfirst []).trans
        (@run_recordEvent .transparent _ .lenient .ascii _ _ _ _ _ hsecond [])⟩
  obtain ⟨e, ts, ps, ks, hrecords, ⟨-, hcreated⟩, hout, hdb⟩ :=
    @recordEvent_eq_ok .transparent .lenient .ascii _ _ _ _ _ _ hfirst
  obtain ⟨e', ts', ps', ks', hrecords', ⟨-, hcreated'⟩, hout', hdb'⟩ :=
    @recordEvent_eq_ok .transparent .lenient .ascii _ _ _ _ _ _ hsecond
  refine ⟨⟨db', []⟩, e, e', hreach, ?_, ?_, ?_, ?_, ?_, hcreated, hcreated'⟩
  · rw [hdb', hdb]
    rfl
  · exact (@Event.Records.traceId_eq .ascii _ _ hrecords').trans
      (@Event.Records.traceId_eq .ascii _ _ hrecords).symm
  · rw [hout, hout'] at hhash
    exact hhash
  · rw [hdb', hdb]
    rfl
  · rw [hdb', hdb]
    rfl

namespace TwoEvents

variable {w : World} {e e' : Event}

theorem sound (h : TwoEvents w e e') : @Sound .transparent sampleKey w.db :=
  @sound_of_reachable .transparent sampleKey .lenient .ascii _ h.reach

/-- The two events are those of their trace. -/
theorem exists_trace (h : TwoEvents w e e') : ∃ t ∈ w.db.traces, t.id = e.traceId ∧
    w.db.eventsForTrace t.orgId t.id = [e, e'] := by
  obtain ⟨t, ht, hid, -⟩ := (@Sound.traced .transparent sampleKey w.db h.sound)
    e (by simp [h.events])
  refine ⟨t, ht, hid, ?_⟩
  rw [@Sound.eventsForTrace .transparent sampleKey w.db h.sound t ht, Db.chain, h.events, hid]
  simp [h.trace]

theorem prevHash (h : TwoEvents w e e') : e.prevHash = none := by
  have hlinked := (@Sound.chained .transparent sampleKey w.db h.sound e.traceId).linked
  simp only [Db.chain, h.events, decide_true, List.filter_cons_of_pos] at hlinked
  exact hlinked.1

end TwoEvents

theorem reachable_chain_sample : ∃ (w : World) (t : Trace), t ∈ w.db.traces ∧
    (w.db.eventsForTrace t.orgId t.id).map Event.seq = [1, 2] ∧
      HashChain.Linked Event.hash Event.prevHash none (w.db.eventsForTrace t.orgId t.id) ∧
      ∃ r, @replayTrace .transparent sampleKey w.db t.orgId t.id = .ok r ∧ r.allVerified = true ∧
        ∀ row ∈ r.events, row.verified = true := by
  obtain ⟨w, e, e', htwo⟩ := exists_twoEvents
  obtain ⟨t, ht, -, hevents⟩ := htwo.exists_trace
  obtain ⟨-, hseqs, hlinked, hreplay⟩ := (@reachable_chain .transparent sampleKey .lenient .ascii
    SignatureScheme.ideal_transparent w htwo.reach).2 t ht
  have hlength : (w.db.eventsForTrace t.orgId t.id).length = 2 := by rw [hevents]; rfl
  refine ⟨w, t, ht, ?_, hlinked, hreplay (by simp [hevents])⟩
  rw [hseqs, hlength]
  rfl

end Attest
