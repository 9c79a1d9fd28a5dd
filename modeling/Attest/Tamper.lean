import Attest.Sealing

/-!
# Tampered rows

An adversary hands `verifyEventChain` any rows, under resolvers that name the service's
own public keys. If every row is reported verified then the rows, read in order, state
the facts of a prefix of one trace's chain (`verified_initial`). The facts of a row are
its columns and the time in its envelope, which is the time verification reads. The
column of that name is not compared, so an edit of it goes unreported
(`verified_createdAt_column`).

Signatures are the argument : the only ones in existence are those of events and of
batches (`OnlyStored`). One over a batch is over the hash of the batch's only event, or
over the digest of 64 bytes, which no envelope has.
-/

namespace Attest

/-! ## What a row states -/

/-- What the signed envelope of an event covers. -/
structure EventFacts where
  traceId : Uuid
  seq : Int
  type : String
  payloadHash : String
  prevHash : Option String
  policyVersion : Option String
  createdAt : JVal
deriving DecidableEq

/-- The row's columns, and the time in its envelope. -/
def Event.facts (e : Event) : EventFacts where
  traceId := e.traceId
  seq := e.seq
  type := e.type
  payloadHash := e.payloadHash
  prevHash := e.prevHash
  policyVersion := e.policyVersion
  createdAt := e.envelope.get "created_at"

/-- The row's columns alone. -/
def Event.columns (e : Event) : EventFacts where
  traceId := e.traceId
  seq := e.seq
  type := e.type
  payloadHash := e.payloadHash
  prevHash := e.prevHash
  policyVersion := e.policyVersion
  createdAt := .str e.createdAt

/-- The envelope with these facts. -/
def EventFacts.envelope (f : EventFacts) : Dict :=
  buildEnvelope f.traceId.str f.seq f.type f.payloadHash f.prevHash f.policyVersion f.createdAt
    (.str defaultAlgorithm)

def EventFacts.hash (f : EventFacts) : String :=
  sha256Hex f.envelope

/-- Facts with a text as time are what their envelope says. -/
theorem EventFacts.eq_of_envelope {f g : EventFacts} {time : String} (hg : g.createdAt = .str time)
    (h : canonicalBytes f.envelope = canonicalBytes g.envelope) : f = g := by
  obtain ⟨⟨ht, hn, hy, hp, hv, hz⟩, hc, -⟩ := buildEnvelope_inj h
  have htime : (JVal.str time).sortKeys = .str time := by simp [JVal.sortKeys]
  rw [hg, htime, JVal.sortKeys_eq_str, ← hg] at hc
  cases f
  cases g
  simp_all

section Signed

variable [SignatureScheme] {svc : SigningKeyPair} {db : Db}

/-- A recorded event states its columns, and has their hash. -/
theorem Event.Signed.facts_eq {e : Event} (h : e.Signed svc db) :
    e.facts = e.columns ∧ e.facts.envelope = e.envelope ∧ e.hash = e.facts.hash := by
  have hcreated : e.envelope.get "created_at" = .str e.createdAt := by
    rw [h.envelope_eq]
    simp [buildEnvelope, Dict.get, Dict.getD, Dict.get?]
  have henvelope : e.facts.envelope = e.envelope := by
    rw [EventFacts.envelope, h.envelope_eq]
    simp [Event.facts, hcreated]
  refine ⟨by simp [Event.facts, Event.columns, hcreated], henvelope, ?_⟩
  rw [EventFacts.hash, henvelope, h.hash_eq]

/-- A row that verifies has the hash of what it states. -/
theorem RowVerifies.hash_eq_facts {e : Event} {pem : String} (h : RowVerifies e.verifiable pem) :
    e.hash = e.facts.hash := by
  obtain ⟨createdAt, hcreated, hhash⟩ := h.hash_eq
  have hget : e.envelope.get "created_at" = createdAt := by
    have : e.envelope.get? "created_at" = some createdAt := hcreated
    simp [Dict.get, Dict.getD, this]
  have hsuite := h.suite_eq
  rw [VerifiableEvent.rebuilt, hsuite] at hhash
  rw [EventFacts.hash, EventFacts.envelope]
  simp only [Event.facts, hget]
  exact hhash

/-! ## The adversary -/

/-- A pair the service signs with. -/
def ServiceKey (svc : SigningKeyPair) (db : Db) (pair : SigningKeyPair) : Prop :=
  ∃ keyId, keyPairOf svc db keyId pair

/-- The resolver returns public keys of the service. -/
def GenuineKeys (svc : SigningKeyPair) (db : Db) (rows : List Event)
    (resolve : VerifiableEvent → Except PyError String) : Prop :=
  ∀ row ∈ rows, ∀ pem, resolve row.verifiable = .ok pem →
    ∃ pair, ServiceKey svc db pair ∧ pem = pair.publicPem

/-- A signature in the database, of an event or of a batch. -/
def Stored (db : Db) (signature : Bytes) : Prop :=
  (∃ e ∈ db.events, Bytes.fromHex e.signature = some signature) ∨
    ∃ b ∈ db.batches, Bytes.fromHex b.signature = some signature

/-- The rows bring no signature under the service's keys that is not in the database. -/
def OnlyStored (svc : SigningKeyPair) (db : Db) (rows : List Event) : Prop :=
  ∀ row ∈ rows, ∀ pair, ServiceKey svc db pair → ∀ m,
    Bytes.fromHex row.signature = some (SignatureScheme.sign pair.privatePem m) →
      Stored db (SignatureScheme.sign pair.privatePem m)

/-- What is hashed for the events, for the batches and for the rows. -/
def hashed (db : Db) (rows : List Event) : Set Bytes :=
  {b | (∃ e ∈ db.events, b = canonicalBytes e.envelope) ∨
    (∃ batch ∈ db.batches, ∃ leaves : List Bytes,
      batchLeafHashes db batch.eventIds = .ok (leaves.map Bytes.hex) ∧ b ∈ merkleInputs leaves) ∨
    ∃ row ∈ rows, b = canonicalBytes row.facts.envelope}

/-! ## Soundness -/

/-- A signature under a service key, over the digest of an envelope that was hashed, is
over the envelope of an event. -/
theorem exists_event_of_stored (hideal : SignatureScheme.Ideal) (hsound : Sound svc db)
    (hsealed : Sealed svc db) {rows : List Event} (hfree : CollisionFreeOn (hashed db rows))
    {f : EventFacts} (hf : canonicalBytes f.envelope ∈ hashed db rows) {pair : SigningKeyPair}
    (hstored :
      Stored db (SignatureScheme.sign pair.privatePem (sha256 (canonicalBytes f.envelope)))) :
    ∃ e ∈ db.events, f = e.facts := by
  have hevent {e : Event} (he : e ∈ db.events)
      (h : sha256 (canonicalBytes f.envelope) = sha256 (canonicalBytes e.envelope)) :
      f = e.facts := by
    obtain ⟨hcolumns, henvelope, -⟩ := (hsound.signed e he).facts_eq
    have hbytes := hfree.eq hf (Or.inl ⟨e, he, rfl⟩) h
    rw [← henvelope] at hbytes
    exact EventFacts.eq_of_envelope (by rw [hcolumns]; rfl) hbytes
  rcases hstored with ⟨e, he, hsig⟩ | ⟨b, hb, hsig⟩
  · obtain ⟨pair', -, hsigned⟩ := (hsound.signed e he).signature_eq
    rw [hsigned, Bytes.fromHex_hex, Option.some.injEq] at hsig
    exact ⟨e, he, hevent he (hideal.sign_inj pair'.isEd25519 pair.isEd25519 hsig).2.symm⟩
  · have hrooted := hsealed.rooted b hb
    obtain ⟨leaves, hne, hleaves, hroot⟩ := hrooted.rooted
    obtain ⟨hkind, m, hm, hsigned⟩ := signHex_eq_ok.mp hrooted.signed
    rw [hsigned, Bytes.fromHex_hex, Option.some.injEq] at hsig
    have hdigest := (hideal.sign_inj hkind pair.isEd25519 hsig).2
    -- The root is a leaf, hence the hash of an event, or the digest of two digests.
    obtain ⟨r, hr⟩ := Merkle.rootOf_isSome merkleNode hne
    rw [merkleRoot_hex, hr, Option.getD_some, Except.ok.injEq] at hroot
    rw [← hroot, Bytes.fromHex_hex, Option.some.injEq] at hm
    rcases rootOf_cases hr with rfl | ⟨input, hinput, hdig⟩
    · obtain ⟨e, he, hhash⟩ := mem_of_batchLeafHashes hleaves (List.mem_singleton.mpr rfl)
      have hleaf : r = sha256 (canonicalBytes e.envelope) := by
        rw [(hsound.signed e he).hash_eq] at hhash
        exact (Bytes.hex_injective hhash).symm
      exact ⟨e, he, hevent he (by rw [← hdigest, ← hm, hleaf])⟩
    · have hmem : input ∈ hashed db rows := Or.inr (Or.inl ⟨b, hb, leaves, hleaves, hinput⟩)
      have hbytes := hfree.eq hf hmem (by rw [← hdigest, ← hm, hdig])
      have hlength : input.length = 64 := by
        refine length_of_mem_merkleInputs ?_ hinput
        intro x hx
        obtain ⟨e, he, hhash⟩ := mem_of_batchLeafHashes hleaves (List.mem_map_of_mem hx)
        rw [(hsound.signed e he).hash_eq] at hhash
        rw [← Bytes.hex_injective hhash]
        exact length_sha256 _
      have hlong := length_canonicalBytes_buildEnvelope f.traceId.str f.seq f.type f.payloadHash
        f.prevHash f.policyVersion f.createdAt (.str defaultAlgorithm)
      have henvelope : (canonicalBytes f.envelope).length = input.length := by rw [hbytes]
      rw [EventFacts.envelope] at henvelope
      omega

/-- A row that verifies under a genuine key states the facts of an event. -/
theorem RowVerifies.exists_event (hideal : SignatureScheme.Ideal) (hsound : Sound svc db)
    (hsealed : Sealed svc db) {rows : List Event} (hfree : CollisionFreeOn (hashed db rows))
    (hstored : OnlyStored svc db rows) {row : Event} (hrow : row ∈ rows) {pair : SigningKeyPair}
    (hpair : ServiceKey svc db pair) (h : RowVerifies row.verifiable pair.publicPem) :
    ∃ e ∈ db.events, row.facts = e.facts := by
  obtain ⟨m, hm, hsig⟩ := eq_sign_of_verifyHex hideal pair.isEd25519 h.signature_ok
  have hhash : row.verifiable.hash = sha256Hex row.facts.envelope := h.hash_eq_facts
  rw [hhash, fromHex_sha256Hex, Option.some.injEq] at hm
  subst hm
  exact exists_event_of_stored hideal hsound hsealed hfree (Or.inr (Or.inr ⟨row, hrow, rfl⟩))
    (hstored row hrow pair hpair _ hsig)

/-- The hash tells the facts of events apart. -/
theorem injOn_hash_facts (hsound : Sound svc db) {rows : List Event}
    (hfree : CollisionFreeOn (hashed db rows)) :
    Set.InjOn EventFacts.hash {f | ∃ e ∈ db.events, f = e.facts} := by
  rintro _ ⟨e, he, rfl⟩ _ ⟨e', he', rfl⟩ hhash
  obtain ⟨-, henvelope, -⟩ := (hsound.signed e he).facts_eq
  obtain ⟨hcolumns', henvelope', -⟩ := (hsound.signed e' he').facts_eq
  have hbytes : canonicalBytes e.facts.envelope = canonicalBytes e'.facts.envelope := by
    refine canonicalBytes_eq_of_sha256Hex_eq hfree ?_ ?_ hhash
    · rw [henvelope]
      exact Or.inl ⟨e, he, rfl⟩
    · rw [henvelope']
      exact Or.inl ⟨e', he', rfl⟩
  exact EventFacts.eq_of_envelope (by rw [hcolumns']; rfl) hbytes

/-- Rows that verify in a chain state a prefix of a trace. -/
theorem Sound.prefix_of_linked (hsound : Sound svc db) {rows : List Event}
    (hfree : CollisionFreeOn (hashed db rows))
    (hlinked : HashChain.Linked Event.hash Event.prevHash none rows)
    (hhash : ∀ row ∈ rows, row.hash = row.facts.hash)
    (hrows : ∀ row ∈ rows, ∃ e ∈ db.events, row.facts = e.facts) :
    ∃ traceId, List.IsPrefix (rows.map Event.facts) ((db.chain traceId).map Event.facts) := by
  have : Nonempty Uuid := ⟨Uuid.ofNat 0⟩
  have hmem {e : Event} {t : Uuid} (he : e ∈ db.chain t) : e ∈ db.events := (mem_chain.mp he).1
  have hcongr : ∀ {es : List Event} {start : Option String}, (∀ e ∈ es, e.hash = e.facts.hash) →
      HashChain.Linked Event.hash Event.prevHash start es →
        HashChain.Linked EventFacts.hash EventFacts.prevHash start (es.map Event.facts) := by
    intro es start hes hlink
    induction es generalizing start with
    | nil => trivial
    | cons e es ih =>
      have hhead := hes e List.mem_cons_self
      refine ⟨hlink.1, ?_⟩
      rw [← hhead]
      exact ih (fun x hx => hes x (List.mem_cons_of_mem e hx)) hlink.2
  have hchains : ∀ t, HashChain.Linked EventFacts.hash EventFacts.prevHash none
      ((db.chain t).map Event.facts) := by
    intro t
    exact hcongr (fun e he => (hsound.signed e (hmem he)).facts_eq.2.2) (hsound.chained t).linked
  refine HashChain.Linked.prefix hchains ?_ (hcongr hhash hlinked) ?_
  · refine (injOn_hash_facts hsound hfree).mono ?_
    rintro f ⟨t, hf⟩
    obtain ⟨e, he, rfl⟩ := List.mem_map.mp hf
    exact ⟨e, hmem he, rfl⟩
  · intro f hf
    obtain ⟨row, hrow, rfl⟩ := List.mem_map.mp hf
    obtain ⟨e, he, heq⟩ := hrows row hrow
    rw [heq]
    exact ⟨e.traceId, List.mem_map_of_mem (mem_chain.mpr ⟨he, rfl⟩)⟩

variable [KeyWrapping] [PyUnicode]

/-- Rows reported verified, under resolvers of genuine keys, state in their order a
prefix of what one trace recorded. -/
theorem verified_initial (hideal : SignatureScheme.Ideal) {w : World}
    (h : (ledger svc).Reachable w) {rows : List Event}
    {resolve : VerifiableEvent → Except PyError String} {traceId : String} {r : TraceReplayResult}
    (hkeys : GenuineKeys svc w.db rows resolve) (hstored : OnlyStored svc w.db rows)
    (hfree : CollisionFreeOn (hashed w.db rows))
    (hverify : verifyEventChain traceId (rows.map Event.verifiable) resolve = .ok r)
    (hall : r.allVerified = true) :
    rows = [] ∨ ∃ t ∈ w.db.traces, List.IsPrefix (rows.map Event.facts)
      ((w.db.eventsForTrace t.orgId t.id).map Event.columns) := by
  have hsound := sound_of_reachable h
  have hsealed := sealed_of_reachable h
  obtain ⟨rs, hrs, hr⟩ := Except.bind_eq_ok.mp hverify
  obtain rfl := Except.ok.inj hr
  obtain ⟨hverified, hlinked⟩ := verifyRows_all_verified hrs hall
  rw [HashChain.linked_map] at hlinked
  have hrow : ∀ row ∈ rows, row.hash = row.facts.hash ∧ ∃ e ∈ w.db.events, row.facts = e.facts := by
    intro row hrow
    obtain ⟨pem, hpem, hok⟩ := hverified row.verifiable (List.mem_map_of_mem hrow)
    obtain ⟨pair, hpair, rfl⟩ := hkeys row hrow pem hpem
    exact ⟨hok.hash_eq_facts, hok.exists_event hideal hsound hsealed hfree hstored hrow hpair⟩
  obtain ⟨t, hinit⟩ := hsound.prefix_of_linked hfree hlinked (fun row hmem => (hrow row hmem).1)
    fun row hmem => (hrow row hmem).2
  rcases List.eq_nil_or_concat' rows with hnil | ⟨init, last, hlast⟩
  · exact Or.inl hnil
  · right
    obtain ⟨e, he, -⟩ : ∃ e ∈ w.db.chain t, e.facts = last.facts := by
      have := hinit.subset (List.mem_map_of_mem (f := Event.facts) (a := last) (by simp [hlast]))
      exact List.mem_map.mp this
    obtain ⟨hevent, htid⟩ := mem_chain.mp he
    obtain ⟨trace, htrace, hid, -⟩ := hsound.traced e hevent
    refine ⟨trace, htrace, ?_⟩
    rw [hsound.eventsForTrace htrace, hid.trans htid]
    have hcolumns : (w.db.chain t).map Event.facts = (w.db.chain t).map Event.columns :=
      List.map_congr_left fun x hx => (hsound.signed x (mem_chain.mp hx).1).facts_eq.1
    rwa [hcolumns] at hinit

end Signed

/-! ## A ledger of two events -/

section Sole

variable [SignatureScheme] {svc : SigningKeyPair} {db : Db} {e : Event}

/-- Without keys of organisations, the service signs. -/
theorem Event.Signed.keyless (h : e.Signed svc db) (hkeys : db.signingKeys = []) :
    e.signingKeyId = none := by
  obtain ⟨pair, hpair, -⟩ := h.signature_eq
  cases hid : e.signingKeyId with
  | none => rfl
  | some keyId =>
    rw [hid] at hpair
    obtain ⟨k, hk, -⟩ := hpair
    simp [hkeys] at hk

/-- Where the events are all of one trace, copies of them are an adversary's rows, whatever their
column says. -/
theorem Sound.retimed_rows (hideal : SignatureScheme.Ideal) (hsound : Sound svc db)
    {traceId : Uuid} (htrace : ∀ e ∈ db.events, e.traceId = traceId)
    (hhashes : (db.events.map Event.hash).Nodup) (hbatches : db.batches = [])
    (hkeys : db.signingKeys = []) (time : Event → String) {rows : List Event}
    (hrows : rows = db.events.map fun e => { e with createdAt := time e }) :
    GenuineKeys svc db rows (resolveKey svc db) ∧ OnlyStored svc db rows ∧
      CollisionFreeOn (hashed db rows) ∧
        ∃ r, verifyEventChain traceId.str (rows.map Event.verifiable) (resolveKey svc db) = .ok r ∧
          r.allVerified = true := by
  have hmem {row : Event} (hrow : row ∈ rows) :
      ∃ e ∈ db.events, row = { e with createdAt := time e } := by
    rw [hrows] at hrow
    obtain ⟨e, he, rfl⟩ := List.mem_map.mp hrow
    exact ⟨e, he, rfl⟩
  refine ⟨?_, ?_, ?_, ?_⟩
  · intro row hrow pem hpem
    obtain ⟨e, he, rfl⟩ := hmem hrow
    have hnone : VerifiableEvent.signingKeyId
        (Event.verifiable { e with createdAt := time e }) = none :=
      (hsound.signed e he).keyless hkeys
    rw [resolveKey, hnone, Except.ok.injEq] at hpem
    exact ⟨svc, ⟨none, rfl⟩, hpem.symm⟩
  · intro row hrow pair _ m h
    obtain ⟨e, he, rfl⟩ := hmem hrow
    exact Or.inl ⟨e, he, h⟩
  · have hdigests : (db.events.map fun e => sha256 (canonicalBytes e.envelope)).Nodup := by
      refine List.Nodup.of_map Bytes.hex ?_
      rw [List.map_map]
      refine (List.map_congr_left fun e he => ?_) ▸ hhashes
      exact (hsound.signed e he).hash_eq
    refine @collisionFreeOn_of_nodup (db.events.map fun e => canonicalBytes e.envelope) ?_ _ ?_
    · rw [List.map_map]
      exact hdigests
    rintro b (⟨x, hx, rfl⟩ | ⟨batch, hbatch, -⟩ | ⟨row, hrow, rfl⟩)
    · exact List.mem_map_of_mem (f := fun e : Event => canonicalBytes e.envelope) hx
    · simp [hbatches] at hbatch
    · obtain ⟨e, he, rfl⟩ := hmem hrow
      refine List.mem_map.mpr ⟨e, he, ?_⟩
      rw [← (hsound.signed e he).facts_eq.2.1]
      rfl
  · have hverifiable : rows.map Event.verifiable = db.events.map Event.verifiable := by
      rw [hrows, List.map_map]
      rfl
    have hverifies : ∀ x ∈ rows.map Event.verifiable,
        ∃ pem, resolveKey svc db x = .ok pem ∧ RowVerifies x pem := by
      rw [hverifiable]
      rintro x hx
      obtain ⟨e, he, rfl⟩ := List.mem_map.mp hx
      exact (hsound.signed e he).rowVerifies hideal hsound.keys_nodup
    have hlinked : HashChain.Linked VerifiableEvent.hash VerifiableEvent.prevHash none
        (rows.map Event.verifiable) := by
      rw [hverifiable, HashChain.linked_map]
      have hchain : db.chain traceId = db.events :=
        List.filter_eq_self.mpr fun e he => decide_eq_true (htrace e he)
      exact hchain ▸ (hsound.chained traceId).linked
    obtain ⟨rs, hrs, hall, -⟩ := verifyRows_of_linked hverifies hlinked
    exact ⟨⟨traceId.str, rs.all EventVerifyResult.verified, rs⟩, by
      simp only [verifyEventChain, hrs, Except.ok_bind', Except.pure_eq], hall⟩

end Sole

/-- Copies of the two events, with any times in their columns. -/
theorem TwoEvents.retimed {w : World} {e e' : Event} (h : TwoEvents w e e')
    (time : Event → String) :
    @GenuineKeys .transparent sampleKey w.db [{ e with createdAt := time e },
        { e' with createdAt := time e' }] (@resolveKey .transparent sampleKey w.db) ∧
      @OnlyStored .transparent sampleKey w.db [{ e with createdAt := time e },
        { e' with createdAt := time e' }] ∧
      CollisionFreeOn (hashed w.db [{ e with createdAt := time e },
        { e' with createdAt := time e' }]) ∧
      ∃ r, @verifyEventChain .transparent e.traceId.str ([{ e with createdAt := time e },
          { e' with createdAt := time e' }].map Event.verifiable)
            (@resolveKey .transparent sampleKey w.db) = .ok r ∧ r.allVerified = true := by
  refine @Sound.retimed_rows .transparent sampleKey w.db SignatureScheme.ideal_transparent h.sound
    e.traceId ?_ ?_ h.batches h.signingKeys time _ (by rw [h.events]; rfl)
  · simp [h.events, h.trace]
  · simp [h.events, h.hashes]

theorem verified_initial_sample : ∃ (w : World) (rows : List Event), rows.length = 2 ∧
    ∃ t ∈ w.db.traces, List.IsPrefix (rows.map Event.facts)
      ((w.db.eventsForTrace t.orgId t.id).map Event.columns) := by
  obtain ⟨w, e, e', htwo⟩ := exists_twoEvents
  obtain ⟨hgenuine, hstored, hfree, r, hverify, hall⟩ := htwo.retimed Event.createdAt
  have h := @verified_initial .transparent sampleKey .lenient .ascii
    SignatureScheme.ideal_transparent w htwo.reach [e, e'] _ _ _ hgenuine hstored hfree hverify hall
  exact ⟨w, [e, e'], rfl, h.resolve_left (List.cons_ne_nil e [e'])⟩

/-- The column `created_at` of a verified row may say anything. -/
theorem verified_createdAt_column : ¬ ∀ (w : World) (rows : List Event)
    (resolve : VerifiableEvent → Except PyError String) (traceId : String) (r : TraceReplayResult),
    (@ledger .transparent .lenient .ascii sampleKey).Reachable w →
      @GenuineKeys .transparent sampleKey w.db rows resolve →
      @OnlyStored .transparent sampleKey w.db rows → CollisionFreeOn (hashed w.db rows) →
      @verifyEventChain .transparent traceId (rows.map Event.verifiable) resolve = .ok r →
      r.allVerified = true →
        rows = [] ∨ ∃ t ∈ w.db.traces, List.IsPrefix (rows.map Event.columns)
          ((w.db.eventsForTrace t.orgId t.id).map Event.columns) := by
  intro hclaim
  obtain ⟨w, e, e', htwo⟩ := exists_twoEvents
  obtain ⟨hgenuine, hstored, hfree, r, hverify, hall⟩ :=
    htwo.retimed fun _ => "1999-12-31T23:59:59+00:00"
  rcases hclaim w _ _ _ r htwo.reach hgenuine hstored hfree hverify hall with hnil | ⟨t, ht, hinit⟩
  · exact List.cons_ne_nil _ _ hnil
  · obtain ⟨x, hx, heq⟩ := List.mem_map.mp (hinit.subset (List.mem_map_of_mem List.mem_cons_self))
    have hmem : x ∈ w.db.events := by
      rw [Db.eventsForTrace, List.mem_insertionSort] at hx
      exact (Db.mem_traceRows.mp hx).1
    have htime : x.createdAt = "1999-12-31T23:59:59+00:00" := by
      simpa [Event.columns] using congrArg EventFacts.createdAt heq
    rw [htwo.events, List.mem_cons, List.mem_singleton] at hmem
    rcases hmem with rfl | rfl
    · rw [htwo.createdAt.1] at htime
      exact absurd htime (by decide)
    · rw [htwo.createdAt.2] at htime
      exact absurd htime (by decide)

end Attest
