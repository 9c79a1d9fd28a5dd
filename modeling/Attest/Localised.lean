import Attest.Tamper
import Attest.Reporting

/-!
# Tampering is localised

A row is judged by what it says of itself and by the hash stored before it, so a change of
one row shows in its own verdict, and in that of the next row when the hash was changed
(`tampering_is_localised`). The rows before are reported as they were
(`verifyRows_append`), the changed one fails because its columns no longer hash to its hash
or its signature is over another text (`Tampering.not_rowVerifies`), and the rows after are
judged from the stored hash, not from a recomputed one.
-/

namespace Attest

/-! ## Changes of a row -/

/-- One of the values of a row is overwritten. -/
inductive Tampering where
  | traceId (value : String)
  | seq (value : Int)
  | type (value : String)
  | payloadHash (value : String)
  | prevHash (value : Option String)
  | policyVersion (value : Option String)
  /-- `envelope["created_at"]`. -/
  | createdAt (value : JVal)
  | signature (value : String)
  | hash (value : String)

def Tampering.apply : Tampering → VerifiableEvent → VerifiableEvent
  | .traceId value, e => { e with traceId := value }
  | .seq value, e => { e with seq := value }
  | .type value, e => { e with type := value }
  | .payloadHash value, e => { e with payloadHash := value }
  | .prevHash value, e => { e with prevHash := value }
  | .policyVersion value, e => { e with policyVersion := value }
  | .createdAt value, e => { e with envelope := setItem e.envelope ("created_at", value) }
  | .signature value, e => { e with signature := value }
  | .hash value, e => { e with hash := value }

/-- The value is another one. A signature or hash is well formed where it stands for bytes,
and signatures differ where their bytes do. -/
def Tampering.Differs : Tampering → VerifiableEvent → Prop
  | .traceId value, e => value ≠ e.traceId
  | .seq value, e => value ≠ e.seq
  | .type value, e => value ≠ e.type
  | .payloadHash value, e => value ≠ e.payloadHash
  | .prevHash value, e => value ≠ e.prevHash
  | .policyVersion value, e => value ≠ e.policyVersion
  | .createdAt value, e => e.envelope.get? "created_at" ≠ some value
  | .signature value, e => IsHex value ∧ Bytes.fromHex value ≠ Bytes.fromHex e.signature
  | .hash value, e => IsHex value ∧ value ≠ e.hash

/-- The rows that no longer verify once the `k`-th was changed. -/
def Tampering.unverified (k : Nat) : Tampering → List Nat
  | .hash _ => [k, k + 1]
  | _ => [k]

/-- The envelope that verification hashes for the row. -/
def VerifiableEvent.hashedEnvelope (e : VerifiableEvent) : Dict :=
  e.rebuilt (e.envelope.get "created_at")

/-- What is hashed for the row before and after the change. -/
def Tampering.hashed (t : Tampering) (e : VerifiableEvent) : Set Bytes :=
  {b | b = canonicalBytes e.hashedEnvelope ∨ b = canonicalBytes (t.apply e).hashedEnvelope}

theorem VerifiableEvent.suite_of_alg {e : VerifiableEvent} (h : e.alg = defaultAlgorithm) :
    e.suite = .str algSha256Ed25519V1 := by
  simp [suite, h, JVal.orElse, JVal.truthy, defaultAlgorithm, algSha256Ed25519V1]

@[simp] theorem Tampering.apply_alg (t : Tampering) (e : VerifiableEvent) :
    (t.apply e).alg = e.alg := by
  cases t <;> rfl

theorem Tampering.apply_signingKeyId (t : Tampering) (e : VerifiableEvent) :
    (t.apply e).signingKeyId = e.signingKeyId := by
  cases t <;> rfl

/-- The time the changed envelope holds. -/
theorem Tampering.apply_createdAt (t : Tampering) (e : VerifiableEvent) :
    (t.apply e).envelope.get? "created_at" =
      match t with
      | .createdAt value => some value
      | _ => e.envelope.get? "created_at" := by
  cases t with
  | createdAt value => exact get?_setItem_self _ _ _
  | _ => rfl

theorem Dict.get_eq_of_get? {d : Dict} {key : String} {v : JVal} (h : d.get? key = some v) :
    d.get key = v := by
  simp [Dict.get, Dict.getD, h]

/-- Envelopes with one canonical text are of rows with the same columns and time. -/
theorem hashedEnvelope_inj {e e' : VerifiableEvent} {time : String}
    (htime : e.envelope.get "created_at" = .str time)
    (h : canonicalBytes e'.hashedEnvelope = canonicalBytes e.hashedEnvelope) :
    (e'.traceId = e.traceId ∧ e'.seq = e.seq ∧ e'.type = e.type ∧
      e'.payloadHash = e.payloadHash ∧ e'.prevHash = e.prevHash ∧
        e'.policyVersion = e.policyVersion) ∧
      e'.envelope.get "created_at" = e.envelope.get "created_at" := by
  obtain ⟨hcolumns, hcreated, -⟩ := buildEnvelope_inj h
  refine ⟨hcolumns, ?_⟩
  have hstr : (JVal.str time).sortKeys = .str time := by simp [JVal.sortKeys]
  rw [htime, hstr, JVal.sortKeys_eq_str] at hcreated
  rw [hcreated, htime]

/-- The results are one for each of `n` rows, and mark all as verified but those in `bad`. -/
structure VerifiedBut (bad : List Nat) (n : Nat) (results : List EventVerifyResult) : Prop where
  length_eq : results.length = n
  verified_iff : ∀ {j : Nat} {row : EventVerifyResult}, results[j]? = some row →
    (row.verified = true ↔ j ∉ bad)

/-- Of the rows after a changed one, those that no longer verify. -/
def Tampering.unverifiedAfter : Tampering → List Nat
  | .hash _ => [0]
  | _ => []

theorem Tampering.mem_unverified {t : Tampering} {k j : Nat} :
    j ∈ t.unverified k ↔ j = k ∨ ∃ i ∈ t.unverifiedAfter, j = k + 1 + i := by
  cases t <;> simp [unverified, unverifiedAfter]

theorem VerifiedBut.of_all {results : List EventVerifyResult}
    (h : results.all EventVerifyResult.verified = true) : VerifiedBut [] results.length results :=
  ⟨rfl, fun hrow => by simp [List.all_eq_true.mp h _ (List.mem_of_getElem? hrow)]⟩

theorem VerifiedBut.cons_false {results : List EventVerifyResult} {r : EventVerifyResult}
    (hr : r.verified = false) (h : results.all EventVerifyResult.verified = true) :
    VerifiedBut [0] (results.length + 1) (r :: results) := by
  refine ⟨rfl, ?_⟩
  rintro (_ | j) row hrow
  · obtain rfl : r = row := by simpa using hrow
    simp [hr]
  · have hmem : row ∈ results := List.mem_of_getElem? (by simpa using hrow)
    simp [List.all_eq_true.mp h row hmem]

/-- Verified rows, one that is not, and what follows. -/
theorem VerifiedBut.append_cons {t : Tampering} {before after : List EventVerifyResult}
    {r : EventVerifyResult} {n : Nat} (hbefore : before.all EventVerifyResult.verified = true)
    (hr : r.verified = false) (hafter : VerifiedBut t.unverifiedAfter n after) :
    VerifiedBut (t.unverified before.length) (before.length + 1 + n) (before ++ r :: after) := by
  refine ⟨by simp [hafter.length_eq]; omega, fun {j row} hrow => ?_⟩
  rw [Tampering.mem_unverified]
  rcases Nat.lt_trichotomy j before.length with hlt | rfl | hgt
  · rw [List.getElem?_append_left hlt] at hrow
    have hverified := List.all_eq_true.mp hbefore row (List.mem_of_getElem? hrow)
    simp only [hverified, true_iff, not_or, not_exists, not_and]
    exact ⟨by omega, fun i _ => by omega⟩
  · obtain rfl : r = row := by simpa using hrow
    simp [hr]
  · obtain ⟨i, rfl⟩ : ∃ i, j = before.length + 1 + i := ⟨j - before.length - 1, by omega⟩
    have hindex : before.length + 1 + i - before.length = i + 1 := by omega
    rw [List.getElem?_append_right (by omega), hindex, List.getElem?_cons_succ] at hrow
    rw [hafter.verified_iff hrow]
    constructor
    · rintro hnot (hk | ⟨i', hi', heq⟩)
      · omega
      · obtain rfl : i = i' := by omega
        exact hnot hi'
    · exact fun hnot hi => hnot (Or.inr ⟨i, hi, rfl⟩)

section Rows

variable [SignatureScheme]

/-! ## The row that was changed -/

/-- A row that verifies has the hash of its envelope. -/
theorem RowVerifies.hash_eq_hashedEnvelope {e : VerifiableEvent} {pem : String}
    (h : RowVerifies e pem) : e.hash = sha256Hex e.hashedEnvelope := by
  obtain ⟨createdAt, hcreated, hhash⟩ := h.hash_eq
  rw [VerifiableEvent.hashedEnvelope, Dict.get_eq_of_get? hcreated, hhash]

/-- A changed row does not verify under the key the row verified under. -/
theorem Tampering.not_rowVerifies (hideal : SignatureScheme.Ideal) {e : VerifiableEvent}
    {sk time : String} (hk : SignatureScheme.privateKind sk = .usable)
    (h : RowVerifies e (SignatureScheme.publicPem sk))
    (htime : e.envelope.get? "created_at" = some (.str time)) (t : Tampering)
    (hdiffers : t.Differs e) (hfree : CollisionFreeOn (t.hashed e)) :
    ¬ RowVerifies (t.apply e) (SignatureScheme.publicPem sk) := by
  intro h'
  have hhash := h.hash_eq_hashedEnvelope
  have hhash' := h'.hash_eq_hashedEnvelope
  have hsame (heq : (t.apply e).hash = e.hash) :=
    hashedEnvelope_inj (Dict.get_eq_of_get? htime) (canonicalBytes_eq_of_sha256Hex_eq hfree
      (Or.inr rfl) (Or.inl rfl) ((hhash'.symm.trans heq).trans hhash))
  cases t with
  | traceId value => exact hdiffers (hsame rfl).1.1
  | seq value => exact hdiffers (hsame rfl).1.2.1
  | type value => exact hdiffers (hsame rfl).1.2.2.1
  | payloadHash value => exact hdiffers (hsame rfl).1.2.2.2.1
  | prevHash value => exact hdiffers (hsame rfl).1.2.2.2.2.1
  | policyVersion value => exact hdiffers (hsame rfl).1.2.2.2.2.2
  | createdAt value =>
    have hvalue := Dict.get_eq_of_get? (get?_setItem_self e.envelope "created_at" value)
    have htext := (hsame rfl).2
    rw [Tampering.apply, hvalue, Dict.get_eq_of_get? htime] at htext
    exact hdiffers (htime.trans (congrArg some htext.symm))
  | signature value =>
    obtain ⟨m, hm, hsig⟩ := eq_sign_of_verifyHex hideal hk h.signature_ok
    obtain ⟨m', hm', hsig'⟩ := eq_sign_of_verifyHex hideal hk h'.signature_ok
    obtain rfl : m = m' := Option.some.inj (hm.symm.trans hm')
    exact hdiffers.2 (hsig'.trans hsig.symm)
  | hash value => exact hdiffers.2 (hhash'.trans hhash.symm)

theorem isHex_of_verifyHex {pem hash signature : String} {accepted : Bool}
    (h : verifyHex pem hash signature = .ok accepted) : IsHex hash ∧ IsHex signature := by
  obtain ⟨-, s, m, hs, hm, -⟩ := verifyHex_eq_ok.mp h
  exact ⟨by rw [IsHex, hm]; rfl, by rw [IsHex, hs]; rfl⟩

/-- A changed row can still be read. -/
theorem Tampering.readable {e : VerifiableEvent} {pem : String} (h : RowVerifies e pem)
    (halg : e.alg = defaultAlgorithm) (t : Tampering) (hdiffers : t.Differs e) :
    (t.apply e).Readable := by
  obtain ⟨createdAt, hcreated, -⟩ := h.hash_eq
  obtain ⟨hhash, hsignature⟩ := isHex_of_verifyHex h.signature_ok
  refine ⟨?_, ?_, fun _ => ?_⟩
  · rw [t.apply_createdAt]
    cases t <;> simp [hcreated]
  · rw [VerifiableEvent.suite_of_alg ((t.apply_alg e).trans halg)]
    rfl
  · cases t with
    | signature value => exact ⟨hhash, hdiffers.1⟩
    | hash value => exact ⟨hdiffers.1, hsignature⟩
    | _ => exact ⟨hhash, hsignature⟩

/-- A changed row is reported, and not as verified. -/
theorem Tampering.verifySingleEvent (hideal : SignatureScheme.Ideal) {e : VerifiableEvent}
    {sk time : String} (hk : SignatureScheme.privateKind sk = .usable)
    (h : RowVerifies e (SignatureScheme.publicPem sk))
    (htime : e.envelope.get? "created_at" = some (.str time)) (halg : e.alg = defaultAlgorithm)
    (t : Tampering) (hdiffers : t.Differs e) (hfree : CollisionFreeOn (t.hashed e))
    (expected : Option String) :
    ∃ r, verifySingleEvent (t.apply e) (SignatureScheme.publicPem sk) expected = .ok r ∧
      r.verified = false := by
  have hread := (succeeds_verifySingleEvent (hideal.publicKind_publicPem hk) (t.apply e)
    expected).mpr (t.readable h halg hdiffers)
  obtain ⟨r, hr⟩ := Except.succeeds_iff.mp hread
  refine ⟨r, hr, Bool.eq_false_iff.mpr fun hverified => ?_⟩
  exact t.not_rowVerifies hideal hk h htime hdiffers hfree
    ((verifySingleEvent_verified hr).mp hverified).1

/-! ## The rows around it -/

variable {resolve : VerifiableEvent → Except PyError String}

/-- Rows are judged from the hash stored before them. -/
theorem verifyRows_append {ys : List VerifiableEvent} {rs ss : List EventVerifyResult} :
    ∀ {prevHash : Option String} {xs : List VerifiableEvent},
      verifyRows resolve prevHash xs = .ok rs →
        verifyRows resolve (HashChain.tip VerifiableEvent.hash prevHash xs) ys = .ok ss →
          verifyRows resolve prevHash (xs ++ ys) = .ok (rs ++ ss) := by
  intro prevHash xs hxs hys
  induction xs generalizing prevHash rs with
  | nil =>
    obtain rfl : [] = rs := by simpa [verifyRows] using hxs
    exact hys
  | cons x xs ih =>
    simp only [verifyRows, Except.bind_eq_ok, Except.pure_eq, Except.ok.injEq] at hxs
    obtain ⟨pem, hpem, r, hr, rest, hrest, rfl⟩ := hxs
    simp only [List.cons_append, verifyRows, hpem, hr, ih hrest hys, Except.ok_bind',
      Except.pure_eq]

/-- Rows that verify and link from some hash on are, after another hash, all reported as
verified but the first. -/
theorem verifyRows_of_relinked {hash hash' : String} (hne : hash' ≠ hash) :
    ∀ {es : List VerifiableEvent}, (∀ e ∈ es, ∃ pem, resolve e = .ok pem ∧ RowVerifies e pem) →
      HashChain.Linked VerifiableEvent.hash VerifiableEvent.prevHash (some hash) es →
        ∃ rs, verifyRows resolve (some hash') es = .ok rs ∧ VerifiedBut [0] es.length rs
  | [], _, _ => ⟨[], rfl, rfl, fun hrow => by simp at hrow⟩
  | e :: es, hrows, hlinked => by
    obtain ⟨pem, hpem, hrow⟩ := hrows e List.mem_cons_self
    obtain ⟨r, hr, hverified⟩ := hrow.verifySingleEvent (some hash')
    obtain ⟨rs, hrs, hall, hlength⟩ := verifyRows_of_linked
      (fun x hx => hrows x (List.mem_cons_of_mem e hx)) hlinked.2
    have hfalse : (e.prevHash == some hash') = false := by
      rw [hlinked.1]
      simpa using hne.symm
    refine ⟨r :: rs, by simp [verifyRows, hpem, hr, hrs], ?_⟩
    rw [List.length_cons, ← hlength]
    exact VerifiedBut.cons_false (hverified.trans hfalse) hall

/-- The rows after a changed one. -/
theorem Tampering.verifyRows_after {e : VerifiableEvent} (t : Tampering) (hdiffers : t.Differs e)
    {es : List VerifiableEvent} (hrows : ∀ x ∈ es, ∃ pem, resolve x = .ok pem ∧ RowVerifies x pem)
    (hlinked : HashChain.Linked VerifiableEvent.hash VerifiableEvent.prevHash (some e.hash) es) :
    ∃ rs, verifyRows resolve (some (t.apply e).hash) es = .ok rs ∧
      VerifiedBut t.unverifiedAfter es.length rs := by
  have hkept : ∃ rs, verifyRows resolve (some e.hash) es = .ok rs ∧
      VerifiedBut [] es.length rs := by
    obtain ⟨rs, hrs, hall, hlength⟩ := verifyRows_of_linked hrows hlinked
    exact ⟨rs, hrs, hlength ▸ VerifiedBut.of_all hall⟩
  cases t with
  | hash value => exact verifyRows_of_relinked hdiffers.2 hrows hlinked
  | _ => exact hkept

end Rows

/-! ## Every recorded chain -/

section Recorded

variable [SignatureScheme] [KeyWrapping] [PyUnicode] {svc : SigningKeyPair}

/-- Tampering is localised. In the chain of any trace that was recorded, one value of the
`k`-th row is changed. Then verification reports on all rows, and marks all as verified but
the `k`-th, and the one after it when the hash was changed. -/
theorem tampering_is_localised (hideal : SignatureScheme.Ideal) {w : World}
    (h : (ledger svc).Reachable w) {trace : Trace} (htrace : trace ∈ w.db.traces) {k : Nat}
    {e : Event} (he : (w.db.eventsForTrace trace.orgId trace.id)[k]? = some e) (t : Tampering)
    (hdiffers : t.Differs e.verifiable) (hfree : CollisionFreeOn (t.hashed e.verifiable)) :
    ∃ r, verifyEventChain trace.id.str
        (((w.db.eventsForTrace trace.orgId trace.id).map Event.verifiable).set k
          (t.apply e.verifiable)) (resolveKey svc w.db) = .ok r ∧
      VerifiedBut (t.unverified k) (w.db.eventsForTrace trace.orgId trace.id).length r.events := by
  have hsound := sound_of_reachable h
  generalize hevents : w.db.eventsForTrace trace.orgId trace.id = events at he ⊢
  have hchain : events = w.db.chain trace.id := hevents ▸ hsound.eventsForTrace htrace
  have hsigned (x : Event) (hx : x ∈ events) : x.Signed svc w.db :=
    hsound.signed x (mem_chain.mp (hchain ▸ hx)).1
  have hrows (es : List Event) (hes : ∀ x ∈ es, x ∈ events) : ∀ x ∈ es.map Event.verifiable,
      ∃ pem, resolveKey svc w.db x = .ok pem ∧ RowVerifies x pem := by
    intro x hx
    obtain ⟨x, hmem, rfl⟩ := List.mem_map.mp hx
    exact (hsigned x (hes x hmem)).rowVerifies hideal hsound.keys_nodup
  obtain ⟨hk, hget⟩ := List.getElem?_eq_some_iff.mp he
  have hsplit : events = events.take k ++ e :: events.drop (k + 1) := by
    rw [← hget, List.cons_getElem_drop_succ, List.take_append_drop]
  generalize htake : events.take k = xs at hsplit
  generalize events.drop (k + 1) = ys at hsplit
  have hlength : xs.length = k := by
    rw [← htake, List.length_take]
    omega
  subst hsplit hlength
  have hlinked : HashChain.Linked VerifiableEvent.hash VerifiableEvent.prevHash none
      ((xs ++ e :: ys).map Event.verifiable) := by
    rw [HashChain.linked_map, hchain]
    exact (hsound.chained trace.id).linked
  rw [List.map_append, List.map_cons, HashChain.linked_append] at hlinked
  obtain ⟨hbefore, -, hafter⟩ := hlinked
  -- The rows before, the changed one and the rows after.
  obtain ⟨rs, hrs, hall, hcount⟩ := verifyRows_of_linked
    (hrows xs fun x hx => List.mem_append_left _ hx) hbefore
  have hevent := hsigned e (by simp)
  obtain ⟨pair, hpair, -⟩ := hevent.signature_eq
  have hresolve := resolveKey_of_keyPairOf (e := e.verifiable) hsound.keys_nodup hpair
  obtain ⟨pem, hpem, hrow⟩ := hevent.rowVerifies hideal hsound.keys_nodup
  obtain rfl : pair.publicPem = pem := Except.ok.inj (hresolve.symm.trans hpem)
  have htime : e.verifiable.envelope.get? "created_at" = some (.str e.createdAt) := by
    simp [Event.verifiable, hevent.envelope_eq, buildEnvelope, Dict.get?]
  obtain ⟨r, hr, hfalse⟩ := t.verifySingleEvent hideal pair.isEd25519 hrow htime hevent.alg_eq
    hdiffers hfree (HashChain.tip VerifiableEvent.hash none (xs.map Event.verifiable))
  obtain ⟨ss, hss, hverdicts⟩ := t.verifyRows_after hdiffers
    (hrows ys fun x hx => List.mem_append_right _ (List.mem_cons_of_mem e hx)) hafter
  have hpem' : resolveKey svc w.db (t.apply e.verifiable) = .ok pair.publicPem := by
    rw [resolveKey, t.apply_signingKeyId]
    exact hpem
  have hrest : verifyRows (resolveKey svc w.db)
      (HashChain.tip VerifiableEvent.hash none (xs.map Event.verifiable))
        (t.apply e.verifiable :: ys.map Event.verifiable) = .ok (r :: ss) := by
    simp only [verifyRows, hpem', Except.ok_bind']
    erw [hr]
    simp only [Except.ok_bind', hss, Except.pure_eq]
  have hset : (xs.map Event.verifiable ++ e.verifiable :: ys.map Event.verifiable).set xs.length
      (t.apply e.verifiable) =
        xs.map Event.verifiable ++ t.apply e.verifiable :: ys.map Event.verifiable := by
    rw [List.set_append_right _ _ (by simp)]
    simp
  rw [List.length_map] at hcount hverdicts
  refine ⟨⟨trace.id.str, (rs ++ r :: ss).all EventVerifyResult.verified, rs ++ r :: ss⟩, ?_, ?_⟩
  · rw [List.map_append, List.map_cons, hset, verifyEventChain, verifyRows_append hrs hrest]
    rfl
  · have hverdict := VerifiedBut.append_cons hall hfalse hverdicts
    rw [hcount] at hverdict
    simpa [Nat.add_assoc, Nat.add_comm 1] using hverdict

end Recorded

/-- The hash of the first of two events is overwritten : it fails, and so does the one after it,
which no longer follows it. -/
theorem tampering_is_localised_sample : ∃ (w : World) (trace : Trace) (e e' : Event),
    w.db.eventsForTrace trace.orgId trace.id = [e, e'] ∧
      ∃ r, @verifyEventChain .transparent trace.id.str
          [(Tampering.hash "00").apply e.verifiable, e'.verifiable]
          (@resolveKey .transparent sampleKey w.db) = .ok r ∧ VerifiedBut [0, 1] 2 r.events := by
  obtain ⟨w, e, e', htwo⟩ := exists_twoEvents
  obtain ⟨trace, htrace, -, hevents⟩ := htwo.exists_trace
  have hsigned := @Sound.signed .transparent sampleKey w.db htwo.sound e (by simp [htwo.events])
  have hhex : IsHex "00" := by
    unfold IsHex
    decide
  have hhash : "00" ≠ e.hash := by
    rw [@Event.Signed.hash_eq .transparent _ _ _ hsigned]
    intro h
    have hbytes := congrArg Bytes.fromHex h
    rw [fromHex_sha256Hex] at hbytes
    have hlength := congrArg (Option.map List.length) hbytes
    rw [Option.map_some, length_sha256] at hlength
    exact absurd hlength (by decide)
  have hone : (Tampering.hashed (.hash "00") e.verifiable).Subsingleton := by
    have hsame : ((Tampering.hash "00").apply e.verifiable).hashedEnvelope =
        e.verifiable.hashedEnvelope := rfl
    intro a ha b hb
    rw [Tampering.hashed, hsame] at ha hb
    exact (or_self_iff.mp ha).trans (or_self_iff.mp hb).symm
  have h := @tampering_is_localised .transparent .lenient .ascii sampleKey
    SignatureScheme.ideal_transparent w htwo.reach trace htrace 0 e (by rw [hevents]; rfl)
    (.hash "00") ⟨hhex, hhash⟩ (collisionFreeOn_of_subsingleton hone)
  rw [hevents] at h
  exact ⟨w, trace, e, e', hevents, h⟩

end Attest
