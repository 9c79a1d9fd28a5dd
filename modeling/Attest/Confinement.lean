import Attest.Grants
import Attest.Lib.Knowledge

/-!
# Who can get at a content key

What the database holds, as messages of a symbolic model (`stored`) : the keys of the
payloads, in the clear or wrapped, the keys that were released or posted for a grant, the
private keys of the grantees, and the sealed contents. A content key follows from these
exactly where a key row or a grant holds a copy of it that can be used
(`derives_key_iff`).

So an erasure puts the key of its target out of reach unless a grant still holds such a
copy (`erased_key_lost_iff`), and a request that was never approved gives away no key of
its records in a run that stores no such copy before the quorum (`confined`).
-/

set_option linter.unusedSectionVars false

namespace Attest

section Calls

variable [SignatureScheme] [KeyUnwrapping] [PyUnicode]

/-! ## What the database gives away -/

/-- Content keys are secrets, PEMs are keys, and contents are data. -/
abbrev Term := Message Bytes String String Dict

/-- The private PEM unwraps what was wrapped to the public one. -/
def Unwraps (privatePem publicPem : String) : Prop :=
  KeyUnwrapping.privateKind privatePem = .usable ∧
    KeyUnwrapping.opens privatePem publicPem = true

def StoredKey.term : StoredKey → Term
  | .raw key => .secret key
  | .wrapped pem key => .wrapped pem (.secret key)

/-- A row of the content keys or of the grants holds this. -/
def Db.Holds (db : Db) (k : StoredKey) : Prop :=
  (∃ row ∈ db.payloadKeys, row.key = k) ∨ ∃ g ∈ db.accessGrantKeys, g.wrappedKey = some (.key k)

/-- The messages the database holds. -/
def stored (db : Db) : Set Term :=
  {m | (∃ k, db.Holds k ∧ m = k.term) ∨
    (∃ r ∈ db.accessRequests, m = .privateKey r.granteePrivatePem) ∨
      ∃ p ∈ db.payloads, m = .sealed p.encryptedBlob.key (.data p.encryptedBlob.content)}

/-- The private key of a grantee unwraps what was wrapped to this PEM. -/
def Db.Unwraps (db : Db) (publicPem : String) : Prop :=
  ∃ r ∈ db.accessRequests, Attest.Unwraps r.granteePrivatePem publicPem

/-- Who holds the database can use this copy of the content key. -/
def Usable (db : Db) (key : Bytes) : StoredKey → Prop
  | .raw k => k = key
  | .wrapped pem k => k = key ∧ db.Unwraps pem

theorem plain_of_stored {db : Db} : ∀ m ∈ stored db, m.Plain := by
  rintro m (⟨k, -, rfl⟩ | ⟨r, -, rfl⟩ | ⟨p, -, rfl⟩)
  · cases k with
    | raw key => exact trivial
    | wrapped pem key => exact trivial
  · exact trivial
  · exact trivial

theorem secret_mem_stored {db : Db} {key : Bytes} :
    .secret key ∈ stored db ↔ db.Holds (.raw key) := by
  constructor
  · rintro (⟨k, hk, heq⟩ | ⟨r, -, heq⟩ | ⟨p, -, heq⟩)
    · cases k with
      | raw k =>
        obtain rfl := Message.secret.inj heq
        exact hk
      | wrapped pem k => cases heq
    · cases heq
    · cases heq
  · exact fun h => Or.inl ⟨.raw key, h, rfl⟩

theorem wrapped_mem_stored {db : Db} {pem : String} {key : Bytes} :
    .wrapped pem (.secret key) ∈ stored db ↔ db.Holds (.wrapped pem key) := by
  constructor
  · rintro (⟨k, hk, heq⟩ | ⟨r, -, heq⟩ | ⟨p, -, heq⟩)
    · cases k with
      | raw k => cases heq
      | wrapped pem' k =>
        obtain ⟨rfl, hkey⟩ := Message.wrapped.inj heq
        obtain rfl := Message.secret.inj hkey
        exact hk
    · cases heq
    · cases heq
  · exact fun h => Or.inl ⟨.wrapped pem key, h, rfl⟩

theorem privateKey_mem_stored {db : Db} {privatePem : String} :
    .privateKey privatePem ∈ stored db ↔
      ∃ r ∈ db.accessRequests, r.granteePrivatePem = privatePem := by
  constructor
  · rintro (⟨k, -, heq⟩ | ⟨r, hr, heq⟩ | ⟨p, -, heq⟩)
    · cases k <;> cases heq
    · exact ⟨r, hr, (Message.privateKey.inj heq).symm⟩
    · cases heq
  · rintro ⟨r, hr, rfl⟩
    exact Or.inr (Or.inl ⟨r, hr, rfl⟩)

/-- A content key can be derived exactly where a row holds a copy that can be used. -/
theorem derives_key_iff {db : Db} {key : Bytes} :
    Message.Derives Unwraps (stored db) (.secret key) ↔ ∃ k, db.Holds k ∧ Usable db key k := by
  rw [Message.derives_secret_iff plain_of_stored, Message.Exposed, secret_mem_stored]
  simp only [wrapped_mem_stored, privateKey_mem_stored]
  constructor
  · rintro (hraw | ⟨pem, _, hwrapped, ⟨r, hr, rfl⟩, hopens⟩)
    · exact ⟨.raw key, hraw, rfl⟩
    · exact ⟨.wrapped pem key, hwrapped, rfl, r, hr, hopens⟩
  · rintro ⟨k, hk, husable⟩
    cases k with
    | raw k =>
      obtain rfl : k = key := husable
      exact Or.inl hk
    | wrapped pem k =>
      obtain ⟨rfl, r, hr, hopens⟩ := husable
      exact Or.inr ⟨pem, _, hk, ⟨r, hr, rfl⟩, hopens⟩

/-! ## Erasing -/

/-- A grant holds a copy of the content key that can be used. -/
def Db.Releases (db : Db) (key : Bytes) : Prop :=
  ∃ g ∈ db.accessGrantKeys, ∃ k, g.wrappedKey = some (.key k) ∧ Usable db key k

variable {svc : SigningKeyPair}

/-- A key row holds the key of its payload, which is the only one with that key. -/
theorem payload_of_usable {db : Db} (hstocked : db.Stocked)
    (hkeys : (db.payloads.map fun p => p.encryptedBlob.key).Nodup) {row : PayloadKey}
    (hrow : row ∈ db.payloadKeys) {p : Payload} (hp : p ∈ db.payloads)
    (husable : Usable db p.encryptedBlob.key row.key) :
    p.erasedAt = none ∧ row.orgId = p.orgId ∧ row.payloadHash = p.payloadHash := by
  obtain ⟨q, hq, horg, hhash, hunerased, wrapsTo, hkey⟩ := hstocked.keys row hrow
  have hsame : q.encryptedBlob.key = p.encryptedBlob.key := by
    have hrowkey := (Prod.mk.inj hkey).1
    cases wrapsTo with
    | none =>
      rw [hrowkey] at husable
      exact husable
    | some pem =>
      rw [hrowkey] at husable
      exact husable.1
  obtain rfl := List.inj_on_of_nodup_map hkeys hq hp hsame
  exact ⟨hunerased, horg.symm, hhash.symm⟩

/-- An erasure puts the content key of its target out of reach exactly where no grant
holds a copy that can be used. -/
theorem erased_key_lost_iff {w : Vault} (h : (vault svc freshKeys).Reachable w) {args : EraseArgs}
    {fresh : EraseFresh} {db' : Db} {out : EraseOut} {p : Payload}
    (hfresh : freshKeys w.db (.erase args fresh))
    (herase : eraseEventPayload svc w.db args fresh = .ok (db', out))
    (hp : w.db.getPayload args.orgId out.targetPayloadHash = some p) :
    ¬Message.Derives Unwraps (stored db') (.secret p.encryptedBlob.key) ↔
      ¬w.db.Releases p.encryptedBlob.key := by
  have hreach : (vault svc freshKeys).Reachable ⟨db', _⟩ :=
    h.step (.call hfresh (VaultOp.run_erase herase))
  have hkeys := nodup_keys_of_reachable (fun _ _ h => h) hreach
  obtain ⟨target, herased, hhash⟩ := eraseEventPayload_erased herase
  rw [hhash] at hp
  obtain ⟨f, e, -, he⟩ := herased.recorded
  obtain ⟨hrequests, -, hgrants⟩ := he.sameConsents
  have husable (k : StoredKey) :
      Usable db' p.encryptedBlob.key k ↔ Usable w.db p.encryptedBlob.key k := by
    cases k with
    | raw k => exact Iff.rfl
    | wrapped pem k =>
      simp only [Usable, Db.Unwraps, hrequests]
      exact Iff.rfl
  -- The row of the target is marked, so no key row is left for it.
  have hlost : ∀ row ∈ db'.payloadKeys, ¬Usable db' p.encryptedBlob.key row.key := by
    obtain ⟨p₀, hp₀, hunerased⟩ := herased.payload
    obtain rfl := Option.some.inj (hp.symm.trans hp₀)
    obtain ⟨hmem, horg, hphash⟩ := Db.mem_of_getPayload hp
    have hmarked : { p with erasedAt := some fresh.erasedAt } ∈ db'.payloads := by
      have hshred : { p with erasedAt := some fresh.erasedAt } ∈
          (w.db.shred args.orgId target.payloadHash fresh.erasedAt).payloads :=
        Db.mem_payloads_shred.mpr ⟨p, hmem, by rw [if_pos ⟨horg, hphash, hunerased⟩]⟩
      rcases he.content with ⟨-, hpayloads, -⟩ | ⟨-, rows, -, hpayloads, -⟩
      · exact hpayloads ▸ hshred
      · exact hpayloads ▸ List.mem_append_left _ hshred
    intro row hrow hus
    obtain ⟨hnone, -⟩ := payload_of_usable (stocked_of_reachable hreach) hkeys hrow hmarked hus
    cases hnone
  rw [not_iff_not, derives_key_iff]
  constructor
  · rintro ⟨k, ⟨row, hrow, rfl⟩ | ⟨g, hg, hk⟩, hus⟩
    · exact absurd hus (hlost row hrow)
    · exact ⟨g, hgrants ▸ hg, k, hk, (husable k).mp hus⟩
  · rintro ⟨g, hg, k, hk, hus⟩
    exact ⟨k, Or.inr ⟨g, hgrants ▸ hg, hk⟩, (husable k).mpr hus⟩

end Calls

section Samples

open Sample

/-- The content of the first event can be erased. -/
theorem exists_shredded_sample {w : Vault} (hreach : (vault sampleKey freshKeys).Reachable w)
    (horgs : w.db.orgs = sampleDark.orgs)
    {e : Event} (hrows : w.db.traceRows "acme" (Uuid.ofNat 1) = [e])
    (he : e.Records (sampleFirst 1 sampleArgs.payload))
    (hids : (sampleFreshOf 9).eventId ∉ w.db.events.map Event.id)
    (hpast : ∀ c ∈ w.past, (sampleFreshOf 9).contentKey ∉ c.1.contentKeys) {p : Payload}
    (hp : p ∈ w.db.payloads) (hrow : SampleRow p) :
    ∃ db' out, freshKeys w.db (.erase sampleErase sampleEraseFresh) ∧
      eraseEventPayload sampleKey w.db sampleErase sampleEraseFresh = .ok (db', out) ∧
        w.db.getPayload "acme" out.targetPayloadHash = some p := by
  have hstocked := stocked_of_reachable hreach
  have hget := Db.getPayload_of_mem hstocked.keyed.payloads hp
  rw [hrow.1, hrow.2.1] at hget
  have htarget : sampleErase.target w.db = some e := by
    have hseq : e.seq = 1 := he.seq_eq
    simp [EraseArgs.target, sampleErase, Db.eventsForTrace, hrows, hseq]
  have hhash : e.payloadHash = sampleHash := he.payloadHash_eq
  obtain ⟨db', out, herase⟩ : ∃ db' out,
      eraseEventPayload sampleKey w.db sampleErase sampleEraseFresh = .ok (db', out) :=
    hstocked.erasable sampleKey htarget (hhash ▸ hget) hrow.2.2.1
      (by rw [he.policyVersion_eq]; rfl) (by rw [Db.hasOrg, horgs]; rfl)
      (fun x hx hxid => hids (List.mem_map.mpr ⟨x, hx, hxid⟩)) (fun _ _ => rfl)
  refine ⟨db', out, freshKeys_of_past hreach ?_, herase, ?_⟩
  · intro c hc key hkey hnew
    obtain rfl : key = (sampleFreshOf 9).contentKey := by
      simpa [VaultOp.contentKeys, sampleEraseFresh] using hnew
    exact hpast c hc hkey
  · obtain ⟨target, herased, hout⟩ := eraseEventPayload_erased herase
    obtain rfl := Option.some.inj (htarget.symm.trans herased.target_eq)
    rw [hout, hhash]
    exact hget

/-- The key of an erased content is still there in a grant whose private key is stored. -/
theorem released_key_survives : ¬ ∀ (w : Vault) (args : EraseArgs) (fresh : EraseFresh) (db' : Db)
    (out : EraseOut) (p : Payload), (vault sampleKey freshKeys).Reachable w →
    freshKeys w.db (.erase args fresh) →
    eraseEventPayload sampleKey w.db args fresh = .ok (db', out) →
    w.db.getPayload args.orgId out.targetPayloadHash = some p →
    ¬Message.Derives Unwraps (stored db') (.secret p.encryptedBlob.key) := by
  intro hclaim
  obtain ⟨_, _, w, e, x, y, p, hreach, ⟨hpast, -⟩, horgs, hevents, ⟨he, heid⟩, ⟨hxid, hxtrace⟩,
    ⟨hyid, hytrace⟩, -, ⟨hp, hrow⟩, hrequests, -, hgrants⟩ :=
    exists_answered_sample 1 (some sampleReleased)
  have hrows : w.db.traceRows "acme" (Uuid.ofNat 1) = [e] := by
    have hcols : e.orgId = "acme" ∧ e.traceId = Uuid.ofNat 1 := ⟨he.orgId_eq, he.traceId_eq⟩
    have hother : Uuid.ofNat 21 ≠ Uuid.ofNat 1 := by decide
    simp [Db.traceRows, hevents, hcols, hxtrace, hytrace, hother]
  have hids : (sampleFreshOf 9).eventId ∉ w.db.events.map Event.id := by
    simp only [hevents, List.map_cons, List.map_nil, heid, hxid, hyid]
    decide
  have hused : ∀ c ∈ w.past, (sampleFreshOf 9).contentKey ∉ c.1.contentKeys := by
    intro c hc
    have hop : c.1 ∈ w.past.map Prod.fst := List.mem_map_of_mem hc
    rw [hpast] at hop
    have hearlier : ∀ op ∈ [.clientApprove (sampleAnswer (some sampleReleased)) (sampleFreshOf 23),
        .createRequest (sampleRequest 1) sampleFiling,
        .record (sampleFirst 1 sampleArgs.payload) (sampleFreshOf 1)],
        (sampleFreshOf 9).contentKey ∉ VaultOp.contentKeys op := by
      simp [VaultOp.contentKeys, sampleFiling, sampleFreshOf]
    exact hearlier c.1 hop
  obtain ⟨db', out, hfresh, herase, hget⟩ :=
    exists_shredded_sample hreach horgs hrows he hids hused hp hrow
  refine hclaim w _ _ db' out p hreach hfresh herase hget (derives_key_iff.mpr ?_)
  obtain ⟨target, herased, -⟩ := eraseEventPayload_erased herase
  obtain ⟨f, x', -, hx'⟩ := herased.recorded
  obtain ⟨hreq, -, hgrant⟩ := hx'.sameConsents
  have hkey : p.encryptedBlob.key = [1] := hrow.2.2.2
  refine ⟨.wrapped "grantee" [1], Or.inr ⟨⟨Uuid.ofNat 20, sampleHash, _⟩, ?_, rfl⟩, hkey.symm,
    { filedRequest (sampleRequest 1) sampleFiling with status := "approved" }, ?_, rfl, rfl⟩
  · rw [hgrant]
    exact hgrants ▸ List.mem_singleton.mpr rfl
  · rw [hreq]
    exact hrequests ▸ List.mem_singleton.mpr rfl

/-- No grant of the request holds a key, so the erasure puts the key out of reach. -/
theorem erased_key_lost_sample : ∃ (w : Vault) (db' : Db) (out : EraseOut) (p : Payload),
    eraseEventPayload sampleKey w.db sampleErase sampleEraseFresh = .ok (db', out) ∧
      w.db.getPayload "acme" out.targetPayloadHash = some p ∧ w.db.accessRequests ≠ [] ∧
        ¬Message.Derives Unwraps (stored db') (.secret p.encryptedBlob.key) := by
  obtain ⟨_, w, e, x, p, hreach, ⟨hpast, -⟩, horgs, hevents, ⟨he, heid⟩, ⟨hxid, hxtrace⟩, -,
    ⟨hp, hrow⟩, hrequests, -, hgrants⟩ := exists_filed_sample 1
  have hrows : w.db.traceRows "acme" (Uuid.ofNat 1) = [e] := by
    have hcols : e.orgId = "acme" ∧ e.traceId = Uuid.ofNat 1 := ⟨he.orgId_eq, he.traceId_eq⟩
    have hother : Uuid.ofNat 21 ≠ Uuid.ofNat 1 := by decide
    simp [Db.traceRows, hevents, hcols, hxtrace, hother]
  have hids : (sampleFreshOf 9).eventId ∉ w.db.events.map Event.id := by
    simp only [hevents, List.map_cons, List.map_nil, heid, hxid]
    decide
  have hused : ∀ c ∈ w.past, (sampleFreshOf 9).contentKey ∉ c.1.contentKeys := by
    intro c hc
    have hop : c.1 ∈ w.past.map Prod.fst := List.mem_map_of_mem hc
    rw [hpast] at hop
    have hearlier : ∀ op ∈ [.createRequest (sampleRequest 1) sampleFiling,
        .record (sampleFirst 1 sampleArgs.payload) (sampleFreshOf 1)],
        (sampleFreshOf 9).contentKey ∉ VaultOp.contentKeys op := by
      simp [VaultOp.contentKeys, sampleFiling, sampleFreshOf]
    exact hearlier c.1 hop
  obtain ⟨db', out, hfresh, herase, hget⟩ :=
    exists_shredded_sample hreach horgs hrows he hids hused hp hrow
  refine ⟨w, db', out, p, herase, hget, by simp [hrequests],
    (erased_key_lost_iff hreach hfresh herase hget).mpr ?_⟩
  rintro ⟨g, hg, k, hk, -⟩
  rw [hgrants] at hg
  obtain rfl := List.mem_singleton.mp hg
  cases hk

end Samples

section Calls

variable [SignatureScheme] [KeyUnwrapping] [PyUnicode] {svc : SigningKeyPair}

/-! ## What a call adds -/

/-- The key that a stored copy is of. -/
def StoredKey.content : StoredKey → Bytes
  | .raw key => key
  | .wrapped _ key => key

theorem Usable.content {db : Db} {key : Bytes} : ∀ {k : StoredKey}, Usable db key k →
    k.content = key
  | .raw _, h => h
  | .wrapped _ _, h => h.1

/-- What a call adds to the content tables : the rows of contents under its own keys. -/
structure Adds (db : Db) (op : VaultOp) (db' : Db) : Prop where
  payloads : ∀ p ∈ db'.payloads, p.encryptedBlob.key ∈ op.contentKeys ∨ ∃ q ∈ db.payloads,
    q.orgId = p.orgId ∧ q.payloadHash = p.payloadHash ∧ q.encryptedBlob = p.encryptedBlob
  keys : ∀ row ∈ db'.payloadKeys, row ∈ db.payloadKeys ∨ ∃ key ∈ op.contentKeys,
    row.key = (storedKey (db'.wrapsTo row.orgId) key).1

theorem Touched.adds {db db₁ : Db} {op : VaultOp} (ht : Touched db op db₁) : Adds db op db₁ := by
  cases ht with
  | kept _ hpayloads hkeys _ _ _ _ =>
    exact ⟨fun p hp => Or.inr ⟨p, hpayloads ▸ hp, rfl, rfl, rfl⟩, fun row hrow =>
      Or.inl (hkeys ▸ hrow)⟩
  | shredded _ _ _ _ =>
    refine ⟨fun p hp => ?_, fun row hrow => Or.inl (Db.mem_payloadKeys_shred.mp hrow).1⟩
    obtain ⟨q, hq, rfl⟩ := Db.mem_payloads_shred.mp hp
    refine Or.inr ⟨q, hq, ?_⟩
    split
    · exact ⟨rfl, rfl, rfl⟩
    · exact ⟨rfl, rfl, rfl⟩
  | switched _ => exact ⟨fun p hp => Or.inr ⟨p, hp, rfl, rfl, rfl⟩, fun row hrow => Or.inl hrow⟩

theorem Recorded.orgs {db db' : Db} {args : RecordArgs} {fresh : Fresh} {e : Event}
    (h : Recorded db args fresh e db') : db'.orgs = db.orgs := by
  obtain ⟨ts, ps, ks, rfl⟩ := h.others
  rfl

theorem wrapsTo_congr {db db' : Db} (h : db'.orgs = db.orgs) (orgId : String) :
    db'.wrapsTo orgId = db.wrapsTo orgId := by
  simp only [Db.wrapsTo, Db.getOrgById, h]

theorem VaultOp.run_adds {db db' : Db} {op : VaultOp} (hrun : op.run svc db = .ok db') :
    Adds db op db' := by
  obtain ⟨db₁, htouched, rfl | ⟨args, fresh, e, hkey, he⟩⟩ := VaultOp.run_touched hrun
  · exact htouched.adds
  · obtain ⟨hold, hrows⟩ := htouched.adds
    have hlater (row : PayloadKey) (hrow : row ∈ db₁.payloadKeys) : row ∈ db.payloadKeys ∨
        ∃ key ∈ op.contentKeys, row.key = (storedKey (db'.wrapsTo row.orgId) key).1 := by
      rw [wrapsTo_congr he.orgs]
      exact hrows row hrow
    rcases he.content with ⟨-, hpayloads, hkeys⟩ | ⟨-, rows, hnew, hpayloads, hkeys⟩
    · exact ⟨fun p hp => hold p (hpayloads ▸ hp), fun row hrow => hlater row (hkeys ▸ hrow)⟩
    · refine ⟨fun p hp => ?_, fun row hrow => ?_⟩
      · rcases List.mem_append.mp (hpayloads ▸ hp) with hp | hp
        · exact hold p hp
        · obtain rfl := List.mem_singleton.mp hp
          refine Or.inl ?_
          rw [hnew]
          exact hkey
      · rcases List.mem_append.mp (hkeys ▸ hrow) with hrow | hrow
        · exact hlater row hrow
        · obtain rfl := List.mem_singleton.mp hrow
          refine Or.inr ⟨fresh.contentKey, hkey, ?_⟩
          rw [hnew, wrapsTo_congr he.orgs]
          rfl

/-- A request keeps its organisation and its private key, unless the call files it. -/
theorem Consents.requests {db db' : Db} {op : VaultOp} (h : Consents db op db') :
    ∀ r ∈ db'.accessRequests, (∃ r' ∈ db.accessRequests, r'.id = r.id ∧ r'.orgId = r.orgId ∧
      r'.granteePrivatePem = r.granteePrivatePem) ∨ ∃ args fresh, op = .createRequest args fresh ∧
        (∀ x ∈ db.accessRequests, x.id ≠ fresh.id) ∧ r = filedRequest args fresh := by
  have hset {db' : Db} {request : AccessRequest} {status : String} {requestId : Uuid}
      (hfound : db.getAccessRequest requestId = some request)
      (h : StatusSet db db' request status) : ∀ r ∈ db'.accessRequests,
        ∃ r' ∈ db.accessRequests, r'.id = r.id ∧ r'.orgId = r.orgId ∧
          r'.granteePrivatePem = r.granteePrivatePem := by
    intro r hr
    rcases h with ⟨-, heq⟩ | heq
    · exact ⟨r, heq ▸ hr, rfl, rfl, rfl⟩
    · rw [heq] at hr
      obtain ⟨x, hx, rfl⟩ := List.mem_map.mp hr
      split
      · exact ⟨request, (Db.mem_of_getAccessRequest hfound).1, rfl, rfl, rfl⟩
      · exact ⟨x, hx, rfl, rfl, rfl⟩
  intro r hr
  cases h with
  | idle _ hsame => exact Or.inl ⟨r, hsame.requests ▸ hr, rfl, rfl, rfl⟩
  | filed hnew hreq _ _ =>
    rcases List.mem_append.mp (hreq ▸ hr) with hr | hr
    · exact Or.inl ⟨r, hr, rfl, rfl, rfl⟩
    · exact Or.inr ⟨_, _, rfl, hnew, List.mem_singleton.mp hr⟩
  | approved _ hfound _ _ _ hstatus _ _ => exact Or.inl (hset hfound hstatus r hr)
  | resolved _ hfound hstatus _ _ => exact Or.inl (hset hfound hstatus r hr)

/-- A grant keeps its request and its record, unless the call files them. -/
theorem Consents.grants {db db' : Db} {op : VaultOp} (h : Consents db op db') :
    ∀ g ∈ db'.accessGrantKeys, (∃ g' ∈ db.accessGrantKeys, g'.requestId = g.requestId ∧
      g'.payloadHash = g.payloadHash) ∨ ∃ args fresh, op = .createRequest args fresh ∧
        (∀ x ∈ db.accessRequests, x.id ≠ fresh.id) ∧ g.requestId = fresh.id ∧
          g.payloadHash ∈ args.payloadHashes := by
  intro g hg
  cases h with
  | idle _ hsame => exact Or.inl ⟨g, hsame.grants ▸ hg, rfl, rfl⟩
  | filed hnew _ _ hgrant =>
    rcases List.mem_append.mp (hgrant ▸ hg) with hg | hg
    · exact Or.inl ⟨g, hg, rfl, rfl⟩
    · obtain ⟨payloadHash, hmem, rfl⟩ := List.mem_map.mp hg
      exact Or.inr ⟨_, _, rfl, hnew, rfl, hmem⟩
  | approved _ _ _ _ _ _ _ hrows =>
    obtain ⟨g', hg', hregrants⟩ := exists_of_forall₂ hrows hg
    obtain ⟨hid, hhash⟩ := hregrants.columns
    exact Or.inl ⟨g', hg', hid.symm, hhash.symm⟩
  | resolved _ _ _ _ hgrant => exact Or.inl ⟨g, hgrant ▸ hg, rfl, rfl⟩

/-- An organisation keeps the key its contents are wrapped to, unless the call sets it. -/
theorem VaultOp.run_wrapsTo {db db' : Db} {op : VaultOp} (hrun : op.run svc db = .ok db')
    (orgId : String) : db'.wrapsTo orgId = db.wrapsTo orgId ∨ ∃ pem,
      op = .enableCustomerKey orgId pem ∧
        db'.wrapsTo orgId = if pem = "" then none else some pem := by
  obtain ⟨db₁, htouched, hleaves⟩ := VaultOp.run_touched hrun
  have hsame : db'.wrapsTo orgId = db₁.wrapsTo orgId := by
    rcases hleaves with rfl | ⟨args, fresh, e, -, he⟩
    · rfl
    · exact wrapsTo_congr he.orgs orgId
  rw [hsame]
  cases htouched with
  | kept horgs _ _ _ _ _ _ => exact Or.inl (wrapsTo_congr horgs orgId)
  | shredded _ _ _ _ => exact Or.inl rfl
  | @switched orgId' pem orgs hswitch =>
    obtain ⟨hwraps, -⟩ := enableCustomerKeyMode_wrapsTo hswitch
    rw [hwraps]
    by_cases horg : orgId = orgId'
    · rw [if_pos horg]
      exact Or.inr ⟨pem, by rw [horg], rfl⟩
    · rw [if_neg horg]
      exact Or.inl rfl

/-! ## Before the quorum -/

/-- The content key of a record of the request. -/
def Db.InScope (db : Db) (requestId : Uuid) (key : Bytes) : Prop :=
  ∃ r ∈ db.accessRequests, r.id = requestId ∧ ∃ g ∈ db.scopeOf requestId, ∃ p ∈ db.payloads,
    p.orgId = r.orgId ∧ p.payloadHash = g.payloadHash ∧ p.encryptedBlob.key = key

/-- Something is wrapped to this PEM, or will be. -/
def Db.Wraps (db : Db) (pem : String) : Prop :=
  (∃ orgId, db.wrapsTo orgId = some pem) ∨ ∃ key, db.Holds (.wrapped pem key)

/-- A client's approval posts this copy for a record of its request. -/
def Db.Posts (db : Db) (args : ClientApprovalArgs) (k : StoredKey) : Prop :=
  ∃ g ∈ db.scopeOf args.requestId, args.releasedKeys.lookup g.payloadHash = some (.key k)

/-- The call's content keys are new, a new request's private key opens nothing that is
wrapped so far, and no stored private key opens what is wrapped to an organisation's. -/
def freshSecrets (db : Db) (op : VaultOp) : Prop :=
  freshKeys db op ∧ (∀ key ∈ op.contentKeys, ∀ k, db.Holds k → k.content ≠ key) ∧
    match op with
    | .enableCustomerKey _ pem => pem ≠ "" ∧ ¬db.Unwraps pem
    | .createRequest _ fresh => ∀ pem, db.Wraps pem → ¬Unwraps fresh.pair.privatePem pem
    | .clientApprove args fresh => ∀ k, db.Posts args k → k.content ≠ fresh.contentKey
    | _ => True

/-- The request is filed against an organisation in customer-key mode, when no copy of
its records' keys can be used. -/
def filedDark (requestId : Uuid) (db : Db) : VaultOp → Prop
  | .createRequest args fresh => fresh.id = requestId → (db.wrapsTo args.orgId).isSome = true ∧
      ∀ p ∈ db.payloads, p.orgId = args.orgId → p.payloadHash ∈ args.payloadHashes →
        ∀ k, db.Holds k → ¬Usable db p.encryptedBlob.key k
  | _ => True

/-- The call would be counted : the request is pending and the approver new. -/
def Db.Awaits (db : Db) (requestId : Uuid) (approverId : String) : Prop :=
  ∃ r, db.getAccessRequest requestId = some r ∧ r.status = "pending" ∧
    approverId ∉ db.approversOf requestId

/-- One approval more is enough for the request. -/
def Db.OneShort (db : Db) (requestId : Uuid) : Prop :=
  ∃ r, db.getAccessRequest requestId = some r ∧
    r.requiredApprovals ≤ ((db.approversOf requestId).length : Int) + 1

/-- No approval that is counted gives the service a copy of a key of the request's
records that it can use, but the one that completes the request's quorum : clients post
none before, and no other request for these records is approved. -/
def withholds (requestId : Uuid) (db : Db) : VaultOp → Prop
  | .approve args _ => args.requestId ≠ requestId → db.Awaits args.requestId args.approverId →
      db.OneShort args.requestId → ∀ key, db.InScope requestId key → ¬db.InScope args.requestId key
  | .clientApprove args _ => db.Awaits args.requestId args.approverId →
      ∀ key, db.InScope requestId key → ∀ k, db.Posts args k → Usable db key k →
        args.requestId = requestId ∧ db.OneShort requestId ∧
          ∀ g ∈ db.scopeOf requestId, (postKey args g).wrappedKey.isSome = true
  | _ => True

def confining (requestId : Uuid) (db : Db) (op : VaultOp) : Prop :=
  (freshSecrets db op ∧ filedDark requestId db op) ∧ withholds requestId db op

/-- In no state of the run has the request been approved. -/
def Vault.NeverApproved (w : Vault) (requestId : Uuid) : Prop :=
  ∀ db ∈ w.states, ∀ r ∈ db.accessRequests, r.id = requestId → r.status ≠ "approved"

/-- What keeps the keys of the request's records from who holds the database. -/
structure Confined (requestId : Uuid) (db : Db) : Prop where
  orgs : ∀ orgId pem, db.wrapsTo orgId = some pem → ¬db.Unwraps pem
  customer : ∀ r ∈ db.accessRequests, r.id = requestId → (db.wrapsTo r.orgId).isSome = true
  keys : ∀ key, db.InScope requestId key → ∀ k, db.Holds k → ¬Usable db key k

/-- A client's approval that completes the quorum approves the request. -/
theorem recordClientApproval_completes {db db' : Db} {args : ClientApprovalArgs} {fresh : Fresh}
    (h : recordClientApproval svc db args fresh = .ok db')
    (hawaits : db.Awaits args.requestId args.approverId) (hshort : db.OneShort args.requestId)
    (hposted : ∀ g ∈ db.scopeOf args.requestId, (postKey args g).wrappedKey.isSome = true) :
    ∃ r ∈ db'.accessRequests, r.id = args.requestId ∧ r.status = "approved" := by
  obtain ⟨request, hfound, hpending, hnew⟩ := hawaits
  obtain ⟨r, hr, hcount⟩ := hshort
  obtain rfl := Option.some.inj (hfound.symm.trans hr)
  obtain ⟨hmem, hid⟩ := Db.mem_of_getAccessRequest hfound
  have hquorum : quorumMet (db.postApproval args) request = true := by
    rw [quorumMet, decide_eq_true_eq, hid]
    refine ⟨?_, List.all_eq_true.mpr fun g hg => ?_⟩
    · simpa [Db.approversOf, Db.postApproval] using hcount
    · obtain ⟨hg, hgid⟩ := List.mem_filter.mp hg
      obtain ⟨g', hg', rfl⟩ := List.mem_map.mp hg
      rw [postKey_requestId] at hgid
      exact hposted g' (List.mem_filter.mpr ⟨hg', hgid⟩)
  simp only [recordClientApproval, hfound, hpending, hnew, ne_eq, not_true_eq_false, if_false,
    Except.bind_eq_ok] at h
  obtain ⟨db₁, hinsert, hrecord⟩ := h
  obtain ⟨-, rfl⟩ := Db.insertAccessApproval_eq_ok.mp hinsert
  have hsame := (recordConsentEvent_noted hrecord).sameConsents
  have hsettled : settleApproval (db.postApproval args) request =
      ((db.postApproval args).setAccessRequest { request with status := "approved" },
        { request with status := "approved" }) := by
    rw [settleApproval, if_pos hquorum]
  have hrequests : db'.accessRequests =
      (db.setAccessRequest { request with status := "approved" }).accessRequests :=
    hsame.requests.trans (congrArg (fun s => s.1.accessRequests) hsettled)
  refine ⟨{ request with status := "approved" }, ?_, hid, rfl⟩
  rw [hrequests]
  exact List.mem_map.mpr ⟨request, hmem, if_pos rfl⟩

/-- The private keys that are stored after a call were stored before, but for that of a
request it files. -/
theorem Consents.unwraps {db db' : Db} {op : VaultOp} (h : Consents db op db') {pem : String}
    (hpem : db'.Unwraps pem) : db.Unwraps pem ∨ ∃ args fresh, op = .createRequest args fresh ∧
      Unwraps fresh.pair.privatePem pem := by
  obtain ⟨r, hr, hopens⟩ := hpem
  rcases h.requests r hr with ⟨r', hr', -, -, hsame⟩ | ⟨args, fresh, rfl, -, rfl⟩
  · exact Or.inl ⟨r', hr', hsame ▸ hopens⟩
  · exact Or.inr ⟨args, fresh, rfl, hopens⟩

/-- What was wrapped before a call is opened by no key the call stores. -/
theorem Consents.unwraps_old {db db' : Db} {op : VaultOp} (h : Consents db op db')
    (hfresh : freshSecrets db op) {pem : String} (hwraps : db.Wraps pem)
    (hpem : db'.Unwraps pem) : db.Unwraps pem := by
  rcases h.unwraps hpem with hold | ⟨args, fresh, rfl, hopens⟩
  · exact hold
  · exact absurd hopens (hfresh.2.2 pem hwraps)

/-- What is held before a call can be used after it only where it could before. -/
theorem Consents.usable_old {db db' : Db} {op : VaultOp} (h : Consents db op db')
    (hfresh : freshSecrets db op) {key : Bytes} {k : StoredKey} (hk : db.Holds k)
    (husable : Usable db' key k) : Usable db key k := by
  cases k with
  | raw k => exact husable
  | wrapped pem k => exact ⟨husable.1, h.unwraps_old hfresh (Or.inr ⟨k, hk⟩) husable.2⟩

/-- The keys of a request's records after a call are the call's own, or were those of its
records before, unless the call files it. -/
theorem Db.InScope.before {w : Vault} (hgranted : Granted w) {db' : Db} {op : VaultOp}
    (hadds : Adds w.db op db') (hconsents : Consents w.db op db') {requestId : Uuid} {key : Bytes}
    (hkey : db'.InScope requestId key) : key ∈ op.contentKeys ∨ w.db.InScope requestId key ∨
      ∃ args fresh, op = .createRequest args fresh ∧ fresh.id = requestId ∧ ∃ q ∈ w.db.payloads,
        q.orgId = args.orgId ∧ q.payloadHash ∈ args.payloadHashes ∧ q.encryptedBlob.key = key := by
  obtain ⟨r, hr, hid, g, hg, p, hp, horg, hhash, rfl⟩ := hkey
  obtain ⟨hg, hgid⟩ := List.mem_filter.mp hg
  replace hgid := of_decide_eq_true hgid
  refine (hadds.payloads p hp).imp_right ?_
  rintro ⟨q, hq, hqorg, hqhash, hblob⟩
  rw [← hblob]
  -- A request is filed once, and its grants with it.
  rcases hconsents.requests r hr with ⟨r', hr', hrid, hrorg, -⟩ | ⟨args, fresh, rfl, hnew, rfl⟩
  · rcases hconsents.grants g hg with ⟨g', hg', hgid', hghash⟩ | ⟨args, fresh, -, hnew, hgnew, -⟩
    · exact Or.inl ⟨r', hr', hrid.trans hid, g', List.mem_filter.mpr ⟨hg',
        decide_eq_true (hgid'.trans hgid)⟩, q, hq, hqorg.trans (horg.trans hrorg.symm),
        hqhash.trans (hhash.trans hghash.symm), rfl⟩
    · exact absurd (hrid.trans (hid.trans (hgid.symm.trans hgnew))) (hnew r' hr')
  · rcases hconsents.grants g hg with ⟨g', hg', hgid', -⟩ | ⟨_, _, heq, -, -, hghash⟩
    · obtain ⟨x, hx, hxid⟩ := hgranted.requested g' hg'
      exact absurd (hxid.trans (hgid'.trans (hgid.trans hid.symm))) (hnew x hx)
    · cases heq
      exact Or.inr ⟨args, fresh, rfl, hid, q, hq, hqorg.trans horg, by rwa [hqhash, hhash], rfl⟩

/-- An approval that is counted was awaited. -/
theorem awaits_of_found {db : Db} {requestId : Uuid} {approverId : String} {request : AccessRequest}
    (hfound : db.getAccessRequest requestId = some request) (hpending : request.status = "pending")
    (hnew : approverId ∉ db.approversOf requestId) : db.Awaits requestId approverId :=
  ⟨request, hfound, hpending, hnew⟩

/-- A client's approval leaves what a grant holds, or puts the posted key there. -/
theorem postKey_wrappedKey (args : ClientApprovalArgs) (g : AccessGrantKey) :
    (postKey args g).wrappedKey = g.wrappedKey ∨ g.requestId = args.requestId ∧
      (postKey args g).wrappedKey = args.releasedKeys.lookup g.payloadHash := by
  unfold postKey
  split
  · rename_i hid
    cases hlookup : args.releasedKeys.lookup g.payloadHash with
    | none => exact Or.inl rfl
    | some key => exact Or.inr ⟨hid, rfl⟩
  · exact Or.inl rfl

/-- A grant holds what was held before the call, or a copy that cannot be used. -/
theorem Confined.grants {w : Vault} {requestId : Uuid} (hstocked : w.db.Stocked)
    (hgranted : Granted w) {db' : Db} {op : VaultOp} (hallowed : confining requestId w.db op)
    (hcall : op.run svc w.db = .ok db')
    (hnever : ∀ r ∈ db'.accessRequests, r.id = requestId → r.status ≠ "approved")
    {g : AccessGrantKey} (hg : g ∈ db'.accessGrantKeys) {k : StoredKey}
    (hk : g.wrappedKey = some (.key k)) {key : Bytes} (hkey : db'.InScope requestId key) :
    w.db.Holds k ∨ ¬Usable db' key k := by
  have hconsents := VaultOp.run_consents hcall
  have hbefore := hkey.before hgranted (VaultOp.run_adds hcall) hconsents
  obtain ⟨⟨hfresh, -⟩, hwithholds⟩ := hallowed
  have hheld {g' : AccessGrantKey} (hg' : g' ∈ w.db.accessGrantKeys) (hk : g'.wrappedKey =
      some (.key k)) : w.db.Holds k := Or.inr ⟨g', hg', hk⟩
  have hcases := hconsents
  cases hcases with
  | idle _ hsame => exact Or.inl (hheld (hsame.grants ▸ hg) hk)
  | resolved _ _ _ _ hgrant => exact Or.inl (hheld (hgrant ▸ hg) hk)
  | filed _ _ _ hgrant =>
    rcases List.mem_append.mp (hgrant ▸ hg) with hg | hg
    · exact Or.inl (hheld hg hk)
    · obtain ⟨payloadHash, -, rfl⟩ := List.mem_map.mp hg
      cases hk
  | @approved _ _ id approverId status request hop hfound hpending hnew hquorum hset happ hrows =>
    obtain ⟨g', hg', hregrants⟩ := exists_of_forall₂ hrows hg
    have hshort : status = "approved" → w.db.OneShort id := fun hstatus => by
      refine ⟨request, hfound, ?_⟩
      rcases hquorum with hpend | ⟨-, hcount⟩
      · rw [hpend] at hstatus
        exact absurd hstatus (by decide)
      · exact hcount
    have hstays : status = "approved" → id ≠ requestId := fun hstatus hid => by
      refine hnever _ ((hset.mem hgranted.ids hfound).mpr (Or.inr rfl)) ?_ hstatus
      exact (Db.mem_of_getAccessRequest hfound).2.trans hid
    cases op with
    | approve args fresh =>
      obtain ⟨rfl, rfl⟩ := hop
      rcases hregrants with rfl | ⟨hstatus, rfl | ⟨hgid, row, pem, key₀, hrow, -, hrowkey, -, rfl⟩⟩
      · exact Or.inl (hheld hg' hk)
      · exact Or.inl (hheld hg' hk)
      · obtain rfl := ReleasedKey.key.inj (Option.some.inj hk)
        refine Or.inr fun husable => ?_
        obtain rfl : key₀ = key := husable.1
        obtain ⟨hrow, hroworg, hrowhash⟩ := Db.mem_of_getPayloadKey hrow
        obtain ⟨hmem, hrid⟩ := Db.mem_of_getAccessRequest hfound
        have hold : w.db.InScope requestId key₀ := by
          rcases hbefore with hown | hold | ⟨_, _, heq, -⟩
          · exact absurd rfl (hfresh.2.1 key₀ hown _ (Or.inl ⟨row, hrow, hrowkey⟩))
          · exact hold
          · cases heq
        refine hwithholds (hstays hstatus) (awaits_of_found hfound hpending hnew) (hshort hstatus)
          key₀ hold ?_
        obtain ⟨p, hp, hporg, hphash, -, wrapsTo, hstored⟩ := hstocked.keys row hrow
        refine ⟨request, hmem, hrid, g',
          List.mem_filter.mpr ⟨hg', decide_eq_true (hgid.trans hrid)⟩,
          p, hp, hporg.trans hroworg, hphash.trans hrowhash, ?_⟩
        have hpair := (Prod.mk.inj hstored).1
        rw [hrowkey] at hpair
        cases wrapsTo with
        | none => cases hpair
        | some pem' => exact (StoredKey.wrapped.inj hpair).2.symm
    | clientApprove args fresh =>
      obtain ⟨rfl, rfl⟩ := hop
      obtain rfl : g = postKey args g' := hregrants
      rcases postKey_wrappedKey args g' with hsame | ⟨hgid, hposted⟩
      · exact Or.inl (hheld hg' (hsame ▸ hk))
      · have hposts : w.db.Posts args k :=
          ⟨g', List.mem_filter.mpr ⟨hg', decide_eq_true hgid⟩, hposted ▸ hk⟩
        refine Or.inr fun husable => ?_
        have hawaits := awaits_of_found hfound hpending hnew
        rcases hbefore with hown | hold | ⟨_, _, heq, -⟩
        · exact hfresh.2.2 k hposts (husable.content.trans (List.mem_singleton.mp hown))
        · have hearlier : Usable w.db key k := by
            cases k with
            | raw k => exact husable
            | wrapped pem k =>
              refine ⟨husable.1, (hconsents.unwraps husable.2).resolve_right ?_⟩
              rintro ⟨_, _, heq, -⟩
              cases heq
          obtain ⟨rfl, hshort, hset⟩ := hwithholds hawaits key hold k hposts hearlier
          obtain ⟨r, hr, hrid, hstatus⟩ :=
            recordClientApproval_completes hcall hawaits hshort hset
          exact hnever r hr hrid hstatus
        · cases heq
    | record | erase | enableCustomerKey | createRequest | resolve | read => cases hop

/-- A call that does not approve the request keeps its keys from who holds the
database. -/
theorem Confined.call {w : Vault} {requestId : Uuid}
    (h : (vault svc (confining requestId)).Reachable w) {db' : Db} {op : VaultOp}
    (hallowed : confining requestId w.db op) (hcall : op.run svc w.db = .ok db')
    (hnever : ∀ r ∈ db'.accessRequests, r.id = requestId → r.status ≠ "approved")
    (hw : Confined requestId w.db) : Confined requestId db' := by
  have hstocked := stocked_of_reachable h
  have hgranted := granted_of_reachable h
  have hnext : (vault svc (confining requestId)).Reachable ⟨db', _⟩ := h.step (.call hallowed hcall)
  have hkeys' := nodup_keys_of_reachable (fun _ _ h => h.1.1.1) hnext
  have hadds := VaultOp.run_adds hcall
  have hconsents := VaultOp.run_consents hcall
  have hfresh := hallowed.1.1
  have horgs : ∀ orgId pem, db'.wrapsTo orgId = some pem → ¬db'.Unwraps pem := by
    intro orgId pem hwraps hopens
    rcases VaultOp.run_wrapsTo hcall orgId with hsame | ⟨pem', rfl, hset⟩
    · have hold := hsame ▸ hwraps
      exact hw.orgs orgId pem hold (hconsents.unwraps_old hfresh (Or.inl ⟨orgId, hold⟩) hopens)
    · obtain ⟨hne, hapart⟩ := hfresh.2.2
      rw [hset, if_neg hne] at hwraps
      obtain rfl := Option.some.inj hwraps
      rcases hconsents.unwraps hopens with hold | ⟨_, _, heq, -⟩
      · exact hapart hold
      · cases heq
  have hcustomer : ∀ r ∈ db'.accessRequests, r.id = requestId →
      (db'.wrapsTo r.orgId).isSome = true := by
    intro r hr hid
    have hbefore : (w.db.wrapsTo r.orgId).isSome = true := by
      rcases hconsents.requests r hr with ⟨r', hr', hrid, hrorg, -⟩ | ⟨args, fresh, rfl, -, rfl⟩
      · exact hrorg ▸ hw.customer r' hr' (hrid.trans hid)
      · exact (hallowed.1.2 hid).1
    rcases VaultOp.run_wrapsTo hcall r.orgId with hsame | ⟨pem, rfl, hset⟩
    · rwa [hsame]
    · rw [hset, if_neg hfresh.2.2.1]
      rfl
  refine ⟨horgs, hcustomer, fun key hkey => ?_⟩
  have hbefore := hkey.before hgranted hadds hconsents
  have hold : ∀ k, w.db.Holds k → ¬Usable db' key k := by
    intro k hk husable
    rcases hbefore with hown | hscope | ⟨args, fresh, rfl, hid, q, hq, horg, hhash, rfl⟩
    · exact hfresh.2.1 key hown k hk husable.content
    · exact hw.keys key hscope k hk (hconsents.usable_old hfresh hk husable)
    · exact (hallowed.1.2 hid).2 q hq horg hhash k hk (hconsents.usable_old hfresh hk husable)
  rintro k (⟨row, hrow, rfl⟩ | ⟨g, hg, hk⟩)
  · rcases hadds.keys row hrow with hmem | ⟨new, hnew, hrowkey⟩
    · exact hold _ (Or.inl ⟨row, hmem, rfl⟩)
    · -- A new row is wrapped for the organisation of the request.
      intro husable
      obtain ⟨r, hr, hid, -, -, p, hp, horg, -, rfl⟩ := hkey
      obtain ⟨-, hroworg, -⟩ := payload_of_usable (stocked_of_reachable hnext)
        hkeys' hrow hp husable
      obtain ⟨pem, hwraps⟩ := Option.isSome_iff_exists.mp (hcustomer r hr hid)
      rw [hrowkey, hroworg, horg, hwraps] at husable
      exact horgs _ pem hwraps husable.2
  · rcases Confined.grants hstocked hgranted hallowed hcall hnever hg hk hkey with hheld | hlost
    · exact hold k hheld
    · exact hlost

theorem Db.Bare.not_holds {db : Db} (h : db.Bare) (k : StoredKey) : ¬db.Holds k := by
  rintro (⟨row, hrow, -⟩ | ⟨g, hg, -⟩)
  · rw [h.payloadKeys] at hrow
    cases hrow
  · rw [h.accessGrantKeys] at hg
    cases hg

theorem confined_of_reachable {w : Vault} {requestId : Uuid}
    (h : (vault svc (confining requestId)).Reachable w) (hnever : w.NeverApproved requestId) :
    Confined requestId w.db := by
  refine TransitionSystem.invariant_of (P := fun w => w.NeverApproved requestId →
    Confined requestId w.db) ?_ ?_ h hnever
  · rintro w ⟨-, hbare⟩ -
    refine ⟨?_, by simp [hbare.accessRequests], fun key _ k hk => absurd hk (hbare.not_holds k)⟩
    rintro orgId pem - ⟨r, hr, -⟩
    rw [hbare.accessRequests] at hr
    cases hr
  · rintro w w' hreach ih ⟨hallowed, hcall⟩ hnever
    refine Confined.call hreach hallowed hcall (hnever _ List.mem_cons_self) (ih fun db hdb => ?_)
    exact hnever db (List.mem_cons_of_mem _ hdb)

/-- In a run whose calls withhold the keys of a request's records until its quorum, none
of them can be derived while the request was never approved. -/
theorem confined {w : Vault} {requestId : Uuid} (h : (vault svc (confining requestId)).Reachable w)
    (hnever : w.NeverApproved requestId) {key : Bytes} (hkey : w.db.InScope requestId key) :
    ¬Message.Derives Unwraps (stored w.db) (.secret key) := by
  rw [derives_key_iff]
  rintro ⟨k, hk, husable⟩
  exact (confined_of_reachable h hnever).keys key hkey k hk husable

/-- A call of the run was allowed, and the database before it was reached. -/
theorem reachable_before {allowed : Db → VaultOp → Prop} {w : Vault}
    (h : (vault svc allowed).Reachable w) : ∀ c ∈ w.past, allowed c.2 c.1 ∧
      ∃ past, (vault svc allowed).Reachable ⟨c.2, past⟩ := by
  refine TransitionSystem.invariant_of (P := fun w => ∀ c ∈ w.past, allowed c.2 c.1 ∧
    ∃ past, (vault svc allowed).Reachable ⟨c.2, past⟩) ?_ ?_ h
  · rintro w ⟨hpast, -⟩ c hc
    rw [hpast] at hc
    cases hc
  · rintro w w' hreach ih ⟨hallowed, -⟩ c hc
    rcases List.mem_cons.mp hc with rfl | hc
    · exact ⟨hallowed, w.past, hreach⟩
    · exact ih c hc

/-- A run whose calls are all allowed in another way is a run of those. -/
theorem reachable_of_past {allowed allowed' : Db → VaultOp → Prop} {w : Vault}
    (h : (vault svc allowed).Reachable w) (hpast : ∀ c ∈ w.past, allowed' c.2 c.1) :
    (vault svc allowed').Reachable w := by
  refine TransitionSystem.invariant (P := fun w => (∀ c ∈ w.past, allowed' c.2 c.1) →
    (vault svc allowed').Reachable w) ?_ ?_ h hpast
  · exact fun w hinit _ => .init hinit
  · rintro w w' ih ⟨-, hcall⟩ hpast
    refine (ih fun c hc => hpast c (List.mem_cons_of_mem _ hc)).step (.call ?_ hcall)
    exact hpast _ List.mem_cons_self

/-- Where no grant holds a key, new keys are of no copy. -/
theorem Db.Stocked.unheld {db : Db} (h : db.Stocked) {op : VaultOp} (hfresh : freshKeys db op)
    (hgrants : ∀ g ∈ db.accessGrantKeys, g.wrappedKey = none) :
    ∀ key ∈ op.contentKeys, ∀ k, db.Holds k → k.content ≠ key := by
  rintro key hkey k (⟨row, hrow, rfl⟩ | ⟨g, hg, hk⟩)
  · obtain ⟨p, hp, -, -, -, wrapsTo, hstored⟩ := h.keys row hrow
    have hcontent : row.key.content = p.encryptedBlob.key := by
      rw [(Prod.mk.inj hstored).1]
      cases wrapsTo <;> rfl
    rw [hcontent]
    exact hfresh key hkey p hp
  · rw [hgrants g hg] at hk
    cases hk

end Calls

section Samples

open Sample

theorem SampleStored.held {db : Db} (h : SampleStored db) {k : StoredKey} (hk : db.Holds k) :
    k = .wrapped "organisation" [1] := by
  rcases hk with ⟨row, hrow, rfl⟩ | ⟨g, hg, -⟩
  · exact h.keys row hrow
  · rw [h.grants] at hg
    cases hg

theorem SampleStored.wraps {db : Db} (h : SampleStored db) {pem : String} (hpem : db.Wraps pem) :
    pem = "organisation" := by
  rcases hpem with ⟨orgId, hwraps⟩ | ⟨key, hk⟩
  · rw [wrapsTo_congr h.orgs] at hwraps
    by_cases horg : orgId = "acme"
    · subst horg
      exact (Option.some.inj hwraps).symm
    · have hnone : sampleDark.wrapsTo orgId = none := by
        simp [Db.wrapsTo, Db.getOrgById, sampleDark, sampleOrg, Ne.symm horg]
      rw [hnone] at hwraps
      cases hwraps
  · exact (StoredKey.wrapped.inj (h.held hk)).1

/-- The request of the sample is filed while its record's key is out of reach. -/
theorem SampleStored.dark {db : Db} (h : SampleStored db) (requestId : Uuid) {required : Int}
    (hfresh : freshKeys db (.createRequest (sampleRequest required) sampleFiling)) :
    freshSecrets db (.createRequest (sampleRequest required) sampleFiling) ∧
      filedDark requestId db (.createRequest (sampleRequest required) sampleFiling) := by
  refine ⟨⟨hfresh, ?_, ?_⟩, fun _ => ⟨?_, ?_⟩⟩
  · intro key hkey k hk hsame
    rw [h.held hk] at hsame
    have hown : key ∈ [(sampleFreshOf 22).contentKey] := hkey
    rw [← hsame] at hown
    revert hown
    decide
  · rintro pem hpem ⟨-, hopens⟩
    rw [h.wraps hpem] at hopens
    exact absurd hopens (by decide)
  · rw [wrapsTo_congr h.orgs]
    rfl
  · intro p _ _ _ k hk husable
    rw [h.held hk] at husable
    obtain ⟨-, r, hr, -⟩ := husable
    rw [h.requests] at hr
    cases hr

theorem dark_sampleDark (requestId : Uuid) {args : RecordArgs} {fresh : Fresh} :
    freshSecrets sampleDark (.record args fresh) ∧
      filedDark requestId sampleDark (.record args fresh) :=
  ⟨⟨fun _ _ => nofun, fun _ _ k hk => absurd hk (bare_sampleDark.not_holds k), trivial⟩, trivial⟩

/-- A request of the sample in a run that never approved it, with its record's key. -/
theorem inScope_sample {db : Db} {required : Int} {status : String} {k : Option ReleasedKey}
    {p : Payload} (hp : p ∈ db.payloads) (hrow : SampleRow p)
    (hrequests : db.accessRequests =
      [{ filedRequest (sampleRequest required) sampleFiling with status := status }])
    (hgrants : db.accessGrantKeys = [⟨Uuid.ofNat 20, sampleHash, k⟩]) :
    db.InScope (Uuid.ofNat 20) [1] := by
  refine ⟨_, hrequests ▸ List.mem_singleton.mpr rfl, rfl, ⟨Uuid.ofNat 20, sampleHash, k⟩, ?_, p, hp,
    hrow.1, hrow.2.1, hrow.2.2.2⟩
  simp [Db.scopeOf, hgrants]

/-- One approval of two is counted, with a key or without, in a run that keeps secrets and never
approves the request. -/
theorem exists_counted_sample {key : Option ReleasedKey}
    (hkey : ∀ k, key = some (.key k) → k.content ≠ (sampleFreshOf 23).contentKey) :
    ∃ w db₁ db₂, (vault sampleKey fun db op =>
      freshSecrets db op ∧ filedDark (Uuid.ofNat 20) db op).Reachable w ∧
      w.past = [(.clientApprove (sampleAnswer key) (sampleFreshOf 23), db₂),
        (.createRequest (sampleRequest 2) sampleFiling, db₁),
        (.record (sampleFirst 1 sampleArgs.payload) (sampleFreshOf 1), sampleDark)] ∧
      w.NeverApproved (Uuid.ofNat 20) ∧ w.db.InScope (Uuid.ofNat 20) [1] ∧
      w.db.accessRequests = [filedRequest (sampleRequest 2) sampleFiling] ∧
      w.db.accessApprovals = [⟨Uuid.ofNat 20, "officer"⟩] ∧
      w.db.accessGrantKeys = [⟨Uuid.ofNat 20, sampleHash, key⟩] := by
  obtain ⟨db₁, db₂, w, e, x, y, p, hreach, ⟨hpast, hstored, hrequests₂, hgrants₂⟩, -, -, -, -, -, -,
    ⟨hp, hrow⟩, hrequests, happrovals, hgrants⟩ := exists_answered_sample 2 key
  have hpending : w.db.accessRequests = [filedRequest (sampleRequest 2) sampleFiling] := by
    rw [hrequests, if_neg fun h => absurd h.1 (by decide)]
    rfl
  have hbefore := reachable_before hreach
  rw [hpast] at hbefore
  have hdark : ∀ c ∈ w.past, freshSecrets c.2 c.1 ∧ filedDark (Uuid.ofNat 20) c.2 c.1 := by
    rw [hpast]
    intro c hc
    simp only [List.mem_cons, List.not_mem_nil, or_false] at hc
    rcases hc with rfl | rfl | rfl
    · obtain ⟨hfresh, past, hreach₂⟩ := hbefore _ List.mem_cons_self
      refine ⟨⟨hfresh, (stocked_of_reachable hreach₂).unheld hfresh ?_, ?_⟩, trivial⟩
      · rw [hgrants₂]
        simp
      · rintro k ⟨g, hg, hposted⟩
        obtain ⟨hg, -⟩ := List.mem_filter.mp hg
        rw [hgrants₂] at hg
        obtain rfl := List.mem_singleton.mp hg
        refine hkey k ?_
        cases key with
        | none => cases hposted
        | some released => simpa [sampleAnswer] using hposted
    · exact hstored.dark _ (hbefore (_, db₁) (by simp)).1
    · exact dark_sampleDark _
  have hnever : w.NeverApproved (Uuid.ofNat 20) := by
    rintro db hdb r hr -
    rw [Vault.states, hpast] at hdb
    simp only [List.map_cons, List.map_nil, List.mem_cons, List.not_mem_nil, or_false] at hdb
    rcases hdb with rfl | rfl | rfl | rfl
    · rw [hpending] at hr
      obtain rfl := List.mem_singleton.mp hr
      exact show "pending" ≠ "approved" by decide
    · rw [hrequests₂] at hr
      obtain rfl := List.mem_singleton.mp hr
      exact show "pending" ≠ "approved" by decide
    · rw [hstored.requests] at hr
      cases hr
    · cases hr
  exact ⟨w, db₁, db₂, reachable_of_past hreach hdark, hpast, hnever,
    inScope_sample hp hrow hrequests hgrants, hpending, happrovals, hgrants⟩

/-- One approval of two, and the service holds the key of the record. -/
theorem posted_key_usable : ¬ ∀ (w : Vault) (requestId : Uuid) (key : Bytes),
    (vault sampleKey fun db op => freshSecrets db op ∧ filedDark requestId db op).Reachable w →
    w.NeverApproved requestId → w.db.InScope requestId key →
      ¬Message.Derives Unwraps (stored w.db) (.secret key) := by
  intro hclaim
  obtain ⟨w, db₁, db₂, hreach, -, hnever, hscope, hrequests, -, hgrants⟩ :=
    @exists_counted_sample (some sampleReleased) (by rintro k ⟨⟩; decide)
  refine hclaim w _ [1] hreach hnever hscope (derives_key_iff.mpr ?_)
  exact ⟨.wrapped "grantee" [1], Or.inr ⟨_, hgrants ▸ List.mem_singleton.mpr rfl, rfl⟩, rfl, _,
    hrequests ▸ List.mem_singleton.mpr rfl, rfl, rfl⟩

/-- One approval of two, that posts no key. -/
theorem confined_sample : ∃ w : Vault, w.db.InScope (Uuid.ofNat 20) [1] ∧
    w.db.approversOf (Uuid.ofNat 20) = ["officer"] ∧
      ¬Message.Derives Unwraps (stored w.db) (.secret [1]) := by
  obtain ⟨w, db₁, db₂, hreach, hpast, hnever, hscope, -, happrovals, -⟩ :=
    @exists_counted_sample none (by rintro k ⟨⟩)
  have hconfining : ∀ c ∈ w.past, confining (Uuid.ofNat 20) c.2 c.1 := by
    intro c hc
    refine ⟨(reachable_before hreach c hc).1, ?_⟩
    rw [hpast] at hc
    simp only [List.mem_cons, List.not_mem_nil, or_false] at hc
    rcases hc with rfl | rfl | rfl
    · rintro - key - k ⟨g, -, hposted⟩
      cases hposted
    · trivial
    · trivial
  have hcounted : w.db.approversOf (Uuid.ofNat 20) = ["officer"] := by
    simp [Db.approversOf, happrovals]
  exact ⟨w, hscope, hcounted, confined (reachable_of_past hreach hconfining) hnever hscope⟩

end Samples

end Attest
