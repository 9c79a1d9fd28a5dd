import Attest.DeviceQueue
import Attest.Taking

/-!
# Handing a queue over

`_drain_offline` posts the records of the queue in chunks, and stops at the first chunk that
the server refuses (`replay`). A chunk is refused as a whole : where a record in it does not
verify, where two records in it do not name each other because a line between them was
damaged, or where the gate cannot take one of its outputs. Every chunk after it stays.

Whether a chunk is taken is said of its records and of the database before the drain
(`ChunkFits`, `takesAll_iff`). A drain hands over every acceptable record exactly where none
has a damaged line before it and its chunk and those before are such (`drain_hands_over_iff`).
-/

set_option linter.unusedSectionVars false

namespace Attest

/-! ## The server -/

/-- The checks of `ReplayIn` that a device can fail. -/
def replayIn (deviceId : String) (items : List Dict) : Bool :=
  8 ≤ deviceId.length && 1 ≤ items.length && items.length ≤ 500 &&
    items.all fun item => item.get "action" ≠ .str ""

/-- What the server was given from outside so far, and its database. -/
structure Server where
  calls : Nat
  db : Db

section Drain

variable [KeyUnwrapping] [SignatureScheme] [PyUnicode] [IsoReader] {svc : SigningKeyPair}
  {org : Org} {registered : SdkDevice} {fresh : Nat → GraftFresh}

/-- `POST /v1/sdk/replay`, `none` where it answers with an error. -/
def replay (svc : SigningKeyPair) (org : Org) (deviceId : String) (fresh : Nat → GraftFresh)
    (server : Server) (items : List Dict) : Option Server :=
  if replayIn deviceId items then
    match graftOfflineSegment svc server.db ⟨org, deviceId, items⟩ (fresh server.calls) with
    | .ok (db, _) => some ⟨server.calls + 1, db⟩
    | .error _ => none
  else none

/-- The record is of the content it names, and signed by the device. -/
structure RecordVerifies (registered : SdkDevice) (r : QueuedRecord) : Prop where
  payloadHash : r.payloadHash = sha256Hex r.output
  signature : verifyHex registered.publicPem (offlineClaimHash (r.claim registered.deviceId))
    r.clientSignature = .ok true

/-- The record can be accepted by itself. -/
structure Acceptable (db : Db) (org : Org) (registered : SdkDevice) (r : QueuedRecord) : Prop where
  verifies : RecordVerifies registered r
  named : PyText.isBlank r.action = false
  trace : ∃ traceId, itemTrace r.item = .ok traceId ∧
    ∀ id, traceId = some id → ∀ t, db.getTraceById id = some t → t.orgId = org.id

/-- The precheck of a record, in a trace of its own. -/
def recordPrecheck (db : Db) (org : Org) (r : QueuedRecord) (g : GateFresh) : PrecheckArgs :=
  gatePrecheck db (itemGate org r.item r.output none) g

/-- The gate can take the record : it is acceptable, what is recorded of it can be stored, and the
policy in force, if any, can judge it. -/
structure RecordFits (db : Db) (org : Org) (registered : SdkDevice) (r : QueuedRecord)
    (g : GateFresh) : Prop extends Acceptable db org registered r where
  text : textOk r.action = true
  output : db.Stores org.id r.output
  reads : ∀ policy, selectPolicy db org.id none = some policy →
    OutputReads r.action r.output policy.rules ∧ (PacksRead db org.id ∨
      (RefusesOutput r.action r.output policy.rules ∧ org.failMode = "deny_on_error"))
  drafts : ∀ policy, selectPolicy db org.id none = some policy →
    DraftsFit db (recordPrecheck db org r g) policy g.precheck.drafts
  decision : ∀ policy, selectPolicy db org.id none = some policy → ∀ payload,
    Decides db (recordPrecheck db org r g) policy g.precheck.drafts payload →
      db.Stores org.id payload

/-- The server takes the chunk : it can be posted, the device is live, each record names the one
before it, and the gate can take them. -/
structure ChunkFits (db : Db) (org : Org) (registered : SdkDevice) (gate : Nat → GateFresh)
    (chunk : List QueuedRecord) : Prop where
  named : 8 ≤ registered.deviceId.length
  live : registered.revoked = false
  linked : chunk.IsChain fun r s =>
    s.prevLocal = some (offlineClaimHash (r.claim registered.deviceId))
  fits : ∀ i r, chunk[i]? = some r → RecordFits db org registered r (gate i)

/-- The items of a chunk, with the claims they make. -/
def claimed (registered : SdkDevice) (chunk : List QueuedRecord) : List (Dict × OfflineClaim) :=
  chunk.map fun r => (r.item, r.claim registered.deviceId)

/-- A chunk that the server took : its records verify and each names the one before it, and the
gate took their outputs in turn. -/
structure Takes (svc : SigningKeyPair) (org : Org) (registered : SdkDevice)
    (fresh : Nat → GraftFresh)
    (server : Server) (chunk : List QueuedRecord) (server' : Server) : Prop where
  posted : replayIn registered.deviceId (chunk.map QueuedRecord.item) = true
  live : registered.revoked = false
  verifies : ∀ r ∈ chunk, RecordVerifies registered r
  linked : chunk.IsChain fun r s =>
    s.prevLocal = some (offlineClaimHash (r.claim registered.deviceId))
  gated : ∃ db outs, graftItems svc org registered (fresh server.calls).gate 0 server.db
    (claimed registered chunk) = .ok (db, outs) ∧
      server' = ⟨server.calls + 1, db.touchDevice registered.id (fresh server.calls).now⟩

/-- Chunks that the server takes one after the other. -/
def TakesAll (svc : SigningKeyPair) (org : Org) (registered : SdkDevice)
    (fresh : Nat → GraftFresh) :
    Server → List (List QueuedRecord) → Server → Prop
  | server, [], server' => server' = server
  | server, chunk :: rest, server' => ∃ next, Takes svc org registered fresh server chunk next ∧
      TakesAll svc org registered fresh next rest server'

/-! ## Chunks that are taken -/

theorem claim_prevLocal (deviceId : String) (r : QueuedRecord) {digest : String}
    (hne : digest ≠ "") :
    (r.claim deviceId).prevLocal = .str digest ↔ r.prevLocal = some digest := by
  cases hprev : r.prevLocal with
  | none =>
    simp [QueuedRecord.claim, buildOfflineClaim, hprev, optStr, JVal.orElse, JVal.truthy,
      Ne.symm hne]
  | some link =>
    by_cases hlink : link = ""
    · simp [QueuedRecord.claim, buildOfflineClaim, hprev, optStr, JVal.orElse, JVal.truthy, hlink]
    · simp [QueuedRecord.claim, buildOfflineClaim, hprev, optStr, JVal.orElse, JVal.truthy, hlink]

theorem verifyItem_item_iff {index : Nat} {before : Option String} {r : QueuedRecord}
    {claim : OfflineClaim} :
    verifyItem registered index before r.item = .ok claim ↔ RecordVerifies registered r ∧
      (∀ digest, before = some digest → (r.claim registered.deviceId).prevLocal = .str digest) ∧
        claim = r.claim registered.deviceId := by
  rw [verifyItem_iff]
  constructor
  · rintro ⟨⟨payload, h⟩, hlink⟩
    obtain rfl : r.output = payload := JVal.obj.inj h.output_eq
    have hseq : r.localSeq = claim.localSeq := Except.ok.inj h.localSeq_eq
    have hfields := h.claim_eq
    have hhash : claim.payloadHash = sha256Hex r.output := by
      rw [hfields]
      rfl
    have hrecord : r.payloadHash = sha256Hex r.output :=
      (JVal.str.inj h.payloadHash_eq).trans hhash
    have hclaim : claim = r.claim registered.deviceId := by
      rw [hfields, QueuedRecord.claim, hrecord, hseq]
      rfl
    subst hclaim
    exact ⟨⟨hrecord, h.signature_ok⟩, hlink, rfl⟩
  · rintro ⟨h, hlink, rfl⟩
    refine ⟨⟨r.output, rfl, rfl, ?_, rfl, h.signature⟩, hlink⟩
    rw [← h.payloadHash]
    rfl

theorem verifyItems_item_iff : ∀ {chunk : List QueuedRecord} {index : Nat} {before : Option String}
    {verified : List (Dict × OfflineClaim)},
    verifyItems registered index before (chunk.map QueuedRecord.item) = .ok verified ↔
      (∀ r ∈ chunk, RecordVerifies registered r) ∧
        (∀ r, chunk.head? = some r → ∀ digest, before = some digest →
          (r.claim registered.deviceId).prevLocal = .str digest) ∧
          (chunk.IsChain fun r s =>
            s.prevLocal = some (offlineClaimHash (r.claim registered.deviceId))) ∧
            verified = claimed registered chunk
  | [], _, _, verified => by simp [verifyItems, claimed, eq_comm]
  | r :: chunk, index, before, verified => by
    have hne : offlineClaimHash (r.claim registered.deviceId) ≠ "" := sha256Hex_ne_empty _
    simp only [List.map_cons, verifyItems, Except.bind_eq_ok, Except.pure_eq, Except.ok.injEq,
      verifyItem_item_iff, verifyItems_item_iff, List.mem_cons, forall_eq_or_imp, List.head?_cons,
      Option.some.injEq, forall_eq', List.isChain_cons]
    constructor
    · rintro ⟨claim, ⟨hr, hlink, rfl⟩, rest, ⟨hall, hhead, hchain, rfl⟩, rfl⟩
      refine ⟨⟨hr, hall⟩, hlink, ⟨fun s hs => ?_, hchain⟩, rfl⟩
      exact (claim_prevLocal _ s hne).mp (hhead s hs)
    · rintro ⟨⟨hr, hall⟩, hlink, ⟨hhead, hchain⟩, rfl⟩
      refine ⟨_, ⟨hr, hlink, rfl⟩, _, ⟨hall, fun s hs => ?_, hchain, rfl⟩, rfl⟩
      exact (claim_prevLocal _ s hne).mpr (hhead s hs)

/-- When it was last seen makes no difference to what a device hands in. -/
theorem verifyItems_seen (seen : Option String) : ∀ (items : List Dict) (index : Nat)
    (before : Option String),
    verifyItems { registered with lastSeenAt := seen } index before items =
      verifyItems registered index before items
  | [], _, _ => rfl
  | item :: items, index, before => by
    have hitem : verifyItem { registered with lastSeenAt := seen } index before item =
        verifyItem registered index before item := rfl
    simp only [verifyItems, hitem, verifyItems_seen seen items]

theorem graftItems_seen (seen : Option String) (gate : Nat → GateFresh) :
    ∀ (items : List (Dict × OfflineClaim)) (index : Nat) (db : Db),
    graftItems svc org { registered with lastSeenAt := seen } gate index db items =
      graftItems svc org registered gate index db items
  | [], _, _ => rfl
  | (item, claim) :: items, index, db => by
    have hitem : graftItem svc db org { registered with lastSeenAt := seen } item claim
        (gate index) = graftItem svc db org registered item claim (gate index) := rfl
    simp only [graftItems, hitem, graftItems_seen seen gate items]

/-- The database has the device, whenever it was last seen. -/
def Knows (db : Db) (org : Org) (registered : SdkDevice) : Prop :=
  ∃ seen, db.deviceOf org.id registered.deviceId =
    .ok (some { registered with lastSeenAt := seen })

theorem oneOrNone_eq_some {α : Type} {rows : List α} {x : α} :
    oneOrNone rows = .ok (some x) ↔ rows = [x] := by
  rcases rows with _ | ⟨y, _ | ⟨z, rows⟩⟩ <;> simp [oneOrNone]

/-- A device stays known after it was seen. -/
theorem Knows.touch {db db' : Db} (h : Knows db org registered)
    (hdevices : db'.devices = db.devices)
    (id : Uuid) (now : String) : Knows (db'.touchDevice id now) org registered := by
  obtain ⟨seen, hfound⟩ := h
  rw [Db.deviceOf, oneOrNone_eq_some] at hfound
  have hfilter (rows : List SdkDevice) (p : SdkDevice → Bool) (f : SdkDevice → SdkDevice)
      (hf : ∀ d, p (f d) = p d) : (rows.map f).filter p = (rows.filter p).map f := by
    rw [List.filter_map]
    exact congrArg (List.map f) (List.filter_congr fun d _ => hf d)
  refine ⟨if registered.id = id then some now else seen, ?_⟩
  rw [Db.deviceOf, Db.touchDevice, oneOrNone_eq_some, hdevices, hfilter, hfound, List.map_singleton]
  · split <;> rfl
  · intro d
    split <;> rfl

theorem replay_eq_some {server server' : Server} (hknows : Knows server.db org registered)
    {chunk : List QueuedRecord} :
    replay svc org registered.deviceId fresh server (chunk.map QueuedRecord.item) = some server' ↔
      Takes svc org registered fresh server chunk server' := by
  obtain ⟨seen, hfound⟩ := hknows
  have hsegment (r : Db × List GraftOut) : graftOfflineSegment svc server.db
      ⟨org, registered.deviceId, chunk.map QueuedRecord.item⟩ (fresh server.calls) = .ok r ↔
      registered.revoked = false ∧ ((∀ s ∈ chunk, RecordVerifies registered s) ∧
        chunk.IsChain fun s t =>
          t.prevLocal = some (offlineClaimHash (s.claim registered.deviceId))) ∧
        ∃ db, graftItems svc org registered (fresh server.calls).gate 0 server.db
          (claimed registered chunk) = .ok (db, r.2) ∧
          r.1 = db.touchDevice registered.id (fresh server.calls).now := by
    simp only [graftOfflineSegment, hfound, Except.ok_bind', Except.bind_eq_ok, require_eq_ok,
      Bool.not_eq_true', verifySegment, verifyItems_seen, graftItems_seen, verifyItems_item_iff,
      Except.pure_eq, Except.ok.injEq]
    constructor
    · rintro ⟨_, hlive, verified, ⟨hall, -, hchain, rfl⟩, ⟨db, outs⟩, hgraft, rfl⟩
      exact ⟨hlive, ⟨hall, hchain⟩, db, hgraft, rfl⟩
    · rintro ⟨hlive, ⟨hall, hchain⟩, db, hgraft, hdb⟩
      refine ⟨(), hlive, _, ⟨hall, ?_, hchain, rfl⟩, ⟨db, r.2⟩, hgraft, Prod.ext hdb.symm rfl⟩
      intro _ _ _ hnone
      cases hnone
  unfold replay
  constructor
  · intro h
    split at h
    · rename_i hposted
      split at h
      · rename_i db outs hgraft
        obtain rfl := Option.some.inj h
        obtain ⟨hlive, ⟨hall, hchain⟩, db₁, hitems, rfl⟩ := (hsegment _).mp hgraft
        exact ⟨hposted, hlive, hall, hchain, db₁, outs, hitems, rfl⟩
      · cases h
    · cases h
  · rintro ⟨hposted, hlive, hall, hchain, db₁, outs, hitems, rfl⟩
    have hgraft := (hsegment (db₁.touchDevice registered.id (fresh server.calls).now, outs)).mpr
      ⟨hlive, ⟨hall, hchain⟩, db₁, hitems, rfl⟩
    rw [if_pos hposted, hgraft]

/-- A chunk leaves an output event for each record. -/
theorem graftItems_took {gate : Nat → GateFresh} : ∀ {chunk : List QueuedRecord} {index : Nat}
    {db db' : Db} {outs : List GraftOut},
    graftItems svc org registered gate index db (claimed registered chunk) = .ok (db', outs) →
      ∃ es, db'.events = db.events ++ es ∧ ∀ r ∈ chunk,
        ∃ e ∈ es, Defers org registered r.item (r.claim registered.deviceId) e
  | [], _, _, _, _, h => by
    obtain ⟨rfl, -⟩ := Prod.mk.inj (Except.ok.inj h)
    exact ⟨[], (List.append_nil _).symm, nofun⟩
  | r :: chunk, index, db, db', outs, h => by
    simp only [claimed, List.map_cons, graftItems, Except.bind_eq_ok, Except.pure_eq,
      Except.ok.injEq, Prod.mk.injEq] at h
    obtain ⟨⟨db₁, out⟩, hitem, ⟨db₂, outs'⟩, hrest, rfl, -⟩ := h
    obtain ⟨decided, e, hevents, -, -, hdefers, -⟩ := graftItem_defers hitem
    obtain ⟨es, hes, hall⟩ := graftItems_took hrest
    refine ⟨decided ++ [e] ++ es, by rw [hes, hevents]; simp, fun s hs => ?_⟩
    rcases List.mem_cons.mp hs with rfl | hs
    · exact ⟨e, by simp, hdefers⟩
    · obtain ⟨e', he', hdefers'⟩ := hall s hs
      exact ⟨e', by simp [he'], hdefers'⟩

theorem Takes.knows {server server' : Server} {chunk : List QueuedRecord}
    (hknows : Knows server.db org registered)
    (h : Takes svc org registered fresh server chunk server') :
    Knows server'.db org registered := by
  obtain ⟨db, outs, hgraft, rfl⟩ := h.gated
  exact hknows.touch (graftItems_devices hgraft) _ _

theorem Takes.unique {server server' server'' : Server} {chunk : List QueuedRecord}
    (h : Takes svc org registered fresh server chunk server')
    (h' : Takes svc org registered fresh server chunk server'') : server' = server'' := by
  obtain ⟨db, outs, hgraft, rfl⟩ := h.gated
  obtain ⟨db', outs', hgraft', rfl⟩ := h'.gated
  obtain ⟨rfl, -⟩ := Prod.mk.inj (Except.ok.inj (hgraft.symm.trans hgraft'))
  rfl

theorem TakesAll.events : ∀ {server server' : Server} {taken : List (List QueuedRecord)},
    TakesAll svc org registered fresh server taken server' →
      ∃ es, server'.db.events = server.db.events ++ es ∧ ∀ r ∈ taken.flatten,
        ∃ e ∈ es, Defers org registered r.item (r.claim registered.deviceId) e
  | _, _, [], h => by
    cases h
    exact ⟨[], (List.append_nil _).symm, nofun⟩
  | _, _, chunk :: rest, ⟨next, hchunk, hrest⟩ => by
    obtain ⟨db, outs, hgraft, rfl⟩ := hchunk.gated
    obtain ⟨es, hes, hall⟩ := graftItems_took hgraft
    obtain ⟨es', hes', hall'⟩ := TakesAll.events hrest
    refine ⟨es ++ es', ?_, fun r hr => ?_⟩
    · rw [hes', ← List.append_assoc, ← hes]
      rfl
    · rcases List.mem_append.mp hr with hr | hr
      · obtain ⟨e, he, hdefers⟩ := hall r hr
        exact ⟨e, List.mem_append_left _ he, hdefers⟩
      · obtain ⟨e, he, hdefers⟩ := hall' r hr
        exact ⟨e, List.mem_append_right _ he, hdefers⟩

theorem takesAll_append {server' : Server} {after : List (List QueuedRecord)} :
    ∀ {server : Server} {before : List (List QueuedRecord)},
      TakesAll svc org registered fresh server (before ++ after) server' ↔
        ∃ next, TakesAll svc org registered fresh server before next ∧
          TakesAll svc org registered fresh next after server'
  | server, [] => ⟨fun h => ⟨server, rfl, h⟩, fun ⟨_, hnext, h⟩ => by cases hnext; exact h⟩
  | server, chunk :: before => by
    simp only [List.cons_append, TakesAll, takesAll_append]
    constructor
    · rintro ⟨first, hchunk, next, hbefore, hafter⟩
      exact ⟨next, ⟨first, hchunk, hbefore⟩, hafter⟩
    · rintro ⟨next, ⟨first, hchunk, hbefore⟩, hafter⟩
      exact ⟨first, hchunk, next, hbefore, hafter⟩

theorem TakesAll.unique : ∀ {server server' server'' : Server} {taken : List (List QueuedRecord)},
    TakesAll svc org registered fresh server taken server' →
      TakesAll svc org registered fresh server taken server'' → server' = server''
  | _, _, _, [], h, h' => h.trans h'.symm
  | _, _, _, _ :: _, ⟨_, hchunk, hrest⟩, ⟨_, hchunk', hrest'⟩ => by
    cases hchunk.unique hchunk'
    exact TakesAll.unique hrest hrest'

/-! ## Chunks that fit -/

/-- The new ids of so many rounds, from an index on. -/
def gateRounds (gate : Nat → GateFresh) (index count : Nat) : List GateFresh :=
  (List.range' index count).map gate

/-- The new ids of all rounds of a drain. -/
def drainRounds (fresh : Nat → GraftFresh) : Nat → List (List QueuedRecord) → List GateFresh
  | _, [] => []
  | calls, chunk :: rest =>
    gateRounds (fresh calls).gate 0 chunk.length ++ drainRounds fresh (calls + 1) rest

theorem gateRounds_succ (gate : Nat → GateFresh) (index count : Nat) :
    gateRounds gate index (count + 1) = gate index :: gateRounds gate (index + 1) count := by
  rw [gateRounds, List.range'_succ, List.map_cons, gateRounds]

theorem drainRounds_append (after : List (List QueuedRecord)) :
    ∀ (calls : Nat) (before : List (List QueuedRecord)),
      drainRounds fresh calls (before ++ after) =
        drainRounds fresh calls before ++ drainRounds fresh (calls + before.length) after
  | _, [] => rfl
  | calls, chunk :: before => by
    rw [List.cons_append, drainRounds, drainRounds_append after (calls + 1) before, drainRounds,
      List.append_assoc, List.length_cons, Nat.add_assoc, Nat.add_comm 1]

/-- Some of the ids are new where all are. -/
theorem NewIds.of_append {db : Db} {orgId : String} {rounds later : List GateFresh}
    (h : NewIds db orgId (rounds ++ later)) : NewIds db orgId rounds where
  events := by
    have hevents := h.events
    rw [List.flatMap_append] at hevents
    exact (List.nodup_append.mp hevents).1
  summaries := by
    have hsummaries := h.summaries
    rw [List.map_append] at hsummaries
    exact (List.nodup_append.mp hsummaries).1
  approvals := by
    have happrovals := h.approvals
    rw [List.map_append] at happrovals
    exact (List.nodup_append.mp happrovals).1
  event g hg := h.event g (List.mem_append_left _ hg)
  summary g hg := h.summary g (List.mem_append_left _ hg)
  approval g hg := h.approval g (List.mem_append_left _ hg)
  trace g hg := h.trace g (List.mem_append_left _ hg)

/-- Whether the gate takes a record is said of the database before the drain. -/
theorem gateTakes_iff {before db : Db} (hready : Ready before org)
    (hgrows : GrowsFor org.id before db) {r : QueuedRecord} {g : GateFresh}
    {rounds : List GateFresh} (hnew : NewIds db org.id (g :: rounds))
    (hverifies : RecordVerifies registered r) :
    (∃ traceId, itemTrace r.item = .ok traceId ∧
      GateTakes db (itemGate org r.item r.output traceId) g) ↔
        RecordFits before org registered r g := by
  have hpolicy : selectPolicy db org.id none = selectPolicy before org.id none :=
    selectPolicy_congr hgrows.policies org.id none
  have hdecided (traceId : Option Uuid) {policy : Policy} : (∃ payload, Decides db
      (gatePrecheck db (itemGate org r.item r.output traceId) g) policy g.precheck.drafts payload ∧
        db.Stores org.id payload) ↔ Judges before (recordPrecheck before org r g) policy
          g.precheck.drafts ∧ ∀ payload, Decides before (recordPrecheck before org r g) policy
            g.precheck.drafts payload → before.Stores org.id payload := by
    rw [← decides_stores_iff]
    refine exists_congr fun payload => and_congr ⟨fun h => ?_, fun h => ?_⟩ hgrows.stores_iff
    · exact h.elsewhere hgrows.packs.symm hgrows.orgPacks.symm rfl
    · exact h.elsewhere hgrows.packs hgrows.orgPacks rfl
  constructor
  · rintro ⟨traceId, hread, htakes⟩
    have hjudged (policy : Policy) (hselect : selectPolicy before org.id none = some policy) :=
      (hdecided traceId).mp (htakes.decided policy (hpolicy.trans hselect))
    refine ⟨⟨hverifies, htakes.named, traceId, hread, ?_⟩, htakes.action,
      hgrows.stores_iff.mp htakes.output, fun policy hselect => ?_, fun policy hselect => ?_,
      fun policy hselect => (hjudged policy hselect).2⟩
    · rintro id rfl t ht
      obtain ⟨hmem, hid⟩ := Db.mem_of_getTraceById ht
      exact hgrows.owns_iff.mp htakes.trace t hmem hid
    · have hreads := judges_iff.mp (hjudged policy hselect).1
      exact ⟨hreads.1, hreads.2.1⟩
    · exact (judges_iff.mp (hjudged policy hselect).1).2.2
  · intro hfits
    obtain ⟨traceId, hread, hown⟩ := hfits.trace
    refine ⟨traceId, hread, hfits.named, hfits.text, ?_, hgrows.stores_iff.mpr hfits.output,
      fun policy hselect => ?_⟩
    · cases traceId with
      | none => exact hnew.trace g List.mem_cons_self
      | some id =>
        refine hgrows.owns_iff.mpr fun t ht hid => ?_
        obtain ⟨t', ht'⟩ : ∃ t', before.getTraceById id = some t' := by
          rw [← Option.isSome_iff_exists, Db.getTraceById, List.find?_isSome]
          exact ⟨t, ht, decide_eq_true hid⟩
        obtain ⟨hmem, hid'⟩ := Db.mem_of_getTraceById ht'
        rw [List.inj_on_of_nodup_map hready.stocked.traces ht hmem (hid.trans hid'.symm)]
        exact hown id rfl t' ht'
    · have hselect' : selectPolicy before org.id none = some policy := hpolicy.symm.trans hselect
      obtain ⟨hreads, hpacks⟩ := hfits.reads policy hselect'
      exact (hdecided traceId).mpr ⟨judges_iff.mpr ⟨hreads, hpacks, hfits.drafts policy hselect'⟩,
        hfits.decision policy hselect'⟩

/-- The records of a chunk go through exactly where the gate can take each, and leave the
database ready for those after them. -/
theorem graftItems_iff (svc : SigningKeyPair) {before : Db} (hbefore : Ready before org)
    (hdevice : textOk registered.deviceId = true) {gate : Nat → GateFresh}
    {later : List GateFresh} :
    ∀ {chunk : List QueuedRecord} {index : Nat} {db : Db}, Ready db org →
      GrowsFor org.id before db → NewIds db org.id (gateRounds gate index chunk.length ++ later) →
      (∀ r ∈ chunk, RecordVerifies registered r) →
      ((∃ db' outs, graftItems svc org registered gate index db (claimed registered chunk) =
          .ok (db', outs)) ↔
        ∀ i r, chunk[i]? = some r → RecordFits before org registered r (gate (index + i))) ∧
      ∀ db' outs, graftItems svc org registered gate index db (claimed registered chunk) =
          .ok (db', outs) →
        Ready db' org ∧ GrowsFor org.id before db' ∧ NewIds db' org.id later
  | [], index, db, hready, hgrows, hnew, _ => by
    refine ⟨⟨fun _ => nofun, fun _ => ⟨db, [], rfl⟩⟩, fun db' outs h => ?_⟩
    obtain ⟨rfl, -⟩ := Prod.mk.inj (Except.ok.inj h)
    exact ⟨hready, hgrows, hnew⟩
  | r :: chunk, index, db, hready, hgrows, hnew, hverifies => by
    rw [List.length_cons, gateRounds_succ, List.cons_append] at hnew
    have hfirst := hverifies r List.mem_cons_self
    have htexts : textOk registered.deviceId = true ∧ textOk (clientSignature r.item) = true :=
      ⟨hdevice, textOk_of_verifyHex hfirst.signature⟩
    have hitem : (∃ db₁ out, graftItem svc db org registered r.item (r.claim registered.deviceId)
        (gate index) = .ok (db₁, out)) ↔ RecordFits before org registered r (gate index) := by
      rw [graftItem_iff hready (r.claim registered.deviceId) hnew htexts svc,
        ← gateTakes_iff hbefore hgrows hnew hfirst]
      constructor
      · rintro ⟨payload, traceId, hpayload, htrace, htakes⟩
        obtain rfl : r.output = payload := JVal.obj.inj hpayload
        exact ⟨traceId, htrace, htakes⟩
      · rintro ⟨traceId, htrace, htakes⟩
        exact ⟨r.output, traceId, rfl, htrace, htakes⟩
    -- After the first record, the rest is as it is.
    have hrest {db₁ : Db} {out : GraftOut} (hgraft : graftItem svc db org registered r.item
        (r.claim registered.deviceId) (gate index) = .ok (db₁, out)) :=
      have hleaves := graftItem_leavesReady hready hnew hgraft
      graftItems_iff svc hbefore hdevice hleaves.ready (hgrows.trans hleaves.grows)
        (hnew.later hleaves.uses hleaves.grows) fun s hs => hverifies s (List.mem_cons_of_mem _ hs)
    constructor
    · constructor
      · rintro ⟨db', outs, hgrafts⟩
        simp only [claimed, List.map_cons, graftItems, Except.bind_eq_ok] at hgrafts
        obtain ⟨⟨db₁, out⟩, hgraft, ⟨db₂, outs'⟩, hgrafts, -⟩ := hgrafts
        have hfits := (hrest hgraft).1.mp ⟨db₂, outs', hgrafts⟩
        intro i s hs
        cases i with
        | zero =>
          obtain rfl := Option.some.inj hs
          exact hitem.mp ⟨db₁, out, hgraft⟩
        | succ i =>
          rw [Nat.add_comm i 1, ← Nat.add_assoc]
          exact hfits i s hs
      · intro hfits
        obtain ⟨db₁, out, hgraft⟩ := hitem.mpr (hfits 0 r rfl)
        obtain ⟨db', outs, hgrafts⟩ := (hrest hgraft).1.mpr fun i s hs => by
          rw [Nat.add_assoc, Nat.add_comm 1 i]
          exact hfits (i + 1) s hs
        refine ⟨db', out :: outs, ?_⟩
        rw [claimed] at hgrafts
        simp only [claimed, List.map_cons, graftItems, hgraft, hgrafts, Except.ok_bind',
          Except.pure_eq]
    · intro db' outs hgrafts
      simp only [claimed, List.map_cons, graftItems, Except.bind_eq_ok, Except.pure_eq,
        Except.ok.injEq, Prod.mk.injEq] at hgrafts
      obtain ⟨⟨db₁, out⟩, hgraft, ⟨db₂, outs'⟩, hgrafts, rfl, -⟩ := hgrafts
      exact (hrest hgraft).2 db₂ outs' hgrafts

theorem Ready.touch {db : Db} (h : Ready db org) (id : Uuid) (now : String) :
    Ready (db.touchDevice id now) org where
  stocked := ⟨h.stocked.orgs, h.stocked.managed, h.stocked.traces, h.stocked.owned,
    ⟨h.stocked.keyed.payloads, h.stocked.keyed.payloadKeys⟩, h.stocked.sealed, h.stocked.keys,
    h.stocked.locked, h.stocked.recorded, h.stocked.stored⟩
  index := ⟨h.index.ids, h.index.keys, h.index.told⟩
  there := h.there
  versions := h.versions

/-- Chunks that can be posted are taken one after the other exactly where each fits the database
before them all. -/
theorem takesAll_iff (svc : SigningKeyPair) {before : Db} (hbefore : Ready before org)
    (hdevice : textOk registered.deviceId = true) :
    ∀ {pending : List (List QueuedRecord)} {server : Server}, Ready server.db org →
      GrowsFor org.id before server.db →
      NewIds server.db org.id (drainRounds fresh server.calls pending) →
      (∀ chunk ∈ pending, 1 ≤ chunk.length ∧ chunk.length ≤ 100) →
      ((∃ server', TakesAll svc org registered fresh server pending server') ↔
        ∀ c chunk, pending[c]? = some chunk →
          ChunkFits before org registered (fresh (server.calls + c)).gate chunk)
  | [], server, _, _, _, _ => ⟨fun _ => nofun, fun _ => ⟨server, rfl⟩⟩
  | chunk :: pending, server, hready, hgrows, hnew, hlength => by
    obtain ⟨hfilled, hshort⟩ := hlength chunk List.mem_cons_self
    have hgraft (hverifies : ∀ r ∈ chunk, RecordVerifies registered r) :=
      @graftItems_iff _ _ _ _ org registered svc before hbefore hdevice (fresh server.calls).gate
        (drainRounds fresh (server.calls + 1) pending) chunk 0 server.db hready hgrows hnew
        hverifies
    have hrest {next : Server} (htakes : Takes svc org registered fresh server chunk next) :
        next.calls = server.calls + 1 ∧
          ((∃ server', TakesAll svc org registered fresh next pending server') ↔
            ∀ c chunk, pending[c]? = some chunk →
              ChunkFits before org registered (fresh (next.calls + c)).gate chunk) := by
      obtain ⟨db, outs, hgrafts, rfl⟩ := htakes.gated
      obtain ⟨hready', hgrows', hnew'⟩ := (hgraft htakes.verifies).2 db outs hgrafts
      refine ⟨rfl, takesAll_iff svc hbefore hdevice (hready'.touch _ _) ?_ ?_
        fun chunk' hchunk' => hlength chunk' (List.mem_cons_of_mem _ hchunk')⟩
      · exact ⟨hgrows'.orgs, hgrows'.policies, hgrows'.packs, hgrows'.orgPacks, hgrows'.opened,
          hgrows'.added⟩
      · exact ⟨hnew'.events, hnew'.summaries, hnew'.approvals, hnew'.event, hnew'.summary,
          hnew'.approval, hnew'.trace⟩
    have hposted : replayIn registered.deviceId (chunk.map QueuedRecord.item) = true ↔
        8 ≤ registered.deviceId.length ∧ ∀ r ∈ chunk, r.action ≠ "" := by
      have haction (r : QueuedRecord) : r.item.get "action" ≠ .str "" ↔ r.action ≠ "" :=
        not_congr ⟨JVal.str.inj, congrArg JVal.str⟩
      simp only [replayIn, List.length_map, Bool.and_eq_true, decide_eq_true_eq, List.all_map,
        List.all_eq_true, Function.comp_apply, haction]
      constructor
      · exact fun h => ⟨h.1.1.1, h.2⟩
      · exact fun h => ⟨⟨⟨h.1, hfilled⟩, by omega⟩, h.2⟩
    constructor
    · rintro ⟨server', next, htakes, hall⟩ c chunk' hchunk'
      obtain ⟨hcalls, hlater⟩ := hrest htakes
      cases c with
      | zero =>
        obtain rfl := Option.some.inj hchunk'
        obtain ⟨db, outs, hgrafts, -⟩ := htakes.gated
        refine ⟨(hposted.mp htakes.posted).1, htakes.live, htakes.linked, fun i r hr => ?_⟩
        have hfits := (hgraft htakes.verifies).1.mp ⟨db, outs, hgrafts⟩ i r hr
        rw [Nat.zero_add] at hfits
        exact hfits
      | succ c =>
        have hfits := hlater.mp ⟨server', hall⟩ c chunk' hchunk'
        rw [hcalls, Nat.add_assoc, Nat.add_comm 1 c] at hfits
        exact hfits
    · intro hfits
      have hfirst := hfits 0 chunk rfl
      have hrecord (r : QueuedRecord) (hr : r ∈ chunk) :
          ∃ i, RecordFits before org registered r ((fresh server.calls).gate i) := by
        obtain ⟨i, hi⟩ := List.mem_iff_getElem?.mp hr
        exact ⟨i, hfirst.fits i r hi⟩
      have hverifies (r : QueuedRecord) (hr : r ∈ chunk) : RecordVerifies registered r := by
        obtain ⟨i, hi⟩ := hrecord r hr
        exact hi.verifies
      obtain ⟨db, outs, hgrafts⟩ := (hgraft hverifies).1.mpr fun i r hr => by
        rw [Nat.zero_add]
        exact hfirst.fits i r hr
      have htakes : Takes svc org registered fresh server chunk
          ⟨server.calls + 1, db.touchDevice registered.id (fresh server.calls).now⟩ := by
        refine ⟨hposted.mpr ⟨hfirst.named, fun r hr hempty => ?_⟩, hfirst.live, hverifies,
          hfirst.linked, db, outs, hgrafts, rfl⟩
        obtain ⟨i, hi⟩ := hrecord r hr
        have hnamed := hi.named
        rw [hempty] at hnamed
        cases hnamed
      obtain ⟨hcalls, hlater⟩ := hrest htakes
      obtain ⟨server', hall⟩ := hlater.mpr fun c chunk' hchunk' => by
        rw [hcalls, Nat.add_assoc, Nat.add_comm 1 c]
        exact hfits (c + 1) chunk' hchunk'
      exact ⟨server', _, htakes, hall⟩

/-! ## Chunks -/

/-- The first chunks are the first records. -/
theorem flatten_take_chunksFrom {α : Type} {batch : Nat} (hbatch : 0 < batch) :
    ∀ {rounds : Nat} {xs : List α} (count : Nat), xs.length ≤ rounds →
      ((chunksFrom batch rounds xs).take count).flatten = xs.take (batch * count)
  | 0, [], _, _ => by simp [chunksFrom]
  | _ + 1, [], _, _ => by simp [chunksFrom]
  | rounds + 1, x :: xs, 0, _ => by simp
  | rounds + 1, x :: xs, count + 1, h => by
    have hrest : ((x :: xs).drop batch).length ≤ rounds := by
      rw [List.length_drop]
      rw [List.length_cons] at h ⊢
      omega
    rw [chunksFrom, List.take_succ_cons, List.flatten_cons,
      flatten_take_chunksFrom hbatch count hrest, Nat.mul_succ, Nat.add_comm, List.take_add]

theorem flatten_take_chunks {α : Type} {batch : Nat} (hbatch : 0 < batch) (xs : List α)
    (count : Nat) : ((chunks batch xs).take count).flatten = xs.take (batch * count) :=
  flatten_take_chunksFrom hbatch count (le_refl _)

theorem flatten_chunks {α : Type} {batch : Nat} (hbatch : 0 < batch) (xs : List α) :
    (chunks batch xs).flatten = xs := by
  have hall := flatten_take_chunks hbatch xs ((chunks batch xs).length + xs.length)
  have hle : xs.length ≤ batch * ((chunks batch xs).length + xs.length) :=
    (Nat.le_add_left _ _).trans (Nat.le_mul_of_pos_left _ hbatch)
  rwa [List.take_of_length_le (Nat.le_add_right _ _), List.take_of_length_le hle] at hall

/-! ## Drains -/

variable [RecordSealing QueuedRecord]

/-- A drain ends after the chunks that the server takes, and drops as many lines. -/
theorem drainChunks_ends (svc : SigningKeyPair) (fresh : Nat → GraftFresh) :
    ∀ {server : Server} {bytes : Bytes} {lines : List String}
    (pending : List (List QueuedRecord)), Knows server.db org registered →
      OfflineStore.readLines bytes = .ok lines →
      ∃ server' bytes' taken refused, pending = taken ++ refused ∧
        TakesAll svc org registered fresh server taken server' ∧
        (∀ chunk, refused.head? = some chunk →
          ∀ next, ¬ Takes svc org registered fresh server' chunk next) ∧
        drainChunks (replay svc org registered.deviceId fresh) server (some bytes) pending =
          .ok (server', some bytes', taken.flatten.length) ∧
        OfflineStore.readLines bytes' = .ok (lines.drop taken.flatten.length)
  | server, bytes, lines, [], _, hlines => ⟨server, bytes, [], [], rfl, rfl, nofun, rfl, hlines⟩
  | server, bytes, lines, chunk :: pending, hknows, hlines => by
    cases hpost : replay svc org registered.deviceId fresh server (chunk.map QueuedRecord.item) with
    | none =>
      refine ⟨server, bytes, [], chunk :: pending, rfl, rfl, ?_, by rw [drainChunks, hpost]; rfl,
        hlines⟩
      rintro _ hhead next htakes
      obtain rfl := Option.some.inj hhead
      rw [(replay_eq_some hknows).mpr htakes] at hpost
      cases hpost
    | some next =>
      have htakes := (replay_eq_some hknows).mp hpost
      obtain ⟨bytes₁, hdrop, hlines₁⟩ := OfflineStore.drop_lines hlines chunk.length
      obtain ⟨server', bytes', taken, refused, rfl, hall, hrefused, hdrain, hlines'⟩ :=
        drainChunks_ends svc fresh pending (htakes.knows hknows) hlines₁
      refine ⟨server', bytes', chunk :: taken, refused, rfl, ⟨next, htakes, hall⟩, hrefused, ?_, ?_⟩
      · rw [drainChunks, hpost]
        simp only [hdrop, hdrain, Except.ok_bind', Except.pure_eq, List.flatten_cons,
          List.length_append]
      · rw [hlines', List.drop_drop, List.flatten_cons, List.length_append]

/-- What is kept of the rest of the lines has the rest of the records. -/
theorem mem_filterMap_drop {α β : Type} {f : α → Option β} {xs : List α} {k : Nat} {y : β}
    (hy : y ∈ (xs.filterMap f).drop k) : y ∈ (xs.drop k).filterMap f := by
  have hsplit : xs.filterMap f = (xs.take k).filterMap f ++ (xs.drop k).filterMap f := by
    rw [← List.filterMap_append, List.take_append_drop]
  have hle : ((xs.take k).filterMap f).length ≤ k :=
    (List.length_filterMap_le _ _).trans (List.length_take_le _ _)
  rw [hsplit, List.drop_append, List.drop_eq_nil_of_le hle, List.nil_append] at hy
  exact List.mem_of_mem_drop hy

/-- Where a line before does not open, a record that was handed over is still in the lines
after it. -/
theorem open_of_notMem_drop {α β : Type} {f : α → Option β} {xs : List α} {k : Nat}
    (hk : k ≤ (xs.filterMap f).length)
    (hgone : ∀ y ∈ (xs.filterMap f).take k, y ∉ (xs.drop k).filterMap f) :
    ∀ x ∈ xs.take k, (f x).isSome = true := by
  have hsplit : xs.filterMap f = (xs.take k).filterMap f ++ (xs.drop k).filterMap f := by
    rw [← List.filterMap_append, List.take_append_drop]
  have hle : ((xs.take k).filterMap f).length ≤ (xs.take k).length := List.length_filterMap_le _ _
  have htake : (xs.take k).length ≤ k := List.length_take_le _ _
  refine List.filterMap_length_eq_length.mp ?_
  by_contra hne
  have hlt : ((xs.take k).filterMap f).length < k := by omega
  rw [hsplit, List.length_append] at hk
  have hrest : 0 < ((xs.drop k).filterMap f).length := by omega
  refine hgone ((xs.drop k).filterMap f)[0] ?_ (List.getElem_mem hrest)
  rw [hsplit, List.take_append, List.mem_append]
  refine Or.inr (List.mem_take_iff_getElem.mpr ⟨0, ?_, rfl⟩)
  omega

/-- One drain hands over every record that can be accepted by itself, and leaves none of them
in the queue. -/
def HandsOver (svc : SigningKeyPair) (org : Org) (registered : SdkDevice)
    (fresh : Nat → GraftFresh) (server : Server) (dir : StateDir) : Prop :=
  ∃ records server' dir' sent remaining es, OfflineStore.readAll dir.file = .ok records ∧
    drainOffline (replay svc org registered.deviceId fresh) server dir 100 =
      .ok (server', dir', sent) ∧
    OfflineStore.readAll dir'.file = .ok remaining ∧ server'.db.events = server.db.events ++ es ∧
    ∀ r ∈ records, Acceptable server.db org registered r →
      (∃ e ∈ es, Defers org registered r.item (r.claim registered.deviceId) e) ∧ r ∉ remaining

/-- The queue is text, and no record that can be accepted has a damaged line before it or is in
or after a chunk that does not fit the database. -/
def QueueFits (org : Org) (registered : SdkDevice) (fresh : Nat → GraftFresh) (server : Server)
    (dir : StateDir) : Prop :=
  ∀ bytes, dir.file = some bytes → ∃ lines, OfflineStore.readLines bytes = .ok lines ∧
    ∀ k r, (lines.filterMap RecordSealing.openLine)[k]? = some r →
      Acceptable server.db org registered r →
        (∀ line ∈ lines.take (k + 1), (RecordSealing.openLine line : Option QueuedRecord).isSome) ∧
        ∀ c chunk, c ≤ k / 100 →
          (chunks 100 (lines.filterMap RecordSealing.openLine))[c]? = some chunk →
            ChunkFits server.db org registered (fresh (server.calls + c)).gate chunk

/-- The server is ready for the organisation and has the device, and the drain of the records is
given ids that are new. -/
structure Awaits (org : Org) (registered : SdkDevice) (fresh : Nat → GraftFresh) (server : Server)
    (records : List QueuedRecord) : Prop where
  ready : Ready server.db org
  device : textOk registered.deviceId = true
  knows : Knows server.db org registered
  new : NewIds server.db org.id (drainRounds fresh server.calls (chunks 100 records))

/-- What a drain makes of a queue that is text : so many records are sent, which are those of
the chunks that the server takes, and as many lines are dropped. -/
structure Drained (svc : SigningKeyPair) (org : Org) (registered : SdkDevice)
    (fresh : Nat → GraftFresh) (server : Server) (dir : StateDir) (lines : List String)
    (records : List QueuedRecord) (sent : Nat) (server' : Server) (bytes' : Bytes) : Prop where
  drain : drainOffline (replay svc org registered.deviceId fresh) server dir 100 =
    .ok (server', { dir with file := some bytes' }, sent)
  lines_eq : OfflineStore.readLines bytes' = .ok (lines.drop sent)
  le : sent ≤ records.length
  events : ∃ es, server'.db.events = server.db.events ++ es ∧ ∀ r ∈ records.take sent,
    ∃ e ∈ es, Defers org registered r.item (r.claim registered.deviceId) e
  sent_iff : ∀ k, k < records.length → (k < sent ↔ ∀ c chunk, c ≤ k / 100 →
    (chunks 100 records)[c]? = some chunk →
      ChunkFits server.db org registered (fresh (server.calls + c)).gate chunk)

theorem mem_chunksFrom {α : Type} {batch : Nat} (hbatch : 0 < batch) : ∀ {rounds : Nat}
    {xs chunk : List α}, chunk ∈ chunksFrom batch rounds xs →
      1 ≤ chunk.length ∧ chunk.length ≤ batch
  | 0, _, _, h => absurd h List.not_mem_nil
  | _ + 1, [], _, h => absurd h List.not_mem_nil
  | rounds + 1, x :: xs, chunk, h => by
    rcases List.mem_cons.mp h with rfl | h
    · rw [List.length_take, List.length_cons]
      omega
    · exact mem_chunksFrom hbatch h

/-- The first chunks are taken exactly where they fit. -/
theorem Awaits.takesAll_iff (svc : SigningKeyPair) {server : Server} {records : List QueuedRecord}
    (h : Awaits org registered fresh server records) (count : Nat) :
    (∃ next, TakesAll svc org registered fresh server ((chunks 100 records).take count) next) ↔
      ∀ c chunk, c < count → (chunks 100 records)[c]? = some chunk →
        ChunkFits server.db org registered (fresh (server.calls + c)).gate chunk := by
  have hnew := h.new
  rw [← List.take_append_drop count (chunks 100 records), drainRounds_append] at hnew
  rw [Attest.takesAll_iff svc h.ready h.device h.ready (.refl _ _)
    hnew.of_append fun chunk hchunk =>
    mem_chunksFrom (by decide) (List.mem_of_mem_take hchunk)]
  simp only [List.getElem?_take]
  constructor
  · intro hall c chunk hc hchunk
    exact hall c chunk (by rw [if_pos hc, hchunk])
  · intro hall c chunk hchunk
    split at hchunk
    · rename_i hc
      exact hall c chunk hc hchunk
    · cases hchunk

/-- What was sent could be accepted. -/
theorem Drained.acceptable {server server' : Server} {dir : StateDir} {lines : List String}
    {records : List QueuedRecord} {sent : Nat} {bytes' : Bytes}
    (h : Drained svc org registered fresh server dir lines records sent server' bytes') {k : Nat}
    (hk : k < records.length) (hsent : k < sent) :
    Acceptable server.db org registered records[k] := by
  have hall := (h.sent_iff k hk).mp hsent
  have hmem : records[k] ∈ ((chunks 100 records).take (k / 100 + 1)).flatten := by
    rw [flatten_take_chunks (by decide), List.mem_take_iff_getElem]
    exact ⟨k, by omega, rfl⟩
  obtain ⟨chunk, hchunk, hr⟩ := List.mem_flatten.mp hmem
  obtain ⟨c, hc, rfl⟩ := List.mem_take_iff_getElem.mp hchunk
  obtain ⟨i, hi⟩ := List.mem_iff_getElem?.mp hr
  exact ((hall c _ (by omega) (List.getElem?_eq_getElem (by omega))).fits i _ hi).toAcceptable

theorem exists_drained (svc : SigningKeyPair) {server : Server} {dir : StateDir} {bytes : Bytes}
    (hfile : dir.file = some bytes) {lines : List String}
    (hlines : OfflineStore.readLines bytes = .ok lines)
    (hawaits : Awaits org registered fresh server (lines.filterMap RecordSealing.openLine)) :
    ∃ sent server' bytes', Drained svc org registered fresh server dir lines
      (lines.filterMap RecordSealing.openLine) sent server' bytes' := by
  obtain ⟨records, hrecords⟩ : ∃ records : List QueuedRecord,
      records = lines.filterMap RecordSealing.openLine := ⟨_, rfl⟩
  have hread : OfflineStore.readAll dir.file = .ok records := by
    rw [hfile]
    exact OfflineStore.readAll_some_eq_ok.mpr ⟨lines, hlines, hrecords⟩
  obtain ⟨server', bytes', taken, refused, hsplit, htaken, hrefused, hdrain, hlines'⟩ :=
    drainChunks_ends svc fresh (chunks 100 records) hawaits.knows hlines
  rw [← hrecords] at hawaits ⊢
  have hprefix : taken = (chunks 100 records).take taken.length := by
    rw [hsplit, List.take_left]
  have hflatten : taken.flatten = records.take (100 * taken.length) := by
    rw [← flatten_take_chunks (by decide) records taken.length, ← hprefix]
  have hsent : taken.flatten.length = min (100 * taken.length) records.length := by
    rw [hflatten, List.length_take]
  have htake : records.take taken.flatten.length = taken.flatten := by
    rw [hsent, hflatten]
    rcases Nat.le_total (100 * taken.length) records.length with hle | hle
    · rw [Nat.min_eq_left hle]
    · rw [Nat.min_eq_right hle, List.take_of_length_le (le_refl _), List.take_of_length_le hle]
  refine ⟨taken.flatten.length, server', bytes', ?_, hlines', by omega, ?_, fun k hk => ?_⟩
  · rw [drainOffline, hread, Except.ok_bind', hfile, hdrain]
    rfl
  · rw [htake]
    exact htaken.events
  have hfirst := hawaits.takesAll_iff svc (k / 100 + 1)
  simp only [Nat.lt_succ_iff] at hfirst
  rw [← hfirst]
  constructor
  · intro hlt
    have hle : k / 100 + 1 ≤ taken.length := by omega
    have happend : taken = (chunks 100 records).take (k / 100 + 1) ++ taken.drop (k / 100 + 1) := by
      rw [hsplit, List.take_append_of_le_length hle, List.take_append_drop]
    rw [happend, takesAll_append] at htaken
    obtain ⟨next, hnext, -⟩ := htaken
    exact ⟨next, hnext⟩
  · rintro ⟨next, hnext⟩
    by_contra hlate
    -- The chunk after those that were taken would be one of the first `k / 100 + 1`.
    have hle : taken.length ≤ k / 100 := by omega
    cases refused with
    | nil =>
      rw [List.append_nil] at hsplit
      rw [← hsplit, flatten_chunks (by decide)] at hlate
      exact hlate hk
    | cons chunk more =>
      obtain ⟨extra, hextra⟩ := Nat.exists_eq_add_of_le hle
      have htake : (chunks 100 records).take (k / 100 + 1) = taken ++ chunk :: more.take extra := by
        rw [hsplit, hextra, Nat.add_assoc, List.take_length_add_append, List.take_succ_cons]
      rw [htake, takesAll_append] at hnext
      obtain ⟨server'', htaken', next', hchunk, -⟩ := hnext
      rw [← htaken.unique htaken'] at hchunk
      exact hrefused chunk rfl next' hchunk

/-- What is asked of the server before a drain, whatever the queue holds. -/
def AwaitsDrain (org : Org) (registered : SdkDevice) (fresh : Nat → GraftFresh) (server : Server)
    (dir : StateDir) : Prop :=
  ∀ records, OfflineStore.readAll dir.file = .ok records →
    Awaits org registered fresh server records

theorem AwaitsDrain.awaits {server : Server} {dir : StateDir} {bytes : Bytes} {lines : List String}
    (h : AwaitsDrain org registered fresh server dir) (hfile : dir.file = some bytes)
    (hlines : OfflineStore.readLines bytes = .ok lines) :
    Awaits org registered fresh server (lines.filterMap RecordSealing.openLine) := by
  refine h _ ?_
  rw [hfile]
  exact OfflineStore.readAll_some_eq_ok.mpr ⟨lines, hlines, rfl⟩

theorem HandsOver.fits {server : Server} {dir : StateDir}
    (hawaits : AwaitsDrain org registered fresh server dir) :
    HandsOver svc org registered fresh server dir →
      QueueFits org registered fresh server dir := by
  rintro ⟨records, server', dir', sent, remaining, es, hread, hdrain, hleft, hevents, hall⟩
    bytes hfile
  rw [hfile] at hread
  obtain ⟨lines, hlines, rfl⟩ := OfflineStore.readAll_some_eq_ok.mp hread
  obtain ⟨sent', server₁, bytes', h⟩ :=
    exists_drained svc hfile hlines (hawaits.awaits hfile hlines)
  obtain ⟨rfl, rfl, rfl⟩ : server₁ = server' ∧ { dir with file := some bytes' } = dir' ∧
      sent' = sent := by
    have heq := Except.ok.inj (h.drain.symm.trans hdrain)
    simpa [Prod.ext_iff] using heq
  obtain ⟨lines', hlines', rfl⟩ := OfflineStore.readAll_some_eq_ok.mp hleft
  obtain rfl := Except.ok.inj (hlines'.symm.trans h.lines_eq)
  -- What was sent was acceptable, so it is gone, and no line before it was damaged.
  have hopen := open_of_notMem_drop h.le fun r hr => by
    obtain ⟨k, hk, rfl⟩ := List.mem_take_iff_getElem.mp hr
    exact (hall _ (List.getElem_mem _) (h.acceptable (by omega) (by omega))).2
  refine ⟨lines, hlines, fun k r hk hr => ?_⟩
  obtain ⟨hlt, rfl⟩ := List.getElem?_eq_some_iff.mp hk
  have hsent : k < sent' := by
    by_contra hlate
    refine (hall _ (List.getElem_mem hlt) hr).2 (mem_filterMap_drop ?_)
    rw [List.mem_iff_getElem]
    exact ⟨k - sent', by rw [List.length_drop]; omega, by
      rw [List.getElem_drop]
      congr 1
      omega⟩
  exact ⟨fun line hline => hopen line (List.take_subset_take_left lines hsent hline),
    (h.sent_iff k hlt).mp hsent⟩

theorem QueueFits.handsOver {server : Server} {dir : StateDir}
    (hawaits : AwaitsDrain org registered fresh server dir)
    (hfits : QueueFits org registered fresh server dir) :
    HandsOver svc org registered fresh server dir := by
  cases hfile : dir.file with
  | none =>
    refine ⟨[], server, dir, 0, [], [], by rw [hfile]; rfl, ?_, by rw [hfile]; rfl,
      (List.append_nil _).symm, nofun⟩
    have hsame : ({ dir with file := none } : StateDir) = dir := by rw [← hfile]
    rw [drainOffline, hfile]
    exact congrArg (fun d => Except.ok (server, d, 0)) hsame
  | some bytes =>
    obtain ⟨lines, hlines, hcond⟩ := hfits bytes hfile
    obtain ⟨sent, server', bytes', h⟩ :=
      exists_drained svc hfile hlines (hawaits.awaits hfile hlines)
    obtain ⟨records, hrecords⟩ : ∃ records : List QueuedRecord,
        records = lines.filterMap RecordSealing.openLine := ⟨_, rfl⟩
    rw [← hrecords] at h hcond
    obtain ⟨es, hes, htook⟩ := h.events
    -- The last record that was sent has no damaged line before it.
    have hopen : ∀ line ∈ lines.take sent,
        (RecordSealing.openLine line : Option QueuedRecord).isSome = true := by
      cases sent with
      | zero => simp
      | succ last =>
        have hlast : last < records.length := h.le
        exact (hcond last _ (List.getElem?_eq_getElem hlast)
          (h.acceptable hlast (Nat.lt_succ_self last))).1
    have hleft : (lines.drop sent).filterMap RecordSealing.openLine = records.drop sent := by
      have hle := h.le
      rw [hrecords] at hle ⊢
      exact (OfflineStore.filterMap_drop_eq_iff hle).mpr hopen
    refine ⟨records, server', _, sent, records.drop sent, es, ?_, h.drain, ?_, hes, ?_⟩
    · rw [hfile]
      exact OfflineStore.readAll_some_eq_ok.mpr ⟨lines, hlines, hrecords⟩
    · exact OfflineStore.readAll_some_eq_ok.mpr ⟨_, h.lines_eq, hleft.symm⟩
    · intro r hr haccepted
      have hsent (k : Nat) (hk : k < records.length) (hrk : records[k] = r) : k < sent :=
        (h.sent_iff k hk).mpr
          (hcond k r (by rw [List.getElem?_eq_getElem hk, hrk]) haccepted).2
      obtain ⟨k, hk, hrk⟩ := List.mem_iff_getElem.mp hr
      refine ⟨htook r ?_, fun hlate => ?_⟩
      · rw [List.mem_take_iff_getElem]
        exact ⟨k, by have := hsent k hk hrk; omega, hrk⟩
      · obtain ⟨i, hi, hri⟩ := List.mem_iff_getElem.mp hlate
        rw [List.length_drop] at hi
        rw [List.getElem_drop] at hri
        have hlt := hsent (sent + i) (by omega) hri
        omega

/-- A drain hands over every record that can be accepted by itself exactly where none has a
damaged line before it, and its chunk and those before fit the database. -/
theorem drain_hands_over_iff (svc : SigningKeyPair) (org : Org) (registered : SdkDevice)
    (fresh : Nat → GraftFresh) (server : Server) (dir : StateDir)
    (hready : Ready server.db org) (hdevice : textOk registered.deviceId = true)
    (hfound : server.db.deviceOf org.id registered.deviceId = .ok (some registered))
    (hnew : ∀ records, OfflineStore.readAll dir.file = .ok records →
      NewIds server.db org.id (drainRounds fresh server.calls (chunks 100 records))) :
    HandsOver svc org registered fresh server dir ↔
      QueueFits org registered fresh server dir := by
  have hawaits : AwaitsDrain org registered fresh server dir := fun records hread =>
    ⟨hready, hdevice, ⟨registered.lastSeenAt, hfound⟩, hnew records hread⟩
  exact ⟨fun h => h.fits hawaits, fun h => h.handsOver hawaits⟩

end Drain

/-! ## A record that is refused -/

section Samples

open Sample OfflineStore.Sample

attribute [local instance] deviceScheme OfflineStore.Sample.instPyUnicode

namespace Sample

/-- The ids of a round, numbered from one on. -/
def roundFresh (k : Nat) : GateFresh where
  traceId := Uuid.ofNat k
  precheck := ⟨sampleFreshOf (k + 1), Uuid.ofNat k, ⟨Uuid.ofNat k, 0⟩, []⟩
  output := sampleFreshOf (k + 2)

/-- New ids for every item of every chunk. -/
def handoverFresh (n : Nat) : GraftFresh where
  gate i := roundFresh (4 * (600 * n + i))
  now := "2025-01-02T00:00:00+00:00"

def blankCall : OfflineCall := { offlineCall with action := " " }

/-- A device after a gate of an action, and one more gate. -/
noncomputable def twoGates (call : OfflineCall) : DeviceRun :=
  newDevice.run deviceKey [.gate offlineCall [], .gate call []]

/-- What the two gates queue. -/
structure QueuedTwo (call : OfflineCall) (r s : QueuedRecord) : Prop where
  file : ∃ bytes lines, (twoGates call).dir.file = some bytes ∧
    OfflineStore.readLines bytes = .ok lines ∧ lines.map RecordSealing.openLine = [some r, some s]
  signed : Signed deviceKey r ∧ Signed deviceKey s
  linked : s.prevLocal = some r.claimHash
  action : r.action = "model_completion" ∧ s.action = call.action
  trace : r.traceId = none ∧ s.traceId = call.trace

theorem exists_queuedTwo (call : OfflineCall) : ∃ r s, QueuedTwo call r s := by
  obtain ⟨r, _, -, hqueue, -, -, hsigned, h⟩ :=
    (queueKept_new deviceKey).queueOffline offlineCall []
  obtain ⟨dir, hdir⟩ : ∃ dir, dir = rememberHead
    { newDevice.dir with file := OfflineStore.append newDevice.dir.file [] r } r := ⟨_, rfl⟩
  have hkept : QueueKept deviceKey dir ([] ++ [r]) := by
    rw [hdir]
    exact ⟨h.lines, h.signed, h.linked⟩
  obtain ⟨s, _, -, hqueue', -, -, hsigned', h'⟩ := hkept.queueOffline call []
  have hfirst : newDevice.step deviceKey (.gate offlineCall []) = ⟨dir, [r], true⟩ := by
    rw [DeviceRun.step, gateOffline, hqueue, hdir]
    rfl
  have hsecond : DeviceRun.step deviceKey ⟨dir, [r], true⟩ (.gate call []) =
      ⟨rememberHead { dir with file := OfflineStore.append dir.file [] s } s,
        [r] ++ [s], true⟩ := by
    simp only [DeviceRun.step, gateOffline, hqueue', Except.ok_bind', Except.pure_eq]
  have hrun : twoGates call =
      ⟨rememberHead { dir with file := OfflineStore.append dir.file [] s } s,
        [r] ++ [s], true⟩ := by
    have htwo (s : DeviceRun) (a b : DeviceStep) :
        s.run deviceKey [a, b] = (s.step deviceKey a).step deviceKey b := rfl
    rw [twoGates, htwo, hfirst, hsecond]
  obtain ⟨lines, hfile, hlines, hopen⟩ := h'.lines
  refine ⟨r, s, ⟨_, _, by rw [hrun]; exact congrArg some hfile,
    OfflineStore.readLines_sealed hlines, by rw [List.map_map]; exact hopen⟩,
    ⟨hsigned, hsigned'⟩, (List.isChain_cons_cons.mp h'.linked).1,
    ⟨(queueOffline_fields hqueue).1, (queueOffline_fields hqueue').1⟩,
    ⟨(queueOffline_fields hqueue).2.2, (queueOffline_fields hqueue').2.2⟩⟩

theorem QueuedTwo.filterMap {call : OfflineCall} {r s : QueuedRecord} (h : QueuedTwo call r s)
    {bytes : Bytes} {lines : List String} (hfile : (twoGates call).dir.file = some bytes)
    (hlines : OfflineStore.readLines bytes = .ok lines) :
    lines.map RecordSealing.openLine = [some r, some s] ∧
      lines.filterMap RecordSealing.openLine = [r, s] := by
  obtain ⟨bytes', lines', hfile', hlines', hopen⟩ := h.file
  obtain rfl := Option.some.inj (hfile.symm.trans hfile')
  obtain rfl := Except.ok.inj (hlines.symm.trans hlines')
  have hmap : lines.map RecordSealing.openLine = [r, s].map some := hopen
  exact ⟨hopen, OfflineStore.filterMap_of_map_eq hmap⟩

theorem acceptable_sample {r : QueuedRecord} (hsigned : Signed deviceKey r)
    (hnamed : PyText.isBlank r.action = false) (htrace : r.traceId = none) :
    Acceptable sampleDevices sampleOrg sampleDevice r where
  verifies := {
    payloadHash := hsigned.payloadHash
    signature := by
      have hclaim : r.claimHash = offlineClaimHash (r.claim sampleDevice.deviceId) :=
        hsigned.claimHash
      rw [← hclaim]
      exact verifyHex_of_signHex SignatureScheme.ideal_transparent hsigned.signature }
  named := hnamed
  trace := by
    refine ⟨none, ?_, nofun⟩
    have hitem : r.item.get "trace_id" = optStr r.traceId := rfl
    rw [itemTrace, hitem, htrace]
    rfl

/-- Without a policy an acceptable record fits. -/
theorem recordFits_sample {r : QueuedRecord} (h : Acceptable sampleDevices sampleOrg sampleDevice r)
    (htext : textOk r.action = true) (g : GateFresh) :
    RecordFits sampleDevices sampleOrg sampleDevice r g where
  toAcceptable := h
  text := htext
  output := Or.inr served_sample.unjudged.wraps
  reads := nofun
  drafts := nofun
  decision := nofun

theorem ready_sampleDevices : Ready sampleDevices sampleOrg where
  stocked := served_sample.unjudged.stocked
  index := ⟨List.nodup_nil, List.nodup_nil, List.forall_mem_nil _⟩
  there := rfl
  versions := List.forall_mem_nil _

theorem newIds_sample {call : OfflineCall} (records : List QueuedRecord)
    (hread : OfflineStore.readAll (twoGates call).dir.file = .ok records) :
    NewIds sampleDevices "acme" (drainRounds handoverFresh 0 (chunks 100 records)) := by
  obtain ⟨r, s, h⟩ := exists_queuedTwo call
  obtain ⟨bytes, lines, hfile, hlines, -⟩ := h.file
  rw [hfile] at hread
  obtain ⟨lines', hlines', rfl⟩ := OfflineStore.readAll_some_eq_ok.mp hread
  rw [(h.filterMap hfile hlines').2]
  have hrounds : drainRounds handoverFresh 0 (chunks 100 [r, s]) = [roundFresh 0, roundFresh 4] :=
    rfl
  rw [hrounds]
  exact ⟨by decide, by decide, by decide, fun _ _ _ _ => List.forall_mem_nil _,
    fun _ _ => List.forall_mem_nil _, fun _ _ => List.forall_mem_nil _,
    fun _ _ => List.forall_mem_nil _⟩

end Sample

/-- Two records that name each other are handed over. -/
theorem drain_hands_over_iff_sample : HandsOver sampleKey sampleOrg sampleDevice handoverFresh
    ⟨0, sampleDevices⟩ (twoGates offlineCall).dir := by
  refine (drain_hands_over_iff sampleKey sampleOrg sampleDevice handoverFresh ⟨0, sampleDevices⟩
    (twoGates offlineCall).dir ready_sampleDevices (by decide) rfl newIds_sample).mpr ?_
  obtain ⟨r, s, h⟩ := exists_queuedTwo offlineCall
  intro bytes hfile
  obtain ⟨bytes', lines, hfile', hlines, -⟩ := h.file
  obtain rfl := Option.some.inj (hfile.symm.trans hfile')
  obtain ⟨hopen, hrecords⟩ := h.filterMap hfile hlines
  refine ⟨lines, hlines, fun k t hk _ => ⟨fun line hline => ?_, fun c chunk hc hchunk => ?_⟩⟩
  · have hmem : (RecordSealing.openLine line : Option QueuedRecord) ∈ [some r, some s] := by
      rw [← hopen]
      exact List.mem_map_of_mem (List.mem_of_mem_take hline)
    rcases List.mem_cons.mp hmem with heq | hmem
    · rw [heq]
      rfl
    · rw [List.mem_singleton.mp hmem]
      rfl
  · rw [hrecords] at hk hchunk
    have hk' : k < [r, s].length := (List.getElem?_eq_some_iff.mp hk).1
    obtain rfl : c = 0 := by
      rw [List.length_cons, List.length_singleton] at hk'
      omega
    obtain rfl : [r, s] = chunk := Option.some.inj hchunk
    have hfits (t : QueuedRecord) (hsigned : Signed deviceKey t)
        (haction : t.action = "model_completion") (htrace : t.traceId = none) (g : GateFresh) :
        RecordFits sampleDevices sampleOrg sampleDevice t g := by
      refine recordFits_sample (acceptable_sample hsigned ?_ htrace) ?_ g <;>
        rw [haction] <;> decide
    refine ⟨by decide, rfl, List.isChain_cons_cons.mpr ⟨?_, List.isChain_singleton _⟩, ?_⟩
    · rw [h.linked, h.signed.1.claimHash]
      rfl
    · rintro (_ | _ | i) t ht
      · obtain rfl := Option.some.inj ht
        exact hfits r h.signed.1 h.action.1 h.trace.1 _
      · obtain rfl := Option.some.inj ht
        exact hfits s h.signed.2 h.action.2 h.trace.2 _
      · cases ht

theorem blank_action_stalls : ¬ HandsOver sampleKey sampleOrg sampleDevice handoverFresh
    ⟨0, sampleDevices⟩ (twoGates blankCall).dir := by
  intro hhands
  obtain ⟨r, blank, h⟩ := exists_queuedTwo blankCall
  have hawaits : AwaitsDrain sampleOrg sampleDevice handoverFresh ⟨0, sampleDevices⟩
      (twoGates blankCall).dir := fun records hread =>
    ⟨ready_sampleDevices, by decide, ⟨none, rfl⟩, newIds_sample records hread⟩
  have hfits := hhands.fits hawaits
  obtain ⟨bytes, lines, hfile, hlines, -⟩ := h.file
  obtain ⟨lines', hlines', hcond⟩ := hfits bytes hfile
  rw [(h.filterMap hfile hlines').2] at hcond
  have haccepted := acceptable_sample h.signed.1 (by rw [h.action.1]; decide) h.trace.1
  obtain ⟨-, hchunks⟩ := hcond 0 r rfl haccepted
  have hnamed := ((hchunks 0 [r, blank] (le_refl 0) rfl).fits 1 blank rfl).named
  rw [h.action.2] at hnamed
  revert hnamed
  decide

end Samples

end Attest
