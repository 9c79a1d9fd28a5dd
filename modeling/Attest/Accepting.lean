import Attest.Resubmission
import Attest.Returning

/-!
# When a segment is accepted

`_verify_segment` accepts exactly the items that verify and name each other
(`verifyItems_iff`). An organisation that has no policy has every such segment recorded,
where each item names an action and a trace that is free or its own
(`graftOfflineSegment_returns`).
-/

set_option linter.unusedSectionVars false

namespace Attest

section Verify

variable [SignatureScheme] [PyUnicode]

/-! ## Verification -/

/-- An item is accepted after a claim exactly where it verifies and names that claim. -/
theorem verifyItem_iff {device : SdkDevice} {index : Nat} {prevLocal : Option String}
    {item : Dict} {claim : OfflineClaim} :
    verifyItem device index prevLocal item = .ok claim ↔
      (∃ payload, ItemVerifies device item payload claim) ∧
        ∀ digest, prevLocal = some digest → claim.prevLocal = .str digest := by
  refine ⟨verifyItem_eq_ok, ?_⟩
  rintro ⟨⟨payload, hverifies⟩, hlink⟩
  have hread : readItem device.deviceId index item = .ok (payload, claim) := by
    rw [readItem, hverifies.output_eq]
    simp only [hverifies.localSeq_eq, Except.ok_bind', Except.pure_eq]
    rw [← hverifies.claim_eq]
  rw [verifyItem, hread]
  simp only [Except.ok_bind', hverifies.payloadHash_eq, hverifies.signature_ok, decide_true,
    require, if_true, Except.pure_eq]
  cases prevLocal with
  | none => rfl
  | some digest => simp [hlink digest rfl]

/-- A segment is accepted exactly where its items verify and name each other. -/
theorem verifyItems_iff {device : SdkDevice} : ∀ {items : List Dict} {index : Nat}
    {prevLocal : Option String} {verified : List (Dict × OfflineClaim)},
    verifyItems device index prevLocal items = .ok verified ↔
      verified.map Prod.fst = items ∧
        (∀ v ∈ verified, ∃ payload, ItemVerifies device v.1 payload v.2) ∧
          (∀ v, verified.head? = some v → ∀ digest, prevLocal = some digest →
            v.2.prevLocal = .str digest) ∧
            verified.IsChain fun v w => w.2.prevLocal = .str (offlineClaimHash v.2)
  | items, index, prevLocal, [] => by
    refine ⟨verifyItems_eq_ok, ?_⟩
    rintro ⟨rfl, -⟩
    rfl
  | items, index, prevLocal, (item, claim) :: rest => by
    refine ⟨verifyItems_eq_ok, ?_⟩
    rintro ⟨rfl, hverifies, hhead, hchain⟩
    rw [List.isChain_cons] at hchain
    have hitem : verifyItem device index prevLocal item = .ok claim :=
      verifyItem_iff.mpr ⟨hverifies _ List.mem_cons_self, hhead _ rfl⟩
    have hrest : verifyItems device (index + 1) (some (offlineClaimHash claim))
        (rest.map Prod.fst) = .ok rest := by
      refine verifyItems_iff.mpr ⟨rfl, fun v hv => hverifies v (List.mem_cons_of_mem _ hv), ?_,
        hchain.2⟩
      intro v hv digest hdigest
      rw [← Option.some.inj hdigest]
      exact hchain.1 v hv
    simp only [List.map_cons, verifyItems, hitem, hrest, Except.ok_bind', Except.pure_eq]

end Verify

section Graft

variable [KeyUnwrapping] [SignatureScheme] [PyUnicode] [IsoReader] {svc : SigningKeyPair} {db : Db}
  {org : Org}

/-! ## An organisation without a policy -/

/-- The organisation is there, has no policy, and its content can be sealed. -/
structure Unjudged (db : Db) (org : Org) : Prop where
  stocked : db.Stocked
  there : db.hasOrg org.id = true
  policy : selectPolicy db org.id none = none
  wraps : ∀ pem, db.wrapsTo org.id = some pem → KeyWrapping.publicKind pem = .usable

/-- The item names an action and a trace that is free or the organisation's. -/
structure ItemFits (db : Db) (org : Org) (item : Dict) (fresh : GateFresh) : Prop where
  trace : ∃ traceId, itemTrace item = .ok traceId ∧
    ∀ t ∈ db.traces, t.id = traceId.getD fresh.traceId → t.orgId = org.id
  named : PyText.isBlank (itemGate org item [] none).action = false
  texts : textOk (itemGate org item [] none).action = true ∧ textOk (clientSignature item) = true
  id : ∀ x ∈ db.events, x.id ≠ fresh.output.eventId

/-- What the call leaves without a policy : the output alone. -/
structure OutputTaken (db : Db) (org : Org) (fresh : GateFresh) (db' : Db) (e : Event) : Prop where
  stocked : db'.Stocked
  id_eq : e.id = fresh.output.eventId
  traces : ∀ t ∈ db'.traces, t ∈ db.traces ∨ t.orgId = org.id
  rows : ∃ ts ps ks, db' = { db with
    traces := ts, payloads := ps, payloadKeys := ks, events := db.events ++ [e] }

theorem runGate_unjudged (h : Unjudged db org) (svc : SigningKeyPair) {item : Dict}
    (payload : Dict) {fresh : GateFresh} {traceId : Option Uuid}
    (hfits : ItemFits db org item fresh)
    (htrace : ∀ t ∈ db.traces, t.id = traceId.getD fresh.traceId → t.orgId = org.id) :
    ∃ db' out e, runGate svc db (itemGate org item payload traceId) fresh = .ok (db', out) ∧
      OutputTaken db org fresh db' e := by
  obtain ⟨db', e, hgate, hstocked, hid, hrows⟩ :=
    @runGate_unevaluated_returns _ _ _ db (itemGate org item payload traceId) fresh h.stocked svc
      rfl h.policy h.there htrace hfits.named ⟨hfits.texts.1, rfl⟩ hfits.id (Or.inr h.wraps)
  refine ⟨db', _, e, hgate, hstocked, hid, fun t ht => ?_, hrows⟩
  obtain ⟨ts, hts, hown⟩ := (runGate_takes h.stocked.traces hgate).1.opened
  rw [hts] at ht
  exact (List.mem_append.mp ht).imp id (hown t)

/-- What the update of `_mark_deferred` makes of a row. -/
def deferRow (id : Uuid) (occurredAt deviceId signature : String) (x : Event) : Event :=
  if x.id = id then x.defer (IsoReader.fromIsoFormat occurredAt) deviceId signature else x

theorem deferRow_keeps (id : Uuid) (occurredAt deviceId signature : String) (x : Event) :
    (deferRow id occurredAt deviceId signature x).id = x.id ∧
      (deferRow id occurredAt deviceId signature x).orgId = x.orgId ∧
        (deferRow id occurredAt deviceId signature x).traceId = x.traceId ∧
          (deferRow id occurredAt deviceId signature x).payloadHash = x.payloadHash := by
  unfold deferRow
  split <;> exact ⟨rfl, rfl, rfl, rfl⟩

/-- The output of an item is the only row of its number. -/
theorem markDeferred_returns {db : Db} {before : List Event} {e : Event}
    (hevents : db.events = before ++ [e])
    (hnew : ∀ y ∈ before, y.traceId = e.traceId → y.seq ≠ e.seq) (occurredAt : String)
    {deviceId signature : String} (htexts : textOk deviceId = true ∧ textOk signature = true) :
    markDeferred db e.orgId e.traceId e.seq occurredAt deviceId signature =
      .ok { db with events := db.events.map (deferRow e.id occurredAt deviceId signature) } := by
  have hfilter : (db.events.filter fun x =>
      x.orgId = e.orgId ∧ x.traceId = e.traceId ∧ x.seq = e.seq) = [e] := by
    have hnone : before.filter (fun x =>
        x.orgId = e.orgId ∧ x.traceId = e.traceId ∧ x.seq = e.seq) = [] := by
      rw [List.filter_eq_nil_iff]
      intro y hy hmatch
      simp only [decide_eq_true_eq] at hmatch
      exact hnew y hy hmatch.2.1 hmatch.2.2
    rw [hevents, List.filter_append, hnone]
    simp
  rw [markDeferred, hfilter]
  simp only [oneOrNone, Except.ok_bind', require, htexts.1, htexts.2, Bool.and_self, if_true,
    Except.pure_eq]
  rfl

/-- A database stays stocked when events are marked. -/
theorem Db.Stocked.mark {db : Db} (h : db.Stocked) {f : Event → Event}
    (hkeeps : ∀ e, (f e).orgId = e.orgId ∧ (f e).traceId = e.traceId ∧
      (f e).payloadHash = e.payloadHash) :
    { db with events := db.events.map f }.Stocked where
  orgs := h.orgs
  managed := h.managed
  traces := h.traces
  owned := by
    intro e he
    obtain ⟨x, hx, rfl⟩ := List.mem_map.mp he
    rw [(hkeeps x).1, (hkeeps x).2.1]
    exact h.owned x hx
  keyed := ⟨h.keyed.payloads, h.keyed.payloadKeys⟩
  sealed := h.sealed
  keys := h.keys
  locked := h.locked
  recorded := by
    intro p hp
    obtain ⟨e, he, horg, hhash⟩ := h.recorded p hp
    exact ⟨f e, List.mem_map_of_mem he, (hkeeps e).1.trans horg, (hkeeps e).2.2.trans hhash⟩
  stored := by
    intro e he
    obtain ⟨x, hx, rfl⟩ := List.mem_map.mp he
    rw [(hkeeps x).1, (hkeeps x).2.2]
    exact h.stored x hx

/-- What items leave for those after them : outputs of these ids, and traces of the
organisation. -/
structure Taken (db : Db) (org : Org) (ids : List Uuid) (db' : Db) : Prop where
  unjudged : Unjudged db' org
  traces : ∀ t ∈ db'.traces, t ∈ db.traces ∨ t.orgId = org.id
  ids_eq : db'.events.map Event.id = db.events.map Event.id ++ ids

theorem Taken.trans {db db₁ db' : Db} {ids ids' : List Uuid} (h : Taken db org ids db₁)
    (h' : Taken db₁ org ids' db') : Taken db org (ids ++ ids') db' where
  unjudged := h'.unjudged
  traces t ht := by
    rcases h'.traces t ht with ht | horg
    · exact h.traces t ht
    · exact Or.inr horg
  ids_eq := by rw [h'.ids_eq, h.ids_eq, List.append_assoc]

/-- An item that fits still does after others, where its ids are not theirs. -/
theorem Taken.fits {db db' : Db} {ids : List Uuid} (h : Taken db org ids db') {item : Dict}
    {fresh : GateFresh} (hfits : ItemFits db org item fresh) (hnew : fresh.output.eventId ∉ ids) :
    ItemFits db' org item fresh where
  trace := by
    obtain ⟨traceId, hread, htrace⟩ := hfits.trace
    refine ⟨traceId, hread, fun t ht hid => ?_⟩
    rcases h.traces t ht with ht | horg
    · exact htrace t ht hid
    · exact horg
  named := hfits.named
  texts := hfits.texts
  id x hx heq := by
    have hmem : x.id ∈ db'.events.map Event.id := List.mem_map_of_mem hx
    rw [h.ids_eq, List.mem_append] at hmem
    rcases hmem with hmem | hmem
    · obtain ⟨y, hy, hyid⟩ := List.mem_map.mp hmem
      exact hfits.id y hy (hyid.trans heq)
    · exact hnew (heq ▸ hmem)

theorem graftItem_returns (h : Unjudged db org) (svc : SigningKeyPair) {device : SdkDevice}
    {item payload : Dict} (claim : OfflineClaim) {fresh : GateFresh}
    (hfits : ItemFits db org item fresh) (hpayload : item.get "output" = .obj payload)
    (hdevice : textOk device.deviceId = true) :
    ∃ db' out, graftItem svc db org device item claim fresh = .ok (db', out) ∧
      db'.devices = db.devices ∧ Taken db org [fresh.output.eventId] db' := by
  obtain ⟨traceId, hread, htrace⟩ := hfits.trace
  obtain ⟨db₁, gate, e, hgate, htaken⟩ := runGate_unjudged h svc payload hfits htrace
  obtain ⟨decided, e', hwrites⟩ := runGate_writes hgate
  have happart := (runGate_apart hgate hwrites).output
  obtain ⟨ts, ps, ks, hdb₁⟩ := htaken.rows
  have hevents : db₁.events = db.events ++ [e] := by rw [hdb₁]
  obtain ⟨hbefore, he⟩ := List.append_inj' (hevents.symm.trans hwrites.events_eq) rfl
  obtain rfl := List.singleton_inj.mp he
  rw [← hbefore] at happart
  have hmark := markDeferred_returns hevents happart claim.occurredAt ⟨hdevice, hfits.texts.2⟩
  rw [hwrites.orgId_eq, hwrites.traceId_eq, hwrites.seq_eq] at hmark
  refine ⟨{ db₁ with events := db₁.events.map (deferRow e.id claim.occurredAt device.deviceId
    (clientSignature item)) }, graftOut item claim gate, ?_, ?_⟩
  · rw [graftItem, hread, Except.ok_bind', hpayload]
    simp only [hgate, Except.ok_bind']
    rw [show (itemGate org item payload traceId).org.id = org.id from rfl] at hmark
    rw [hmark]
    rfl
  · have hkeeps := deferRow_keeps e.id claim.occurredAt device.deviceId (clientSignature item)
    refine ⟨?_, ⟨htaken.stocked.mark fun x => (hkeeps x).2, ?_, ?_, ?_⟩, htaken.traces, ?_⟩
    · rw [hdb₁]
    · rw [hdb₁]
      exact h.there
    · rw [hdb₁]
      exact h.policy
    · rw [hdb₁]
      exact h.wraps
    · rw [List.map_map, hevents, List.map_append, List.map_singleton]
      refine congrArg₂ (· ++ ·) (List.map_congr_left fun x _ => (hkeeps x).1) ?_
      rw [Function.comp_apply, (hkeeps e).1, htaken.id_eq]

/-- The ids of the outputs from an index on. -/
def outputIds (fresh : Nat → GateFresh) (index count : Nat) : List Uuid :=
  (List.range' index count).map fun i => (fresh i).output.eventId

/-- The items from an index on, given ids that are new. -/
theorem graftItems_returns (svc : SigningKeyPair) {device : SdkDevice}
    (hdevice : textOk device.deviceId = true) {fresh : Nat → GateFresh} :
    ∀ {verified : List (Dict × OfflineClaim)} {index : Nat} {db : Db}, Unjudged db org →
      (outputIds fresh index verified.length).Nodup →
      (∀ i (hi : i < verified.length), ItemFits db org verified[i].1 (fresh (index + i)) ∧
        ∃ payload, verified[i].1.get "output" = .obj payload) →
      ∃ db' outs, graftItems svc org device fresh index db verified = .ok (db', outs) ∧
        db'.devices = db.devices ∧ Taken db org (outputIds fresh index verified.length) db'
  | [], _, db, h, _, _ => ⟨db, [], rfl, rfl, h, fun _ ht => Or.inl ht, (List.append_nil _).symm⟩
  | (item, claim) :: rest, index, db, h, hdistinct, hfits => by
    have hids : outputIds fresh index (rest.length + 1) =
        (fresh index).output.eventId :: outputIds fresh (index + 1) rest.length := by
      rw [outputIds, List.range'_succ, List.map_cons, outputIds]
    rw [List.length_cons, hids, List.nodup_cons] at hdistinct
    obtain ⟨hitem, payload, hpayload⟩ := hfits 0 (by simp)
    have hfirst : ItemFits db org item (fresh index) := hitem
    obtain ⟨db₁, out, hgraft, hdevices, htaken⟩ :=
      graftItem_returns h svc claim hfirst hpayload hdevice
    have hrest (i : Nat) (hi : i < rest.length) :
        ItemFits db₁ org rest[i].1 (fresh (index + 1 + i)) ∧
          ∃ payload, rest[i].1.get "output" = .obj payload := by
      obtain ⟨hlater, hobj⟩ := hfits (i + 1) (by simpa using hi)
      rw [Nat.add_assoc, Nat.add_comm 1 i]
      refine ⟨htaken.fits hlater fun hmem => hdistinct.1 ?_, hobj⟩
      rw [← List.mem_singleton.mp hmem]
      refine List.mem_map_of_mem (f := fun i => (fresh i).output.eventId) ?_
      rw [List.mem_range'_1]
      omega
    obtain ⟨db', outs, hgrafts, hdevices', h'⟩ :=
      graftItems_returns svc hdevice htaken.unjudged hdistinct.2 hrest
    refine ⟨db', out :: outs, ?_, hdevices'.trans hdevices, ?_⟩
    · simp only [graftItems, hgraft, hgrafts, Except.ok_bind', Except.pure_eq]
    · rw [List.length_cons, hids]
      exact htaken.trans h'

/-- An organisation without a policy has every segment recorded that verifies and whose items
name an action and a trace that is free or its own. -/
theorem graftOfflineSegment_returns (args : GraftArgs) (fresh : GraftFresh)
    (h : Unjudged db args.org) (svc : SigningKeyPair) {device : SdkDevice}
    (hfound : db.deviceOf args.org.id args.deviceId = .ok (some device))
    (hlive : device.revoked = false) (hdevice : textOk device.deviceId = true)
    {verified : List (Dict × OfflineClaim)}
    (hverified : verifySegment device args.items = .ok verified)
    (hdistinct : (outputIds fresh.gate 0 verified.length).Nodup)
    (hfits : ∀ i (hi : i < verified.length), ItemFits db args.org verified[i].1 (fresh.gate i)) :
    ∃ db' outs, graftOfflineSegment svc db args fresh = .ok (db', outs) ∧
      db'.devices = (db.touchDevice device.id fresh.now).devices ∧
        Taken db args.org (outputIds fresh.gate 0 verified.length) db' := by
  obtain ⟨-, hverifies, -⟩ := verifyItems_eq_ok hverified
  have hall (i : Nat) (hi : i < verified.length) :
      ItemFits db args.org verified[i].1 (fresh.gate (0 + i)) ∧
        ∃ payload, verified[i].1.get "output" = .obj payload := by
    rw [Nat.zero_add]
    obtain ⟨payload, hitem⟩ := hverifies verified[i] (List.getElem_mem hi)
    exact ⟨hfits i hi, payload, hitem.output_eq⟩
  obtain ⟨db', outs, hgraft, hdevices, htaken⟩ := graftItems_returns svc hdevice h hdistinct hall
  refine ⟨db'.touchDevice device.id fresh.now, outs, ?_, ?_, ?_⟩
  · simp only [graftOfflineSegment, hfound, Except.ok_bind', hlive, Bool.not_false, require,
      if_true, hverified, hgraft, Except.pure_eq]
  · rw [Db.touchDevice, Db.touchDevice, hdevices]
  · have hstocked := htaken.unjudged.stocked
    exact ⟨⟨⟨hstocked.orgs, hstocked.managed, hstocked.traces, hstocked.owned,
      ⟨hstocked.keyed.payloads, hstocked.keyed.payloadKeys⟩, hstocked.sealed, hstocked.keys,
      hstocked.locked, hstocked.recorded, hstocked.stored⟩, htaken.unjudged.there,
      htaken.unjudged.policy, htaken.unjudged.wraps⟩, htaken.traces, htaken.ids_eq⟩

end Graft

/-! ## Segments of one claim each -/

theorem textOk_hex (b : Bytes) : textOk (Bytes.hex b) = true := by
  have hdigit {n : Nat} (h : n < 16) : Bytes.hexDigit n ≠ Char.ofNat 0 := by
    interval_cases n <;> decide
  have hchars : ∀ b : Bytes, ∀ c ∈ Bytes.hexChars b, c ≠ Char.ofNat 0 := by
    intro b
    induction b with
    | nil => exact fun c hc => absurd hc List.not_mem_nil
    | cons x b ih =>
      intro c hc
      have hx : x.toNat < 256 := x.toNat_lt
      rcases List.mem_cons.mp hc with rfl | hc
      · exact hdigit (by omega)
      rcases List.mem_cons.mp hc with rfl | hc
      · exact hdigit (by omega)
      · exact ih c hc
  rw [textOk, Bytes.hex, String.toList_ofList, Bool.not_eq_true', List.contains_eq_mem,
    decide_eq_false_iff_not]
  exact fun hmem => hchars b _ hmem rfl

section Samples

open Sample

namespace Sample

/-- A record of the sample device, submitted for a trace. -/
def submitted (r : OfflineRecord) (traceId : JVal) : Dict :=
  sampleItem r ++ [("trace_id", traceId)]

theorem submitted_verifies (r : OfflineRecord) (traceId : JVal) (lastSeenAt : Option String) :
    ItemVerifies { sampleDevice with lastSeenAt := lastSeenAt } (submitted r traceId) r.payload
      (r.claim "device-1") where
  output_eq := rfl
  localSeq_eq := rfl
  claim_eq := rfl
  payloadHash_eq := rfl
  signature_ok := verifyHex_sign SignatureScheme.ideal_transparent sampleDeviceKey.isEd25519 _

/-- The sample database after such segments were recorded. -/
structure Served (db : Db) (ids : List Uuid) : Prop where
  unjudged : Unjudged db sampleOrg
  devices : ∃ lastSeenAt, db.devices = [{ sampleDevice with lastSeenAt := lastSeenAt }]
  traces : ∀ t ∈ db.traces, t.orgId = "acme"
  ids_eq : db.events.map Event.id = ids

theorem served_sample : Served sampleDevices [] where
  unjudged := by
    have hbare : sampleDevices.Bare := ⟨by decide, by simp [sampleDevices, sampleBlank, Db.empty],
      rfl, rfl, rfl, rfl, rfl, rfl, rfl⟩
    exact ⟨hbare.stocked, rfl, rfl, by decide⟩
  devices := ⟨none, rfl⟩
  traces := nofun
  ids_eq := rfl

/-- A record of the sample device is accepted in a trace that is given. -/
theorem Served.submit {db : Db} {ids : List Uuid} (h : Served db ids) (r : OfflineRecord)
    (traceId : JVal) (n : Nat) {target : Option Uuid}
    (htrace : itemTrace (submitted r traceId) = .ok target)
    (hnamed : PyText.isBlank r.action = false) (haction : textOk r.action = true)
    (hnew : Uuid.ofNat n ∉ ids) :
    ∃ lastSeenAt db' outs,
      db.deviceOf "acme" "device-1" = .ok (some { sampleDevice with lastSeenAt := lastSeenAt }) ∧
      verifySegment { sampleDevice with lastSeenAt := lastSeenAt } [submitted r traceId] =
        .ok [(submitted r traceId, r.claim "device-1")] ∧
      graftOfflineSegment sampleKey db (sampleSegment (submitted r traceId) n).args
        (sampleSegment (submitted r traceId) n).fresh = .ok (db', outs) ∧
      Served db' (ids ++ [Uuid.ofNat n]) := by
  obtain ⟨lastSeenAt, hdevices⟩ := h.devices
  have hfound : db.deviceOf "acme" "device-1" =
      .ok (some { sampleDevice with lastSeenAt := lastSeenAt }) := by
    rw [Db.deviceOf, hdevices]
    rfl
  have hverified : verifySegment { sampleDevice with lastSeenAt := lastSeenAt }
      [submitted r traceId] = .ok [(submitted r traceId, r.claim "device-1")] := by
    refine verifyItems_iff.mpr ⟨rfl, fun v hv => ?_, nofun, List.isChain_singleton _⟩
    obtain rfl := List.mem_singleton.mp hv
    exact ⟨_, submitted_verifies r traceId lastSeenAt⟩
  have hdevice : textOk "device-1" = true := by decide
  obtain ⟨db', outs, hgraft, hdevices', htaken⟩ := graftOfflineSegment_returns
    (sampleSegment (submitted r traceId) n).args (sampleSegment (submitted r traceId) n).fresh
    h.unjudged sampleKey hfound rfl hdevice hverified (List.nodup_singleton _) fun i hi => by
      obtain rfl : i = 0 := by simpa using hi
      refine ⟨⟨target, htrace, fun t ht _ => h.traces t ht⟩, hnamed, ⟨haction, textOk_hex _⟩,
        fun x hx heq => hnew ?_⟩
      have hid : x.id = Uuid.ofNat n := heq
      rw [← h.ids_eq, ← hid]
      exact List.mem_map_of_mem hx
  refine ⟨_, db', outs, hfound, hverified, hgraft, htaken.unjudged, ?_, fun t ht => ?_, ?_⟩
  · refine ⟨some (sampleSegment (submitted r traceId) n).fresh.now, hdevices'.trans ?_⟩
    rw [Db.touchDevice, hdevices]
    rfl
  · rcases htaken.traces t ht with ht | horg
    · exact h.traces t ht
    · exact horg
  · rw [htaken.ids_eq, h.ids_eq]
    rfl

/-- One claim, submitted twice. -/
def resubmitted : List GraftCall :=
  [sampleSegment (submitted sampleRecord .null) 21, sampleSegment (submitted sampleRecord .null) 31]

/-- The claim is the one read of its submission. -/
theorem readItem_submitted {r : OfflineRecord} {traceId : JVal} {index : Nat} {payload : Dict}
    {claim : OfflineClaim}
    (h : readItem "device-1" index (submitted r traceId) = .ok (payload, claim)) :
    payload = r.payload ∧ claim = r.claim "device-1" := by
  have hread := (submitted_verifies r traceId none).readItem_eq index
  obtain ⟨hpayload, hclaim⟩ := Prod.mk.inj (Except.ok.inj (hread.symm.trans h))
  exact ⟨hpayload.symm, hclaim.symm⟩

end Sample

theorem collisionFree_resubmitted :
    CollisionFreeOn (claimsHashed (sampleRecord.claim "device-1") resubmitted) := by
  have hone (b : Bytes) (hb : b ∈ claimsHashed (sampleRecord.claim "device-1") resubmitted) :
      b = canonicalBytes (sampleRecord.claim "device-1").toDict := by
    rcases hb with hb | ⟨call, hcall, item, hitem, payload, claim, hread, hb⟩
    · exact hb
    · obtain rfl : item = submitted sampleRecord .null := by
        rcases List.mem_cons.mp hcall with rfl | hcall
        · exact List.mem_singleton.mp hitem
        · obtain rfl := List.mem_singleton.mp hcall
          exact List.mem_singleton.mp hitem
      rw [hb, (readItem_submitted hread).2]
  exact collisionFreeOn_of_subsingleton fun b hb b' hb' => (hone b hb).trans (hone b' hb').symm

/-- A claim that was submitted twice has two output events. -/
theorem outputs_per_submission_sample :
    (resubmitted.foldl (GraftCall.after sampleKey) sampleDevices).outputsOf "acme"
      sampleDeviceKey.publicPem (sampleRecord.claim "device-1") = 2 := by
  have hsubmits {db db' : Db} {outs : List GraftOut} {n : Nat}
      (hgraft : graftOfflineSegment sampleKey db
        (sampleSegment (submitted sampleRecord .null) n).args
        (sampleSegment (submitted sampleRecord .null) n).fresh = .ok (db', outs)) :
      (sampleSegment (submitted sampleRecord .null) n).submits sampleKey db "acme"
        (sampleRecord.claim "device-1") = 1 ∧
      (sampleSegment (submitted sampleRecord .null) n).after sampleKey db = db' := by
    have hmakes : makesClaim (sampleRecord.claim "device-1") (submitted sampleRecord .null) =
        true := by
      have hread := (submitted_verifies sampleRecord .null none).readItem_eq 0
      have hread' : readItem (sampleRecord.claim "device-1").deviceId 0
          (submitted sampleRecord .null) = .ok (sampleRecord.payload,
            sampleRecord.claim "device-1") := hread
      simp only [makesClaim, hread', decide_true]
    refine ⟨?_, by rw [GraftCall.after, hgraft]⟩
    rw [GraftCall.submits, hgraft]
    exact (if_pos ⟨rfl, rfl⟩).trans (by rw [sampleSegment, List.countP_singleton, if_pos hmakes])
  obtain ⟨-, db₁, outs₁, -, -, hgraft₁, hserved₁⟩ := served_sample.submit sampleRecord .null 21 rfl
    (by decide) (by decide) List.not_mem_nil
  obtain ⟨-, db₂, outs₂, -, -, hgraft₂, -⟩ := hserved₁.submit sampleRecord .null 31 rfl (by decide)
    (by decide) (by decide)
  refine (outputs_per_submission SignatureScheme.ideal_transparent deviceHolds_sample resubmitted
    collisionFree_resubmitted).trans ?_
  have hfirst := hsubmits hgraft₁
  have hsecond := hsubmits hgraft₂
  rw [resubmitted, submissionsOf, hfirst.1, hfirst.2, submissionsOf, hsecond.1, hsecond.2,
    submissionsOf]
  rfl

/-- One claim relayed into two traces is recorded with one content and one time. -/
theorem same_signature_same_facts_sample : ∃ e e' : Event, e.payloadHash = e'.payloadHash ∧
    e.occurredAt = e'.occurredAt ∧ e.type = e'.type := by
  obtain ⟨-, db₁, outs₁, -, -, hgraft₁, hserved₁⟩ := served_sample.submit sampleRecord .null 21 rfl
    (by decide) (by decide) List.not_mem_nil
  obtain ⟨-, db₂, outs₂, -, -, hgraft₂, -⟩ := hserved₁.submit sampleRecord .null 31 rfl (by decide)
    (by decide) (by decide)
  obtain ⟨e, he⟩ := exists_outputFor hgraft₁ (List.mem_singleton_self _)
  obtain ⟨e', he'⟩ := exists_outputFor hgraft₂ (List.mem_singleton_self _)
  have hkey₁ : db₁.DeviceHolds "acme" "device-1" sampleDeviceKey.publicPem := by
    obtain ⟨lastSeenAt, hdevices⟩ := hserved₁.devices
    intro d hd _ _
    rw [hdevices, List.mem_singleton] at hd
    rw [hd]
    rfl
  have hcontents : CollisionFreeOn (contentsHashed "device-1" (submitted sampleRecord .null)
      (submitted sampleRecord .null)) := by
    refine collisionFreeOn_of_subsingleton ?_
    rintro b ⟨i, hi, payload, claim, hread, rfl⟩ b' ⟨i', hi', payload', claim', hread', rfl⟩
    obtain rfl : i = submitted sampleRecord .null := hi.elim id id
    obtain rfl : i' = submitted sampleRecord .null := hi'.elim id id
    rw [(readItem_submitted hread).1, (readItem_submitted hread').1]
  have hclaims : CollisionFreeOn (claimsSigned "device-1" (submitted sampleRecord .null)
      (submitted sampleRecord .null)) := by
    refine collisionFreeOn_of_subsingleton ?_
    rintro b ⟨i, hi, payload, claim, hread, rfl⟩ b' ⟨i', hi', payload', claim', hread', rfl⟩
    obtain rfl : i = submitted sampleRecord .null := hi.elim id id
    obtain rfl : i' = submitted sampleRecord .null := hi'.elim id id
    rw [(readItem_submitted hread).2, (readItem_submitted hread').2]
  obtain ⟨-, hhash, htime, htype⟩ := same_signature_same_facts SignatureScheme.ideal_transparent
    he he' ⟨rfl, rfl⟩ deviceHolds_sample hkey₁ rfl hcontents hclaims
  exact ⟨e, e', hhash, htime, htype rfl rfl⟩

end Samples

end Attest
