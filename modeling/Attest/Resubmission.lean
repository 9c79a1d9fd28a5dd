import Attest.Decisions
import Attest.Grafting
import Attest.Vault
import Mathlib.Data.List.Sort

/-!
# Segments that are submitted again

A device drops a record once it has read the answer to its submission, so a segment that
was accepted may come again, whole or in part. The service keeps nothing to tell it by :
the items of a segment that is accepted each get an output event of their own, and those
of a refused one none. A claim has as many output events as accepted submissions of it
(`outputs_per_submission`).

Submissions of one signature agree in what the claim covers : the content, the time and
the action the device signed (`same_signature_same_facts`). The trace an item names is
not of the claim, and each submission may name another.
-/

set_option linter.unusedSectionVars false

namespace Attest

/-! ## Redaction and the order of keys -/

section Redaction

variable [PyUnicode]

theorem fst_redactItems (items : Dict) :
    (redactItems items).1 = items.map fun item => (item.1, (redactValue item.2).1) := by
  induction items with
  | nil => rfl
  | cons item rest ih =>
    obtain ⟨k, v⟩ := item
    simp only [redactItems, List.map_cons, ih]

theorem sortItems_redactItems (items : Dict) :
    JVal.sortItems (redactItems items).1 = (redactItems (JVal.sortItems items)).1 := by
  rw [fst_redactItems, fst_redactItems, JVal.sortItems, JVal.sortItems]
  exact (List.map_insertionSort (r := fun a b : String × JVal => a.1 ≤ b.1)
    (s := fun a b : String × JVal => a.1 ≤ b.1) (fun item => (item.1, (redactValue item.2).1))
    items fun _ _ _ _ => Iff.rfl).symm

mutual
/-- Redaction and the sorting of keys go past each other. -/
theorem sortKeys_redactValue : ∀ v : JVal, (redactValue v).1.sortKeys = (redactValue v.sortKeys).1
  | .null => rfl
  | .bool _ => rfl
  | .int _ => rfl
  | .float _ => rfl
  | .str _ => by simp only [redactValue, JVal.sortKeys]
  | .arr items => by simp only [redactValue, JVal.sortKeys, sortKeys_redactList items]
  | .obj items => by
    simp only [redactValue, JVal.sortKeys, sortKeys_redactItems items, sortItems_redactItems]

theorem sortKeys_redactList : ∀ vs : List JVal,
    JVal.sortKeysList (redactList vs).1 = (redactList (JVal.sortKeysList vs)).1
  | [] => rfl
  | v :: vs => by
    simp only [redactList, JVal.sortKeysList, sortKeys_redactValue v, sortKeys_redactList vs]

theorem sortKeys_redactItems : ∀ items : List (String × JVal),
    JVal.sortKeysItems (redactItems items).1 = (redactItems (JVal.sortKeysItems items)).1
  | [] => rfl
  | (k, v) :: rest => by
    simp only [redactItems, JVal.sortKeysItems, sortKeys_redactValue v, sortKeys_redactItems rest]
end

/-- Payloads that differ in the order of keys alone have one fingerprint. -/
theorem redactPayload_hash_eq {p q : Dict} (h : (JVal.obj p).sortKeys = (JVal.obj q).sortKeys) :
    sha256Hex (redactPayload p).1 = sha256Hex (redactPayload q).1 := by
  have hp := sortKeys_redactValue (.obj p)
  have hq := sortKeys_redactValue (.obj q)
  have hobj (r : Dict) : (redactValue (.obj r)).1 = .obj (redactPayload r).1 := rfl
  rw [h, ← hq, hobj, hobj] at hp
  rw [sha256Hex, sha256Hex, canonicalBytes_inj.mpr hp]

end Redaction

/-! ## What a claim is told by -/

section Signed

variable [SignatureScheme]

/-- Claims under one signature of one key have one digest. -/
theorem digest_eq_of_signature (hideal : SignatureScheme.Ideal) {pair : SigningKeyPair}
    {c c' : OfflineClaim} {signature : String}
    (h : verifyHex pair.publicPem (offlineClaimHash c) signature = .ok true)
    (h' : verifyHex pair.publicPem (offlineClaimHash c') signature = .ok true) :
    sha256 (canonicalBytes c.toDict) = sha256 (canonicalBytes c'.toDict) := by
  obtain ⟨m, hm, hs⟩ := eq_sign_of_verifyHex hideal pair.isEd25519 h
  obtain ⟨m', hm', hs'⟩ := eq_sign_of_verifyHex hideal pair.isEd25519 h'
  rw [hs, Option.some.injEq] at hs'
  obtain ⟨-, rfl⟩ := hideal.sign_inj pair.isEd25519 pair.isEd25519 hs'
  rw [offlineClaimHash, fromHex_sha256Hex, Option.some.injEq] at hm hm'
  exact hm.trans hm'.symm

theorem offlineClaimHash_eq_of_bytes {c c' : OfflineClaim}
    (h : canonicalBytes c.toDict = canonicalBytes c'.toDict) :
    offlineClaimHash c = offlineClaimHash c' := by
  rw [offlineClaimHash, offlineClaimHash, sha256Hex, sha256Hex, h]

end Signed

section Grafted

variable [SignatureScheme] [KeyWrapping] [PyUnicode] [IsoReader] {svc : SigningKeyPair}

/-! ## The rows of a gate call -/

/-- An event is recorded under a number that no row of its trace has. -/
theorem recordEvent_apart {db db' : Db} {args : RecordArgs} {fresh : Fresh} {out : EventOut}
    (h : recordEvent svc db args fresh = .ok (db', out)) :
    ∃ e, db'.events = db.events ++ [e] ∧
      ∀ y ∈ db.events, y.traceId = e.traceId → y.seq ≠ e.seq := by
  obtain ⟨trace, last, d, -, -, -, -, hcommit⟩ := recordEvent_stages h
  obtain ⟨db₁, hopen, hinsert⟩ := Except.bind_eq_ok.mp hcommit
  obtain ⟨ts, rfl⟩ := insertOpened_eq_ok hopen
  obtain ⟨-, hfree, ps, ks, rfl⟩ := Draft.insert_eq_ok hinsert
  exact ⟨d.event, rfl, hfree⟩

/-- A decision is not marked as deferred, and has a number of its own. -/
theorem PrecheckWrites.apart {db : Db} {args : PrecheckArgs} {fresh : PrecheckFresh} {x : Event}
    (h : PrecheckWrites svc db args fresh x) : x.deferred = false ∧
      ∀ y ∈ db.events, y.orgId = x.orgId → y.traceId = x.traceId → y.seq ≠ x.seq := by
  obtain ⟨db', d, hrun, hevents⟩ := h
  obtain ⟨policy, features, -, -, hend⟩ := runPrecheck_cases hrun
  have hadds : ∃ payload e added, PrecheckAdds db args fresh db' d payload e added := by
    rcases hend with ⟨-, detail, e, hadds⟩ | ⟨output, -, hconcluded⟩
    · exact ⟨_, e, _, hadds⟩
    · obtain ⟨e, event, -, hadds⟩ := hconcluded.adds
      exact ⟨_, e, _, hadds⟩
  obtain ⟨payload, e, added, hadds⟩ := hadds
  obtain ⟨ts, ps, ks, rfl⟩ := hadds.rows
  obtain rfl : e = x := by simpa using hevents
  refine ⟨hadds.records.deferred_eq, fun y hy horg htrace => ?_⟩
  have hlt := lt_nextSeq hy (horg.trans hadds.records.orgId_eq)
    (htrace.trans hadds.records.traceId_eq)
  have hseq : e.seq = args.seq := hadds.records.seq_eq
  rw [hseq, hadds.next]
  exact ne_of_lt hlt

/-- The rows of a gate call have numbers of their own. -/
structure GateApart (db : Db) (decided : List Event) (e : Event) : Prop where
  decision : ∀ x ∈ decided, x.deferred = false ∧
    ∀ y ∈ db.events, y.orgId = x.orgId → y.traceId = x.traceId → y.seq ≠ x.seq
  output : ∀ y ∈ db.events ++ decided, y.traceId = e.traceId → y.seq ≠ e.seq

theorem runGate_apart {db db' : Db} {args : GateArgs} {fresh : GateFresh} {out : GateOut}
    {decided : List Event} {e : Event} (h : runGate svc db args fresh = .ok (db', out))
    (hwrites : GateWrites svc db args fresh db' out decided e) : GateApart db decided e := by
  obtain ⟨db₀, hopened, hdecided⟩ := hwrites.decided_of
  obtain ⟨ts, rfl⟩ := getOrCreateTrace_eq_ok hopened
  refine ⟨fun x hx => (hdecided x hx).apart, ?_⟩
  simp only [runGate, Except.bind_eq_ok] at h
  obtain ⟨_, -, _, -, ⟨db₂, decision⟩, -, h⟩ := h
  -- With a decision or without, what follows the output leaves the events.
  have hrecord : ∃ version db₃ event,
      recordOutput svc db₂ args (gateTrace args fresh) version fresh.output = .ok (db₃, event) ∧
        db'.events = db₃.events := by
    cases decision with
    | none =>
      simp only [Except.bind_eq_ok, Except.pure_eq, Except.ok.injEq, Prod.mk.injEq] at h
      obtain ⟨⟨db₃, event⟩, hrecord, rfl, -⟩ := h
      exact ⟨_, db₃, event, hrecord, rfl⟩
    | some d =>
      simp only [Except.bind_eq_ok, Except.pure_eq, Except.ok.injEq, Prod.mk.injEq] at h
      obtain ⟨⟨db₃, event⟩, hrecord, db₄, hsettle, rfl, -⟩ := h
      obtain ⟨ss, rfl⟩ := settleSummaries_eq_ok hsettle
      exact ⟨_, db₃, event, hrecord, rfl⟩
  obtain ⟨version, db₃, event, hrecord, hevents⟩ := hrecord
  obtain ⟨e', he', hfree⟩ := recordEvent_apart hrecord
  rw [hwrites.events_eq, he'] at hevents
  obtain ⟨hrows, he⟩ := List.append_inj' hevents rfl
  obtain rfl := List.singleton_inj.mp he
  rw [hrows]
  exact hfree

/-! ## The rows of a segment -/

/-- The row of the output of an item, with what it holds of the item. -/
structure Defers (org : Org) (device : SdkDevice) (item : Dict) (claim : OfflineClaim) (e : Event) :
    Prop where
  orgId_eq : e.orgId = org.id
  deferred_eq : e.deferred = true
  deviceId_eq : e.clientDeviceId = some device.deviceId
  signature_eq : e.clientSignature = some (clientSignature item)
  occurredAt_eq : e.occurredAt = IsoReader.fromIsoFormat claim.occurredAt
  type_eq : e.type = PyText.str (item.getD "action" (.str "model_completion"))
  payload_eq : ∃ payload, item.get "output" = .obj payload ∧
    e.payloadHash = sha256Hex (redactPayload payload).1

/-- One round of a segment : its rows are the decision, if any, and the output. -/
theorem graftItem_defers {db db' : Db} {org : Org} {device : SdkDevice} {item : Dict}
    {claim : OfflineClaim} {fresh : GateFresh} {out : GraftOut}
    (h : graftItem svc db org device item claim fresh = .ok (db', out)) :
    ∃ decided e, db'.events = db.events ++ decided ++ [e] ∧ db'.devices = db.devices ∧
      GateApart db decided e ∧ Defers org device item claim e ∧
        e.traceId = out.gate.traceId ∧ e.seq = out.gate.outputSeq := by
  obtain ⟨decided, e, ⟨payload, traceId, db₁, gate, -, hpayload, hgate, hwrites, rfl, rfl⟩⟩ :=
    graftItem_eq_ok h
  have happart := runGate_apart hgate hwrites
  obtain ⟨⟨_, _, _, _, _, _, -, -, rfl⟩, -, -⟩ := runGate_eq_ok hgate
  exact ⟨decided, deferredOutput device item claim e, rfl, rfl,
    ⟨happart.decision, happart.output⟩,
    ⟨hwrites.orgId_eq, rfl, rfl, rfl, rfl, hwrites.type_eq, payload, hpayload,
      hwrites.payloadHash_eq⟩, hwrites.traceId_eq, hwrites.seq_eq⟩

theorem graftItems_devices {org : Org} {device : SdkDevice} {fresh : Nat → GateFresh} :
    ∀ {items : List (Dict × OfflineClaim)} {index : Nat} {db db' : Db} {outs : List GraftOut},
    graftItems svc org device fresh index db items = .ok (db', outs) → db'.devices = db.devices
  | [], _, _, _, _, h => by
    obtain ⟨rfl, -⟩ := Prod.mk.inj (Except.ok.inj h)
    rfl
  | (item, claim) :: rest, index, db, db', outs, h => by
    simp only [graftItems, Except.bind_eq_ok, Except.pure_eq, Except.ok.injEq, Prod.mk.injEq] at h
    obtain ⟨⟨db₁, out⟩, hitem, ⟨db₂, outs'⟩, hrest, rfl, -⟩ := h
    obtain ⟨_, _, -, hdevices, -⟩ := graftItem_defers hitem
    rw [graftItems_devices hrest, hdevices]

/-- The rows of a segment that pass a test are the outputs of the items that do. -/
theorem graftItems_countP {org : Org} {device : SdkDevice} {fresh : Nat → GateFresh}
    {p : Event → Bool} {q : Dict × OfflineClaim → Bool}
    (hp : ∀ x, x.deferred = false → p x = false) :
    ∀ {items : List (Dict × OfflineClaim)} {index : Nat} {db db' : Db} {outs : List GraftOut},
    (∀ v ∈ items, ∀ e, Defers org device v.1 v.2 e → p e = q v) →
    graftItems svc org device fresh index db items = .ok (db', outs) →
      db'.events.countP p = db.events.countP p + items.countP q
  | [], _, _, _, _, _, h => by
    obtain ⟨rfl, -⟩ := Prod.mk.inj (Except.ok.inj h)
    rfl
  | (item, claim) :: rest, index, db, db', outs, hpq, h => by
    simp only [graftItems, Except.bind_eq_ok, Except.pure_eq, Except.ok.injEq, Prod.mk.injEq] at h
    obtain ⟨⟨db₁, out⟩, hitem, ⟨db₂, outs'⟩, hrest, rfl, -⟩ := h
    obtain ⟨decided, e, hevents, -, happart, hdefers, -⟩ := graftItem_defers hitem
    have ih := graftItems_countP hp (fun v hv => hpq v (List.mem_cons_of_mem _ hv)) hrest
    have hdecided : decided.countP p = 0 :=
      List.countP_eq_zero.mpr fun x hx => by simp [hp x (happart.decision x hx).1]
    have he : p e = q (item, claim) := hpq _ List.mem_cons_self e hdefers
    rw [ih, hevents, List.countP_append, List.countP_append, hdecided, List.countP_singleton,
      List.countP_cons, he]
    omega

/-- A row stays the only one of its number while a segment is grafted. -/
theorem graftItems_row {org : Org} {device : SdkDevice} {fresh : Nat → GateFresh} :
    ∀ {items : List (Dict × OfflineClaim)} {index : Nat} {db db' : Db} {outs : List GraftOut},
    graftItems svc org device fresh index db items = .ok (db', outs) →
      ∀ y ∈ db.events, y.orgId = org.id → y ∈ db'.events ∧ ∀ x ∈ db'.events, x.orgId = y.orgId →
        x.traceId = y.traceId → x.seq = y.seq → x ∈ db.events
  | [], _, _, _, _, h, y, hy, _ => by
    obtain ⟨rfl, -⟩ := Prod.mk.inj (Except.ok.inj h)
    exact ⟨hy, fun x hx _ _ _ => hx⟩
  | (item, claim) :: rest, index, db, db', outs, h, y, hy, horg => by
    simp only [graftItems, Except.bind_eq_ok, Except.pure_eq, Except.ok.injEq, Prod.mk.injEq] at h
    obtain ⟨⟨db₁, out⟩, hitem, ⟨db₂, outs'⟩, hrest, rfl, -⟩ := h
    obtain ⟨decided, e, hevents, -, happart, -⟩ := graftItem_defers hitem
    have hy₁ : y ∈ db₁.events := by
      rw [hevents, List.append_assoc]
      exact List.mem_append_left _ hy
    obtain ⟨hmem, honly⟩ := graftItems_row hrest y hy₁ horg
    refine ⟨hmem, fun x hx hxorg htrace hseq => ?_⟩
    have hx₁ := honly x hx hxorg htrace hseq
    rw [hevents, List.mem_append, List.mem_append, List.mem_singleton] at hx₁
    rcases hx₁ with (hx₁ | hx₁) | rfl
    · exact hx₁
    · exact absurd hseq.symm ((happart.decision x hx₁).2 y hy hxorg.symm htrace.symm)
    · exact absurd hseq.symm (happart.output y (List.mem_append_left _ hy) htrace.symm)

/-- The answer to an item names its row. -/
theorem graftItems_output {org : Org} {device : SdkDevice} {fresh : Nat → GateFresh} :
    ∀ {items : List (Dict × OfflineClaim)} {index : Nat} {db db' : Db} {outs : List GraftOut},
    graftItems svc org device fresh index db items = .ok (db', outs) →
      ∀ {i : Nat} {item : Dict} {claim : OfflineClaim} {out : GraftOut},
        items[i]? = some (item, claim) → outs[i]? = some out →
          ∃ e ∈ db'.events, Defers org device item claim e ∧
            (e.traceId = out.gate.traceId ∧ e.seq = out.gate.outputSeq) ∧
              ∀ x ∈ db'.events, x.orgId = org.id → x.traceId = out.gate.traceId →
                x.seq = out.gate.outputSeq → x = e
  | [], _, _, _, _, _, i, _, _, _, hi, _ => by cases hi
  | (item, claim) :: rest, index, db, db', outs, h, i, item', claim', out', hi, hout => by
    simp only [graftItems, Except.bind_eq_ok, Except.pure_eq, Except.ok.injEq, Prod.mk.injEq] at h
    obtain ⟨⟨db₁, out⟩, hitem, ⟨db₂, outs'⟩, hrest, rfl, rfl⟩ := h
    cases i with
    | succ i => exact graftItems_output hrest hi hout
    | zero =>
      obtain ⟨rfl, rfl⟩ := Prod.mk.inj (Option.some.inj hi)
      obtain rfl := Option.some.inj hout
      obtain ⟨decided, e, hevents, -, happart, hdefers, htrace, hseq⟩ := graftItem_defers hitem
      have he : e ∈ db₁.events := by
        rw [hevents]
        exact List.mem_append_right _ (List.mem_singleton_self e)
      obtain ⟨hmem, honly⟩ := graftItems_row hrest e he hdefers.orgId_eq
      refine ⟨e, hmem, hdefers, ⟨htrace, hseq⟩, fun x hx hxorg hxtrace hxseq => ?_⟩
      have hx₁ := honly x hx (hxorg.trans hdefers.orgId_eq.symm) (hxtrace.trans htrace.symm)
        (hxseq.trans hseq.symm)
      rw [hevents, List.mem_append, List.mem_singleton] at hx₁
      rcases hx₁ with hx₁ | rfl
      · exact absurd (hxseq.trans hseq.symm) (happart.output x hx₁ (hxtrace.trans htrace.symm))
      · rfl

/-! ## Submissions -/

/-- A segment a device hands in. -/
structure GraftCall where
  args : GraftArgs
  fresh : GraftFresh

/-- The database after a submission : what it wrote, or the one before where it was refused
and rolled back. -/
def GraftCall.after (svc : SigningKeyPair) (db : Db) (call : GraftCall) : Db :=
  match graftOfflineSegment svc db call.args call.fresh with
  | .ok (db', _) => db'
  | .error _ => db

/-- Every row of a device has the key. -/
def Db.DeviceHolds (db : Db) (orgId deviceId publicPem : String) : Prop :=
  ∀ d ∈ db.devices, d.orgId = orgId → d.deviceId = deviceId → d.publicPem = publicPem

/-- What an accepted submission did. -/
structure Accepted (svc : SigningKeyPair) (db : Db) (call : GraftCall) (db' : Db)
    (outs : List GraftOut) (device : SdkDevice) (verified : List (Dict × OfflineClaim)) (db₁ : Db) :
    Prop where
  device_mem : device ∈ db.devices
  device_orgId : device.orgId = call.args.org.id
  device_deviceId : device.deviceId = call.args.deviceId
  items_eq : verified.map Prod.fst = call.args.items
  verifies : ∀ v ∈ verified, ∃ payload, ItemVerifies device v.1 payload v.2
  grafted : graftItems svc call.args.org device call.fresh.gate 0 db verified = .ok (db₁, outs)
  db_eq : db' = db₁.touchDevice device.id call.fresh.now

theorem graftOfflineSegment_eq_ok {db db' : Db} {call : GraftCall} {outs : List GraftOut}
    (h : graftOfflineSegment svc db call.args call.fresh = .ok (db', outs)) :
    ∃ device verified db₁, Accepted svc db call db' outs device verified db₁ := by
  obtain ⟨found, hfound, h⟩ := Except.bind_eq_ok.mp h
  cases found with
  | none => cases h
  | some device =>
    simp only [Except.bind_eq_ok, Except.pure_eq, Except.ok.injEq, Prod.mk.injEq] at h
    obtain ⟨_, -, verified, hverified, ⟨db₁, outs'⟩, hitems, rfl, rfl⟩ := h
    have hmem := mem_of_oneOrNone hfound
    simp only [List.mem_filter, decide_eq_true_eq] at hmem
    obtain ⟨hitemsEq, hall, -, -⟩ := verifyItems_eq_ok hverified
    exact ⟨device, verified, db₁, hmem.1, hmem.2.1, hmem.2.2, hitemsEq, hall, hitems, rfl⟩

theorem GraftCall.after_deviceHolds {db : Db} {orgId deviceId publicPem : String}
    (h : db.DeviceHolds orgId deviceId publicPem) (call : GraftCall) :
    (call.after svc db).DeviceHolds orgId deviceId publicPem := by
  unfold GraftCall.after
  cases hgraft : graftOfflineSegment svc db call.args call.fresh with
  | error _ => exact h
  | ok r =>
    obtain ⟨device, verified, db₁, haccepted⟩ := graftOfflineSegment_eq_ok hgraft
    have hdevices := graftItems_devices haccepted.grafted
    rintro d hd horg hid
    simp only [haccepted.db_eq, Db.touchDevice, List.mem_map] at hd
    obtain ⟨d', hd', rfl⟩ := hd
    rw [hdevices] at hd'
    split at horg <;> rename_i hsame
    · simp only [hsame, if_true] at hid ⊢
      exact h d' hd' horg hid
    · simp only [hsame, if_false] at hid ⊢
      exact h d' hd' horg hid

/-! ## How often a claim is recorded -/

/-- An output event of the claim : it is marked as deferred, from the device of the claim,
and under a signature of it. -/
def Event.holds (orgId publicPem : String) (c : OfflineClaim) (e : Event) : Bool :=
  e.orgId = orgId && e.deferred && e.clientDeviceId = some c.deviceId &&
    match e.clientSignature with
    | some signature => verifyHex publicPem (offlineClaimHash c) signature = .ok true
    | none => false

/-- How many output events of the claim there are, over all traces. -/
def Db.outputsOf (db : Db) (orgId publicPem : String) (c : OfflineClaim) : Nat :=
  db.events.countP (Event.holds orgId publicPem c)

/-- The item makes the claim. -/
def makesClaim (c : OfflineClaim) (item : Dict) : Bool :=
  match readItem c.deviceId 0 item with
  | .ok (_, c') => canonicalBytes c'.toDict = canonicalBytes c.toDict
  | .error _ => false

/-- How many items of a submission make the claim, none where it is refused. -/
def GraftCall.submits (svc : SigningKeyPair) (db : Db) (orgId : String) (c : OfflineClaim)
    (call : GraftCall) : Nat :=
  match graftOfflineSegment svc db call.args call.fresh with
  | .ok _ =>
    if call.args.org.id = orgId ∧ call.args.deviceId = c.deviceId then
      call.args.items.countP (makesClaim c)
    else 0
  | .error _ => 0

/-- The same over a sequence of submissions. -/
def submissionsOf (svc : SigningKeyPair) (orgId : String) (c : OfflineClaim) :
    Db → List GraftCall → Nat
  | _, [] => 0
  | db, call :: calls =>
    call.submits svc db orgId c + submissionsOf svc orgId c (call.after svc db) calls

/-- What is hashed for the claim and for the items of the submissions. -/
def claimsHashed (c : OfflineClaim) (calls : List GraftCall) : Set Bytes :=
  {b | b = canonicalBytes c.toDict ∨ ∃ call ∈ calls, ∃ item ∈ call.args.items,
    ∃ payload c', readItem c.deviceId 0 item = .ok (payload, c') ∧ b = canonicalBytes c'.toDict}

theorem claimsHashed_mono {c : OfflineClaim} {calls calls' : List GraftCall}
    (h : ∀ call ∈ calls, call ∈ calls') : claimsHashed c calls ⊆ claimsHashed c calls' :=
  fun _ hb => hb.imp id fun ⟨call, hcall, hitem⟩ => ⟨call, h call hcall, hitem⟩

theorem ItemVerifies.readItem_eq {device : SdkDevice} {item payload : Dict} {claim : OfflineClaim}
    (h : ItemVerifies device item payload claim) (index : Nat) :
    readItem device.deviceId index item = .ok (payload, claim) := by
  rw [readItem, h.output_eq]
  simp only [h.localSeq_eq, Except.ok_bind', Except.pure_eq]
  rw [← h.claim_eq]

/-- A submission adds an output event of the claim for every item that makes it. -/
theorem GraftCall.outputs_after (hideal : SignatureScheme.Ideal) {pair : SigningKeyPair} {db : Db}
    {orgId : String} {c : OfflineClaim} (hkey : db.DeviceHolds orgId c.deviceId pair.publicPem)
    {call : GraftCall} (hfree : CollisionFreeOn (claimsHashed c [call])) :
    (call.after svc db).outputsOf orgId pair.publicPem c =
      db.outputsOf orgId pair.publicPem c + call.submits svc db orgId c := by
  unfold GraftCall.after GraftCall.submits
  cases hgraft : graftOfflineSegment svc db call.args call.fresh with
  | error _ => rfl
  | ok r =>
    obtain ⟨device, verified, db₁, haccepted⟩ := graftOfflineSegment_eq_ok hgraft
    have hrows : r.1.events = db₁.events := by rw [haccepted.db_eq]; rfl
    have hundeferred : ∀ x : Event, x.deferred = false →
        x.holds orgId pair.publicPem c = false := by
      intro x hx
      simp [Event.holds, hx]
    by_cases hmine : call.args.org.id = orgId ∧ call.args.deviceId = c.deviceId
    · obtain ⟨horg, hid⟩ := hmine
      have hpem : device.publicPem = pair.publicPem :=
        hkey device haccepted.device_mem (haccepted.device_orgId.trans horg)
          (haccepted.device_deviceId.trans hid)
      have hdevice : device.deviceId = c.deviceId := haccepted.device_deviceId.trans hid
      -- The output of an item is of the claim exactly where the item makes it.
      have hcount : ∀ v ∈ verified, ∀ e, Defers call.args.org device v.1 v.2 e →
          e.holds orgId pair.publicPem c = makesClaim c v.1 := by
        intro v hv e he
        obtain ⟨payload, hverifies⟩ := haccepted.verifies v hv
        have hread := hverifies.readItem_eq 0
        rw [hdevice] at hread
        have hsigned := hverifies.signature_ok
        rw [hpem] at hsigned
        have hitem : v.1 ∈ call.args.items := by
          rw [← haccepted.items_eq]
          exact List.mem_map_of_mem hv
        rw [Bool.eq_iff_iff]
        simp only [Event.holds, makesClaim, hread, he.orgId_eq, he.deferred_eq, he.deviceId_eq,
          he.signature_eq, horg, hdevice, decide_true, Bool.true_and, decide_eq_true_eq]
        constructor
        · intro hholds
          have hmade : canonicalBytes v.2.toDict ∈ claimsHashed c [call] :=
            Or.inr ⟨call, List.mem_singleton_self call, v.1, hitem, payload, v.2, hread, rfl⟩
          have hclaim : canonicalBytes c.toDict ∈ claimsHashed c [call] := Or.inl rfl
          exact hfree.eq hmade hclaim (digest_eq_of_signature hideal hsigned hholds)
        · intro hsame
          rw [← offlineClaimHash_eq_of_bytes hsame]
          exact hsigned
      have hfold := graftItems_countP hundeferred hcount haccepted.grafted
      have hitems : call.args.items.countP (makesClaim c) =
          verified.countP fun v => makesClaim c v.1 := by
        rw [← haccepted.items_eq, List.countP_map]
        rfl
      simp only [horg, hid, and_self, if_true, Db.outputsOf, hrows, hitems]
      exact hfold
    · have hcount : ∀ v ∈ verified, ∀ e, Defers call.args.org device v.1 v.2 e →
          e.holds orgId pair.publicPem c = false := by
        intro v _ e he
        have hother : ¬ (device.orgId = orgId ∧ device.deviceId = c.deviceId) := by
          rwa [haccepted.device_orgId, haccepted.device_deviceId]
        by_contra hholds
        simp only [Event.holds, Bool.not_eq_false, Bool.and_eq_true, decide_eq_true_eq, he.orgId_eq,
          he.deviceId_eq, Option.some.injEq] at hholds
        exact hother ⟨haccepted.device_orgId.trans hholds.1.1.1, hholds.1.2⟩
      have hfold := graftItems_countP (q := fun _ => false) hundeferred hcount haccepted.grafted
      simp only [if_neg hmine, Db.outputsOf, hrows]
      rw [hfold, List.countP_false, Function.const_apply]

/-- A claim has as many output events more as items of accepted submissions made it. -/
theorem outputs_per_submission (hideal : SignatureScheme.Ideal) {pair : SigningKeyPair} {db : Db}
    {orgId : String} {c : OfflineClaim} (hkey : db.DeviceHolds orgId c.deviceId pair.publicPem)
    (calls : List GraftCall) (hfree : CollisionFreeOn (claimsHashed c calls)) :
    (calls.foldl (GraftCall.after svc) db).outputsOf orgId pair.publicPem c =
      db.outputsOf orgId pair.publicPem c + submissionsOf svc orgId c db calls := by
  induction calls generalizing db with
  | nil => rfl
  | cons call calls ih =>
    have hfirst : CollisionFreeOn (claimsHashed c [call]) :=
      hfree.mono (claimsHashed_mono fun x hx =>
        List.mem_cons.mpr (Or.inl (List.mem_singleton.mp hx)))
    have hrest : CollisionFreeOn (claimsHashed c calls) :=
      hfree.mono (claimsHashed_mono fun x hx => List.mem_cons_of_mem _ hx)
    rw [List.foldl_cons, ih (GraftCall.after_deviceHolds hkey call) hrest,
      GraftCall.outputs_after hideal hkey hfirst, submissionsOf]
    omega

/-! ## What the signature binds -/

/-- `e` is the row that the answer to an item names. -/
structure OutputFor (svc : SigningKeyPair) (db : Db) (call : GraftCall) (item : Dict) (e : Event) :
    Prop where
  answered : ∃ (db' : Db) (outs : List GraftOut) (i : Nat) (out : GraftOut),
    graftOfflineSegment svc db call.args call.fresh = .ok (db', outs) ∧
    call.args.items[i]? = some item ∧ outs[i]? = some out ∧ e ∈ db'.events ∧
      e.orgId = call.args.org.id ∧ e.traceId = out.gate.traceId ∧ e.seq = out.gate.outputSeq

theorem OutputFor.defers {db : Db} {call : GraftCall} {item : Dict} {e : Event}
    (h : OutputFor svc db call item e) : ∃ device claim payload,
      (device ∈ db.devices ∧ device.orgId = call.args.org.id ∧
        device.deviceId = call.args.deviceId) ∧
          ItemVerifies device item payload claim ∧ Defers call.args.org device item claim e := by
  obtain ⟨db', outs, i, out, hgraft, hitem, hout, hmem, horg, htrace, hseq⟩ := h.answered
  obtain ⟨device, verified, db₁, haccepted⟩ := graftOfflineSegment_eq_ok hgraft
  rw [← haccepted.items_eq, List.getElem?_map, Option.map_eq_some_iff] at hitem
  obtain ⟨⟨item', claim⟩, hi, rfl⟩ := hitem
  obtain ⟨payload, hverifies⟩ := haccepted.verifies _ (List.mem_of_getElem? hi)
  obtain ⟨e', -, hdefers, -, honly⟩ := graftItems_output haccepted.grafted hi hout
  rw [haccepted.db_eq] at hmem
  obtain rfl := honly e hmem horg htrace hseq
  exact ⟨device, claim, payload, ⟨haccepted.device_mem, haccepted.device_orgId,
    haccepted.device_deviceId⟩, hverifies, hdefers⟩

theorem length_graftItems {org : Org} {device : SdkDevice} {fresh : Nat → GateFresh} :
    ∀ {items : List (Dict × OfflineClaim)} {index : Nat} {db db' : Db} {outs : List GraftOut},
    graftItems svc org device fresh index db items = .ok (db', outs) → outs.length = items.length
  | [], _, _, _, _, h => by
    obtain ⟨-, rfl⟩ := Prod.mk.inj (Except.ok.inj h)
    rfl
  | (item, claim) :: rest, index, db, db', outs, h => by
    simp only [graftItems, Except.bind_eq_ok, Except.pure_eq, Except.ok.injEq, Prod.mk.injEq] at h
    obtain ⟨⟨db₁, out⟩, -, ⟨db₂, outs'⟩, hrest, -, rfl⟩ := h
    rw [List.length_cons, List.length_cons, length_graftItems hrest]

/-- Each item of an accepted submission has its row. -/
theorem exists_outputFor {db db' : Db} {call : GraftCall} {outs : List GraftOut} {item : Dict}
    (h : graftOfflineSegment svc db call.args call.fresh = .ok (db', outs))
    (hitem : item ∈ call.args.items) : ∃ e, OutputFor svc db call item e := by
  obtain ⟨device, verified, db₁, haccepted⟩ := graftOfflineSegment_eq_ok h
  obtain ⟨i, hi, hat⟩ := List.getElem_of_mem hitem
  have hat' : call.args.items[i]? = some item := List.getElem?_eq_some_iff.mpr ⟨hi, hat⟩
  have hverified := hat'
  rw [← haccepted.items_eq, List.getElem?_map, Option.map_eq_some_iff] at hverified
  obtain ⟨⟨_, claim⟩, hv, rfl⟩ := hverified
  have hlt : i < outs.length := by
    rw [length_graftItems haccepted.grafted]
    exact (List.getElem?_eq_some_iff.mp hv).1
  have hout : outs[i]? = some outs[i] := List.getElem?_eq_getElem hlt
  obtain ⟨e, hmem, hdefers, ⟨htrace, hseq⟩, -⟩ := graftItems_output haccepted.grafted hv hout
  have hmem' : e ∈ db'.events := by
    rw [haccepted.db_eq]
    exact hmem
  exact ⟨e, db', outs, i, outs[i], h, hat', hout, hmem', hdefers.orgId_eq, htrace, hseq⟩

/-- The contents that are hashed for two items. -/
def contentsHashed (deviceId : String) (item item' : Dict) : Set Bytes :=
  {b | ∃ i, (i = item ∨ i = item') ∧ ∃ payload c, readItem deviceId 0 i = .ok (payload, c) ∧
    b = canonicalBytes payload}

/-- The claims that are signed for two items. -/
def claimsSigned (deviceId : String) (item item' : Dict) : Set Bytes :=
  {b | ∃ i, (i = item ∨ i = item') ∧ ∃ payload c, readItem deviceId 0 i = .ok (payload, c) ∧
    b = canonicalBytes c.toDict}

/-- The outputs recorded for two items of one device under one signature hold the same
content and time, and the same action where both items name one. -/
theorem same_signature_same_facts (hideal : SignatureScheme.Ideal) {pair : SigningKeyPair}
    {db db' : Db} {call call' : GraftCall} {item item' : Dict} {e e' : Event}
    (h : OutputFor svc db call item e) (h' : OutputFor svc db' call' item' e')
    (hdevice : call'.args.org.id = call.args.org.id ∧ call'.args.deviceId = call.args.deviceId)
    (hkey : db.DeviceHolds call.args.org.id call.args.deviceId pair.publicPem)
    (hkey' : db'.DeviceHolds call.args.org.id call.args.deviceId pair.publicPem)
    (hsignature : clientSignature item = clientSignature item')
    (hcontents : CollisionFreeOn (contentsHashed call.args.deviceId item item'))
    (hclaims : CollisionFreeOn (claimsSigned call.args.deviceId item item')) :
    (∃ payload payload', item.get "output" = .obj payload ∧ item'.get "output" = .obj payload' ∧
      (JVal.obj payload).sortKeys = (JVal.obj payload').sortKeys) ∧
        e.payloadHash = e'.payloadHash ∧ e.occurredAt = e'.occurredAt ∧
          ((item.get? "action").isSome = true → (item'.get? "action").isSome = true →
            e.type = e'.type) := by
  obtain ⟨device, claim, payload, ⟨hmem, horg, hid⟩, hverifies, hdefers⟩ := h.defers
  obtain ⟨device', claim', payload', ⟨hmem', horg', hid'⟩, hverifies', hdefers'⟩ := h'.defers
  have hsigned := hverifies.signature_ok
  have hsigned' := hverifies'.signature_ok
  rw [hkey device hmem horg hid] at hsigned
  rw [hkey' device' hmem' (horg'.trans hdevice.1) (hid'.trans hdevice.2), ← hsignature] at hsigned'
  have hread := hverifies.readItem_eq 0
  have hread' := hverifies'.readItem_eq 0
  rw [hid] at hread
  rw [hid', hdevice.2] at hread'
  have hclaim := hclaims.eq ⟨item, Or.inl rfl, payload, claim, hread, rfl⟩
    ⟨item', Or.inr rfl, payload', claim', hread', rfl⟩
    (digest_eq_of_signature hideal hsigned hsigned')
  obtain ⟨⟨-, -, htime, haction, hhash⟩, -⟩ := OfflineClaim.toDict_inj hclaim
  rw [hverifies.claim_eq, hverifies'.claim_eq] at hhash haction
  have hpayload : (JVal.obj payload).sortKeys = (JVal.obj payload').sortKeys :=
    canonicalBytes_inj.mp (canonicalBytes_eq_of_sha256Hex_eq hcontents
      ⟨item, Or.inl rfl, payload, claim, hread, rfl⟩
      ⟨item', Or.inr rfl, payload', claim', hread', rfl⟩ hhash)
  obtain ⟨p, hp, hhashed⟩ := hdefers.payload_eq
  obtain ⟨p', hp', hhashed'⟩ := hdefers'.payload_eq
  obtain rfl : payload = p := JVal.obj.inj (hverifies.output_eq.symm.trans hp)
  obtain rfl : payload' = p' := JVal.obj.inj (hverifies'.output_eq.symm.trans hp')
  refine ⟨⟨payload, payload', hp, hp', hpayload⟩, ?_, ?_, ?_⟩
  · rw [hhashed, hhashed', redactPayload_hash_eq hpayload]
  · rw [hdefers.occurredAt_eq, hdefers'.occurredAt_eq, htime]
  · intro hnamed hnamed'
    obtain ⟨action, hnamed⟩ := Option.isSome_iff_exists.mp hnamed
    obtain ⟨action', hnamed'⟩ := Option.isSome_iff_exists.mp hnamed'
    rw [hdefers.type_eq, hdefers'.type_eq]
    simpa [buildOfflineClaim, Dict.getD, hnamed, hnamed'] using haction

end Grafted

/-! ## A claim submitted twice -/

section Samples

open Sample

/-- One organisation with a device, and nothing else. -/
def sampleDevices : Db := { sampleBlank with devices := [sampleDevice] }

/-- The segment of one claim, to be grafted in a trace of its own unless it names one. -/
def sampleSegment (item : Dict) (n : Nat) : GraftCall where
  args := ⟨sampleOrg, "device-1", [item]⟩
  fresh := {
    gate := fun _ => {
      traceId := Uuid.ofNat n
      precheck := ⟨sampleFresh, Uuid.ofNat n, ⟨Uuid.ofNat n, 0⟩, []⟩
      output := sampleFreshOf n }
    now := "2025-01-02T00:00:00+00:00" }

theorem deviceHolds_sample :
    sampleDevices.DeviceHolds "acme" "device-1" sampleDeviceKey.publicPem := by
  intro d hd _ _
  rw [List.mem_singleton.mp hd]
  rfl

end Samples

end Attest
