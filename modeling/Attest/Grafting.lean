import Attest.Offline

/-!
# What grafting leaves

Every item of an accepted segment is a gate call, whose output event is then marked as
deferred, with what the device claimed of it (`graftItem_eq_ok`). The rows that were there
stay as they are, and each event after them is of the round of one item
(`graftOfflineSegment_events`).
-/

set_option linter.unusedSectionVars false

namespace Attest

section Graft

variable [SignatureScheme] [KeyWrapping] [PyUnicode] [IsoReader] {svc : SigningKeyPair}
  {org : Org} {device : SdkDevice}

/-- The output event of an item, once it is marked. -/
def deferredOutput (device : SdkDevice) (item : Dict) (claim : OfflineClaim) (e : Event) : Event :=
  e.defer (IsoReader.fromIsoFormat claim.occurredAt) device.deviceId (clientSignature item)

/-- What an item left : its gate call ran, and its output is marked. -/
structure ItemWrites (svc : SigningKeyPair) (db : Db) (org : Org) (device : SdkDevice) (item : Dict)
    (claim : OfflineClaim) (fresh : GateFresh) (db' : Db) (out : GraftOut) (decided : List Event)
    (e : Event) : Prop where
  gated : ∃ payload traceId db₁ gate, itemTrace item = .ok traceId ∧
    item.get "output" = .obj payload ∧
    runGate svc db (itemGate org item payload traceId) fresh = .ok (db₁, gate) ∧
    GateWrites svc db (itemGate org item payload traceId) fresh db₁ gate decided e ∧
    db' = { db₁ with events := db.events ++ decided ++ [deferredOutput device item claim e] } ∧
    out = graftOut item claim gate

/-- The row an update marks is the one just written. -/
theorem markDeferred_output {db db' : Db} {before : List Event} {e : Event}
    {occurredAt deviceId signature : String} (hevents : db.events = before ++ [e])
    (hnew : ∀ x ∈ before, x.id ≠ e.id)
    (h : markDeferred db e.orgId e.traceId e.seq occurredAt deviceId signature = .ok db') :
    db' = { db with events := before ++
      [e.defer (IsoReader.fromIsoFormat occurredAt) deviceId signature] } := by
  obtain ⟨found, hfound, h⟩ := Except.bind_eq_ok.mp h
  have hmem : e ∈ db.events.filter fun x =>
      x.orgId = e.orgId ∧ x.traceId = e.traceId ∧ x.seq = e.seq := by
    rw [hevents]
    simp
  obtain rfl := eq_of_oneOrNone hfound hmem
  obtain ⟨_, -, hdb⟩ := Except.bind_eq_ok.mp h
  obtain rfl := Except.ok.inj hdb
  have hothers : ∀ x ∈ before, (if x.id = e.id then
      x.defer (IsoReader.fromIsoFormat occurredAt) deviceId signature else x) = id x := by
    intro x hx
    rw [if_neg (hnew x hx), id]
  rw [hevents, List.map_append, List.map_congr_left hothers, List.map_id, List.map_singleton,
    if_pos rfl]

theorem graftItem_eq_ok {db db' : Db} {item : Dict} {claim : OfflineClaim}
    {fresh : GateFresh} {out : GraftOut}
    (h : graftItem svc db org device item claim fresh = .ok (db', out)) :
    ∃ decided e, ItemWrites svc db org device item claim fresh db' out decided e := by
  obtain ⟨traceId, htrace, h⟩ := Except.bind_eq_ok.mp h
  split at h
  · rename_i payload hpayload
    simp only [Except.bind_eq_ok, Except.pure_eq, Except.ok.injEq, Prod.mk.injEq] at h
    obtain ⟨⟨db₁, gate⟩, hgate, db₂, hmark, rfl, rfl⟩ := h
    obtain ⟨decided, e, hwrites⟩ := runGate_writes hgate
    have horg : e.orgId = org.id := hwrites.orgId_eq
    simp only [← horg, ← hwrites.traceId_eq, ← hwrites.seq_eq] at hmark
    have hdb := markDeferred_output hwrites.events_eq hwrites.new hmark
    exact ⟨decided, e, ⟨payload, traceId, db₁, gate, htrace, hpayload, hgate, hwrites, hdb, rfl⟩⟩
  · cases h

/-- Where an event of a segment comes from : the round of its item, after those of the
items before. -/
structure SegmentEvent (svc : SigningKeyPair) (db : Db) (org : Org) (device : SdkDevice)
    (fresh : Nat → GateFresh) (index : Nat) (items : List (Dict × OfflineClaim)) (x : Event) :
    Prop where
  round : ∃ before item claim after db₁ outs db₂ out decided e,
    items = before ++ (item, claim) :: after ∧
    graftItems svc org device fresh index db before = .ok (db₁, outs) ∧
    ItemWrites svc db₁ org device item claim (fresh (index + before.length)) db₂ out decided e ∧
    (x ∈ decided ∨ x = deferredOutput device item claim e)

theorem graftItems_events {fresh : Nat → GateFresh} {items : List (Dict × OfflineClaim)}
    {index : Nat} {db db' : Db} {outs : List GraftOut}
    (h : graftItems svc org device fresh index db items = .ok (db', outs)) :
    ∃ es, db'.events = db.events ++ es ∧
      ∀ x ∈ es, SegmentEvent svc db org device fresh index items x := by
  induction items generalizing index db outs with
  | nil =>
    obtain ⟨rfl, -⟩ := Prod.mk.inj (Except.ok.inj h)
    exact ⟨[], (List.append_nil _).symm, by simp⟩
  | cons entry rest ih =>
    obtain ⟨item, claim⟩ := entry
    simp only [graftItems, Except.bind_eq_ok, Except.pure_eq, Except.ok.injEq, Prod.mk.injEq] at h
    obtain ⟨⟨db₁, out⟩, hitem, ⟨db₂, outs'⟩, hrest, rfl, -⟩ := h
    obtain ⟨decided, e, hwrites⟩ := graftItem_eq_ok hitem
    have hevents : db₁.events =
        db.events ++ (decided ++ [deferredOutput device item claim e]) := by
      obtain ⟨_, _, _, _, -, -, -, -, rfl, -⟩ := hwrites.gated
      rw [List.append_assoc]
    obtain ⟨es, hes, hcome⟩ := ih hrest
    refine ⟨decided ++ [deferredOutput device item claim e] ++ es, ?_, ?_⟩
    · rw [hes, hevents, List.append_assoc, List.append_assoc]
    · intro x hx
      rcases List.mem_append.mp hx with hx | hx
      · refine ⟨[], item, claim, rest, db, [], db₁, out, decided, e, rfl, rfl, hwrites, ?_⟩
        simpa using hx
      · obtain ⟨before, item', claim', after, db₃, outs₃, db₄, out', decided', e', rfl, hbefore,
          hround, hcomes⟩ := (hcome x hx).round
        refine ⟨(item, claim) :: before, item', claim', after, db₃, out :: outs₃, db₄,
          out', decided', e', rfl, ?_, ?_, hcomes⟩
        · simp only [graftItems, hitem, hbefore, Except.ok_bind', Except.pure_eq]
        · have hindex : index + ((item, claim) :: before).length = index + 1 + before.length := by
            rw [List.length_cons]
            omega
          rw [hindex]
          exact hround

/-- The events of a segment that was accepted. -/
theorem graftOfflineSegment_events {db db' : Db} {args : GraftArgs} {fresh : GraftFresh}
    {outs : List GraftOut} (h : graftOfflineSegment svc db args fresh = .ok (db', outs)) :
    ∃ device verified es, db.deviceOf args.org.id args.deviceId = .ok (some device) ∧
      verifySegment device args.items = .ok verified ∧ db'.events = db.events ++ es ∧
      ∀ x ∈ es, SegmentEvent svc db args.org device fresh.gate 0 verified x := by
  obtain ⟨found, hfound, h⟩ := Except.bind_eq_ok.mp h
  cases found with
  | none => cases h
  | some device =>
    simp only [Except.bind_eq_ok, Except.pure_eq, Except.ok.injEq, Prod.mk.injEq] at h
    obtain ⟨_, -, verified, hverified, ⟨db₁, outs'⟩, hitems, rfl, -⟩ := h
    obtain ⟨es, hes, hcome⟩ := graftItems_events hitems
    exact ⟨device, verified, es, hfound, hverified, hes, hcome⟩

end Graft

end Attest
