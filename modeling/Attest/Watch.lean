import Attest.Settings
import Attest.SourceText

/-!
# The watch over official sources

`checkSource` fetches a source of a pack and `supplyText` takes its text from a person;
both hand the text to `evaluateSnapshot`, which tells a change of the source from a
passing variant, keeps the text as the snapshot, and confirms in it the citations that the
latest version of the pack declares as candidates (`extractConfirmations`). What is
confirmed is published as a new version (`publishConfirmations`, `upsertPack`).

A call that raises is rolled back with all it wrote.
-/

set_option linter.unusedSectionVars false

namespace Attest

/-! ## Rows -/

/-- A version of a pack, with the columns that findings do not read. -/
structure PackVersion extends RegulationPack where
  name : String
  /-- `VARCHAR(32)`. -/
  version : String
  instrumentNotes : Option String
  effectiveDate : Option String
deriving DecidableEq

/-- `auto` or `manual`. -/
inductive CheckMode where
  | auto
  | manual
deriving DecidableEq

/-- A row of `regulation_sources`. Times are in microseconds. -/
structure RegulationSource where
  packCode : String
  url : String
  contentHash : Option String
  pendingHash : Option String
  snapshot : Option String
  lastCheckedAt : Option Int
  retiredAt : Option Int
  nextCheckAt : Option Int
  lastStatus : Option String
  lastError : Option String
  consecutiveFailures : Nat
  checkMode : CheckMode
  attestedBy : Option String
  attestedAt : Option Int
  attestationNote : Option String
deriving DecidableEq

inductive ChangeType where
  | textSupplied
  | sourceRecovered
  | sourceDrift
  | sourceBlocked
  | sourceUnavailable
  | provisionConfirmed
  | fetchFailed
  | sourceGone
deriving DecidableEq

inductive ChangeStatus where
  | quarantined
  | autoPublished
  | dismissed
  | actioned
deriving DecidableEq

/-- A row of `regulation_changes`. -/
structure RegulationChange where
  packCode : String
  url : String
  changeType : ChangeType
  status : ChangeStatus
  summary : String
  evidence : Dict
  beforeHash : Option String
  afterHash : Option String
  publishedVersion : Option String
deriving DecidableEq

structure WatchDb where
  packs : List PackVersion
  sources : List RegulationSource
  changes : List RegulationChange
deriving DecidableEq

/-- The source of a pack, never checked : `RegulationSource(pack_code=.., url=..)`. -/
def RegulationSource.new (packCode url : String) : RegulationSource where
  packCode := packCode
  url := url
  contentHash := none
  pendingHash := none
  snapshot := none
  lastCheckedAt := none
  retiredAt := none
  nextCheckAt := none
  lastStatus := none
  lastError := none
  consecutiveFailures := 0
  checkMode := .auto
  attestedBy := none
  attestedAt := none
  attestationNote := none

/-- The texts of a row can be stored. -/
def RegulationSource.textsOk (s : RegulationSource) : Bool :=
  optTextOk s.snapshot && optTextOk s.lastError && optTextOk s.attestedBy &&
    optTextOk s.attestationNote

namespace WatchDb

/-- The row of a source : `UNIQUE(pack_code, url)`. -/
def getSource (db : WatchDb) (packCode url : String) : Option RegulationSource :=
  db.sources.find? fun s => s.packCode = packCode ∧ s.url = url

def withSource (db : WatchDb) (source : RegulationSource) : WatchDb :=
  { db with sources := db.sources.map fun s =>
      if s.packCode = source.packCode ∧ s.url = source.url then source else s }

/-- The row of a source is written. -/
def putSource (db : WatchDb) (source : RegulationSource) : Except PyError WatchDb := do
  require source.textsOk .dataError
  return db.withSource source

def withChange (db : WatchDb) (change : RegulationChange) : WatchDb :=
  { db with changes := db.changes ++ [change] }

/-- `_record_change(db, ..)`. -/
def recordChange (db : WatchDb) (change : RegulationChange) : Except PyError WatchDb := do
  require (textOk change.summary) .dataError
  return db.withChange change

/-- `latest_pack_by_code(db, code)`. -/
def latestPack (db : WatchDb) (code : String) : Option PackVersion :=
  latestBy (fun p => p.createdAt) (db.packs.filter fun p => p.code = code)

/-- The row of a version of a pack. -/
def getVersion (db : WatchDb) (code version : String) : Option PackVersion :=
  db.packs.find? fun p => p.code = code ∧ p.version = version

end WatchDb

/-! ## Publishing a version -/

/-- What `upsert_pack` reads of a document. -/
structure PackDoc where
  code : String
  jurisdiction : String
  jurisdictions : JVal
  sectors : JVal
  name : String
  version : String
  instrument : String
  instrumentNotes : Option String
  sourceUrl : Option String
  effectiveDate : Option String
  verificationStatus : String
  schemaVersion : JVal
  engine : JVal
  rules : JVal

structure PackFresh where
  id : Uuid
  createdAt : Int

section Upsert

variable [PyUnicode]

/-- `rules_doc`. -/
def PackDoc.rulesDoc (doc : PackDoc) : Dict :=
  [("schema_version", doc.schemaVersion),
    ("engine", doc.engine),
    ("rules", doc.rules),
    ("jurisdictions", doc.jurisdictions.orElse (.arr [.str doc.jurisdiction])),
    ("sectors", doc.sectors.orElse (.arr [.str "*"]))]

/-- The row of a version that was there. -/
def PackDoc.refresh (doc : PackDoc) (p : PackVersion) : PackVersion :=
  { p with name := doc.name, instrument := doc.instrument, instrumentNotes := doc.instrumentNotes,
           sourceUrl := doc.sourceUrl, effectiveDate := doc.effectiveDate,
           verificationStatus := doc.verificationStatus, rules := .obj doc.rulesDoc }

/-- The row of a new version. -/
def PackDoc.row (doc : PackDoc) (fresh : PackFresh) : PackVersion where
  id := fresh.id
  code := doc.code
  jurisdiction := doc.jurisdiction
  instrument := doc.instrument
  sourceUrl := doc.sourceUrl
  verificationStatus := doc.verificationStatus
  rules := .obj doc.rulesDoc
  createdAt := fresh.createdAt
  name := doc.name
  version := doc.version
  instrumentNotes := doc.instrumentNotes
  effectiveDate := doc.effectiveDate

/-- The texts of a row that `upsert_pack` writes can be stored. -/
def PackDoc.textsOk (doc : PackDoc) : Bool :=
  textOk doc.name && textOk doc.instrument && optTextOk doc.instrumentNotes &&
    optTextOk doc.sourceUrl && doc.effectiveDate.all versionOk && versionOk doc.verificationStatus

/-- `upsert_pack(db, doc)`. -/
def upsertPack (db : WatchDb) (doc : PackDoc) (fresh : PackFresh) : Except PyError WatchDb :=
  match db.getVersion doc.code doc.version with
  | some existing => do
    require doc.textsOk .dataError
    return { db with packs := db.packs.map fun p =>
      if p.id = existing.id then doc.refresh p else p }
  | none => do
    require (doc.textsOk && textOk doc.code && versionOk doc.jurisdiction && versionOk doc.version)
      .dataError
    require (!db.packs.any fun p => p.id = fresh.id) .integrityError
    return { db with packs := db.packs ++ [doc.row fresh] }

end Upsert

/-! ## Extraction -/

section Watch

variable [PyUnicode] [PyCasefold]

/-- `doc.get("rules", [])`, as a loop reads it. -/
def iterRules (doc : Dict) : Except PyError (List JVal) :=
  match doc.getD "rules" (.arr []) with
  | .arr rules => .ok rules
  | .obj items => .ok (items.map fun item => .str item.1)
  | .str text => .ok (text.toList.map fun c => .str (String.singleton c))
  | _ => .error .typeError

/-- `pack.rules if isinstance(pack.rules, dict) else {}`. -/
def PackVersion.doc (pack : PackVersion) : Dict :=
  match pack.rules with
  | .obj doc => doc
  | _ => []

/-- The id and the candidate of a rule that is a candidate and is in the text. -/
def confirmable (snapshot : String) : JVal → Option (String × String)
  | .obj rule =>
    if (Dict.get rule "provision_candidate").truthy && (Dict.get rule "id").truthy &&
        !(Dict.get rule "provision").truthy &&
        appearsVerbatim (PyText.str (Dict.get rule "provision_candidate")) snapshot then
      some (PyText.str (Dict.get rule "id"), PyText.str (Dict.get rule "provision_candidate"))
    else none
  | _ => none

/-- `extract_confirmations(pack, snapshot)`. -/
def extractConfirmations (pack : PackVersion) (snapshot : String) :
    Except PyError (List (String × String)) := do
  let rules ← iterRules pack.doc
  return dictOf (rules.filterMap (confirmable snapshot))

/-- `REPRODUCIBILITY_RUNS`. -/
def reproducibilityRuns : Nat := 3

/-- `reproducible(extract)`. -/
def reproducible (extract : Except PyError (List (String × String))) :
    Except PyError (List (String × String) × Bool) := do
  let results ← (List.replicate reproducibilityRuns extract).mapM id
  let first := results.headD []
  return (first, results.tail.all fun r => r = first)

/-! ## Confirmations -/

/-- What `strftime('%Y%m%d%H%M%S')` gives. -/
structure VersionStamp where
  text : String
  length_eq : text.length = 14
  digits : text.toList.all Char.isDigit = true

/-- What a call takes from the clock and from `uuid4`. -/
structure WatchFresh where
  /-- Microseconds. -/
  now : Int
  nowIso : String
  stamp : VersionStamp
  pack : PackFresh

/-- `_published_status(source)`. -/
def publishedStatus (source : RegulationSource) : String :=
  if source.checkMode = .manual then "attested_verified" else "source_verified"

/-- The marker of a version. -/
def versionMarker (source : RegulationSource) : String :=
  if source.checkMode = .manual then "av" else "sv"

/-- The version that a publication makes. -/
def publishedVersion (pack : PackVersion) (source : RegulationSource) (fresh : WatchFresh) :
    String :=
  pack.version ++ "+" ++ versionMarker source ++ fresh.stamp.text

/-- A rule with a citation filled in. -/
def filledRule (rule : Dict) (citation url confirmedAt : String) : Dict :=
  setItem (setItem (setItem rule ("provision", .str citation)) ("provision_source", .str url))
    ("provision_confirmed_at", .str confirmedAt)

/-- A rule of the document that is published. An id that cannot be hashed raises. -/
def confirmRule (confirmed : List (String × String)) (url confirmedAt : String) :
    JVal → Except PyError JVal
  | .obj rule =>
    match Dict.get rule "id" with
    | .arr _ | .obj _ => .error .typeError
    | .str id =>
      match confirmed.find? fun item => item.1 = id with
      | some item => .ok (.obj (filledRule rule item.2 url confirmedAt))
      | none => .ok (.obj rule)
    | _ => .ok (.obj rule)
  | rule => .ok rule

/-- The document that is published. -/
def confirmedDoc (pack : PackVersion) (rules : List JVal) (source : RegulationSource)
    (fresh : WatchFresh) : PackDoc where
  code := pack.code
  jurisdiction := pack.jurisdiction
  jurisdictions := (pack.doc.get "jurisdictions").orElse (.arr [.str pack.jurisdiction])
  sectors := (pack.doc.get "sectors").orElse (.arr [.str "*"])
  name := pack.name
  version := publishedVersion pack source fresh
  instrument := pack.instrument
  instrumentNotes := pack.instrumentNotes
  sourceUrl := pack.sourceUrl
  effectiveDate := pack.effectiveDate
  verificationStatus := publishedStatus source
  schemaVersion := pack.doc.getD "schema_version" (.int 2)
  engine := pack.doc.getD "engine" (.str "json")
  rules := .arr rules

/-- `_publish_confirmations(db, pack, confirmed, source)`, with the version. -/
def publishConfirmations (db : WatchDb) (pack : PackVersion) (confirmed : List (String × String))
    (source : RegulationSource) (fresh : WatchFresh) : Except PyError (WatchDb × String) := do
  let rules ← iterRules pack.doc
  let rules ← rules.mapM (confirmRule confirmed source.url fresh.nowIso)
  let db ← upsertPack db (confirmedDoc pack rules source fresh) fresh.pack
  return (db, publishedVersion pack source fresh)

/-- `{key: value, ..}` of texts. -/
def textDict (items : List (String × String)) : JVal :=
  .obj (items.map fun item => (item.1, .str item.2))

/-- The change that says what was published. -/
def publishedChange (source : RegulationSource) (confirmed : List (String × String))
    (newHash version : String) : RegulationChange where
  packCode := source.packCode
  url := source.url
  changeType := .provisionConfirmed
  status := .autoPublished
  summary := "Confirmed " ++ toString confirmed.length ++ " provision citation(s) verbatim " ++
    "against the official source and published " ++ version ++ "." ++
    (if source.checkMode = .manual then
      " Provenance is a human attestation, not a fetch by Attest (" ++
        source.attestedBy.getD "None" ++ ")."
    else "")
  evidence := [
    ("gates_passed", .arr [.str "provenance", .str "verbatim", .str "reproducibility"]),
    ("provenance", .str (if source.checkMode = .manual then "attestation" else "fetched")),
    ("attested_by", optStr source.attestedBy),
    ("confirmed", textDict confirmed),
    ("verification_status", .str (publishedStatus source))]
  beforeHash := none
  afterHash := some newHash
  publishedVersion := some version

/-- The change that keeps what was confirmed back. -/
def quarantinedChange (source : RegulationSource) (summary : String) (evidence : Dict)
    (newHash : String) : RegulationChange where
  packCode := source.packCode
  url := source.url
  changeType := .provisionConfirmed
  status := .quarantined
  summary := summary
  evidence := evidence
  beforeHash := none
  afterHash := some newHash
  publishedVersion := none

/-- The last part of `_evaluate_snapshot` : what is confirmed is published, where the gates
and the caller allow. -/
def settleConfirmations (db : WatchDb) (pack : PackVersion) (source : RegulationSource)
    (confirmed : List (String × String)) (isReproducible autoPublish : Bool) (newHash : String)
    (fresh : WatchFresh) : Except PyError (WatchDb × List RegulationChange) :=
  if confirmed.isEmpty then .ok (db, [])
  else if !isReproducible then do
    let change := quarantinedChange source
      "Extraction was not reproducible across runs; not published."
      [("gate", .str "reproducibility"), ("candidates", textDict confirmed)] newHash
    let db ← db.recordChange change
    return (db, [change])
  else if autoPublish then do
    let (db, version) ← publishConfirmations db pack confirmed source fresh
    let change := publishedChange source confirmed newHash version
    let db ← db.recordChange change
    return (db, [change])
  else do
    let change := quarantinedChange source
      (toString confirmed.length ++ " citation(s) provable; auto-publish is off.")
      [("confirmed", textDict confirmed)] newHash
    let db ← db.recordChange change
    return (db, [change])

/-! ## Evaluation -/

/-- The characters of a text that are kept as the snapshot. -/
def snapshotLimit : Nat := 200000

def snapshotOf (text : String) : String :=
  String.ofList (text.toList.take snapshotLimit)

/-- The change that says the source is another. -/
def driftChange (source : RegulationSource) (text : String) (previousHash newHash : String) :
    RegulationChange where
  packCode := source.packCode
  url := source.url
  changeType := .sourceDrift
  status := .quarantined
  summary := "The official source text changed, confirmed across two consecutive sweeps. Rule " ++
    "content is never auto-updated from a changed source — review what changed and publish a " ++
    "new pack version if the obligations moved."
  evidence := [("reason", .str "interpretation required"), ("snapshot_bytes", .int text.length)]
  beforeHash := some previousHash
  afterHash := some newHash
  publishedVersion := none

/-- The hash the content of a source had, where it has another now. -/
def movedFrom (source : RegulationSource) (newHash : String) : Option String :=
  source.contentHash.filter fun previous => previous ≠ newHash

/-- The drift is told, if there is one. -/
def tellDrift (db : WatchDb) (source : RegulationSource) (text : String)
    (moved : Option String) (newHash : String) : Except PyError (WatchDb × List RegulationChange) :=
  match moved with
  | none => .ok (db, [])
  | some previousHash => do
    let change := driftChange source text previousHash newHash
    let db ← db.recordChange change
    return (db, [change])

/-- The source with a text as its snapshot. -/
def RegulationSource.settled (source : RegulationSource) (text : String) : RegulationSource :=
  { source with pendingHash := none, snapshot := some (snapshotOf text),
                contentHash := some (Attest.contentHash text) }

/-- `_evaluate_snapshot(db, source, text, auto_publish, confirm_drift)`. -/
def evaluateSnapshot (db : WatchDb) (source : RegulationSource) (text : String)
    (autoPublish confirmDrift : Bool) (fresh : WatchFresh) :
    Except PyError (WatchDb × List RegulationChange) :=
  let newHash := contentHash text
  let moved := movedFrom source newHash
  if moved.isSome && confirmDrift && source.pendingHash ≠ some newHash then do
    -- the next check has to see it again
    let db ← db.putSource { source with pendingHash := some newHash }
    return (db, [])
  else do
    let source := source.settled text
    let db ← db.putSource source
    match db.latestPack source.packCode with
    | none => return (db, [])
    | some pack => do
      let (db, drift) ← tellDrift db source text moved newHash
      let (confirmed, isReproducible) ← reproducible (extractConfirmations pack (snapshotOf text))
      let (db, confirmations) ←
        settleConfirmations db pack source confirmed isReproducible autoPublish newHash fresh
      return (db, drift ++ confirmations)

/-! ## Checking a source -/

/-- What the fetcher did : it raised, or it answered with a status code and a text. -/
inductive FetchOutcome where
  | raised (message : String)
  | answered (statusCode : Int) (text : String)

/-- `CHECK_INTERVAL_SECONDS`, as it is by default, in microseconds. -/
def checkInterval : Int := 24 * 60 * 60 * 1000000

/-- `MANUAL_RETRY_SECONDS`, as it is by default, in microseconds. -/
def manualRetry : Int := 7 * 24 * 60 * 60 * 1000000

/-- `PERSISTENT_FAILURE_THRESHOLD`, as it is by default. -/
def persistentFailureThreshold : Nat := 3

/-- `_streak_note(source)`. -/
def streakNote (source : RegulationSource) : String :=
  if source.consecutiveFailures < 2 then ""
  else " Failed " ++ toString source.consecutiveFailures ++ " consecutive checks."

/-- `text[:n]`. -/
def firstChars (text : String) (n : Nat) : String :=
  String.ofList (text.toList.take n)

/-- A source that a person maintains, after a probe that failed. -/
def RegulationSource.stillAttested (source : RegulationSource) (fresh : WatchFresh) :
    RegulationSource :=
  { source with nextCheckAt := some (fresh.now + manualRetry), lastStatus := some "attested" }

/-- The change that says a check failed. -/
def failedChange (source : RegulationSource) (changeType : ChangeType) (summary : String)
    (evidence : Dict) : RegulationChange where
  packCode := source.packCode
  url := source.url
  changeType := changeType
  status := .quarantined
  summary := summary
  evidence := evidence
  beforeHash := none
  afterHash := none
  publishedVersion := none

/-- What a status code says of a source, with its summary. -/
def failureOf (source : RegulationSource) (statusCode : Int) : ChangeType × String :=
  if statusCode = 404 ∨ statusCode = 410 then
    (.sourceGone, "Official source returned HTTP " ++ toString statusCode ++ ". The pack may be " ++
      "citing an instrument that has moved or been withdrawn — check the URL.")
  else if statusCode = 401 ∨ statusCode = 403 then
    (.sourceBlocked, "Official source refused automated access (HTTP " ++ toString statusCode ++
      "). This says nothing about the instrument — the site is blocking the fetch. Check the " ++
      "URL by hand, or supply the text another way.")
  else if statusCode = 429 ∧ persistentFailureThreshold ≤ source.consecutiveFailures then
    (.sourceBlocked, "Official source has returned HTTP 429 on " ++
      toString source.consecutiveFailures ++
      " consecutive checks. A rate limit that never clears " ++
      "is bot protection, not congestion — this site does not serve automated clients. It says " ++
      "nothing about the instrument; check the URL by hand.")
  else
    (.sourceUnavailable, "Official source was temporarily unavailable (HTTP " ++
      toString statusCode ++ (if statusCode = 429 then " — rate limited" else "") ++
      "). Transient; the next sweep will retry. No conclusion about the instrument.")

/-- The change that says a source answers again. -/
def recoveredChange (source : RegulationSource) : RegulationChange where
  packCode := source.packCode
  url := source.url
  changeType := .sourceRecovered
  status := .actioned
  summary := "This source was being maintained by hand because the site refused automated " ++
    "access. It now answers, so it has returned to automatic checking and future confirmations " ++
    "carry machine provenance again."
  evidence := [("previous_mode", .str "manual")]
  beforeHash := none
  afterHash := none
  publishedVersion := none

/-- A source that a person maintained goes back to automatic checks. -/
def recover (db : WatchDb) (source : RegulationSource) :
    Except PyError (WatchDb × RegulationSource × List RegulationChange) :=
  if source.checkMode = .manual then do
    let source := { source with checkMode := .auto }
    let db ← db.putSource source
    let db ← db.recordChange (recoveredChange source)
    return (db, source, [recoveredChange source])
  else .ok (db, source, [])

/-- `check_source(db, source, fetcher, auto_publish)`, where the fetcher did `outcome`. -/
def checkSource (db : WatchDb) (source : RegulationSource) (outcome : FetchOutcome)
    (autoPublish : Bool) (fresh : WatchFresh) : Except PyError (WatchDb × List RegulationChange) :=
  let source := { source with nextCheckAt := some (fresh.now + checkInterval)
                              lastCheckedAt := some fresh.now }
  match outcome with
  | .raised message =>
    let source := { source with lastStatus := some "error"
                                lastError := some (firstChars message 500)
                                consecutiveFailures := source.consecutiveFailures + 1 }
    if source.checkMode = .manual then do
      let db ← db.putSource (source.stillAttested fresh)
      return (db, [])
    else do
      let db ← db.putSource source
      let change := failedChange source .fetchFailed
        ("Could not fetch the official source: " ++ message ++ streakNote source)
        [("error", .str (firstChars message 500)),
          ("consecutive_failures", .int source.consecutiveFailures)]
      let db ← db.recordChange change
      return (db, [change])
  | .answered statusCode text =>
    if 400 ≤ statusCode then
      let source := { source with lastStatus := some (toString statusCode)
                                  lastError := some ("HTTP " ++ toString statusCode)
                                  consecutiveFailures := source.consecutiveFailures + 1 }
      if source.checkMode = .manual then do
        let db ← db.putSource (source.stillAttested fresh)
        return (db, [])
      else do
        let db ← db.putSource source
        let (changeType, summary) := failureOf source statusCode
        let change := failedChange source changeType (summary ++ streakNote source)
          [("status_code", .int statusCode),
            ("consecutive_failures", .int source.consecutiveFailures)]
        let db ← db.recordChange change
        return (db, [change])
    else do
      let source := { source with lastStatus := some (toString statusCode)
                                  lastError := none
                                  consecutiveFailures := 0 }
      let (db, source, recovered) ← recover db source
      let (db, changes) ← evaluateSnapshot db source text autoPublish true fresh
      return (db, recovered ++ changes)

/-! ## Text supplied by hand -/

structure SupplyArgs where
  text : String
  attestedBy : String
  note : Option String
  autoPublish : Bool

/-- `(note or "").strip()[:2000] or None`. -/
def keptNote (note : Option String) : Option String :=
  let text := firstChars (PyText.strip (note.getD "")) 2000
  if text = "" then none else some text

/-- The source of a text that a person supplied. -/
def RegulationSource.attested (source : RegulationSource) (args : SupplyArgs) (fresh : WatchFresh) :
    RegulationSource :=
  { source with checkMode := .manual
                attestedBy := some (firstChars (PyText.strip args.attestedBy) 200)
                attestedAt := some fresh.now
                attestationNote := keptNote args.note
                lastCheckedAt := some fresh.now
                lastStatus := some "attested"
                lastError := none
                consecutiveFailures := 0
                nextCheckAt := some (fresh.now + manualRetry) }

/-- The change that says who supplied a text. -/
def suppliedChange (source : RegulationSource) (args : SupplyArgs) (fresh : WatchFresh) :
    RegulationChange where
  packCode := source.packCode
  url := source.url
  changeType := .textSupplied
  status := .actioned
  summary := "Official text supplied by hand by " ++ source.attestedBy.getD "None" ++
    ", because this site refuses automated access. Provenance rests on that attestation rather " ++
    "than on a fetch by Attest."
  evidence := [
    ("attested_by", optStr source.attestedBy),
    ("attested_at", .str fresh.nowIso),
    ("note", optStr source.attestationNote),
    ("text_sha256", .str (contentHash args.text)),
    ("supplied_bytes", .int args.text.length)]
  beforeHash := none
  afterHash := some (contentHash args.text)
  publishedVersion := none

/-- `supply_text(db, source, text, ..)`. -/
def supplyText (db : WatchDb) (source : RegulationSource) (args : SupplyArgs) (fresh : WatchFresh) :
    Except PyError (WatchDb × List RegulationChange) := do
  require (!PyText.isBlank args.attestedBy)
    (.watch "supplying text by hand requires a named attestor")
  require (!PyText.isBlank args.text) (.watch "no text supplied")
  let source := source.attested args fresh
  let db ← db.putSource source
  let supplied := suppliedChange source args fresh
  let db ← db.recordChange supplied
  let (db, changes) ← evaluateSnapshot db source args.text args.autoPublish false fresh
  return (db, supplied :: changes)

end Watch

end Attest
