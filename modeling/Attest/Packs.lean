import Attest.Db
import Attest.Envelope
import Attest.Rules

/-!
# Regulation packs and the verdict

Besides its own policy an organisation may enable regulation packs, whose rules raise
the tier of an output and attach cited findings to it. `evaluatePacks` skips a rule
that raises, except for one whose tier cannot be looked up : whether it returns is
decided by the tiers of the rules alone (`evaluatePacks_succeeds`).

`deriveStatus` is the verdict of the gate, from what the organisation's own policy
allows, the strictest tier and the findings.
-/

namespace Attest

/-! ## Findings -/

structure PackFinding where
  packCode : String
  jurisdiction : String
  instrument : String
  ruleId : String
  tier : RiskTier
  reason : String
  topic : JVal
  provision : JVal
  guidance : JVal
  sourceUrl : Option String
  verificationStatus : String
  enforcement : String
  matchedOn : Option String
deriving DecidableEq

/-- `finding.to_dict()`. -/
def PackFinding.toDict (f : PackFinding) : Dict :=
  [("pack_code", .str f.packCode),
    ("jurisdiction", .str f.jurisdiction),
    ("instrument", .str f.instrument),
    ("rule_id", .str f.ruleId),
    ("tier", .str f.tier.name),
    ("reason", .str f.reason),
    ("topic", f.topic),
    ("provision", f.provision),
    ("guidance", f.guidance),
    ("source_url", optStr f.sourceUrl),
    ("verification_status", .str f.verificationStatus),
    ("enforcement", .str f.enforcement),
    ("matched_on", optStr f.matchedOn),
    ("advisory_only", .bool (f.enforcement ≠ "blocking"))]

/-- `active_packs_for_org(db, org_id)`. -/
def activePacksForOrg (db : Db) (orgId : String) : List (RegulationPack × String) :=
  (db.orgPacks.filter fun s => s.orgId = orgId ∧ s.enabled).flatMap fun s =>
    (db.packs.filter fun p => p.id = s.packId).map fun p => (p, s.enforcement)

/-- `_matched_on(match)`. -/
def matchedOn (m : Dict) : Option String :=
  if m.get "has_pii" = .bool true then some "has_pii"
  else if m.has "action" then some "action"
  else
    match m.get "feature" with
    | .str feature => some feature
    | _ => if m.has "payload_key" then some "payload_key" else none

/-- The rules of a pack, none where its document has no list of them. -/
def packRules : JVal → List JVal
  | .obj doc =>
    match Dict.get doc "rules" with
    | .arr rules => rules
    | _ => []
  | _ => []

section Evaluate

variable [PyUnicode]

/-- `rule.get("match")` where it is an object. -/
def ruleMatch (rule : Dict) : Dict :=
  match rule.get "match" with
  | .obj m => m
  | _ => []

def packFinding (pack : RegulationPack) (enforcement : String) (rule : Dict) (tier : RiskTier) :
    PackFinding where
  packCode := pack.code
  jurisdiction := pack.jurisdiction
  instrument := pack.instrument
  ruleId := PyText.str (rule.getD "id" (.str "unnamed"))
  tier := tier
  reason := PyText.str (rule.getD "reason" (.str ""))
  topic := rule.get "topic"
  provision := rule.get "provision"
  guidance := rule.get "guidance"
  sourceUrl := pack.sourceUrl
  verificationStatus := pack.verificationStatus
  enforcement := enforcement
  matchedOn := matchedOn (ruleMatch rule)

variable (action : String) (payload : Dict) (features : FeatureVector)

/-- One rule of a pack : its tier, where it matched. What its clauses raise is skipped,
what looking its tier up raises is not. -/
def packRuleTier (hintKeys : List String) : JVal → Except PyError (Option RiskTier)
  | .obj rule => do
    match ← readTier (ruleTier rule) with
    | none => return none
    | some tier =>
      return match ruleMatches hintKeys action payload features rule with
        | .ok true => some tier
        | _ => none
  | _ => .ok none

/-- The finding of one rule. -/
def ruleFinding (pack : RegulationPack) (enforcement : String) (rule : JVal) :
    Except PyError (Option PackFinding) := do
  let tier ← packRuleTier action payload features serverHintKeys rule
  return match rule, tier with
    | .obj rule, some tier => some (packFinding pack enforcement rule tier)
    | _, _ => none

def packFindings (pack : RegulationPack × String) : Except PyError (List PackFinding) := do
  let found ← (packRules pack.1.rules).mapM (ruleFinding action payload features pack.1 pack.2)
  return found.filterMap id

/-- `evaluate_packs(db, org_id, action, payload, features)`. -/
def evaluatePacks (db : Db) (orgId : String) : Except PyError (List PackFinding) := do
  let found ← (activePacksForOrg db orgId).mapM (packFindings action payload features)
  return found.flatten.insertionSort fun f g => g.tier.rank ≤ f.tier.rank

end Evaluate

/-- `combined_tier(base_tier, findings)`. -/
def combinedTier (baseTier : RiskTier) (findings : List PackFinding) : RiskTier :=
  findings.foldl (fun tier f => maxTier tier f.tier) baseTier

/-- `jurisdictions_touched(findings)`. -/
def jurisdictionsTouched (findings : List PackFinding) : List String :=
  dedupFirst (findings.map PackFinding.jurisdiction)

/-! ## The verdict -/

inductive Status where
  | compliant
  | flagged
  | blocked
  | unevaluated
deriving DecidableEq

def Status.name : Status → String
  | .compliant => "compliant"
  | .flagged => "flagged"
  | .blocked => "blocked"
  | .unevaluated => "unevaluated"

/-- `tier in FLAGGING_TIERS`. -/
def RiskTier.isFlagging : RiskTier → Bool
  | .orange | .red => true
  | _ => false

/-- `derive_status(allowed, tier, findings)`. -/
def deriveStatus {α : Type} (allowed : Bool) (tier : RiskTier) (findings : List α) : Status :=
  if !allowed then .blocked
  else if tier.isFlagging || !findings.isEmpty then .flagged
  else .compliant

/-! ## What the packs can read -/

/-- Every rule of the organisation's packs has a tier that can be looked up. -/
def PacksRead (db : Db) (orgId : String) : Prop :=
  ∀ p ∈ activePacksForOrg db orgId, ∀ rule, JVal.obj rule ∈ packRules p.1.rules →
    hashable (ruleTier rule) = true

section Reads

variable [PyUnicode] {action : String} {payload : Dict} {features : FeatureVector}

theorem packRuleTier_succeeds {hintKeys : List String} {v : JVal} :
    (packRuleTier action payload features hintKeys v).succeeds = true ↔
      ∀ rule, v = .obj rule → hashable (ruleTier rule) = true := by
  cases v with
  | obj rule =>
    simp only [JVal.obj.injEq, forall_eq', ← readTier_succeeds]
    cases h : readTier (ruleTier rule) with
    | error e => simp [packRuleTier, h, Except.succeeds]
    | ok found => cases found <;> simp [packRuleTier, h, Except.succeeds]
  | _ => simp [packRuleTier, Except.succeeds]

/-- The packs are evaluated where their tiers can be looked up, whatever the output. -/
theorem evaluatePacks_succeeds {db : Db} {orgId : String} :
    (evaluatePacks action payload features db orgId).succeeds = true ↔ PacksRead db orgId := by
  have hfinding (pack : RegulationPack) (enforcement : String) (v : JVal) :
      (ruleFinding action payload features pack enforcement v).succeeds = true ↔
        ∀ rule, v = .obj rule → hashable (ruleTier rule) = true := by
    rw [ruleFinding, Except.succeeds_bind, ← packRuleTier_succeeds, Except.succeeds_iff]
    exact exists_congr fun tier => and_iff_left rfl
  have hpack (p : RegulationPack × String) :
      (packFindings action payload features p).succeeds = true ↔
        ∀ rule, JVal.obj rule ∈ packRules p.1.rules → hashable (ruleTier rule) = true := by
    rw [packFindings, Except.succeeds_bind]
    have hmap : (∃ found, (packRules p.1.rules).mapM
        (ruleFinding action payload features p.1 p.2) = .ok found) ↔
          ∀ rule, JVal.obj rule ∈ packRules p.1.rules → hashable (ruleTier rule) = true := by
      rw [← Except.succeeds_iff, Except.succeeds_mapM]
      simp only [hfinding]
      exact ⟨fun h rule hrule => h _ hrule rule rfl, fun h v hv rule hrule => h rule (hrule ▸ hv)⟩
    rw [← hmap]
    exact exists_congr fun found => and_iff_left rfl
  rw [evaluatePacks, Except.succeeds_bind, PacksRead]
  have hmap : (∃ found, (activePacksForOrg db orgId).mapM (packFindings action payload features) =
      .ok found) ↔ ∀ p ∈ activePacksForOrg db orgId, ∀ rule, JVal.obj rule ∈ packRules p.1.rules →
        hashable (ruleTier rule) = true := by
    rw [← Except.succeeds_iff, Except.succeeds_mapM]
    simp only [hpack]
  rw [← hmap]
  exact exists_congr fun found => and_iff_left rfl

end Reads

end Attest
