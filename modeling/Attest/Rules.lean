import Attest.Features

/-!
# Rules and the evaluator

`ruleMatches` tries the clauses of a rule's `match` in turn, and `firstMatchingRule`
the rules by descending priority. `evaluatePolicyInput` joins the rule that matched
with the floor of the built-in layers.

A rule document is any JSON, so a clause may raise on what it converts or compares.
`RuleReads`, `WalkReads` and `DocReads` say of a document, in the order the evaluator
reads it, that it meets no such value, and `DocRejected` that it meets one the evaluator
refuses with its own error. Between them they decide what evaluation returns or raises
(`firstMatchingRule_ends`).
-/

namespace Attest

/-! ## Clauses -/

section Matching

/-- Where a payload's classifier hint is read from : the server's fields. -/
def serverHintKeys : List String := ["classifier", "_classifier_tier"]

variable [PyUnicode]

/-- `payload.get(k) or payload.get(l) or ..`. -/
def classifierHint (payload : Dict) : List String → JVal
  | [] => .null
  | [key] => payload.get key
  | key :: keys => (payload.get key).orElse (classifierHint payload keys)

mutual
/-- `walk(value)` of `_payload_contains`. -/
def containsText (needle : String) : JVal → Bool
  | .str text => PyText.contains (PyText.lower text) needle
  | .arr items => containsTextList needle items
  | .obj items => containsTextItems needle items
  | _ => false

def containsTextList (needle : String) : List JVal → Bool
  | [] => false
  | v :: vs => containsText needle v || containsTextList needle vs

def containsTextItems (needle : String) : List (String × JVal) → Bool
  | [] => false
  | (_, v) :: kvs => containsText needle v || containsTextItems needle kvs
end

/-- `_payload_contains(payload, needle)`. -/
def payloadContains (payload : Dict) (needle : String) : Bool :=
  containsText (PyText.lower needle) (.obj payload)

/-- `"action" in match`, of one action or a list. -/
def matchesAction (action : String) (m : Dict) : Bool :=
  match m.get? "action" with
  | some (.str one) => one = action
  | some (.arr actions) => actions.contains (.str action)
  | _ => false

def matchesPii (features : FeatureVector) (m : Dict) : Bool :=
  m.get "has_pii" = .bool true && features.hasPii

/-- The bound of a rule on citations. -/
def citationBound (m : Dict) : Option JVal :=
  if m.get "feature" = .str "citation_count" then m.get? "lt" else none

def matchesCitations (features : FeatureVector) (m : Dict) : Except PyError Bool :=
  match citationBound m with
  | some bound => (toInt bound).map fun n => features.citations < n
  | none => .ok false

def matchesCrossBorder (features : FeatureVector) (m : Dict) : Bool :=
  m.get "feature" = .str "cross_border" && m.get "without_lawful_basis" = .bool true &&
    (features.crossBorder && !features.lawfulBasisPresent)

def matchesPhrases (features : FeatureVector) (m : Dict) : Bool :=
  m.get "feature" = .str "prohibited_phrases" && m.get "any" = .bool true &&
    !features.prohibitedPhrases.isEmpty

def matchesClassifier (hintKeys : List String) (payload m : Dict) : Bool :=
  let hint := classifierHint payload hintKeys
  m.get "feature" = .str "classifier" && (hint.truthy && (m.get "equals").pyEq hint)

/-- A number of the payload against a bound of the rule, which raises on a bound that
is no number. -/
def compareBound (test : NumVal → NumVal → Bool) (x : NumVal) (bound : JVal) :
    Except PyError Bool :=
  match bound.num? with
  | some b => .ok (test x b)
  | none => .error .typeError

def keyEquals (value : JVal) (m : Dict) : Bool :=
  (m.get? "equals").any fun w => value.pyEq w

def keyGte (value : JVal) (m : Dict) : Except PyError Bool :=
  match m.get? "gte", value.num? with
  | some bound, some x => compareBound NumVal.ge x bound
  | _, _ => .ok false

def keyLt (value : JVal) (m : Dict) : Except PyError Bool :=
  match m.get? "lt" with
  | none => .ok false
  | some bound =>
    if value = .null then .ok true
    else
      match value.num? with
      | some x => compareBound NumVal.lt x bound
      | none => .ok false

/-- The value a rule names by `payload_key`. -/
def namedValue (payload m : Dict) : Option JVal :=
  match m.get "payload_key" with
  | .str key => some (payload.get key)
  | _ => none

def matchesKey (payload m : Dict) : Except PyError Bool :=
  match namedValue payload m with
  | some value => Except.anyTrue [.ok (keyEquals value m), keyGte value m, keyLt value m]
  | none => .ok false

def matchesContains (payload m : Dict) : Bool :=
  match m.get "payload_contains" with
  | .str needle => payloadContains payload needle
  | _ => false

/-- `rule_matches(action, payload, features, rule)`, with the fields of the classifier's
hint. -/
def ruleMatches (hintKeys : List String) (action : String) (payload : Dict)
    (features : FeatureVector) (rule : Dict) : Except PyError Bool :=
  match rule.get "match" with
  | .obj m => Except.anyTrue [
      .ok (matchesAction action m),
      .ok (matchesPii features m),
      matchesCitations features m,
      .ok (matchesCrossBorder features m),
      .ok (matchesPhrases features m),
      .ok (matchesClassifier hintKeys payload m),
      matchesKey payload m,
      .ok (matchesContains payload m)]
  | _ => .ok false

end Matching

/-! ## Rules in order -/

inductive PolicyDecision where
  | allow
  | deny
  | flag
deriving DecidableEq

namespace PolicyDecision

def name : PolicyDecision → String
  | .allow => "allow"
  | .deny => "deny"
  | .flag => "flag"

/-- The decision a value of a rule names. -/
def ofValue? (v : JVal) : Option PolicyDecision :=
  [allow, deny, flag].find? fun d => v = .str d.name

end PolicyDecision

/-- `_default_decision(tier)`. -/
def defaultDecision : RiskTier → PolicyDecision
  | .red => .deny
  | .yellow => .flag
  | _ => .allow

/-- `_decision_allowed(tier, decision, fail_mode=..)`. -/
def decisionAllowed (tier : RiskTier) (decision : PolicyDecision) (failMode : String) : Bool :=
  match decision with
  | .deny => false
  | .allow => true
  | .flag => if tier = .red then failMode = "allow_with_flag" else true

/-- What `_first_matching_rule` returns of a rule. -/
structure RuleHit where
  tier : RiskTier
  decision : PolicyDecision
  reason : String
  ruleId : String
  regulatoryRefs : List String
deriving DecidableEq

/-- `rule.get("tier", "yellow")`. -/
def ruleTier (rule : Dict) : JVal :=
  rule.getD "tier" (.str "yellow")

section Walk

variable [PyUnicode]

/-- `str(rule.get("id", index))`. -/
def ruleLabel (rule : Dict) (index : Nat) : String :=
  PyText.str (rule.getD "id" (.int index))

def ruleHit (tier : RiskTier) (rule : Dict) (index : Nat) : RuleHit where
  tier := tier
  decision := (PolicyDecision.ofValue? (rule.get "decision")).getD (defaultDecision tier)
  reason := PyText.str ((rule.get "reason").orElse
    (.str ("Rule matched: " ++ ruleLabel rule index)))
  ruleId := PyText.str (rule.getD "id" (.str ("rule_" ++ toString index)))
  regulatoryRefs :=
    let ref := rule.get "regulatory_ref"
    if ref.truthy then [PyText.str ref] else []

/-- The key rules are sorted by. -/
def rulePriority : JVal → Except PyError Int
  | .obj rule => toInt (Dict.getD rule "priority" (.int 0))
  | _ => .ok 0

/-- The rules with their places, by descending priority. -/
def sortedRules (rules : List JVal) : Except PyError (List (JVal × Nat)) := do
  let priorities ← rules.mapM rulePriority
  return ((priorities.zip rules.zipIdx).insertionSort fun a b => b.1 ≤ a.1).map Prod.snd

variable (hintKeys : List String) (action : String) (payload : Dict) (features : FeatureVector)

/-- The loop of `_first_matching_rule`. -/
def walkRules : List (JVal × Nat) → Except PyError (Option RuleHit)
  | [] => .ok none
  | (.obj rule, index) :: rest => do
    match ← readTier (ruleTier rule) with
    | none => .error (.policyEngine ("invalid tier in rule " ++ ruleLabel rule index))
    | some tier =>
      let hit ← ruleMatches hintKeys action payload features rule
      if hit then return some (ruleHit tier rule index) else walkRules rest
  | (_, index) :: _ =>
    .error (.policyEngine ("policy.rules[" ++ toString index ++ "] must be an object"))

/-- `_first_matching_rule(action, payload, features, rules_doc)`. -/
def firstMatchingRule (rulesDoc : Dict) : Except PyError (Option RuleHit) :=
  match rulesDoc.get "rules" with
  | .null => .ok none
  | .arr rules => do
    let sorted ← sortedRules rules
    walkRules hintKeys action payload features sorted
  | _ => .error (.policyEngine "policy.rules must be a list")

end Walk

/-! ## The evaluator -/

structure PolicyInput where
  orgId : String
  action : String
  payload : Dict
  failMode : String
  policyVersion : String
  features : FeatureVector

structure PolicyOutput where
  tier : RiskTier
  decision : PolicyDecision
  allowed : Bool
  reasons : List String
  ruleId : Option String
  regulatoryRefs : List String
  riskScore : Int
  layerResults : List LayerResult
  mitigations : List String
deriving DecidableEq

/-- `TIER_SCORE`. -/
def tierScore : RiskTier → Int
  | .green => 10
  | .yellow => 35
  | .orange => 65
  | .red => 90

/-- `MITIGATIONS_BY_TIER.get(tier, ())`. -/
def mitigationsByTier : RiskTier → List String
  | .yellow => ["append_verify_disclaimer"]
  | .orange => ["redact_pii_before_send", "append_verify_disclaimer", "require_human_review"]
  | _ => []

/-- `_layer_reasons(layers)`. -/
def layerReasons (layers : List LayerResult) : List String :=
  let reasons := layers.flatMap LayerResult.reasons
  if reasons.isEmpty then ["Layer detection only"] else reasons

/-- The reasons where no rule matched. -/
def unmatchedReasons (layers : List LayerResult) : List String :=
  if layers.isEmpty then ["No policy rule matched"] else layerReasons layers

/-- The output for the rule that matched and the layers that reported. -/
def joinOutput (layers : List LayerResult) (failMode : String) : Option RuleHit → PolicyOutput
  | some hit =>
    let tier := maxTier (layerFloorTier layers) hit.tier
    { tier := tier
      decision := hit.decision
      allowed := decisionAllowed tier hit.decision failMode
      reasons := [hit.reason]
      ruleId := some hit.ruleId
      regulatoryRefs := hit.regulatoryRefs
      riskScore := tierScore tier
      layerResults := layers
      mitigations := mitigationsByTier tier }
  | none =>
    let tier := layerFloorTier layers
    { tier := tier
      decision := if defaultDecision tier = .deny then .flag else defaultDecision tier
      allowed := true
      reasons := unmatchedReasons layers
      ruleId := none
      regulatoryRefs := []
      riskScore := tierScore tier
      layerResults := layers
      mitigations := mitigationsByTier tier }

section Evaluate

variable [PyUnicode]

def PolicyInput.firstMatchingRule (input : PolicyInput) (rulesDoc : Dict) :
    Except PyError (Option RuleHit) :=
  Attest.firstMatchingRule serverHintKeys input.action input.payload input.features rulesDoc

/-- The evaluator over the layers that reported. -/
def evaluateOver (layers : List LayerResult) (input : PolicyInput) (rulesDoc : Dict) :
    Except PyError PolicyOutput := do
  let hit ← input.firstMatchingRule rulesDoc
  return joinOutput layers input.failMode hit

theorem evaluateOver_of_hit {input : PolicyInput} {rulesDoc : Dict} {hit : Option RuleHit}
    (hhit : input.firstMatchingRule rulesDoc = .ok hit) (layers : List LayerResult) :
    evaluateOver layers input rulesDoc = .ok (joinOutput layers input.failMode hit) := by
  rw [evaluateOver, hhit]
  rfl

/-- `evaluate_policy_input(policy_input, rules_doc)`. -/
def evaluatePolicyInput (input : PolicyInput) (rulesDoc : Dict) : Except PyError PolicyOutput :=
  evaluateOver (runDeterministicLayers input.features) input rulesDoc

end Evaluate

/-! ## What evaluation allows -/

/-- The verdict of the customer's own policy : of the rule that matched and the fail
mode alone. -/
def customerVerdict (failMode : String) : Option RuleHit → Bool
  | some hit => decisionAllowed hit.tier hit.decision failMode
  | none => true

/-- A flag of the customer's turns into a gate when a layer has raised its tier to red. -/
def LayerGates (features : FeatureVector) (failMode : String) : Option RuleHit → Prop
  | some hit => hit.decision = .flag ∧ hit.tier ≠ .red ∧ features.NoLawfulBasis ∧
      failMode ≠ "allow_with_flag"
  | none => False

theorem joinOutput_nil_allowed (failMode : String) (hit : Option RuleHit) :
    (joinOutput [] failMode hit).allowed = customerVerdict failMode hit := by
  cases hit with
  | none => rfl
  | some hit => simp [joinOutput, customerVerdict, layerFloorTier]

/-- The built-in layers change the verdict in one case : a flag that is not red, raised
to red. -/
theorem joinOutput_allowed_iff {features : FeatureVector} {failMode : String}
    {hit : Option RuleHit} :
    (joinOutput (runDeterministicLayers features) failMode hit).allowed =
      customerVerdict failMode hit ↔ ¬LayerGates features failMode hit := by
  cases hit with
  | none => simp [joinOutput, customerVerdict, LayerGates]
  | some hit =>
    simp only [joinOutput, customerVerdict, LayerGates, ← layerFloorTier_eq_red]
    cases hdecision : hit.decision with
    | allow => simp [decisionAllowed]
    | deny => simp [decisionAllowed]
    | flag =>
      simp only [decisionAllowed, maxTier_eq_red]
      by_cases htier : hit.tier = .red
      · simp [htier]
      · by_cases hfloor : layerFloorTier (runDeterministicLayers features) = .red
        · simp [htier, hfloor]
        · simp [htier, hfloor]

/-! ## What the evaluator can read -/

/-- The evaluator's own exception, which its callers catch. -/
def PyError.isPolicyEngine : PyError → Bool
  | .policyEngine _ => true
  | _ => false

theorem readTier_error {v : JVal} {e : PyError} (h : readTier v = .error e) :
    e.isPolicyEngine = false := by
  unfold readTier at h
  split at h <;> cases h
  rfl

theorem compareBound_error {test : NumVal → NumVal → Bool} {x : NumVal} {bound : JVal} {e : PyError}
    (h : compareBound test x bound = .error e) : e.isPolicyEngine = false := by
  unfold compareBound at h
  split at h <;> cases h
  rfl

theorem compareBound_succeeds {test : NumVal → NumVal → Bool} {x : NumVal} {bound : JVal} :
    (compareBound test x bound).succeeds = true ↔ bound.num?.isSome = true := by
  unfold compareBound
  cases bound.num? <;> simp [Except.succeeds]

/-- How a reading of a document ends : it returns, it is refused, or it raises an
exception that is no refusal. -/
structure Ends {α : Type} (x : Except PyError α) (reads rejects : Prop) : Prop where
  refuses : reads → rejects → ∃ msg, x = .error (.policyEngine msg)
  returns : reads → ¬rejects → x.succeeds = true
  raises : ¬reads → ∃ e, x = .error e ∧ e.isPolicyEngine = false

theorem Ends.succeeds_iff {α : Type} {x : Except PyError α} {reads rejects : Prop}
    (h : Ends x reads rejects) : x.succeeds = true ↔ reads ∧ ¬rejects := by
  refine ⟨fun hx => ?_, fun hx => h.returns hx.1 hx.2⟩
  by_cases hreads : reads
  · refine ⟨hreads, fun hrejects => ?_⟩
    obtain ⟨msg, rfl⟩ := h.refuses hreads hrejects
    cases hx
  · obtain ⟨e, rfl, -⟩ := h.raises hreads
    cases hx

theorem Ends.refused_iff {α : Type} {x : Except PyError α} {reads rejects : Prop}
    (h : Ends x reads rejects) :
    (∃ msg, x = .error (.policyEngine msg)) ↔ reads ∧ rejects := by
  refine ⟨fun ⟨msg, hx⟩ => ?_, fun hx => h.refuses hx.1 hx.2⟩
  by_cases hreads : reads
  · refine ⟨hreads, by_contra fun hrejects => ?_⟩
    have hreturns := h.returns hreads hrejects
    rw [hx] at hreturns
    cases hreturns
  · obtain ⟨e, he, hengine⟩ := h.raises hreads
    obtain rfl := Except.error.inj (he.symm.trans hx)
    cases hengine

/-- A number of the payload meets a number under this key of the rule. -/
def BoundReads (key : String) (value : JVal) (m : Dict) : Prop :=
  ∀ bound, m.get? key = some bound → value.num?.isSome = true → bound.num?.isSome = true

theorem keyGte_succeeds {value : JVal} {m : Dict} :
    (keyGte value m).succeeds = true ↔ BoundReads "gte" value m := by
  unfold keyGte BoundReads
  cases m.get? "gte" with
  | none => simp [Except.succeeds]
  | some bound =>
    cases value.num? with
    | none => simp [Except.succeeds]
    | some x => simp [compareBound_succeeds]

theorem keyLt_succeeds {value : JVal} {m : Dict} :
    (keyLt value m).succeeds = true ↔ BoundReads "lt" value m := by
  unfold keyLt BoundReads
  cases m.get? "lt" with
  | none => simp [Except.succeeds]
  | some bound =>
    by_cases hnull : value = .null
    · simp [hnull, JVal.num?, Except.succeeds]
    · cases value.num? with
      | none => simp [hnull, Except.succeeds]
      | some x => simp [hnull, compareBound_succeeds]

/-- The named value is compared with numbers alone, up to the test that holds. -/
def KeyReads (payload m : Dict) : Prop :=
  ∀ value, namedValue payload m = some value → keyEquals value m = true ∨
    (BoundReads "gte" value m ∧ (keyGte value m = .ok true ∨ BoundReads "lt" value m))

theorem matchesKey_succeeds {payload m : Dict} :
    (matchesKey payload m).succeeds = true ↔ KeyReads payload m := by
  unfold matchesKey KeyReads
  cases namedValue payload m with
  | none => simp [Except.succeeds]
  | some value =>
    simp only [Except.succeeds_anyTrue_cons, keyGte_succeeds, keyLt_succeeds, Option.some.injEq,
      forall_eq', Except.ok.injEq]
    simp [Except.anyTrue, Except.succeeds]

section Reads

variable [PyUnicode]

/-- The bound on citations, where there is one, is a value `int` takes. -/
def CitationsRead (m : Dict) : Prop :=
  ∀ bound, citationBound m = some bound → (toInt bound).succeeds = true

variable (hintKeys : List String) (action : String) (payload : Dict) (features : FeatureVector)

/-- Each clause that is reached reads its values. -/
def RuleReads (rule : Dict) : Prop :=
  ∀ m, rule.get "match" = .obj m → matchesAction action m = true ∨ matchesPii features m = true ∨
    (CitationsRead m ∧ (matchesCitations features m = .ok true ∨
      matchesCrossBorder features m = true ∨
      matchesPhrases features m = true ∨ matchesClassifier hintKeys payload m = true ∨
        KeyReads payload m))

/-- Each rule that is reached has a tier that can be looked up and clauses that read. -/
def WalkReads : List (JVal × Nat) → Prop
  | [] => True
  | (.obj rule, _) :: rest => hashable (ruleTier rule) = true ∧
      ((∃ tier, readTier (ruleTier rule) = .ok (some tier)) →
        RuleReads hintKeys action payload features rule ∧
          (ruleMatches hintKeys action payload features rule = .ok false → WalkReads rest))
  | _ :: _ => True

/-- A rule that is reached is no object, or names no tier. -/
def WalkRejects : List (JVal × Nat) → Prop
  | [] => False
  | (.obj rule, _) :: rest => readTier (ruleTier rule) = .ok none ∨
      ((∃ tier, readTier (ruleTier rule) = .ok (some tier)) ∧
        ruleMatches hintKeys action payload features rule = .ok false ∧ WalkRejects rest)
  | _ :: _ => True

/-- The document's priorities are values `int` takes, and the rules that are reached
read. -/
def DocReads (rulesDoc : Dict) : Prop :=
  ∀ rules, rulesDoc.get "rules" = .arr rules →
    (∀ rule ∈ rules, (rulePriority rule).succeeds = true) ∧
      ∀ sorted, sortedRules rules = .ok sorted → WalkReads hintKeys action payload features sorted

/-- The evaluator refuses the document. -/
def DocRejected (rulesDoc : Dict) : Prop :=
  match rulesDoc.get "rules" with
  | .null => False
  | .arr rules => ∃ sorted, sortedRules rules = .ok sorted ∧
      WalkRejects hintKeys action payload features sorted
  | _ => True

variable {hintKeys action payload features}

theorem toInt_error {v : JVal} {e : PyError} (h : toInt v = .error e) :
    e.isPolicyEngine = false := by
  unfold toInt at h
  split at h
  · cases h
  · cases h
  · split at h <;> cases h <;> rfl
  · split at h <;> cases h
    rfl
  · cases h
    rfl

theorem matchesCitations_succeeds {m : Dict} :
    (matchesCitations features m).succeeds = true ↔ CitationsRead m := by
  unfold matchesCitations CitationsRead
  cases citationBound m with
  | none => simp [Except.succeeds]
  | some bound => cases h : toInt bound <;> simp [h, Except.map, Except.succeeds]

/-- A rule is matched where its clauses read. -/
theorem ruleMatches_succeeds {rule : Dict} :
    (ruleMatches hintKeys action payload features rule).succeeds = true ↔
      RuleReads hintKeys action payload features rule := by
  unfold ruleMatches RuleReads
  cases rule.get "match" with
  | obj m =>
    simp only [Except.succeeds_anyTrue_cons, matchesCitations_succeeds, matchesKey_succeeds,
      JVal.obj.injEq, forall_eq', Except.ok.injEq]
    simp [Except.anyTrue, Except.succeeds]
  | _ => simp [Except.succeeds]

/-- What a rule raises is no refusal of the document. -/
theorem ruleMatches_error {rule : Dict} {e : PyError}
    (h : ruleMatches hintKeys action payload features rule = .error e) :
    e.isPolicyEngine = false := by
  have hgte {value : JVal} {m : Dict} (h : keyGte value m = .error e) :
      e.isPolicyEngine = false := by
    unfold keyGte at h
    split at h
    · exact compareBound_error h
    · cases h
  have hlt {value : JVal} {m : Dict} (h : keyLt value m = .error e) : e.isPolicyEngine = false := by
    unfold keyLt at h
    split at h
    · cases h
    · split at h
      · cases h
      · split at h
        · exact compareBound_error h
        · cases h
  have hcitations {m : Dict} (h : matchesCitations features m = .error e) :
      e.isPolicyEngine = false := by
    unfold matchesCitations at h
    split at h
    · rename_i bound _
      cases hint : toInt bound with
      | ok n => simp [hint, Except.map] at h
      | error e' =>
        obtain rfl : e' = e := by simpa [hint, Except.map] using h
        exact toInt_error hint
    · cases h
  have hkey {m : Dict} (h : matchesKey payload m = .error e) : e.isPolicyEngine = false := by
    unfold matchesKey at h
    split at h
    · obtain ⟨test, htest, herror⟩ := Except.exists_of_anyTrue_error h
      simp only [List.mem_cons, List.not_mem_nil, or_false] at htest
      rcases htest with rfl | rfl | rfl
      · cases herror
      · exact hgte herror
      · exact hlt herror
    · cases h
  unfold ruleMatches at h
  split at h
  · obtain ⟨test, htest, herror⟩ := Except.exists_of_anyTrue_error h
    simp only [List.mem_cons, List.not_mem_nil, or_false] at htest
    rcases htest with rfl | rfl | rfl | rfl | rfl | rfl | rfl | rfl
    · cases herror
    · cases herror
    · exact hcitations herror
    · cases herror
    · cases herror
    · cases herror
    · exact hkey herror
    · cases herror
  · cases h

/-- A rule whose tier is known, before a walk whose end is known. -/
theorem Ends.rule {rest : List (JVal × Nat)}
    (ih : Ends (walkRules hintKeys action payload features rest)
      (WalkReads hintKeys action payload features rest)
      (WalkRejects hintKeys action payload features rest))
    {rule : Dict} {index : Nat} {tier : RiskTier} (hhash : hashable (ruleTier rule) = true)
    (htier : readTier (ruleTier rule) = .ok (some tier)) :
    Ends (walkRules hintKeys action payload features ((.obj rule, index) :: rest))
      (WalkReads hintKeys action payload features ((.obj rule, index) :: rest))
      (WalkRejects hintKeys action payload features ((.obj rule, index) :: rest)) := by
  have hwalk : walkRules hintKeys action payload features ((.obj rule, index) :: rest) =
      (do let hit ← ruleMatches hintKeys action payload features rule
          if hit then return some (ruleHit tier rule index)
          else walkRules hintKeys action payload features rest) := by
    simp only [walkRules, htier, Except.ok_bind']
  have hreads : WalkReads hintKeys action payload features ((.obj rule, index) :: rest) ↔
      RuleReads hintKeys action payload features rule ∧
        (ruleMatches hintKeys action payload features rule = .ok false →
          WalkReads hintKeys action payload features rest) :=
    ⟨fun h => h.2 ⟨tier, htier⟩, fun h => ⟨hhash, fun _ => h⟩⟩
  have hrejects : WalkRejects hintKeys action payload features ((.obj rule, index) :: rest) ↔
      ruleMatches hintKeys action payload features rule = .ok false ∧
        WalkRejects hintKeys action payload features rest := by
    refine ⟨fun h => ?_, fun h => Or.inr ⟨⟨tier, htier⟩, h⟩⟩
    rcases h with h | ⟨-, h⟩
    · simp [htier] at h
    · exact h
  cases hmatch : ruleMatches hintKeys action payload features rule with
  | error e =>
    have hnot : ¬RuleReads hintKeys action payload features rule := by
      rw [← ruleMatches_succeeds, hmatch]
      simp [Except.succeeds]
    have hnot' := fun h => hnot (hreads.mp h).1
    refine ⟨fun h => absurd h hnot', fun h => absurd h hnot', fun _ => ⟨e, ?_, ?_⟩⟩
    · rw [hwalk, hmatch, Except.error_bind']
    · exact ruleMatches_error hmatch
  | ok hit =>
    have hread : RuleReads hintKeys action payload features rule := by
      rw [← ruleMatches_succeeds, hmatch]
      rfl
    rw [hmatch] at hreads hrejects
    cases hit with
    | true =>
      refine ⟨fun _ h => ?_, fun _ _ => ?_, fun h => ?_⟩
      · simp [hrejects] at h
      · rw [hwalk, hmatch]
        rfl
      · simp [hreads, hread] at h
    | false =>
      have hrest : walkRules hintKeys action payload features ((.obj rule, index) :: rest) =
          walkRules hintKeys action payload features rest := by
        rw [hwalk, hmatch]
        rfl
      have hreads' := hreads.trans ⟨fun h => h.2 rfl, fun h => ⟨hread, fun _ => h⟩⟩
      have hrejects' := hrejects.trans ⟨fun h => h.2, fun h => ⟨rfl, h⟩⟩
      refine ⟨?_, ?_, ?_⟩
      · rw [hreads', hrejects', hrest]
        exact ih.refuses
      · rw [hreads', hrejects', hrest]
        exact ih.returns
      · rw [hreads', hrest]
        exact ih.raises

theorem walkRules_ends : ∀ rules : List (JVal × Nat),
    Ends (walkRules hintKeys action payload features rules)
      (WalkReads hintKeys action payload features rules)
      (WalkRejects hintKeys action payload features rules)
  | [] => ⟨fun _ h => h.elim, fun _ _ => rfl, fun h => (h trivial).elim⟩
  | (v, index) :: rest => by
    cases v with
    | obj rule =>
      have ih := walkRules_ends rest
      cases htier : readTier (ruleTier rule) with
      | error e =>
        have hhash : ¬hashable (ruleTier rule) = true := by
          rw [← readTier_succeeds, htier]
          simp [Except.succeeds]
        refine ⟨fun h => absurd h.1 hhash, fun h => absurd h.1 hhash, fun _ => ⟨e, ?_, ?_⟩⟩
        · simp [walkRules, htier]
        · exact readTier_error htier
      | ok found =>
        have hhash : hashable (ruleTier rule) = true := by
          rw [← readTier_succeeds, htier]
          rfl
        cases found with
        | none =>
          have hreads : WalkReads hintKeys action payload features
              ((.obj rule, index) :: rest) := by
            refine ⟨hhash, ?_⟩
            rintro ⟨tier, htier'⟩
            simp [htier] at htier'
          refine ⟨fun _ _ => ⟨"invalid tier in rule " ++ ruleLabel rule index, ?_⟩,
            fun _ h => absurd (Or.inl htier) h, fun h => absurd hreads h⟩
          simp only [walkRules, htier, Except.ok_bind']
        | some tier => exact ih.rule hhash htier
    | _ => exact ⟨fun _ _ => ⟨_, rfl⟩, fun _ h => absurd trivial h, fun h => absurd trivial h⟩

theorem rulePriority_error {rule : JVal} {e : PyError} (h : rulePriority rule = .error e) :
    e.isPolicyEngine = false := by
  cases rule with
  | obj rule => exact toInt_error h
  | _ => cases h

theorem sortedRules_succeeds {rules : List JVal} :
    (sortedRules rules).succeeds = true ↔ ∀ rule ∈ rules, (rulePriority rule).succeeds = true := by
  rw [sortedRules, Except.succeeds_bind, ← Except.succeeds_mapM, Except.succeeds_iff]
  exact exists_congr fun priorities => and_iff_left rfl

theorem sortedRules_error {rules : List JVal} {e : PyError} (h : sortedRules rules = .error e) :
    e.isPolicyEngine = false := by
  rcases Except.bind_eq_error.mp h with h | ⟨_, -, h⟩
  · obtain ⟨rule, -, hrule⟩ := Except.exists_of_mapM_error h
    exact rulePriority_error hrule
  · cases h

/-- A document is evaluated where it reads and is not refused. -/
theorem firstMatchingRule_ends (rulesDoc : Dict) :
    Ends (firstMatchingRule hintKeys action payload features rulesDoc)
      (DocReads hintKeys action payload features rulesDoc)
      (DocRejected hintKeys action payload features rulesDoc) := by
  unfold firstMatchingRule DocReads DocRejected
  cases rulesDoc.get "rules" with
  | arr rules =>
    simp only [JVal.arr.injEq, forall_eq', ← sortedRules_succeeds]
    cases hsorted : sortedRules rules with
    | error e =>
      have hfails : ¬(Except.error e : Except PyError (List (JVal × Nat))).succeeds = true := by
        simp [Except.succeeds]
      exact ⟨fun h => absurd h.1 hfails, fun h => absurd h.1 hfails,
        fun _ => ⟨e, rfl, sortedRules_error hsorted⟩⟩
    | ok sorted =>
      simpa [Except.succeeds] using walkRules_ends sorted
  | null =>
    exact ⟨fun _ h => h.elim, fun _ _ => rfl, fun h => absurd (fun _ hrules => by cases hrules) h⟩
  | _ =>
    exact ⟨fun _ _ => ⟨_, rfl⟩, fun _ h => absurd trivial h,
      fun h => absurd (fun _ hrules => by cases hrules) h⟩

end Reads

end Attest
