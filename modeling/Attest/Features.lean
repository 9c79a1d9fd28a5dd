import Attest.Crypto
import Attest.Pii

/-!
# Features and layers

What the policy evaluator knows of an output before it reads a rule : its structural
features (`extractFeatures`), and the built-in layers they raise
(`runDeterministicLayers`). The floor of the layers is red for one reason alone, a
cross-border transfer without a lawful basis (`layerFloorTier_eq_red`).

Reading the features raises where the amount is an integer past every double, and
nowhere else (`extractFeatures_succeeds`).
-/

namespace Attest

/-! ## Tiers -/

inductive RiskTier where
  | green
  | yellow
  | orange
  | red
deriving DecidableEq

namespace RiskTier

/-- `TIER_RANK`. -/
def rank : RiskTier → Nat
  | .green => 0
  | .yellow => 1
  | .orange => 2
  | .red => 3

def name : RiskTier → String
  | .green => "green"
  | .yellow => "yellow"
  | .orange => "orange"
  | .red => "red"

/-- The tier a text names. -/
def ofName? (s : String) : Option RiskTier :=
  [green, yellow, orange, red].find? fun t => t.name = s

@[simp] theorem ofName?_name (t : RiskTier) : ofName? t.name = some t := by
  cases t <;> rfl

end RiskTier

/-- `max_tier(current, candidate)`. -/
def maxTier (current candidate : RiskTier) : RiskTier :=
  if current.rank < candidate.rank then candidate else current

theorem rank_injective : Function.Injective RiskTier.rank := by
  intro s t h
  cases s <;> cases t <;> simp_all [RiskTier.rank]

@[simp] theorem rank_maxTier (s t : RiskTier) : (maxTier s t).rank = max s.rank t.rank := by
  unfold maxTier
  split <;> omega

@[simp] theorem maxTier_green_left (t : RiskTier) : maxTier .green t = t := by
  cases t <;> rfl

/-- Red wins over every tier. -/
@[simp] theorem maxTier_eq_red {s t : RiskTier} : maxTier s t = .red ↔ s = .red ∨ t = .red := by
  cases s <;> cases t <;> decide

theorem maxTier_comm (s t : RiskTier) : maxTier s t = maxTier t s := by
  apply rank_injective
  rw [rank_maxTier, rank_maxTier, max_comm]

theorem maxTier_assoc (s t u : RiskTier) : maxTier (maxTier s t) u = maxTier s (maxTier t u) := by
  apply rank_injective
  simp only [rank_maxTier, max_assoc]

/-- `value in TIERS`, which raises on a value that cannot be hashed : the tier, `none`
for a value that names none. -/
def readTier (v : JVal) : Except PyError (Option RiskTier) :=
  if hashable v then
    .ok (match v with
      | .str s => RiskTier.ofName? s
      | _ => none)
  else .error .typeError

theorem readTier_succeeds {v : JVal} : (readTier v).succeeds = true ↔ hashable v = true := by
  unfold readTier
  split <;> simp_all [Except.succeeds]

/-- `int(v)` of a JSON value. -/
def toInt [PyUnicode] : JVal → Except PyError Int
  | .int n => .ok n
  | .bool b => .ok b.toNat
  | .float x =>
    match x.num with
    | .fin q => .ok (q.num.tdiv q.den)
    | .nan => .error .valueError
    | _ => .error .overflowError
  | .str s =>
    match PyText.int? s with
    | some n => .ok n
    | none => .error .valueError
  | _ => .error .typeError

/-! ## Features -/

structure FeatureVector where
  action : String
  /-- An integer, or the `True` of a payload that says so. -/
  citationCount : JVal
  hasPii : Bool
  piiLabels : List String
  crossBorder : Bool
  lawfulBasisPresent : Bool
  prohibitedPhrases : List String
  amountAed : Option PyFloat
deriving DecidableEq

/-- The number a citation count stands for. -/
def FeatureVector.citations (f : FeatureVector) : Int :=
  match f.citationCount with
  | .int n => n
  | .bool b => b.toNat
  | _ => 0

/-- `features.to_dict()`. -/
def FeatureVector.toDict (f : FeatureVector) : Dict :=
  [("action", .str f.action),
    ("citation_count", f.citationCount),
    ("has_pii", .bool f.hasPii),
    ("pii_labels", .arr (f.piiLabels.map JVal.str)),
    ("cross_border", .bool f.crossBorder),
    ("lawful_basis_present", .bool f.lawfulBasisPresent),
    ("prohibited_phrases", .arr (f.prohibitedPhrases.map JVal.str)),
    ("amount_aed", match f.amountAed with
      | some x => .float x
      | none => .null)]

open Regex in
/-- `\b(guaranteed|risk[- ]?free|will return|assured profit)\b`, ignoring case. -/
def guaranteedReturn : Regex :=
  seqs [.bound,
    alts (seqs (litI "guaranteed"))
      [seqs (litI "risk" ++ [.opt (.cls (.union (.lit '-') (.lit ' ')))] ++ litI "free"),
        seqs (litI "will return"), seqs (litI "assured profit")],
    .bound]

open Regex in
/-- `\b(100% certain|no risk|cannot lose)\b`, ignoring case. -/
def absoluteClaim : Regex :=
  seqs [.bound,
    alts (seqs (litI "100% certain")) [seqs (litI "no risk"), seqs (litI "cannot lose")],
    .bound]

/-- `PROHIBITED_PHRASE_PATTERNS`. -/
def prohibitedPhrasePatterns : List LabelledPattern :=
  [("guaranteed_return", guaranteedReturn), ("absolute_claim", absoluteClaim)]

/-- `_citation_count(payload)`. -/
def citationCount (payload : Dict) : JVal :=
  match payload.get "citations" with
  | .int n => .int (max 0 n)
  | .bool b => if b then .bool true else .int 0
  | .arr items => .int items.length
  | _ => .int 0

/-- `float(amount) if isinstance(amount, (int, float)) else None`. -/
def amountAed (payload : Dict) : Except PyError (Option PyFloat) :=
  match payload.get "amount_aed" with
  | .int n => toFloat n
  | .bool b => toFloat b.toNat
  | .float x => .ok (some x)
  | _ => .ok none
where
  /-- `float(n)`. -/
  toFloat (n : Int) : Except PyError (Option PyFloat) :=
    match PyFloat.ofInt? n with
    | some x => .ok (some x)
    | none => .error .overflowError

/-- The labels found by a walk over the texts, each once, in the order met. -/
def dedupFirst (labels : List String) : List String :=
  labels.foldl (fun found label => if found.contains label then found else found ++ [label]) []

section Extract

variable [PyUnicode]

/-- `_detect_prohibited_phrases(payload)`. -/
def detectProhibitedPhrases (payload : Dict) : List String :=
  dedupFirst (scanItems prohibitedPhrasePatterns payload)

/-- `extract_features(action, payload)`, with the PII patterns `table`. -/
def extractFeaturesWith (table : List LabelledPattern) (action : String) (payload : Dict) :
    Except PyError FeatureVector := do
  let piiLabels := sortedSet (scanItems table payload)
  let amount ← amountAed payload
  return {
    action := action
    citationCount := citationCount payload
    hasPii := !piiLabels.isEmpty
    piiLabels := piiLabels
    crossBorder := ((payload.get "cross_border").orElse (payload.get "transfer_abroad")).truthy
    lawfulBasisPresent :=
      ((payload.get "lawful_basis").orElse (payload.get "cross_border_lawful_basis")).truthy
    prohibitedPhrases := detectProhibitedPhrases payload
    amountAed := amount }

/-- `extract_features(action, payload)`. -/
def extractFeatures (action : String) (payload : Dict) : Except PyError FeatureVector :=
  extractFeaturesWith patterns action payload

end Extract

/-- The amount is no integer past every double. -/
def AmountFits (payload : Dict) : Prop :=
  ∀ n, payload.get "amount_aed" = .int n → (PyFloat.ofInt? n).isSome = true

theorem amountAed_succeeds {payload : Dict} :
    (amountAed payload).succeeds = true ↔ AmountFits payload := by
  have hfloat (n : Int) : (amountAed.toFloat n).succeeds = true ↔
      (PyFloat.ofInt? n).isSome = true := by
    unfold amountAed.toFloat
    cases PyFloat.ofInt? n <;> simp [Except.succeeds]
  unfold amountAed AmountFits
  cases payload.get "amount_aed" with
  | int n => simp [hfloat]
  | bool b =>
    have hbool : (PyFloat.ofInt? (b.toNat : Int)).isSome = true := by
      cases b <;> decide +kernel
    simpa using (hfloat b.toNat).mpr hbool
  | _ => simp [Except.succeeds]

/-- Only the amount can raise. -/
theorem extractFeatures_succeeds [PyUnicode] {table : List LabelledPattern} {action : String}
    {payload : Dict} :
    (extractFeaturesWith table action payload).succeeds = true ↔ AmountFits payload := by
  rw [← amountAed_succeeds, extractFeaturesWith, Except.succeeds_bind]
  simp [Except.succeeds, ← Except.succeeds_iff]

/-! ## Layers -/

/-- What a built-in layer reports. Its confidence is `1.0` always. -/
structure LayerResult where
  layerId : String
  tier : RiskTier
  reasons : List String
deriving DecidableEq

/-- `layer.to_dict()`. -/
def LayerResult.toDict (l : LayerResult) : Dict :=
  [("layer_id", .str l.layerId),
    ("tier", .str l.tier.name),
    ("confidence", .float (PyFloat.ofToken "1.0")),
    ("reasons", .arr (l.reasons.map JVal.str))]

def piiLayer (f : FeatureVector) : Option LayerResult :=
  if f.hasPii then some ⟨"pii", .orange, ["PII detected: " ++ PyText.join ", " f.piiLabels]⟩
  else none

def citationsLayer (f : FeatureVector) : Option LayerResult :=
  if f.citations < 1 then
    some ⟨"citations", .yellow, ["No citations provided for factual content"]⟩
  else none

def prohibitedPhrasesLayer (f : FeatureVector) : Option LayerResult :=
  if f.prohibitedPhrases.isEmpty then none
  else some ⟨"prohibited_phrases", .orange,
    ["Prohibited marketing phrases: " ++ PyText.join ", " f.prohibitedPhrases]⟩

def crossBorderLayer (f : FeatureVector) : Option LayerResult :=
  if f.crossBorder && !f.lawfulBasisPresent then
    some ⟨"cross_border", .red, ["Cross-border transfer without documented lawful basis"]⟩
  else none

def highValueLayer (f : FeatureVector) : Option LayerResult :=
  match f.amountAed with
  | some amount =>
    if NumVal.ge amount.num (NumVal.ofInt 100000) then
      some ⟨"high_value", .orange, ["High-value amount_aed=" ++ amount.repr]⟩
    else none
  | none => none

/-- `run_deterministic_layers(features)`. -/
def runDeterministicLayers (f : FeatureVector) : List LayerResult :=
  [piiLayer f, citationsLayer f, prohibitedPhrasesLayer f, crossBorderLayer f,
    highValueLayer f].filterMap id

/-- `layer_floor_tier(layers)`. -/
def layerFloorTier (layers : List LayerResult) : RiskTier :=
  layers.foldl (fun tier layer => maxTier tier layer.tier) .green

theorem foldl_maxTier_eq_red {layers : List LayerResult} {t : RiskTier} :
    layers.foldl (fun tier layer => maxTier tier layer.tier) t = .red ↔
      t = .red ∨ ∃ l ∈ layers, l.tier = .red := by
  induction layers generalizing t with
  | nil => simp
  | cons l layers ih => rw [List.foldl_cons, ih, maxTier_eq_red, List.exists_mem_cons_iff, or_assoc]

/-- The transfer is cross-border and no lawful basis is given. -/
def FeatureVector.NoLawfulBasis (f : FeatureVector) : Prop :=
  f.crossBorder = true ∧ f.lawfulBasisPresent = false

instance (f : FeatureVector) : Decidable f.NoLawfulBasis := inferInstanceAs (Decidable (_ ∧ _))

/-- One layer is red, and only it. -/
theorem layerFloorTier_eq_red {f : FeatureVector} :
    layerFloorTier (runDeterministicLayers f) = .red ↔ f.NoLawfulBasis := by
  rw [layerFloorTier, foldl_maxTier_eq_red]
  simp only [runDeterministicLayers, List.mem_filterMap, id, List.mem_cons, List.not_mem_nil,
    or_false, FeatureVector.NoLawfulBasis, reduceCtorEq, false_or]
  constructor
  · rintro ⟨l, ⟨_, rfl | rfl | rfl | rfl | rfl, h⟩, htier⟩
    · simp only [piiLayer] at h
      split at h <;> simp_all
      subst h; cases htier
    · simp only [citationsLayer] at h
      split at h <;> simp_all
      subst h; cases htier
    · simp only [prohibitedPhrasesLayer] at h
      split at h <;> simp_all
      subst h; cases htier
    · simp only [crossBorderLayer] at h
      split at h <;> simp_all
    · simp only [highValueLayer] at h
      split at h
      · split at h <;> simp_all
        subst h; cases htier
      · cases h
  · rintro ⟨hcross, hbasis⟩
    have hlayer : crossBorderLayer f = some ⟨"cross_border", .red,
        ["Cross-border transfer without documented lawful basis"]⟩ := by
      simp [crossBorderLayer, hcross, hbasis]
    exact ⟨_, ⟨_, Or.inr (Or.inr (Or.inr (Or.inl rfl))), hlayer⟩, rfl⟩

end Attest
