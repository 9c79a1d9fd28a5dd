import Attest.Packs
import Attest.Pii

/-!
# Remediation plans

For an output that is flagged or blocked `plan` suggests what it can become : edits a
pattern can make, fields to supply, and what is left to a person. A plan carries the
hash of its body, and `chainSummary` is its shape without its content, which is what a
decision records.
-/

namespace Attest

/-! ## Mitigations -/

/-- The text with the occurrences of `old` replaced from the left. `skip` characters are
left of an occurrence. -/
def replaceFrom (old new : List Char) : Nat → List Char → List Char
  | _, [] => []
  | skip + 1, _ :: cs => replaceFrom old new skip cs
  | 0, c :: cs =>
    if old.isPrefixOf (c :: cs) then new ++ replaceFrom old new (old.length - 1) cs
    else c :: replaceFrom old new 0 cs

/-- `text.replace(old, new)`, for a text `old` that is not empty. -/
def replaceText (old new text : String) : String :=
  String.ofList (replaceFrom old.toList new.toList 0 text.toList)

/-- `VERIFY_DISCLAIMER`. -/
def verifyDisclaimer : String :=
  "Verify all figures and claims against primary sources before acting on this output."

/-- `_soften_claims(payload)`. -/
def softenClaims (payload : Dict) : Dict :=
  ["output", "summary", "prompt"].foldl (fun updated key =>
    match Dict.get updated key with
    | .str text => setItem updated (key,
        .str (replaceText "risk-free" "subject to risk" (replaceText "guaranteed" "may" text)))
    | _ => updated) payload

section Plan

variable [PyUnicode]

/-- `_HANDLERS`. -/
def mitigationHandler : String → Option (Dict → Dict)
  | "redact_pii_before_send" => some fun payload => (redactPayload payload).1
  | "append_verify_disclaimer" =>
    some fun payload => setItem payload ("attest_disclaimer", .str verifyDisclaimer)
  | "soften_absolute_claims" => some softenClaims
  | "require_human_review" =>
    some fun payload => setItem payload ("human_review_required", .bool true)
  | _ => none

/-- `apply_mitigation_ids(payload, mitigation_ids)`. -/
def applyMitigationIds (payload : Dict) (mitigationIds : List String) : Dict × List String :=
  mitigationIds.foldl (fun (result, applied) id =>
    match mitigationHandler id with
    | some handler => (handler result, applied ++ [id])
    | none => (result, applied)) (payload, [])

/-! ## Plans -/

structure PlanEdit where
  kind : String
  /-- The key `labels` or `phrases`, with the labels that were found. -/
  found : String × List String
  explanation : String
  cures : List Dict

def PlanEdit.toDict (e : PlanEdit) : Dict :=
  [("kind", .str e.kind),
    (e.found.1, .arr (e.found.2.map JVal.str)),
    ("explanation", .str e.explanation),
    ("cures", .arr (e.cures.map JVal.obj))]

structure PlanRequirement where
  kind : String
  field : String
  explanation : String
  cures : List Dict

def PlanRequirement.toDict (r : PlanRequirement) : Dict :=
  [("kind", .str r.kind),
    ("field", .str r.field),
    ("explanation", .str r.explanation),
    ("cures", .arr (r.cures.map JVal.obj))]

structure PlanUnresolved where
  finding : Dict
  note : String

def PlanUnresolved.toDict (u : PlanUnresolved) : Dict :=
  [("finding", .obj u.finding), ("note", .str u.note)]

/-- What `draft_rewrite` returns of a draft. -/
structure RewriteDraft where
  output : Dict
  reclassified : Bool
  notes : String
  draftedBy : String
  promptSha256 : String

/-- A draft that was judged compliant, as a plan carries it. -/
def RewriteDraft.toDict (d : RewriteDraft) : Dict :=
  [("output", .obj d.output),
    ("reclassified", .bool d.reclassified),
    ("notes", .str d.notes),
    ("drafted_by", .str d.draftedBy),
    ("prompt_sha256", .str d.promptSha256),
    ("evaluation", .str Status.compliant.name),
    ("requires_human_confirmation", .bool d.reclassified)]

structure RemediationPlan where
  revisedOutput : Option Dict
  edits : List PlanEdit
  requirements : List PlanRequirement
  unresolved : List PlanUnresolved
  rewrite : Option RewriteDraft

/-- The body of a plan, which its hash is of. -/
def RemediationPlan.body (p : RemediationPlan) : Dict :=
  [("revised_output", match p.revisedOutput with
      | some revised => .obj revised
      | none => .null),
    ("edits", .arr (p.edits.map fun e => .obj e.toDict)),
    ("requirements", .arr (p.requirements.map fun r => .obj r.toDict)),
    ("unresolved", .arr (p.unresolved.map fun u => .obj u.toDict))] ++
    match p.rewrite with
    | some draft => [("rewrite", .obj draft.toDict)]
    | none => []

/-- `plan["plan_hash"]`. -/
def RemediationPlan.planHash (p : RemediationPlan) : String :=
  sha256Hex p.body

/-- `citations(signal)`. -/
def citations (findings : List PackFinding) (signal : String) : List Dict :=
  (findings.filter fun f => f.matchedOn = some signal).map fun f =>
    [("pack_code", .str f.packCode),
      ("rule_id", .str f.ruleId),
      ("instrument", .str f.instrument),
      ("provision", f.provision)]

/-- `_TEXTUAL_SIGNALS` and `_REQUIREMENT_SIGNALS`. -/
def curedSignals : List String := ["has_pii", "prohibited_phrases", "cross_border"]

def redactEdit (features : FeatureVector) (findings : List PackFinding) : PlanEdit where
  kind := "redact_pii"
  found := ("labels", features.piiLabels.insertionSort (· ≤ ·))
  explanation := "Personal data detected in the output. The revision replaces " ++
    "each occurrence with a [REDACTED:<label>] marker."
  cures := citations findings "has_pii"

def softenEdit (features : FeatureVector) (findings : List PackFinding) : PlanEdit where
  kind := "soften_phrases"
  found := ("phrases", features.prohibitedPhrases.insertionSort (· ≤ ·))
  explanation := "Absolute or guaranteed-outcome language detected. The " ++
    "revision softens it to non-promissory wording."
  cures := citations findings "prohibited_phrases"

def basisRequirement (findings : List PackFinding) : PlanRequirement where
  kind := "add_field"
  field := "lawful_basis"
  explanation := "A cross-border transfer needs a documented lawful basis. " ++
    "No text edit cures this — set `lawful_basis` on the payload " ++
    "(e.g. 'contract', 'adequacy') once the basis exists."
  cures := citations findings "cross_border"

def judgementCall (f : PackFinding) : PlanUnresolved where
  finding := [("pack_code", .str f.packCode),
    ("rule_id", .str f.ruleId),
    ("instrument", .str f.instrument)]
  note := "No mechanical fix exists for this finding — it needs human " ++
    "judgement or a workflow change, not a text edit."

def ownDenial (policyReasons : List String) : PlanUnresolved where
  finding := [("rule_id", .str "own_policy"),
    ("pack_code", .null),
    ("instrument", .str "your organisation's own policy")]
  note := "Your own policy denied this action outright" ++
    (match policyReasons with
      | reason :: _ => ": " ++ reason
      | [] => "") ++
    ". A denied action is a decision, not a wording problem — " ++
    "route it through your approval workflow."

def leftoverPii (leftover : List String) : PlanUnresolved where
  finding := [("rule_id", .str "pii_redaction"),
    ("pack_code", .null),
    ("instrument", .str "Attest PII detector")]
  note := "Automatic redaction could not fully remove detected " ++
    "personal data (remaining: " ++ PyText.join ", " leftover ++ "). " ++
    "Review and edit this output by hand."

/-- `plan(payload, features, findings, policy_reasons, blocked)`. -/
def plan (payload : Dict) (features : FeatureVector) (findings : List PackFinding)
    (policyReasons : List String) (blocked : Bool) : Option RemediationPlan :=
  let phrased := !features.prohibitedPhrases.isEmpty
  let mitigationIds := (if features.hasPii then ["redact_pii_before_send"] else []) ++
    if phrased then ["soften_absolute_claims"] else []
  let edits := (if features.hasPii then [redactEdit features findings] else []) ++
    if phrased then [softenEdit features findings] else []
  let requirements :=
    if features.crossBorder && !features.lawfulBasisPresent then [basisRequirement findings] else []
  let open_ := (findings.filter fun f => !f.matchedOn.any curedSignals.contains).map judgementCall
  let denied := if blocked then [ownDenial policyReasons] else []
  let revised := (applyMitigationIds payload mitigationIds).1
  let leftover := if features.hasPii then detectPiiLabels revised else []
  let p : RemediationPlan :=
    if leftover.isEmpty then
      ⟨if mitigationIds.isEmpty then none else some revised, edits, requirements,
        open_ ++ denied, none⟩
    else
      ⟨none, edits.filter fun e => e.kind ≠ "redact_pii", requirements,
        open_ ++ denied ++ [leftoverPii leftover], none⟩
  if p.edits.isEmpty && p.requirements.isEmpty && p.unresolved.isEmpty then none else some p

end Plan

/-- `attach_rewrite(plan, rewrite)`. -/
def attachRewrite (p : RemediationPlan) (draft : RewriteDraft) : RemediationPlan :=
  { p with rewrite := some draft }

/-- `chain_summary(remediation_plan)`. -/
def chainSummary (p : RemediationPlan) : Dict :=
  [("plan_hash", .str p.planHash),
    ("edit_kinds", .arr ((sortedSet (p.edits.map PlanEdit.kind)).map JVal.str)),
    ("requirement_kinds", .arr
      ((sortedSet (p.requirements.map PlanRequirement.kind)).map JVal.str)),
    ("unresolved_count", .int p.unresolved.length),
    ("has_revision", .bool p.revisedOutput.isSome),
    ("has_rewrite", .bool p.rewrite.isSome),
    ("rewrite_drafted_by", optStr (p.rewrite.map RewriteDraft.draftedBy)),
    ("rewrite_reclassified", .bool (p.rewrite.any RewriteDraft.reclassified))]

end Attest
