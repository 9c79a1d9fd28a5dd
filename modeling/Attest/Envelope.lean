import Attest.Crypto

/-!
# The signed envelope

`buildEnvelope` is the object an event's hash and signature are made over. Its
canonical text determines every field (`buildEnvelope_inj`), and is longer than two
digests (`length_canonicalBytes_buildEnvelope`), so no inner node of a Merkle tree is
hashed from the same bytes.
-/

namespace Attest

/-- `None` or a text. -/
def optStr : Option String → JVal
  | none => .null
  | some s => .str s

theorem optStr_injective : Function.Injective optStr := by
  intro a b h
  cases a <;> cases b <;> simp_all [optStr]

@[simp] theorem optStr_inj {a b : Option String} : optStr a = optStr b ↔ a = b :=
  optStr_injective.eq_iff

@[simp] theorem sortKeys_optStr (a : Option String) : (optStr a).sortKeys = optStr a := by
  cases a <;> simp [optStr, JVal.sortKeys]

/-- `build_envelope(..)`. The columns `created_at` and `alg` reach it as JSON. -/
def buildEnvelope (traceId : String) (seq : Int) (eventType payloadHash : String)
    (prevHash policyVersion : Option String) (createdAt alg : JVal) : Dict :=
  [("alg", alg),
    ("trace_id", .str traceId),
    ("seq", .int seq),
    ("type", .str eventType),
    ("payload_hash", .str payloadHash),
    ("prev_hash", optStr prevHash),
    ("policy_version", optStr policyVersion),
    ("created_at", createdAt)]

/-- Envelopes with one canonical text agree in every field. -/
theorem buildEnvelope_inj {t t' : String} {n n' : Int} {y y' p p' : String}
    {v v' z z' : Option String} {c c' a a' : JVal}
    (h : canonicalBytes (buildEnvelope t n y p v z c a) =
      canonicalBytes (buildEnvelope t' n' y' p' v' z' c' a')) :
    (t = t' ∧ n = n' ∧ y = y' ∧ p = p' ∧ v = v' ∧ z = z') ∧
      c.sortKeys = c'.sortKeys ∧ a.sortKeys = a'.sortKeys := by
  have hkey (key : String) := JVal.get?_eq_of_sortKeys_eq (canonicalBytes_inj.mp h)
    (by simp [buildEnvelope]) key
  have ht : t = t' := by simpa [buildEnvelope, Dict.get?, JVal.sortKeys] using hkey "trace_id"
  have hn : n = n' := by simpa [buildEnvelope, Dict.get?, JVal.sortKeys] using hkey "seq"
  have hy : y = y' := by simpa [buildEnvelope, Dict.get?, JVal.sortKeys] using hkey "type"
  have hp : p = p' := by simpa [buildEnvelope, Dict.get?, JVal.sortKeys] using hkey "payload_hash"
  have hv : v = v' := by simpa [buildEnvelope, Dict.get?] using hkey "prev_hash"
  have hz : z = z' := by simpa [buildEnvelope, Dict.get?] using hkey "policy_version"
  have hc : c.sortKeys = c'.sortKeys := by simpa [buildEnvelope, Dict.get?] using hkey "created_at"
  have ha : a.sortKeys = a'.sortKeys := by simpa [buildEnvelope, Dict.get?] using hkey "alg"
  exact ⟨⟨ht, hn, hy, hp, hv, hz⟩, hc, ha⟩

/-- An envelope is longer than two digests. -/
theorem length_canonicalBytes_buildEnvelope (t : String) (n : Int) (y p : String)
    (v z : Option String) (c a : JVal) :
    64 < (canonicalBytes (buildEnvelope t n y p v z c a)).length := by
  have hroom := length_canonicalBytes (buildEnvelope t n y p v z c a)
  have h : JVal.keyRoom (buildEnvelope t n y p v z c a) = 87 := by
    simp only [JVal.keyRoom, buildEnvelope, List.map_cons, List.map_nil]
    decide
  omega

end Attest
