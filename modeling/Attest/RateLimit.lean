import Attest.Lib.SlidingWindow
import Mathlib.Algebra.Order.Ring.Int
import Mathlib.Data.String.Basic

/-!
# Rate limiting

The middleware keeps the times of the requests it passed on for each API key
(`RateLimits.dispatch`). Over every run of requests whose clock does not go back, a request
is refused exactly when the limit of requests of its key was passed on within the window, and
no window of time has more than the limit of a key in it (`rate_limited`).
-/

namespace Attest

/-! ## The middleware -/

/-- `_EXEMPT_PATHS`. -/
def exemptPaths : List String := ["/health", "/docs", "/openapi.json", "/redoc"]

/-- What a request is limited by. -/
structure LimitedRequest where
  path : String
  apiKey : Option String

/-- `max_requests` and `window_seconds`, in the ticks of the clock. -/
structure RateLimits where
  maxRequests : Nat
  window : Int

/-- `_hits`, a `defaultdict` of queues. -/
abbrev Hits := String → List Int

inductive Passage where
  | passed
  /-- 429, `rate limit exceeded`. -/
  | refused
deriving DecidableEq

/-- `request.headers.get("x-api-key", "anonymous")`. -/
def LimitedRequest.key (request : LimitedRequest) : String :=
  request.apiKey.getD "anonymous"

def LimitedRequest.isExempt (request : LimitedRequest) : Bool :=
  exemptPaths.contains request.path

/-- `dispatch(request, call_next)`. -/
def RateLimits.dispatch (limits : RateLimits) (hits : Hits) (now : Int) (request : LimitedRequest) :
    Passage × Hits :=
  if request.isExempt then (.passed, hits)
  else
    let (admitted, bucket) :=
      SlidingWindow.offer limits.maxRequests limits.window now (hits request.key)
    (if admitted then .passed else .refused, Function.update hits request.key bucket)

/-! ## Runs -/

/-- A request that was answered. -/
structure LimitedAnswer where
  now : Int
  request : LimitedRequest
  passage : Passage

/-- The middleware after its first requests, and what it answered. -/
def RateLimits.serve (limits : RateLimits) (requests : List (Int × LimitedRequest)) :
    Hits × List LimitedAnswer :=
  requests.foldl (fun (hits, log) (now, request) =>
    let (passage, hits') := limits.dispatch hits now request
    (hits', log ++ [⟨now, request, passage⟩])) (fun _ => [], [])

/-- The request counts against the key, and was passed on. -/
def LimitedAnswer.countsFor (key : String) (a : LimitedAnswer) : Bool :=
  !a.request.isExempt && a.request.key = key && a.passage = .passed

/-- When requests of a key were passed on. -/
def timesOf (key : String) (log : List LimitedAnswer) : List Int :=
  (log.filter (LimitedAnswer.countsFor key)).map LimitedAnswer.now

/-- The clock does not go back. -/
def ClockForward (requests : List (Int × LimitedRequest)) : Prop :=
  requests.Pairwise fun a b => a.1 ≤ b.1

/-- What the middleware keeps of a key at a time. -/
def BucketKept (limits : RateLimits) (now : Int) (hits : Hits) (log : List LimitedAnswer)
    (key : String) : Prop :=
  SlidingWindow.Kept limits.maxRequests limits.window now (timesOf key log) (hits key)

theorem timesOf_snoc (key : String) (log : List LimitedAnswer) (a : LimitedAnswer) :
    timesOf key (log ++ [a]) = timesOf key log ++ if a.countsFor key then [a.now] else [] := by
  rw [timesOf, timesOf, List.filter_append, List.map_append, List.filter_singleton]
  cases a.countsFor key <;> rfl

/-- A request is refused where the limit was passed on within the window, and not else. -/
theorem BucketKept.refused_iff {limits : RateLimits} {now : Int} {hits : Hits}
    {log : List LimitedAnswer}
    {request : LimitedRequest} (h : BucketKept limits now hits log request.key) :
    (limits.dispatch hits now request).1 = .refused ↔ request.isExempt = false ∧
      limits.maxRequests ≤
        (timesOf request.key log).countP fun t => decide (now - t ≤ limits.window) := by
  have hadmits := h.offer_iff
  rw [← not_lt, ← hadmits, RateLimits.dispatch]
  cases request.isExempt with
  | true => simp
  | false => simp

/-- One request keeps what is kept of each key. -/
theorem BucketKept.dispatch {limits : RateLimits} {now : Int} {hits : Hits}
    {log : List LimitedAnswer}
    (h : ∀ key, BucketKept limits now hits log key) (request : LimitedRequest) (key : String) :
    BucketKept limits now (limits.dispatch hits now request).2
      (log ++ [⟨now, request, (limits.dispatch hits now request).1⟩]) key := by
  have hkept := h key
  rw [BucketKept, timesOf_snoc]
  cases hexempt : request.isExempt with
  | true =>
    have hdispatch : limits.dispatch hits now request = (.passed, hits) := by
      rw [RateLimits.dispatch, if_pos hexempt]
    have hno : LimitedAnswer.countsFor key ⟨now, request, .passed⟩ = false := by
      simp [LimitedAnswer.countsFor, hexempt]
    rw [hdispatch, hno, if_neg Bool.false_ne_true, List.append_nil]
    exact hkept
  | false =>
    obtain ⟨hpassage, hhits⟩ : (limits.dispatch hits now request).1 =
        (if (SlidingWindow.offer limits.maxRequests limits.window now (hits request.key)).1 then
          .passed else .refused) ∧
        (limits.dispatch hits now request).2 = Function.update hits request.key
          (SlidingWindow.offer limits.maxRequests limits.window now (hits request.key)).2 := by
      rw [RateLimits.dispatch, if_neg (by simp [hexempt])]
      exact ⟨rfl, rfl⟩
    rw [hhits, hpassage]
    by_cases hkey : request.key = key
    · subst hkey
      have hcounts : ∀ admitted : Bool, LimitedAnswer.countsFor request.key
          ⟨now, request, if admitted then .passed else .refused⟩ = admitted := by
        intro admitted
        cases admitted <;> simp [LimitedAnswer.countsFor, hexempt]
      rw [Function.update_self, hcounts]
      exact hkept.offer
    · have hno (passage : Passage) :
          LimitedAnswer.countsFor key ⟨now, request, passage⟩ = false := by
        simp [LimitedAnswer.countsFor, hkey]
      rw [Function.update_of_ne (Ne.symm hkey), hno, if_neg Bool.false_ne_true, List.append_nil]
      exact hkept

theorem serve_snoc (limits : RateLimits) (requests : List (Int × LimitedRequest)) (now : Int)
    (request : LimitedRequest) :
    limits.serve (requests ++ [(now, request)]) =
      ((limits.dispatch (limits.serve requests).1 now request).2,
        (limits.serve requests).2 ++
          [⟨now, request, (limits.dispatch (limits.serve requests).1 now request).1⟩]) := by
  rw [RateLimits.serve, List.foldl_append]
  rfl

/-- What is kept of each key after a run. -/
theorem bucketKept_serve (limits : RateLimits) {requests : List (Int × LimitedRequest)}
    (hclock : ClockForward requests) {now : Int} (hnow : ∀ r ∈ requests, r.1 ≤ now) (key : String) :
    BucketKept limits now (limits.serve requests).1 (limits.serve requests).2 key := by
  induction requests using List.reverseRecOn generalizing now key with
  | nil =>
    exact SlidingWindow.kept_nil _ _ _
  | append_singleton requests r ih =>
    obtain ⟨at', request⟩ := r
    obtain ⟨hclock, -, hlast⟩ := List.pairwise_append.mp hclock
    have hbefore (r : Int × LimitedRequest) (hr : r ∈ requests) : r.1 ≤ at' :=
      hlast r hr _ (List.mem_singleton.mpr rfl)
    have hle : at' ≤ now := hnow _ (List.mem_append_right _ (List.mem_singleton.mpr rfl))
    rw [serve_snoc]
    have hkept := BucketKept.dispatch (fun key => ih hclock hbefore key) request key
    exact SlidingWindow.Kept.mono hkept hle

/-- The middleware refuses a request exactly when the limit of requests of its key was passed on
within the window before it, and never passes more than the limit on in a window. -/
theorem rate_limited (limits : RateLimits) (requests : List (Int × LimitedRequest)) (now : Int)
    (request : LimitedRequest) (hclock : ClockForward (requests ++ [(now, request)])) :
    ((limits.dispatch (limits.serve requests).1 now request).1 = .refused ↔
      request.isExempt = false ∧ limits.maxRequests ≤
        (timesOf request.key (limits.serve requests).2).countP
          fun t => decide (now - t ≤ limits.window)) ∧
    ∀ key a, (timesOf key (limits.serve (requests ++ [(now, request)])).2).countP
      (fun t => decide (a ≤ t ∧ t ≤ a + limits.window)) ≤ limits.maxRequests := by
  have hnow : ∀ r ∈ requests ++ [(now, request)], r.1 ≤ now := by
    intro r hr
    rcases List.mem_append.mp hr with hr | hr
    · exact (List.pairwise_append.mp hclock).2.2 r hr _ (List.mem_singleton.mpr rfl)
    · exact le_of_eq (congrArg Prod.fst (List.mem_singleton.mp hr))
  have hkept := bucketKept_serve limits (List.pairwise_append.mp hclock).1
    (fun r hr => hnow r (List.mem_append_left _ hr)) request.key
  refine ⟨hkept.refused_iff, fun key a => ?_⟩
  exact (bucketKept_serve limits hclock hnow key).sparse.countP_le a

/-- The third of three requests within a window of two. -/
theorem rate_limited_sample :
    (RateLimits.dispatch ⟨2, 60⟩ (RateLimits.serve ⟨2, 60⟩
      [(0, ⟨"/v1/gate", some "k"⟩), (10, ⟨"/v1/gate", some "k"⟩)]).1 60 ⟨"/v1/gate", some "k"⟩).1 =
        .refused :=
  (rate_limited ⟨2, 60⟩ [(0, ⟨"/v1/gate", some "k"⟩), (10, ⟨"/v1/gate", some "k"⟩)] 60
    ⟨"/v1/gate", some "k"⟩ (by simp [ClockForward])).1.mpr ⟨by decide, by decide⟩

end Attest
