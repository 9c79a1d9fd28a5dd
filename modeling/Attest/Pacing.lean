import Attest.Crypto
import Attest.Lib.PyText
import Mathlib.Algebra.Order.Field.Rat
import Mathlib.Logic.Function.Basic
import Mathlib.Tactic.Linarith

/-!
# Pacing the fetches of a sweep

The fetcher of a sweep waits before each call of its getter until the host has had its breathing
room since the last call that returned, and tries again where the host asks for patience, as
long as the host says and a few times at most (`fetcher`).

Whatever the getter returns and however long it takes, in a run of fetches no call for a host
starts within the delay of an earlier one that returned, and none is for a URL that is not https
(`hosts_paced`). One fetch calls the getter no more often than it may, again only after an answer
that asks for patience and only after the wait that this answer gives, and returns the last answer
(`fetch_retries`).

A call is what the pacer sees. The getter follows redirects by itself, so one call may send
several requests, without a wait between them and to other URLs.
-/

namespace Attest

/-! ## Hosts that answer -/

/-- The settings of the fetcher, which the environment may change. Seconds are exact here, where
the program has floats. -/
structure PacingSettings where
  /-- `HostPacer(delay)`. -/
  delay : ℚ
  /-- `MAX_RETRIES`. -/
  maxRetries : Nat
  /-- `DEFAULT_HOST_DELAY`. -/
  hostDelay : ℚ
  hostDelay_nonneg : 0 ≤ hostDelay

/-- The settings where the environment says nothing. -/
def PacingSettings.default : PacingSettings where
  delay := 6
  maxRetries := 2
  hostDelay := 6
  hostDelay_nonneg := by norm_num

/-- `self.delay` of the pacer. -/
def PacingSettings.pace (settings : PacingSettings) : ℚ :=
  max 0 settings.delay

/-- `RETRY_STATUSES`. -/
def retryStatuses : List Int := [429, 500, 502, 503, 504]

/-- `MAX_RETRY_WAIT`. -/
def maxRetryWait : ℚ := 60

/-- What the getter returns. `retryAfter` is the number in the `Retry-After` header. -/
structure HostResponse where
  status : Int
  text : String
  retryAfter : Option ℚ
deriving DecidableEq

/-- How a call of the getter ends, and how long it takes, with the redirects it follows. -/
structure HostReply where
  took : ℚ
  took_nonneg : 0 ≤ took
  /-- The response, or the exception of the transport. -/
  answer : Except String HostResponse

/-- The getter and the clock : how the `n`-th call ends, and by how much the `n`-th sleep is
too long. -/
structure Surroundings where
  reply : Nat → String → HostReply
  overslept : Nat → ℚ
  overslept_nonneg : ∀ n, 0 ≤ overslept n

/-- A call of the getter, for the host of its URL. `response` is none where it raised. -/
structure GetterCall where
  url : String
  host : String
  started : ℚ
  ended : ℚ
  response : Option HostResponse
deriving DecidableEq

/-- `HostPacer`, with the time, the sleeps so far and the calls of the getter. -/
structure HostPacer where
  now : ℚ
  /-- `_last`. -/
  last : String → Option ℚ
  sleeps : Nat
  gets : List GetterCall

/-- A pacer of a new sweep. -/
def newPacer (now : ℚ) : HostPacer where
  now := now
  last _ := none
  sleeps := 0
  gets := []

/-- What a fetch raises. -/
inductive FetchError where
  /-- `WatchError`. -/
  | watch (msg : String)
  /-- What `urlparse` or the transport raises. -/
  | raised (msg : String)

/-! ## The fetcher -/

section Fetching

variable (settings : PacingSettings) (hosts : Surroundings)

namespace HostPacer

/-- `sleep(seconds)`. -/
def sleep (pacer : HostPacer) (seconds : ℚ) : HostPacer :=
  { pacer with
    now := pacer.now + seconds + hosts.overslept pacer.sleeps
    sleeps := pacer.sleeps + 1 }

/-- `wait_for(url)`, for the host of the URL. -/
def waitFor (pacer : HostPacer) (host : String) : HostPacer :=
  match pacer.last host with
  | none => pacer
  | some last =>
    if settings.pace ≤ 0 then pacer
    else
      let gap := settings.pace - (pacer.now - last)
      if 0 < gap then pacer.sleep hosts gap else pacer

/-- `fetch(url)`, which is the getter, and `mark(url)` where it returns. -/
def get (pacer : HostPacer) (url host : String) : HostPacer × Except String HostResponse :=
  let reply := hosts.reply pacer.gets.length url
  let ended := pacer.now + reply.took
  match reply.answer with
  | .error e =>
    ({ pacer with
        now := ended
        gets := pacer.gets ++ [⟨url, host, pacer.now, ended, none⟩] }, .error e)
  | .ok response =>
    ({ pacer with
        now := ended
        last := Function.update pacer.last host (some ended)
        gets := pacer.gets ++ [⟨url, host, pacer.now, ended, some response⟩] }, .ok response)

end HostPacer

/-- `_retry_after_seconds(headers)`. -/
def HostResponse.retryAfterSeconds (response : HostResponse) : Option ℚ :=
  response.retryAfter.map (max 0)

/-- How long the fetcher waits before it tries again. -/
def PacingSettings.backoff (attempt : Nat) (response : HostResponse) : ℚ :=
  min (response.retryAfterSeconds.getD (min maxRetryWait (settings.hostDelay * 2 ^ attempt)))
    maxRetryWait

/-- The loop of the fetcher, with some attempts left after this one. -/
def tryFetch (url host : String) :
    Nat → Nat → HostPacer → HostPacer × Except FetchError (Int × String)
  | left, attempt, pacer =>
    match (pacer.waitFor settings hosts host).get hosts url host with
    | (pacer, .error e) => (pacer, .error (.raised e))
    | (pacer, .ok response) =>
      if response.status ∈ retryStatuses then
        match left with
        | 0 => (pacer, .ok (response.status, response.text))
        | left + 1 =>
          tryFetch url host left (attempt + 1)
            (pacer.sleep hosts (settings.backoff attempt response))
      else (pacer, .ok (response.status, response.text))

/-- `url.lower().startswith("https://")`. -/
def isHttps [PyUnicode] (url : String) : Bool :=
  (PyText.lower url).startsWith "https://"

/-- `fetcher(url)`, with the host that `host_of` finds in a URL. -/
def fetcher [PyUnicode] (hostOf : String → Except String String) (pacer : HostPacer)
    (url : String) : HostPacer × Except FetchError (Int × String) :=
  if isHttps url then
    match hostOf url with
    | .error e => (pacer, .error (.raised e))
    | .ok host => tryFetch settings hosts url host settings.maxRetries 0 pacer
  else
    (pacer, .error (.watch
      ("refusing to fetch a regulation source over a non-HTTPS URL: " ++ url)))

/-- A fetch of a sweep, and the time since the one before it. -/
structure FetchCall where
  url : String
  after : ℚ
  after_nonneg : 0 ≤ after

/-- The fetches of a sweep, one after the other, by one fetcher. -/
def fetchAll [PyUnicode] (hostOf : String → Except String String) (pacer : HostPacer)
    (calls : List FetchCall) : HostPacer :=
  calls.foldl (fun pacer call =>
    (fetcher settings hosts hostOf { pacer with now := pacer.now + call.after } call.url).1) pacer

/-! ## One call of the getter -/

variable {settings hosts}

/-- What waiting for a host leaves. -/
structure WaitsFor (settings : PacingSettings) (host : String) (pacer pacer' : HostPacer) :
    Prop where
  last_eq : pacer'.last = pacer.last
  gets_eq : pacer'.gets = pacer.gets
  now_le : pacer.now ≤ pacer'.now
  paced : ∀ m, pacer.last host = some m → m ≤ pacer.now → m + settings.pace ≤ pacer'.now

theorem HostPacer.now_le_sleep (hosts : Surroundings) (pacer : HostPacer) (seconds : ℚ) :
    pacer.now + seconds ≤ (pacer.sleep hosts seconds).now :=
  le_add_of_nonneg_right (hosts.overslept_nonneg pacer.sleeps)

theorem waitFor_waits (settings : PacingSettings) (hosts : Surroundings) (pacer : HostPacer)
    (host : String) : WaitsFor settings host pacer (pacer.waitFor settings hosts host) := by
  unfold HostPacer.waitFor
  cases hlast : pacer.last host with
  | none => exact ⟨rfl, rfl, le_rfl, fun m hm => by rw [hlast] at hm; cases hm⟩
  | some last =>
    have hsame {m : ℚ} (hm : pacer.last host = some m) : last = m :=
      Option.some.inj (hlast.symm.trans hm)
    dsimp only
    split
    · rename_i hnone
      refine ⟨rfl, rfl, le_rfl, fun m _ hpast => ?_⟩
      linarith
    · split
      · rename_i hgap
        have hslept := pacer.now_le_sleep hosts (settings.pace - (pacer.now - last))
        refine ⟨rfl, rfl, by linarith, fun m hm _ => ?_⟩
        have heq := hsame hm
        linarith
      · rename_i hgap
        refine ⟨rfl, rfl, le_rfl, fun m hm _ => ?_⟩
        have heq := hsame hm
        linarith

/-- What a call of the getter leaves. -/
structure Gets (pacer : HostPacer) (url host : String) (a : GetterCall) (pacer' : HostPacer) :
    Prop where
  gets_eq : pacer'.gets = pacer.gets ++ [a]
  request : a.url = url ∧ a.host = host ∧ a.started = pacer.now
  ended : a.ended = pacer'.now ∧ a.started ≤ a.ended
  last_eq : pacer'.last =
    if a.response.isSome then Function.update pacer.last host (some a.ended) else pacer.last

theorem get_gets (hosts : Surroundings) (pacer : HostPacer) (url host : String) :
    ∃ a, Gets pacer url host a (pacer.get hosts url host).1 ∧
      ((∃ e, (pacer.get hosts url host).2 = .error e ∧ a.response = none) ∨
        ∃ response, (pacer.get hosts url host).2 = .ok response ∧
          a.response = some response) := by
  have htook : pacer.now ≤ pacer.now + (hosts.reply pacer.gets.length url).took :=
    le_add_of_nonneg_right (hosts.reply pacer.gets.length url).took_nonneg
  unfold HostPacer.get
  dsimp only
  cases (hosts.reply pacer.gets.length url).answer with
  | error e => exact ⟨_, ⟨rfl, ⟨rfl, rfl, rfl⟩, ⟨rfl, htook⟩, rfl⟩, Or.inl ⟨e, rfl, rfl⟩⟩
  | ok response =>
    exact ⟨_, ⟨rfl, ⟨rfl, rfl, rfl⟩, ⟨rfl, htook⟩, rfl⟩, Or.inr ⟨response, rfl, rfl⟩⟩

/-! ## One fetch -/

/-- How one fetch calls the getter, from its `attempt`-th attempt on, with `left` attempts more to
go. -/
structure Retried (settings : PacingSettings) (url host : String) (left attempt : Nat)
    (tries : List GetterCall) (result : Except FetchError (Int × String)) : Prop where
  few : tries.length ≤ left + 1
  request : ∀ a ∈ tries, a.url = url ∧ a.host = host
  patient : ∀ i a b, tries[i]? = some a → tries[i + 1]? = some b → ∃ response,
    a.response = some response ∧ response.status ∈ retryStatuses ∧
      a.ended + settings.backoff (attempt + i) response ≤ b.started
  last : ∃ a, tries.getLast? = some a ∧ match result with
    | .ok (status, text) => ∃ response, a.response = some response ∧
        response.status = status ∧ response.text = text ∧
          (status ∈ retryStatuses → tries.length = left + 1)
    | .error _ => a.response = none

theorem retried_singleton {url host : String} {left attempt : Nat} {a : GetterCall}
    {result : Except FetchError (Int × String)} (hrequest : a.url = url ∧ a.host = host)
    (hlast : match result with
      | .ok (status, text) => ∃ response, a.response = some response ∧
          response.status = status ∧ response.text = text ∧ (status ∈ retryStatuses → left = 0)
      | .error _ => a.response = none) : Retried settings url host left attempt [a] result where
  few := Nat.le_add_left 1 left
  request b hb := List.mem_singleton.mp hb ▸ hrequest
  patient i a b _ hb := by
    cases i <;> cases hb
  last := by
    refine ⟨a, rfl, ?_⟩
    cases result with
    | error e => exact hlast
    | ok r =>
      obtain ⟨response, hresponse, hstatus, htext, hleft⟩ := hlast
      exact ⟨response, hresponse, hstatus, htext, fun hretry => by rw [hleft hretry]; rfl⟩

/-- One more attempt, before the rest. -/
theorem Retried.cons {url host : String} {left attempt : Nat} {a : GetterCall}
    {tries : List GetterCall} {result : Except FetchError (Int × String)} {response : HostResponse}
    (h : Retried settings url host left (attempt + 1) tries result)
    (hrequest : a.url = url ∧ a.host = host) (hresponse : a.response = some response)
    (hretry : response.status ∈ retryStatuses)
    (hwaits : ∀ b ∈ tries.head?, a.ended + settings.backoff attempt response ≤ b.started) :
    Retried settings url host (left + 1) attempt (a :: tries) result where
  few := Nat.succ_le_succ h.few
  request := List.forall_mem_cons.mpr ⟨hrequest, h.request⟩
  patient := by
    rintro (_ | i) b c hb hc
    · obtain rfl := Option.some.inj hb
      refine ⟨response, hresponse, hretry, hwaits c ?_⟩
      rw [List.head?_eq_getElem?]
      exact hc
    · obtain ⟨r, hr, hstatus, hle⟩ := h.patient i b c hb hc
      rw [Nat.add_right_comm] at hle
      exact ⟨r, hr, hstatus, hle⟩
  last := by
    obtain ⟨b, hb, hresult⟩ := h.last
    refine ⟨b, ?_, ?_⟩
    · rw [List.getLast?_cons, hb]
      rfl
    · cases result with
      | error e => exact hresult
      | ok r =>
        obtain ⟨last, hlast, hstatus, htext, hleft⟩ := hresult
        exact ⟨last, hlast, hstatus, htext, fun hretry => congrArg (· + 1) (hleft hretry)⟩

theorem backoff_nonneg (settings : PacingSettings) (attempt : Nat) (response : HostResponse) :
    0 ≤ settings.backoff attempt response := by
  have hwait : (0 : ℚ) ≤ maxRetryWait := by norm_num [maxRetryWait]
  refine le_min ?_ hwait
  unfold HostResponse.retryAfterSeconds
  cases response.retryAfter with
  | none => exact le_min hwait (mul_nonneg settings.hostDelay_nonneg (by positivity))
  | some seconds => exact le_max_left 0 seconds

/-- The attempts of one fetch, none before it was called. -/
theorem tryFetch_retried (settings : PacingSettings) (hosts : Surroundings) (url host : String) :
    ∀ (left attempt : Nat) (pacer : HostPacer),
    ∃ tries, (tryFetch settings hosts url host left attempt pacer).1.gets = pacer.gets ++ tries ∧
      (∀ b ∈ tries.head?, pacer.now ≤ b.started) ∧
        Retried settings url host left attempt tries
          (tryFetch settings hosts url host left attempt pacer).2
  | left, attempt, pacer => by
    have hwaits := waitFor_waits settings hosts pacer host
    obtain ⟨a, hgets, hends⟩ := get_gets hosts (pacer.waitFor settings hosts host) url host
    have hrequest : a.url = url ∧ a.host = host := ⟨hgets.request.1, hgets.request.2.1⟩
    have hcalls := hgets.gets_eq.trans (congrArg (· ++ [a]) hwaits.gets_eq)
    have hstarted : ∀ b ∈ [a].head?, pacer.now ≤ b.started := by
      rintro b hb
      obtain rfl := Option.some.inj hb
      rw [hgets.request.2.2]
      exact hwaits.now_le
    rw [tryFetch]
    generalize hget : (pacer.waitFor settings hosts host).get hosts url host = got at *
    obtain ⟨pacer', answer⟩ := got
    rcases hends with ⟨e, hanswer, hnone⟩ | ⟨response, hanswer, hsome⟩
    · obtain rfl : answer = .error e := hanswer
      exact ⟨[a], hcalls, hstarted, retried_singleton hrequest hnone⟩
    · obtain rfl : answer = .ok response := hanswer
      dsimp only
      split
      · rename_i hretry
        cases left with
        | zero =>
          exact ⟨[a], hcalls, hstarted, retried_singleton hrequest
            ⟨response, hsome, rfl, rfl, fun _ => rfl⟩⟩
        | succ left =>
          obtain ⟨tries, htries, hfirst, hretried⟩ := tryFetch_retried settings hosts url host left
            (attempt + 1) (pacer'.sleep hosts (settings.backoff attempt response))
          refine ⟨a :: tries, ?_, hstarted, hretried.cons hrequest hsome hretry fun b hb => ?_⟩
          · rw [htries]
            exact (congrArg (· ++ tries) hcalls).trans (List.append_assoc _ _ _)
          · have hslept := pacer'.now_le_sleep hosts (settings.backoff attempt response)
            rw [hgets.ended.1]
            exact hslept.trans (hfirst b hb)
      · rename_i hdone
        exact ⟨[a], hcalls, hstarted, retried_singleton hrequest
          ⟨response, hsome, rfl, rfl, fun hretry => absurd hretry hdone⟩⟩

/-! ## A run of fetches -/

/-- What the pacer keeps : the calls for a host are apart, and it has noted when the last of them
returned. -/
structure Paced (settings : PacingSettings) (pacer : HostPacer) : Prop where
  apart : pacer.gets.Pairwise fun a b => a.host = b.host → a.response.isSome = true →
    a.ended + settings.pace ≤ b.started
  noted : ∀ a ∈ pacer.gets, a.response.isSome = true →
    ∃ m, pacer.last a.host = some m ∧ a.ended ≤ m
  past : ∀ host m, pacer.last host = some m → m ≤ pacer.now

theorem paced_newPacer (now : ℚ) : Paced settings (newPacer now) :=
  ⟨List.Pairwise.nil, nofun, nofun⟩

theorem Paced.later {pacer pacer' : HostPacer} (h : Paced settings pacer)
    (hlast : pacer'.last = pacer.last) (hcalls : pacer'.gets = pacer.gets)
    (hnow : pacer.now ≤ pacer'.now) : Paced settings pacer' := by
  refine ⟨?_, ?_, ?_⟩
  · rw [hcalls]
    exact h.apart
  · rw [hcalls, hlast]
    exact h.noted
  · intro host m hm
    rw [hlast] at hm
    exact (h.past host m hm).trans hnow

/-- A call for a host that has had its breathing room. -/
theorem Paced.get {pacer pacer' : HostPacer} {url host : String} {a : GetterCall}
    (h : Paced settings pacer) (hgets : Gets pacer url host a pacer')
    (hroom : ∀ m, pacer.last host = some m → m + settings.pace ≤ pacer.now) :
    Paced settings pacer' := by
  obtain ⟨hurl, hhost, hstarted⟩ := hgets.request
  obtain ⟨hended, hle⟩ := hgets.ended
  refine ⟨?_, ?_, ?_⟩
  · rw [hgets.gets_eq]
    refine List.pairwise_append.mpr ⟨h.apart, List.pairwise_singleton _ _, fun b hb c hc => ?_⟩
    obtain rfl := List.mem_singleton.mp hc
    intro hsame hanswered
    obtain ⟨m, hm, hbefore⟩ := h.noted b hb hanswered
    have hgap := hroom m (by rw [← hhost, ← hsame, hm])
    rw [hstarted]
    linarith
  · intro b hb hanswered
    rw [hgets.gets_eq] at hb
    rw [hgets.last_eq]
    rcases List.mem_append.mp hb with hb | hb
    · obtain ⟨m, hm, hbefore⟩ := h.noted b hb hanswered
      split
      · by_cases hsame : b.host = host
        · refine ⟨a.ended, by rw [hsame, Function.update_self], ?_⟩
          have hpast := h.past b.host m hm
          linarith
        · exact ⟨m, by rw [Function.update_of_ne hsame, hm], hbefore⟩
      · exact ⟨m, hm, hbefore⟩
    · obtain rfl := List.mem_singleton.mp hb
      rw [if_pos hanswered]
      exact ⟨b.ended, by rw [hhost, Function.update_self], le_rfl⟩
  · intro other m hm
    rw [hgets.last_eq] at hm
    have hold (hm : pacer.last other = some m) : m ≤ pacer'.now := by
      have hpast := h.past other m hm
      linarith
    split at hm
    · by_cases hsame : other = host
      · rw [hsame, Function.update_self] at hm
        rw [← Option.some.inj hm, hended]
      · rw [Function.update_of_ne hsame] at hm
        exact hold hm
    · exact hold hm

/-- One fetch keeps the pace, however often it tries. -/
theorem Paced.tried (url host : String) : ∀ (left attempt : Nat) {pacer : HostPacer},
    Paced settings pacer → Paced settings (tryFetch settings hosts url host left attempt pacer).1
  | left, attempt, pacer, h => by
    have hwaits := waitFor_waits settings hosts pacer host
    obtain ⟨a, hgets, -⟩ := get_gets hosts (pacer.waitFor settings hosts host) url host
    have hpaced : Paced settings ((pacer.waitFor settings hosts host).get hosts url host).1 := by
      refine (h.later hwaits.last_eq hwaits.gets_eq hwaits.now_le).get hgets fun m hm => ?_
      rw [hwaits.last_eq] at hm
      exact hwaits.paced m hm (h.past host m hm)
    rw [tryFetch]
    generalize hget : (pacer.waitFor settings hosts host).get hosts url host = got at *
    obtain ⟨pacer', answer⟩ := got
    cases answer with
    | error e => exact hpaced
    | ok response =>
      dsimp only
      split
      · cases left with
        | zero => exact hpaced
        | succ left =>
          refine Paced.tried url host left (attempt + 1) (hpaced.later rfl rfl ?_)
          have hslept := pacer'.now_le_sleep hosts (settings.backoff attempt response)
          have hnonneg := backoff_nonneg settings attempt response
          linarith
      · exact hpaced

variable [PyUnicode]

/-- A fetch that the fetcher does not refuse is for the host of its URL. -/
theorem fetcher_cases (settings : PacingSettings) (hosts : Surroundings)
    (hostOf : String → Except String String) (pacer : HostPacer) (url : String) :
    (fetcher settings hosts hostOf pacer url).1 = pacer ∨ ∃ host, isHttps url = true ∧
      hostOf url = .ok host ∧ fetcher settings hosts hostOf pacer url =
        tryFetch settings hosts url host settings.maxRetries 0 pacer := by
  unfold fetcher
  split
  · rename_i hsecure
    cases hhost : hostOf url with
    | error e => exact Or.inl rfl
    | ok host => exact Or.inr ⟨host, hsecure, rfl, rfl⟩
  · exact Or.inl rfl

/-- The calls so far were paced, and for https URLs. -/
structure PacedRun (settings : PacingSettings) (hostOf : String → Except String String)
    (pacer : HostPacer) : Prop where
  paced : Paced settings pacer
  secure : ∀ a ∈ pacer.gets, isHttps a.url = true ∧ hostOf a.url = .ok a.host

theorem PacedRun.fetched {hostOf : String → Except String String} {pacer : HostPacer}
    (h : PacedRun settings hostOf pacer) (url : String) :
    PacedRun settings hostOf (fetcher settings hosts hostOf pacer url).1 := by
  rcases fetcher_cases settings hosts hostOf pacer url with
    hsame | ⟨host, hsecure, hhost, hfetch⟩
  · rwa [hsame]
  · obtain ⟨tries, htries, -, hretried⟩ := tryFetch_retried settings hosts url host
      settings.maxRetries 0 pacer
    rw [hfetch]
    refine ⟨h.paced.tried url host settings.maxRetries 0, fun a ha => ?_⟩
    rw [htries] at ha
    rcases List.mem_append.mp ha with ha | ha
    · exact h.secure a ha
    · obtain ⟨hurl, hto⟩ := hretried.request a ha
      rw [hurl, hto]
      exact ⟨hsecure, hhost⟩

/-- In a run of fetches no call for a host starts within the delay of one that returned, and every
call is for an https URL. -/
theorem hosts_paced (settings : PacingSettings) (hosts : Surroundings)
    (hostOf : String → Except String String) (now : ℚ) (calls : List FetchCall) :
    let gets := (fetchAll settings hosts hostOf (newPacer now) calls).gets
    (gets.Pairwise fun a b => a.host = b.host → a.response.isSome = true →
      a.ended + settings.pace ≤ b.started) ∧
    ∀ a ∈ gets, isHttps a.url = true ∧ hostOf a.url = .ok a.host := by
  have hrun (calls : List FetchCall) {pacer : HostPacer} (h : PacedRun settings hostOf pacer) :
      PacedRun settings hostOf (fetchAll settings hosts hostOf pacer calls) := by
    induction calls generalizing pacer with
    | nil => exact h
    | cons call calls ih =>
      have hlater : Paced settings { pacer with now := pacer.now + call.after } :=
        h.paced.later rfl rfl (le_add_of_nonneg_right call.after_nonneg)
      exact ih (PacedRun.fetched ⟨hlater, h.secure⟩ call.url)
  obtain ⟨hpaced, hsecure⟩ := hrun calls ⟨paced_newPacer now, nofun⟩
  exact ⟨hpaced.apart, hsecure⟩

/-- A fetch calls the getter a few times at most, again only after an answer that asks for patience
and the wait that it gives, and returns what the last call came to. -/
theorem fetch_retries (settings : PacingSettings) (hosts : Surroundings)
    (hostOf : String → Except String String) (pacer : HostPacer) (url : String) :
    (fetcher settings hosts hostOf pacer url).1 = pacer ∨
      ∃ host tries, hostOf url = .ok host ∧ isHttps url = true ∧
        (fetcher settings hosts hostOf pacer url).1.gets = pacer.gets ++ tries ∧
          Retried settings url host settings.maxRetries 0 tries
            (fetcher settings hosts hostOf pacer url).2 := by
  rcases fetcher_cases settings hosts hostOf pacer url with
    hsame | ⟨host, hsecure, hhost, hfetch⟩
  · exact Or.inl hsame
  · obtain ⟨tries, htries, -, hretried⟩ := tryFetch_retried settings hosts url host
      settings.maxRetries 0 pacer
    rw [hfetch]
    exact Or.inr ⟨host, tries, hhost, hsecure, htries, hretried⟩

end Fetching

end Attest
