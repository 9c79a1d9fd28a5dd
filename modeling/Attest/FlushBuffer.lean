import Mathlib.Data.List.Basic
import Mathlib.Tactic

/-!
# The background queue of the client

Events that the client need not wait for go through a queue (`AsyncFlushBuffer`) that has
two consumers : the worker, and `flush_sync` on the thread of its caller. Each takes an item
and delivers it outside of the queue's lock, so a delivery of the one may be under way while
the other takes the next item or finds the queue empty.

The log of a run says what was put, started, finished, called and returned, newest first.
`Delivered` is what callers read into it : items are delivered in order and once, and a
`flush_sync` that has returned has delivered what was put before. A run has this exactly
where neither consumer takes an item while the other delivers one, and `flush_sync` does not
return while the worker delivers an item from before the call (`delivered_iff_exclusive`).
-/

namespace Attest

namespace FlushBuffer

/-! ## The buffer -/

/-- What happens to the items of a buffer, by the order they were put in. -/
inductive Event where
  | enqueued (i : Nat)
  | started (i : Nat)
  | finished (i : Nat)
  | called
  | returned (drained : Nat)
deriving DecidableEq, Repr

/-- Where the worker is in `_run`. -/
inductive Worker (α : Type) where
  | waiting
  | delivering (i : Nat) (item : α)
  | returned

/-- Where `flush_sync` is, with how many items had been put when it was called. -/
inductive Flush (α : Type) where
  | idle
  | getting (before drained : Nat)
  | delivering (before drained : Nat) (i : Nat) (item : α)

def Worker.inFlight {α : Type} : Worker α → List Nat
  | .delivering i _ => [i]
  | _ => []

def Flush.inFlight {α : Type} : Flush α → List Nat
  | .delivering _ _ i _ => [i]
  | _ => []

/-- `AsyncFlushBuffer`, with the number of items ever put and the log of its run, newest
first. An item of the queue has the number it was put as; `none` is the sentinel. -/
structure Buffer (α : Type) where
  maxQueue : Nat
  queue : List (Option (Nat × α))
  errors : List String
  stopped : Bool
  worker : Worker α
  flush : Flush α
  puts : Nat
  log : List Event

/-- What the threads do, in any order. A step that a thread cannot make changes nothing. -/
inductive BufferStep (α : Type) where
  | enqueue (item : α)
  /-- The worker's `get`. -/
  | workerTake
  /-- The end of the worker's `flush_fn`, with what it raised. -/
  | workerDone (error : Option String)
  | flushCall
  /-- `get` in `flush_sync`. -/
  | flushTake
  /-- `queue.Empty` in `flush_sync`. -/
  | flushEmpty
  /-- The end of `flush_fn` in `flush_sync`. -/
  | flushDone (error : Option String)
  /-- `close` up to the sentinel, and the `put` of it. -/
  | closeStop
  | closePut

section Steps

variable {α : Type}

/-- `__init__`. -/
def newBuffer (maxQueue : Nat) : Buffer α where
  maxQueue := maxQueue
  queue := []
  errors := []
  stopped := false
  worker := .waiting
  flush := .idle
  puts := 0
  log := []

/-- `put` blocks. -/
def Buffer.full (s : Buffer α) : Bool :=
  0 < s.maxQueue && s.maxQueue ≤ s.queue.length

def Buffer.inFlight (s : Buffer α) : List Nat :=
  s.worker.inFlight ++ s.flush.inFlight

def Buffer.step (s : Buffer α) : BufferStep α → Buffer α
  | .enqueue item =>
    if s.stopped || s.full then s
    else { s with
      queue := s.queue ++ [some (s.puts, item)]
      puts := s.puts + 1
      log := .enqueued s.puts :: s.log }
  | .workerTake =>
    match s.worker, s.queue with
    | .waiting, some (i, item) :: rest =>
      { s with queue := rest, worker := .delivering i item, log := .started i :: s.log }
    | .waiting, none :: rest => { s with queue := rest, worker := .returned }
    | _, _ => s
  | .workerDone error =>
    match s.worker with
    | .delivering i _ =>
      { s with
        worker := .waiting
        errors := s.errors ++ error.toList
        log := .finished i :: s.log }
    | _ => s
  | .flushCall =>
    match s.flush with
    | .idle => { s with flush := .getting s.puts 0, log := .called :: s.log }
    | _ => s
  | .flushTake =>
    match s.flush, s.queue with
    | .getting before drained, some (i, item) :: rest =>
      { s with
        queue := rest
        flush := .delivering before drained i item
        log := .started i :: s.log }
    | .getting _ drained, none :: rest =>
      { s with queue := rest, flush := .idle, log := .returned drained :: s.log }
    | _, _ => s
  | .flushEmpty =>
    match s.flush, s.queue with
    | .getting _ drained, [] => { s with flush := .idle, log := .returned drained :: s.log }
    | _, _ => s
  | .flushDone error =>
    match s.flush with
    | .delivering before drained i _ =>
      { s with
        flush := .getting before (if error.isNone then drained + 1 else drained)
        errors := s.errors ++ error.toList
        log := .finished i :: s.log }
    | _ => s
  | .closeStop => { s with stopped := true }
  | .closePut => if s.stopped && !s.full then { s with queue := s.queue ++ [none] } else s

def Buffer.run (s : Buffer α) (steps : List (BufferStep α)) : Buffer α :=
  steps.foldl Buffer.step s

/-! ## In order, once, and delivered -/

/-- The log up to the last call of `flush_sync`. -/
def beforeCall : List Event → List Event
  | [] => []
  | .called :: log => log
  | _ :: log => beforeCall log

/-- A delivery starts after that of the item before has finished, and only once, and
`flush_sync` returns when every item from before the call is delivered. -/
def Event.Allowed : Event → List Event → Prop
  | .started i, log => (∀ j, i = j + 1 → .finished j ∈ log) ∧ .started i ∉ log
  | .returned _, log => ∀ i, .enqueued i ∈ beforeCall log → .finished i ∈ log
  | _, _ => True

def Delivered : List Event → Prop
  | [] => True
  | e :: log => e.Allowed log ∧ Delivered log

/-- No consumer takes an item while the other delivers one, and `flush_sync` does not return
while the worker delivers an item from before the call. -/
def Exclusive (s : Buffer α) : BufferStep α → Prop
  | .workerTake =>
    match s.worker, s.queue with
    | .waiting, some _ :: _ => s.flush.inFlight = []
    | _, _ => True
  | .flushTake =>
    match s.flush, s.queue with
    | .getting _ _, some _ :: _ => s.worker.inFlight = []
    | .getting before _, none :: _ => ∀ i ∈ s.worker.inFlight, before ≤ i
    | _, _ => True
  | .flushEmpty =>
    match s.flush, s.queue with
    | .getting before _, [] => ∀ i ∈ s.worker.inFlight, before ≤ i
    | _, _ => True
  | _ => True

def ExclusiveRun : Buffer α → List (BufferStep α) → Prop
  | _, [] => True
  | s, next :: steps => Exclusive s next ∧ ExclusiveRun (s.step next) steps

/-! ## What a run keeps -/

/-- How many items had been put when the `flush_sync` under way was called. -/
def Flush.before : Flush α → Option Nat
  | .idle => none
  | .getting before _ => some before
  | .delivering before _ _ _ => some before

/-- The items are taken in the order they were put, the sentinels come last, and of the items
that were taken at most the last is not delivered yet. -/
structure Kept (s : Buffer α) (taken waiting sentinels : Nat) : Prop where
  queue : s.queue.map (Option.map Prod.fst) =
    (List.range' taken waiting).map some ++ List.replicate sentinels none
  puts : s.puts = taken + waiting
  stopped : sentinels ≠ 0 → s.stopped = true
  enqueued : ∀ i, .enqueued i ∈ s.log ↔ i < s.puts
  started : ∀ i, .started i ∈ s.log ↔ i < taken
  finished : ∀ i, .finished i ∈ s.log ↔ i < taken ∧ i ∉ s.inFlight
  inFlight : s.inFlight = [] ∨ ∃ i, taken = i + 1 ∧ s.inFlight = [i]
  called : ∀ before, s.flush.before = some before →
    before ≤ s.puts ∧ ∀ i, .enqueued i ∈ beforeCall s.log ↔ i < before

theorem kept_newBuffer (maxQueue : Nat) : Kept (newBuffer maxQueue : Buffer α) 0 0 0 where
  queue := rfl
  puts := rfl
  stopped := fun h => absurd rfl h
  enqueued := by simp [newBuffer]
  started := by simp [newBuffer]
  finished := by simp [newBuffer]
  inFlight := Or.inl rfl
  called := nofun

/-- The item at the head of the queue is the next one. -/
theorem Kept.head_item {s : Buffer α} {taken waiting sentinels i : Nat} {item : α}
    {rest : List (Option (Nat × α))} (h : Kept s taken waiting sentinels)
    (hqueue : s.queue = some (i, item) :: rest) :
    i = taken ∧ ∃ left, waiting = left + 1 ∧ rest.map (Option.map Prod.fst) =
      (List.range' (taken + 1) left).map some ++ List.replicate sentinels none := by
  have hmap := h.queue
  rw [hqueue] at hmap
  cases waiting with
  | zero =>
    cases sentinels with
    | zero => simp at hmap
    | succ sentinels => simp [List.replicate_succ] at hmap
  | succ left =>
    rw [List.range'_succ, List.map_cons, List.map_cons, List.cons_append, List.cons.injEq] at hmap
    exact ⟨Option.some.inj hmap.1, left, rfl, hmap.2⟩

/-- No item comes after a sentinel. -/
theorem Kept.head_sentinel {s : Buffer α} {taken waiting sentinels : Nat}
    {rest : List (Option (Nat × α))} (h : Kept s taken waiting sentinels)
    (hqueue : s.queue = none :: rest) :
    waiting = 0 ∧ ∃ left, sentinels = left + 1 ∧ rest.map (Option.map Prod.fst) =
      List.replicate left none := by
  have hmap := h.queue
  rw [hqueue] at hmap
  cases waiting with
  | zero =>
    cases sentinels with
    | zero => simp at hmap
    | succ left =>
      rw [List.replicate_succ, List.map_cons, List.range'_zero, List.map_nil, List.nil_append,
        List.cons.injEq] at hmap
      exact ⟨rfl, left, rfl, hmap.2⟩
  | succ waiting => simp [List.range'_succ] at hmap

theorem Kept.queue_nil {s : Buffer α} {taken waiting sentinels : Nat}
    (h : Kept s taken waiting sentinels) (hqueue : s.queue = []) : waiting = 0 := by
  have hmap := congrArg List.length h.queue
  rw [hqueue] at hmap
  simp only [List.map_nil, List.length_nil, List.length_append, List.length_map,
    List.length_range', List.length_replicate] at hmap
  omega

/-! ## What is allowed -/

/-- The next item may be started where no delivery is under way. -/
theorem Kept.allowed_started {s : Buffer α} {taken waiting sentinels : Nat}
    (h : Kept s taken waiting sentinels) :
    (Event.started taken).Allowed s.log ↔ s.inFlight = [] := by
  constructor
  · rintro ⟨hbefore, -⟩
    rcases h.inFlight with hnone | ⟨i, htaken, hone⟩
    · exact hnone
    · have hfinished := (h.finished i).mp (hbefore i htaken)
      exact absurd (by simp [hone]) hfinished.2
  · intro hnone
    constructor
    · intro j hj
      refine (h.finished j).mpr ⟨by omega, by simp [hnone]⟩
    · intro hstarted
      exact lt_irrefl _ ((h.started taken).mp hstarted)

/-- A `flush_sync` that finds no item may return where the worker delivers none from before
the call. -/
theorem Kept.allowed_returned {s : Buffer α} {taken sentinels before drained : Nat}
    (h : Kept s taken 0 sentinels) (hflush : s.flush = .getting before drained) :
    (Event.returned drained).Allowed s.log ↔ ∀ i ∈ s.worker.inFlight, before ≤ i := by
  have hworker : s.inFlight = s.worker.inFlight := by
    rw [Buffer.inFlight, hflush]; exact List.append_nil _
  obtain ⟨hle, hcalled⟩ := h.called before (by rw [hflush]; rfl)
  rw [← hworker]
  constructor
  · intro hall i hi
    by_contra hlt
    have hfinished := (h.finished i).mp (hall i ((hcalled i).mpr (by omega)))
    exact hfinished.2 hi
  · intro hall i hi
    have hlt := (hcalled i).mp hi
    have hputs := h.puts
    refine (h.finished i).mpr ⟨by omega, fun hin => ?_⟩
    have hge := hall i hin
    omega

/-! ## One step -/

theorem Kept.enqueue {s t : Buffer α} {taken waiting sentinels : Nat} {item : α}
    (h : Kept s taken waiting sentinels) (hopen : s.stopped = false)
    (hqueue : t.queue = s.queue ++ [some (s.puts, item)]) (hputs : t.puts = s.puts + 1)
    (hlog : t.log = .enqueued s.puts :: s.log) (hinFlight : t.inFlight = s.inFlight)
    (hbefore : t.flush.before = s.flush.before) : Kept t taken (waiting + 1) sentinels where
  queue := by
    have hsentinels : sentinels = 0 := by
      by_contra hne
      rw [h.stopped hne] at hopen
      cases hopen
    rw [hqueue, List.map_append, h.queue, hsentinels, List.replicate_zero, List.append_nil,
      List.append_nil, List.range'_1_concat, h.puts]
    simp
  puts := by rw [hputs, h.puts, Nat.add_assoc]
  stopped hne := by
    rw [h.stopped hne] at hopen
    cases hopen
  enqueued i := by
    rw [hlog, hputs, List.mem_cons, h.enqueued i, Event.enqueued.injEq]
    omega
  started i := by rw [hlog]; simpa using h.started i
  finished i := by rw [hlog, hinFlight]; simpa using h.finished i
  inFlight := hinFlight ▸ h.inFlight
  called before hb := by
    obtain ⟨hle, hcalled⟩ := h.called before (hbefore ▸ hb)
    have hlast : beforeCall t.log = beforeCall s.log := by rw [hlog]; rfl
    exact ⟨by omega, by rw [hlast]; exact hcalled⟩

/-- A consumer takes the next item while nothing is being delivered. -/
theorem Kept.take {s t : Buffer α} {taken waiting sentinels i : Nat} {item : α}
    {rest : List (Option (Nat × α))} (h : Kept s taken waiting sentinels)
    (hqueue : s.queue = some (i, item) :: rest) (hnone : s.inFlight = [])
    (htqueue : t.queue = rest) (hputs : t.puts = s.puts) (hstopped : t.stopped = s.stopped)
    (hlog : t.log = .started i :: s.log) (hinFlight : t.inFlight = [i])
    (hbefore : t.flush.before = s.flush.before) :
    ∃ left, Kept t (taken + 1) left sentinels := by
  obtain ⟨rfl, left, rfl, hrest⟩ := h.head_item hqueue
  refine ⟨left, {
    queue := by rw [htqueue, hrest]
    puts := by rw [hputs, h.puts]; omega
    stopped := by rw [hstopped]; exact h.stopped
    enqueued := fun j => by rw [hlog, hputs]; simpa using h.enqueued j
    started := fun j => by
      rw [hlog, List.mem_cons, h.started j, Event.started.injEq]
      omega
    finished := fun j => by
      have hlogged : (.finished j ∈ t.log) = (.finished j ∈ s.log) := by simp [hlog]
      rw [hlogged, h.finished j, hnone, hinFlight, List.mem_singleton]
      simp only [List.not_mem_nil, not_false_eq_true, and_true]
      omega
    inFlight := Or.inr ⟨i, rfl, hinFlight⟩
    called := fun before hb => by
      have hlast : beforeCall t.log = beforeCall s.log := by rw [hlog]; rfl
      rw [hputs, hlast]
      exact h.called before (hbefore ▸ hb) }⟩

/-- A consumer finishes its delivery. -/
theorem Kept.done {s t : Buffer α} {taken waiting sentinels i : Nat}
    (h : Kept s taken waiting sentinels) (hi : i ∈ s.inFlight)
    (hqueue : t.queue = s.queue) (hputs : t.puts = s.puts) (hstopped : t.stopped = s.stopped)
    (hlog : t.log = .finished i :: s.log) (hinFlight : t.inFlight = [])
    (hbefore : t.flush.before = s.flush.before) : Kept t taken waiting sentinels where
  queue := by rw [hqueue]; exact h.queue
  puts := by rw [hputs]; exact h.puts
  stopped := by rw [hstopped]; exact h.stopped
  enqueued j := by rw [hlog, hputs]; simpa using h.enqueued j
  started j := by rw [hlog]; simpa using h.started j
  finished j := by
    obtain hnone | ⟨k, htaken, hone⟩ := h.inFlight
    · rw [hnone] at hi
      cases hi
    rw [hone, List.mem_singleton] at hi
    rw [hlog, List.mem_cons, h.finished j, hone, hinFlight, Event.finished.injEq,
      List.mem_singleton]
    simp only [List.not_mem_nil, not_false_eq_true, and_true]
    omega
  inFlight := Or.inl hinFlight
  called before hb := by
    have hlast : beforeCall t.log = beforeCall s.log := by rw [hlog]; rfl
    rw [hputs, hlast]
    exact h.called before (hbefore ▸ hb)

/-- `flush_sync` returns, with or without taking a sentinel. -/
theorem Kept.flushReturned {s t : Buffer α} {taken waiting sentinels left drained : Nat}
    (h : Kept s taken waiting sentinels) (hqueue : t.queue.map (Option.map Prod.fst) =
      (List.range' taken waiting).map some ++ List.replicate left none)
    (hleft : left ≤ sentinels) (hputs : t.puts = s.puts) (hstopped : t.stopped = s.stopped)
    (hlog : t.log = .returned drained :: s.log) (hinFlight : t.inFlight = s.inFlight)
    (hidle : t.flush = .idle) : Kept t taken waiting left where
  queue := hqueue
  puts := by rw [hputs]; exact h.puts
  stopped hne := by rw [hstopped]; exact h.stopped (by omega)
  enqueued i := by rw [hlog, hputs]; simpa using h.enqueued i
  started i := by rw [hlog]; simpa using h.started i
  finished i := by rw [hlog, hinFlight]; simpa using h.finished i
  inFlight := hinFlight ▸ h.inFlight
  called before hb := by
    rw [hidle] at hb
    cases hb

/-- A step of which nothing is logged. -/
theorem Kept.unlogged {s t : Buffer α} {taken waiting sentinels sentinels' : Nat}
    (h : Kept s taken waiting sentinels) (hqueue : t.queue.map (Option.map Prod.fst) =
      (List.range' taken waiting).map some ++ List.replicate sentinels' none)
    (hstopped : sentinels' ≠ 0 → t.stopped = true) (hputs : t.puts = s.puts)
    (hlog : t.log = s.log) (hinFlight : t.inFlight = s.inFlight) (hflush : t.flush = s.flush) :
    Kept t taken waiting sentinels' where
  queue := hqueue
  puts := by rw [hputs]; exact h.puts
  stopped := hstopped
  enqueued i := by rw [hlog, hputs]; exact h.enqueued i
  started i := by rw [hlog]; exact h.started i
  finished i := by rw [hlog, hinFlight]; exact h.finished i
  inFlight := hinFlight ▸ h.inFlight
  called before hb := by
    rw [hputs, hlog]
    exact h.called before (hflush ▸ hb)

/-- `flush_sync` is called. -/
theorem Kept.flushCalled {s t : Buffer α} {taken waiting sentinels : Nat}
    (h : Kept s taken waiting sentinels) (hqueue : t.queue = s.queue) (hputs : t.puts = s.puts)
    (hstopped : t.stopped = s.stopped) (hlog : t.log = .called :: s.log)
    (hinFlight : t.inFlight = s.inFlight) (hflush : t.flush = .getting s.puts 0) :
    Kept t taken waiting sentinels where
  queue := by rw [hqueue]; exact h.queue
  puts := by rw [hputs]; exact h.puts
  stopped := by rw [hstopped]; exact h.stopped
  enqueued i := by rw [hlog, hputs]; simpa using h.enqueued i
  started i := by rw [hlog]; simpa using h.started i
  finished i := by rw [hlog, hinFlight]; simpa using h.finished i
  inFlight := hinFlight ▸ h.inFlight
  called before hb := by
    rw [hflush] at hb
    obtain rfl := Option.some.inj hb
    rw [hputs, hlog]
    exact ⟨le_refl _, h.enqueued⟩

/-- What one step logs is allowed exactly where the consumers exclude each other in it, and
then the shape of the buffer is kept. -/
def StepKept (s : Buffer α) (next : BufferStep α) : Prop :=
  (Delivered (s.step next).log ↔ Exclusive s next) ∧
    (Exclusive s next → ∃ taken waiting sentinels, Kept (s.step next) taken waiting sentinels)

theorem Kept.skip {s : Buffer α} {taken waiting sentinels : Nat}
    (h : Kept s taken waiting sentinels) (hlog : Delivered s.log) {next : BufferStep α}
    (hstep : s.step next = s) (hexclusive : Exclusive s next) : StepKept s next := by
  rw [StepKept, hstep]
  exact ⟨iff_of_true hlog hexclusive, fun _ => ⟨_, _, _, h⟩⟩

theorem Kept.stepWorkerTake {s : Buffer α} {taken waiting sentinels : Nat}
    (h : Kept s taken waiting sentinels) (hlog : Delivered s.log) :
    StepKept s .workerTake := by
  cases hworker : s.worker with
  | delivering i item =>
    exact h.skip hlog (by simp only [Buffer.step, hworker]) (by simp only [Exclusive, hworker])
  | returned =>
    exact h.skip hlog (by simp only [Buffer.step, hworker]) (by simp only [Exclusive, hworker])
  | waiting =>
    match hqueue : s.queue with
    | [] =>
      exact h.skip hlog (by simp only [Buffer.step, hworker, hqueue])
        (by simp only [Exclusive, hworker, hqueue])
    | none :: rest =>
      obtain ⟨rfl, left, rfl, hrest⟩ := h.head_sentinel hqueue
      have hstep : s.step .workerTake = { s with queue := rest, worker := .returned } := by
        simp only [Buffer.step, hworker, hqueue]
      rw [StepKept, hstep]
      refine ⟨iff_of_true hlog (by simp only [Exclusive, hworker, hqueue]), fun _ =>
        ⟨taken, 0, left, h.unlogged hrest (fun _ => h.stopped (by omega)) rfl rfl ?_ rfl⟩⟩
      rw [Buffer.inFlight, Buffer.inFlight, hworker]
      rfl
    | some (i, item) :: rest =>
      have hi := (h.head_item hqueue).1
      have hstep : s.step .workerTake =
          { s with queue := rest, worker := .delivering i item, log := .started i :: s.log } := by
        simp only [Buffer.step, hworker, hqueue]
      have hinFlight : s.inFlight = s.flush.inFlight := by
        rw [Buffer.inFlight, hworker]
        rfl
      have hexclusive : Exclusive s .workerTake ↔ s.inFlight = [] := by
        simp only [Exclusive, hworker, hqueue, hinFlight]
      rw [StepKept, hstep, hexclusive]
      constructor
      · have hallowed := h.allowed_started
        rw [← hi] at hallowed
        exact ⟨fun hd => hallowed.mp hd.1, fun hnone => ⟨hallowed.mpr hnone, hlog⟩⟩
      · intro hnone
        obtain ⟨left, htaken⟩ := h.take (t := { s with
          queue := rest
          worker := .delivering i item
          log := .started i :: s.log }) hqueue hnone rfl rfl rfl rfl (by
            rw [hinFlight] at hnone
            rw [Buffer.inFlight, hnone]
            rfl) rfl
        exact ⟨_, _, _, htaken⟩

theorem Kept.stepFlushTake {s : Buffer α} {taken waiting sentinels : Nat}
    (h : Kept s taken waiting sentinels) (hlog : Delivered s.log) :
    StepKept s .flushTake := by
  cases hflush : s.flush with
  | idle =>
    exact h.skip hlog (by simp only [Buffer.step, hflush]) (by simp only [Exclusive, hflush])
  | delivering before drained i item =>
    exact h.skip hlog (by simp only [Buffer.step, hflush]) (by simp only [Exclusive, hflush])
  | getting before drained =>
    have hinFlight : s.inFlight = s.worker.inFlight := by
      rw [Buffer.inFlight, hflush]
      exact List.append_nil _
    match hqueue : s.queue with
    | [] =>
      exact h.skip hlog (by simp only [Buffer.step, hflush, hqueue])
        (by simp only [Exclusive, hflush, hqueue])
    | none :: rest =>
      obtain ⟨rfl, left, rfl, hrest⟩ := h.head_sentinel hqueue
      have hstep : s.step .flushTake =
          { s with queue := rest, flush := .idle, log := .returned drained :: s.log } := by
        simp only [Buffer.step, hflush, hqueue]
      have hexclusive : Exclusive s .flushTake ↔ ∀ i ∈ s.worker.inFlight, before ≤ i := by
        simp only [Exclusive, hflush, hqueue]
      have hallowed := h.allowed_returned hflush
      rw [StepKept, hstep, hexclusive]
      refine ⟨⟨fun hd => hallowed.mp hd.1, fun hall => ⟨hallowed.mpr hall, hlog⟩⟩, fun _ =>
        ⟨taken, 0, left, h.flushReturned hrest (by omega) rfl rfl rfl ?_ rfl⟩⟩
      rw [hinFlight]
      exact List.append_nil _
    | some (i, item) :: rest =>
      have hi := (h.head_item hqueue).1
      have hstep : s.step .flushTake = { s with
          queue := rest
          flush := .delivering before drained i item
          log := .started i :: s.log } := by
        simp only [Buffer.step, hflush, hqueue]
      have hexclusive : Exclusive s .flushTake ↔ s.inFlight = [] := by
        simp only [Exclusive, hflush, hqueue, hinFlight]
      rw [StepKept, hstep, hexclusive]
      constructor
      · have hallowed := h.allowed_started
        rw [← hi] at hallowed
        exact ⟨fun hd => hallowed.mp hd.1, fun hnone => ⟨hallowed.mpr hnone, hlog⟩⟩
      · intro hnone
        obtain ⟨left, htaken⟩ := h.take (t := { s with
          queue := rest
          flush := .delivering before drained i item
          log := .started i :: s.log }) hqueue hnone rfl rfl rfl rfl (by
            rw [hinFlight] at hnone
            rw [Buffer.inFlight, hnone]
            rfl) (by rw [hflush]; rfl)
        exact ⟨_, _, _, htaken⟩

theorem Kept.stepFlushEmpty {s : Buffer α} {taken waiting sentinels : Nat}
    (h : Kept s taken waiting sentinels) (hlog : Delivered s.log) :
    StepKept s .flushEmpty := by
  cases hflush : s.flush with
  | idle =>
    exact h.skip hlog (by simp only [Buffer.step, hflush]) (by simp only [Exclusive, hflush])
  | delivering before drained i item =>
    exact h.skip hlog (by simp only [Buffer.step, hflush]) (by simp only [Exclusive, hflush])
  | getting before drained =>
    match hqueue : s.queue with
    | _ :: rest =>
      exact h.skip hlog (by simp only [Buffer.step, hflush, hqueue])
        (by simp only [Exclusive, hflush, hqueue])
    | [] =>
      obtain rfl := h.queue_nil hqueue
      have hstep : s.step .flushEmpty =
          { s with flush := .idle, log := .returned drained :: s.log } := by
        simp only [Buffer.step, hflush, hqueue]
      have hexclusive : Exclusive s .flushEmpty ↔ ∀ i ∈ s.worker.inFlight, before ≤ i := by
        simp only [Exclusive, hflush, hqueue]
      have hallowed := h.allowed_returned hflush
      rw [StepKept, hstep, hexclusive]
      refine ⟨⟨fun hd => hallowed.mp hd.1, fun hall => ⟨hallowed.mpr hall, hlog⟩⟩, fun _ =>
        ⟨taken, 0, sentinels, h.flushReturned h.queue (le_refl _) rfl rfl rfl ?_ rfl⟩⟩
      rw [Buffer.inFlight, Buffer.inFlight, hflush]
      rfl

theorem Kept.stepDone {s t : Buffer α} {taken waiting sentinels i : Nat} {next : BufferStep α}
    (h : Kept s taken waiting sentinels) (hlog : Delivered s.log) (hstep : s.step next = t)
    (hexclusive : Exclusive s next) (hi : i ∈ s.inFlight) (hqueue : t.queue = s.queue)
    (hputs : t.puts = s.puts) (hstopped : t.stopped = s.stopped)
    (htlog : t.log = .finished i :: s.log) (hinFlight : t.inFlight = s.inFlight.erase i)
    (hbefore : t.flush.before = s.flush.before) : StepKept s next := by
  have hnone : t.inFlight = [] := by
    rcases h.inFlight with hnone | ⟨j, -, hone⟩
    · rw [hnone] at hi
      cases hi
    · rw [hone, List.mem_singleton] at hi
      rw [hinFlight, hone, hi, List.erase_cons_head]
  rw [StepKept, hstep, htlog]
  exact ⟨iff_of_true ⟨trivial, hlog⟩ hexclusive, fun _ =>
    ⟨_, _, _, h.done hi hqueue hputs hstopped htlog hnone hbefore⟩⟩

theorem Kept.step {s : Buffer α} {taken waiting sentinels : Nat}
    (h : Kept s taken waiting sentinels) (hlog : Delivered s.log) (next : BufferStep α) :
    StepKept s next := by
  cases next with
  | enqueue item =>
    by_cases hskip : (s.stopped || s.full) = true
    · exact h.skip hlog (if_pos hskip) trivial
    have hopen : s.stopped = false := by
      rw [Bool.or_eq_true, not_or] at hskip
      simpa using hskip.1
    rw [StepKept, Buffer.step, if_neg hskip]
    exact ⟨iff_of_true ⟨trivial, hlog⟩ trivial, fun _ =>
      ⟨_, _, _, h.enqueue hopen rfl rfl rfl rfl rfl⟩⟩
  | workerTake => exact h.stepWorkerTake hlog
  | workerDone error =>
    cases hworker : s.worker with
    | waiting => exact h.skip hlog (by simp only [Buffer.step, hworker]) trivial
    | returned => exact h.skip hlog (by simp only [Buffer.step, hworker]) trivial
    | delivering i item =>
      refine h.stepDone (i := i) (t := { s with
        worker := .waiting
        errors := s.errors ++ error.toList
        log := .finished i :: s.log }) hlog (by simp only [Buffer.step, hworker]) trivial ?_ rfl rfl
        rfl rfl ?_ rfl
      · rw [Buffer.inFlight, hworker]
        exact List.mem_cons_self
      · rw [Buffer.inFlight, Buffer.inFlight, hworker, Worker.inFlight, List.singleton_append,
          List.erase_cons_head]
        rfl
  | flushCall =>
    cases hflush : s.flush with
    | getting before drained => exact h.skip hlog (by simp only [Buffer.step, hflush]) trivial
    | delivering before drained i item =>
      exact h.skip hlog (by simp only [Buffer.step, hflush]) trivial
    | idle =>
      have hstep : s.step .flushCall =
          { s with flush := .getting s.puts 0, log := .called :: s.log } := by
        simp only [Buffer.step, hflush]
      rw [StepKept, hstep]
      refine ⟨iff_of_true ⟨trivial, hlog⟩ trivial, fun _ =>
        ⟨_, _, _, h.flushCalled rfl rfl rfl rfl ?_ rfl⟩⟩
      rw [Buffer.inFlight, Buffer.inFlight, hflush]
      rfl
  | flushTake => exact h.stepFlushTake hlog
  | flushEmpty => exact h.stepFlushEmpty hlog
  | flushDone error =>
    cases hflush : s.flush with
    | idle => exact h.skip hlog (by simp only [Buffer.step, hflush]) trivial
    | getting before drained => exact h.skip hlog (by simp only [Buffer.step, hflush]) trivial
    | delivering before drained i item =>
      refine h.stepDone (i := i) (t := { s with
        flush := .getting before (if error.isNone then drained + 1 else drained)
        errors := s.errors ++ error.toList
        log := .finished i :: s.log }) hlog (by simp only [Buffer.step, hflush]) trivial ?_ rfl rfl
        rfl rfl ?_ (by rw [hflush]; rfl)
      · rw [Buffer.inFlight, hflush]
        simp [Flush.inFlight]
      · have hnone : s.worker.inFlight = [] := by
          rcases h.inFlight with hnone | ⟨j, -, hone⟩
          · rw [Buffer.inFlight, hflush] at hnone
            exact (List.append_eq_nil_iff.mp hnone).1
          · rw [Buffer.inFlight, hflush, Flush.inFlight] at hone
            exact List.length_eq_zero_iff.mp (by simpa using congrArg List.length hone)
        rw [Buffer.inFlight, Buffer.inFlight, hflush, hnone]
        simp [Flush.inFlight]
  | closeStop =>
    rw [StepKept]
    exact ⟨iff_of_true hlog trivial, fun _ =>
      ⟨_, _, _, h.unlogged h.queue (fun _ => rfl) rfl rfl rfl rfl⟩⟩
  | closePut =>
    by_cases hput : (s.stopped && !s.full) = true
    · rw [StepKept, Buffer.step, if_pos hput]
      refine ⟨iff_of_true hlog trivial, fun _ =>
        ⟨taken, waiting, sentinels + 1, h.unlogged ?_ ?_ rfl rfl rfl rfl⟩⟩
      · rw [List.map_append, h.queue, List.append_assoc, List.replicate_succ']
        rfl
      · intro _
        exact (Bool.and_eq_true_iff.mp hput).1
    · exact h.skip hlog (if_neg hput) trivial

/-! ## Runs -/

theorem Delivered.of_suffix {log : List Event} : ∀ {log' : List Event},
    Delivered log' → List.IsSuffix log log' → Delivered log
  | [], _, hsuffix => by rw [List.suffix_nil.mp hsuffix]; trivial
  | _ :: _, h, hsuffix => by
    rcases List.suffix_cons_iff.mp hsuffix with rfl | hsuffix
    · exact h
    · exact Delivered.of_suffix h.2 hsuffix

/-- What is logged stays logged. -/
theorem suffix_step_log (s : Buffer α) (next : BufferStep α) :
    List.IsSuffix s.log (s.step next).log := by
  have hrefl : List.IsSuffix s.log s.log := List.suffix_refl _
  have hcons (e : Event) : List.IsSuffix s.log (e :: s.log) := List.suffix_cons e _
  cases next <;> simp only [Buffer.step] <;> (try split) <;> first | exact hrefl | exact hcons _

theorem Delivered.of_run : ∀ {s : Buffer α} (steps : List (BufferStep α)),
    Delivered (s.run steps).log → Delivered s.log
  | _, [], h => h
  | s, next :: steps, h => (Delivered.of_run steps h).of_suffix (suffix_step_log s next)

theorem Kept.run : ∀ {s : Buffer α} {taken waiting sentinels : Nat} (steps : List (BufferStep α)),
    Kept s taken waiting sentinels → Delivered s.log →
      (Delivered (s.run steps).log ↔ ExclusiveRun s steps)
  | _, _, _, _, [], _, hlog => iff_of_true hlog trivial
  | s, _, _, _, next :: steps, h, hlog => by
    obtain ⟨hallowed, hkept⟩ := h.step hlog next
    by_cases hexclusive : Exclusive s next
    · obtain ⟨_, _, _, h'⟩ := hkept hexclusive
      have hrun := Kept.run steps h' (hallowed.mpr hexclusive)
      exact ⟨fun hd => ⟨hexclusive, hrun.mp hd⟩, fun hd => hrun.mpr hd.2⟩
    · refine iff_of_false (fun hd => ?_) fun hd => hexclusive hd.1
      exact hexclusive (hallowed.mp (Delivered.of_run steps hd))

/-- A run delivers every item in order and once, and before a `flush_sync` that was called
after it was put returns, exactly where its consumers exclude each other. -/
theorem delivered_iff_exclusive (maxQueue : Nat) (steps : List (BufferStep α)) :
    Delivered ((newBuffer maxQueue).run steps).log ↔ ExclusiveRun (newBuffer maxQueue) steps :=
  (kept_newBuffer maxQueue).run steps trivial

end Steps

/-- The worker takes an item, and `flush_sync` finds the queue empty and returns. -/
def earlyReturn : List (BufferStep String) :=
  [.enqueue "a", .workerTake, .flushCall, .flushEmpty]

/-- The item that was put before the call is still being delivered. -/
theorem flush_returns_early : ¬ Delivered ((newBuffer 10000).run earlyReturn).log := by
  have hlog : ((newBuffer 10000).run earlyReturn).log =
      [.returned 0, .called, .started 0, .enqueued 0] := rfl
  rw [hlog]
  rintro ⟨hreturned, -⟩
  have hfinished := hreturned 0 (by simp [beforeCall])
  simp at hfinished

end FlushBuffer

end Attest
