import Mathlib.Algebra.Order.Group.Defs
import Mathlib.Data.List.Basic
import Mathlib.Data.List.Induction
import Mathlib.Tactic.Abel

/-!
# Sliding windows

A limiter that keeps the times of what it admitted in a queue, drops from its front what has
left the window, and admits while fewer than the limit are left (`offer`). Over times that do
not go back it admits exactly where fewer than the limit were admitted within the window
(`Kept.offer_iff`, `Kept.offer`), and so no window of time, wherever it begins, has more than
the limit in it (`Sparse.countP_le`).
-/

namespace SlidingWindow

variable {τ : Type*} [AddCommGroup τ] [LinearOrder τ]

/-- The queue without what has left the window at its front. -/
def expire (window now : τ) : List τ → List τ
  | [] => []
  | t :: ts => if window < now - t then expire window now ts else t :: ts

/-- Admitting at a time, with the queue after it. -/
def offer (limit : Nat) (window now : τ) (queue : List τ) : Bool × List τ :=
  let kept := expire window now queue
  if limit ≤ kept.length then (false, kept) else (true, kept ++ [now])

/-- The queue is the end of what was admitted, and the rest has left the window. -/
def Holds (window now : τ) (admitted queue : List τ) : Prop :=
  ∃ dropped, admitted = dropped ++ queue ∧ ∀ t ∈ dropped, window < now - t

/-- Each time has fewer than the limit before it in its window. -/
def Sparse (limit : Nat) (window : τ) (times : List τ) : Prop :=
  ∀ pre t post, times = pre ++ t :: post →
    pre.countP (fun s => decide (t - s ≤ window)) < limit

/-- What is left in the window stays in the queue, and what is admitted goes to its end. -/
theorem offer_snd (limit : Nat) (window now : τ) (queue : List τ) :
    (offer limit window now queue).2 = expire window now queue ++
      if (offer limit window now queue).1 = true then [now] else [] := by
  by_cases hfull : limit ≤ (expire window now queue).length
  · simp [offer, hfull]
  · simp [offer, hfull]

theorem expire_suffix (window now : τ) : ∀ queue : List τ, ∃ gone,
    queue = gone ++ expire window now queue ∧ ∀ t ∈ gone, window < now - t
  | [] => ⟨[], rfl, nofun⟩
  | t :: ts => by
    unfold expire
    split
    · rename_i hout
      obtain ⟨gone, hgone, hall⟩ := expire_suffix window now ts
      refine ⟨t :: gone, congrArg (t :: ·) hgone, ?_⟩
      exact List.forall_mem_cons.mpr ⟨hout, hall⟩
    · exact ⟨[], rfl, nofun⟩

theorem holds_nil (window now : τ) : Holds window now [] [] :=
  ⟨[], rfl, nofun⟩

theorem Holds.expire {window now : τ} {admitted queue : List τ}
    (h : Holds window now admitted queue) :
    Holds window now admitted (expire window now queue) := by
  obtain ⟨dropped, rfl, hdropped⟩ := h
  obtain ⟨gone, hgone, hall⟩ := expire_suffix window now queue
  refine ⟨dropped ++ gone, ?_, ?_⟩
  · rw [List.append_assoc, ← hgone]
  · intro t ht
    rcases List.mem_append.mp ht with ht | ht
    · exact hdropped t ht
    · exact hall t ht

theorem Holds.push {window now : τ} {admitted queue : List τ} (h : Holds window now admitted queue)
    (t : τ) : Holds window now (admitted ++ [t]) (queue ++ [t]) := by
  obtain ⟨dropped, rfl, hdropped⟩ := h
  exact ⟨dropped, List.append_assoc _ _ _, hdropped⟩

theorem sparse_nil (limit : Nat) (window : τ) : Sparse limit window [] := by
  intro pre t post h
  cases pre <;> cases h

/-- One more time with few enough before it. -/
theorem Sparse.snoc {limit : Nat} {window now : τ} {times : List τ} (h : Sparse limit window times)
    (hfew : times.countP (fun s => decide (now - s ≤ window)) < limit) :
    Sparse limit window (times ++ [now]) := by
  intro pre t post heq
  rcases post.eq_nil_or_concat' with rfl | ⟨post', last, rfl⟩
  · obtain ⟨rfl, hlast⟩ := List.append_inj' heq rfl
    obtain rfl := List.singleton_inj.mp hlast
    exact hfew
  · have hsplit : times ++ [now] = (pre ++ t :: post') ++ [last] := by
      rw [heq, List.append_assoc, List.cons_append]
    exact h pre t post' (List.append_inj' hsplit rfl).1

variable [IsOrderedAddMonoid τ]

/-- What has left the window stays out of it. -/
theorem Holds.mono {window now now' : τ} {admitted queue : List τ}
    (h : Holds window now admitted queue) (hle : now ≤ now') :
    Holds window now' admitted queue := by
  obtain ⟨dropped, rfl, hdropped⟩ := h
  exact ⟨dropped, rfl, fun t ht => lt_of_lt_of_le (hdropped t ht) (sub_le_sub_right hle t)⟩

/-- An ordered queue that begins in the window lies in it. -/
theorem mem_expire {window now : τ} : ∀ {queue : List τ}, queue.Pairwise (· ≤ ·) →
    ∀ t ∈ expire window now queue, now - t ≤ window
  | [], _, _, ht => nomatch ht
  | s :: ts, hordered, t, ht => by
    obtain ⟨hfirst, hrest⟩ := List.pairwise_cons.mp hordered
    unfold expire at ht
    split at ht
    · exact mem_expire hrest t ht
    · rename_i hin
      rcases List.mem_cons.mp ht with rfl | ht
      · exact not_lt.mp hin
      · exact le_trans (sub_le_sub_left (hfirst t ht) now) (not_lt.mp hin)

/-- The queue has left in it what was admitted within the window. -/
theorem Holds.countP_eq {window now : τ} {admitted queue : List τ}
    (h : Holds window now admitted queue) (hordered : admitted.Pairwise (· ≤ ·)) :
    admitted.countP (fun t => decide (now - t ≤ window)) =
      (SlidingWindow.expire window now queue).length := by
  have hqueue : queue.Pairwise (· ≤ ·) := by
    obtain ⟨dropped, rfl, -⟩ := h
    exact (List.pairwise_append.mp hordered).2.1
  obtain ⟨dropped, rfl, hdropped⟩ := h.expire
  have hout : dropped.countP (fun t => decide (now - t ≤ window)) = 0 := by
    rw [List.countP_eq_zero]
    intro t ht hin
    exact absurd (of_decide_eq_true hin) (not_le.mpr (hdropped t ht))
  have hin : (SlidingWindow.expire window now queue).countP
      (fun t => decide (now - t ≤ window)) = (SlidingWindow.expire window now queue).length := by
    rw [List.countP_eq_length]
    exact fun t ht => decide_eq_true (mem_expire hqueue t ht)
  rw [List.countP_append, hout, hin, Nat.zero_add]

/-- No window of time has more than the limit in it, wherever it begins. -/
theorem Sparse.countP_le {limit : Nat} {window : τ} {times : List τ}
    (h : Sparse limit window times) (a : τ) :
    times.countP (fun t => decide (a ≤ t ∧ t ≤ a + window)) ≤ limit := by
  induction times using List.reverseRecOn with
  | nil => exact Nat.zero_le _
  | append_singleton times t ih =>
    have hbefore : Sparse limit window times := by
      rintro pre s post rfl
      exact h pre s (post ++ [t]) (List.append_assoc _ _ _)
    rw [List.countP_append, List.countP_singleton]
    split
    · rename_i hin
      obtain ⟨-, hlast⟩ := of_decide_eq_true hin
      have hfew : times.countP (fun s => decide (a ≤ s ∧ s ≤ a + window)) ≤
          times.countP (fun s => decide (t - s ≤ window)) := by
        refine List.countP_mono_left fun s _ hs => decide_eq_true ?_
        obtain ⟨hs, -⟩ := of_decide_eq_true hs
        have hsub : t - s ≤ a + window - a := sub_le_sub hlast hs
        rwa [add_sub_cancel_left] at hsub
      have hlimit := h times t [] rfl
      omega
    · exact ih hbefore

/-- What the limiter keeps at a time, of what it has admitted so far. -/
structure Kept (limit : Nat) (window now : τ) (admitted queue : List τ) : Prop where
  holds : Holds window now admitted queue
  ordered : admitted.Pairwise (· ≤ ·)
  before : ∀ t ∈ admitted, t ≤ now
  sparse : Sparse limit window admitted

omit [IsOrderedAddMonoid τ] in
theorem kept_nil (limit : Nat) (window now : τ) : Kept limit window now [] [] :=
  ⟨holds_nil _ _, List.Pairwise.nil, nofun, sparse_nil _ _⟩

theorem Kept.mono {limit : Nat} {window now now' : τ} {admitted queue : List τ}
    (h : Kept limit window now admitted queue) (hle : now ≤ now') :
    Kept limit window now' admitted queue :=
  ⟨h.holds.mono hle, h.ordered, fun t ht => (h.before t ht).trans hle, h.sparse⟩

/-- It admits where fewer than the limit were admitted within the window. -/
theorem Kept.offer_iff {limit : Nat} {window now : τ} {admitted queue : List τ}
    (h : Kept limit window now admitted queue) :
    (SlidingWindow.offer limit window now queue).1 = true ↔
      admitted.countP (fun t => decide (now - t ≤ window)) < limit := by
  rw [h.holds.countP_eq h.ordered, SlidingWindow.offer]
  by_cases hfull : limit ≤ (SlidingWindow.expire window now queue).length
  · simp [hfull]
  · simp [hfull, not_le.mp hfull]

/-- What it keeps once it has decided. -/
theorem Kept.offer {limit : Nat} {window now : τ} {admitted queue : List τ}
    (h : Kept limit window now admitted queue) :
    Kept limit window now
      (admitted ++ if (SlidingWindow.offer limit window now queue).1 = true then [now] else [])
      (SlidingWindow.offer limit window now queue).2 := by
  have hiff := h.offer_iff
  rw [offer_snd]
  by_cases hadmits : (SlidingWindow.offer limit window now queue).1 = true
  · rw [if_pos hadmits]
    refine ⟨h.holds.expire.push now, ?_, ?_, h.sparse.snoc (hiff.mp hadmits)⟩
    · exact List.pairwise_append.mpr ⟨h.ordered, List.pairwise_singleton _ _,
        fun t ht s hs => List.mem_singleton.mp hs ▸ h.before t ht⟩
    · intro t ht
      rcases List.mem_append.mp ht with ht | ht
      · exact h.before t ht
      · exact le_of_eq (List.mem_singleton.mp ht)
  · rw [if_neg hadmits, List.append_nil, List.append_nil]
    exact ⟨h.holds.expire, h.ordered, h.before, h.sparse⟩

end SlidingWindow
