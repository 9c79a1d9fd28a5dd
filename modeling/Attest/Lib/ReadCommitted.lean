import Attest.Lib.Run

/-!
# Transactions under read committed

A transaction runs its statements one by one, each against what is committed at that
time, and its writes show at its commit. It may hold locks from a statement to its end :
a statement that asks for a lock of another open transaction waits, so it is no step
(`Protocol.Excludes`). Transactions start, move, commit and roll back in any order.

What a transaction found is a fact about a state that others may have left behind. The
rule `Protocol.invariant` asks of each commit that it keeps what the other open
transactions rely on, where these hold no lock of the one that commits.
-/

namespace ReadCommitted

/-- Transactions at their points `τ`, over committed states `σ`. -/
structure Protocol (σ τ : Type) where
  start : σ → τ → Prop
  statement : σ → τ → τ → Prop
  commit : σ → τ → σ → Prop
  /-- Transactions at these points hold one lock. -/
  Excludes : τ → τ → Prop
  excludes_symm : ∀ {x y}, Excludes x y → Excludes y x

/-- The committed state, and the transactions that are open. -/
structure World (σ τ : Type) where
  state : σ
  running : List τ

variable {σ τ : Type}

namespace Protocol

variable (p : Protocol σ τ)

/-- No open transaction holds a lock of this one. -/
def Free (x : τ) (others : List τ) : Prop :=
  ∀ y ∈ others, ¬ p.Excludes x y

/-- One step of one transaction. -/
inductive Step : World σ τ → World σ τ → Prop where
  | start {s : σ} {xs : List τ} {x : τ} :
      p.start s x → p.Free x xs → Step ⟨s, xs⟩ ⟨s, x :: xs⟩
  | statement {s : σ} {before after : List τ} {x x' : τ} :
      p.statement s x x' → p.Free x' (before ++ after) →
        Step ⟨s, before ++ x :: after⟩ ⟨s, before ++ x' :: after⟩
  | commit {s s' : σ} {before after : List τ} {x : τ} :
      p.commit s x s' → Step ⟨s, before ++ x :: after⟩ ⟨s', before ++ after⟩
  | rollback {s : σ} {before after : List τ} {x : τ} :
      Step ⟨s, before ++ x :: after⟩ ⟨s, before ++ after⟩

/-- Every interleaving, from committed states where nothing is open. -/
def system (init : σ → Prop) : TransitionSystem (World σ τ) where
  init w := init w.state ∧ w.running = []
  step := p.Step

/-- The protocol whose statements meet a condition on the state they run in. -/
def restrict (guard : σ → τ → τ → Prop) : Protocol σ τ where
  start := p.start
  statement s x x' := p.statement s x x' ∧ guard s x x'
  commit := p.commit
  Excludes := p.Excludes
  excludes_symm := p.excludes_symm

variable {p}

/-- What holds of a world : the state, each open transaction against it, and the locks. -/
structure Holds (p : Protocol σ τ) (I : σ → Prop) (J : σ → τ → Prop) (w : World σ τ) : Prop where
  state : I w.state
  running : ∀ x ∈ w.running, J w.state x
  locks : w.running.Pairwise fun x y => ¬ p.Excludes x y

variable {I : σ → Prop} {J : σ → τ → Prop}

/-- Where the locks are free, a transaction stands at its place. -/
theorem pairwise_insert {before after : List τ} {x : τ}
    (hothers : (before ++ after).Pairwise fun x y => ¬ p.Excludes x y)
    (hfree : p.Free x (before ++ after)) :
    (before ++ x :: after).Pairwise fun x y => ¬ p.Excludes x y := by
  rw [List.pairwise_middle fun hxy hyx => hxy (p.excludes_symm hyx), List.pairwise_cons]
  exact ⟨hfree, hothers⟩

/-- The others, without a transaction, and free of its locks. -/
theorem Holds.others {s : σ} {before after : List τ} {x : τ}
    (h : Holds p I J ⟨s, before ++ x :: after⟩) :
    J s x ∧ (∀ y ∈ before ++ after, J s y) ∧ p.Free x (before ++ after) ∧
      (before ++ after).Pairwise fun x y => ¬ p.Excludes x y := by
  have hlocks := h.locks
  rw [List.pairwise_middle fun hxy hyx => hxy (p.excludes_symm hyx), List.pairwise_cons] at hlocks
  refine ⟨h.running x (by simp), fun y hy => h.running y ?_, hlocks.1, hlocks.2⟩
  rcases List.mem_append.mp hy with hy | hy
  · exact List.mem_append_left _ hy
  · exact List.mem_append_right _ (List.mem_cons_of_mem x hy)

/-- One step keeps what holds, where starts and statements establish what a transaction
relies on, and a commit keeps what the others rely on. -/
theorem Holds.step (hstart : ∀ {s x}, I s → p.start s x → J s x)
    (hstatement : ∀ {s x x'}, I s → J s x → p.statement s x x' → J s x')
    (hcommit : ∀ {s x s'}, I s → J s x → p.commit s x s' →
      I s' ∧ ∀ y, J s y → ¬ p.Excludes x y → J s' y)
    {w w' : World σ τ} (h : Holds p I J w) (hstep : p.Step w w') : Holds p I J w' := by
  cases hstep with
  | start hx hfree =>
    refine ⟨h.state, ?_, List.pairwise_cons.mpr ⟨hfree, h.locks⟩⟩
    intro y hy
    rcases List.mem_cons.mp hy with rfl | hy
    · exact hstart h.state hx
    · exact h.running y hy
  | statement hx hfree =>
    obtain ⟨hJ, hothers, -, hlocks⟩ := h.others
    refine ⟨h.state, ?_, pairwise_insert hlocks hfree⟩
    intro y hy
    rcases List.mem_append.mp hy with hy | hy
    · exact hothers y (List.mem_append_left _ hy)
    · rcases List.mem_cons.mp hy with rfl | hy
      · exact hstatement h.state hJ hx
      · exact hothers y (List.mem_append_right _ hy)
  | commit hx =>
    obtain ⟨hJ, hothers, hfree, hlocks⟩ := h.others
    obtain ⟨hI, hkeep⟩ := hcommit h.state hJ hx
    exact ⟨hI, fun y hy => hkeep y (hothers y hy) (hfree y hy), hlocks⟩
  | rollback =>
    obtain ⟨-, hothers, -, hlocks⟩ := h.others
    exact ⟨h.state, hothers, hlocks⟩

/-- What the steps keep holds in every interleaving. -/
theorem invariant {init : σ → Prop} (hinit : ∀ s, init s → I s)
    (hstart : ∀ {s x}, I s → p.start s x → J s x)
    (hstatement : ∀ {s x x'}, I s → J s x → p.statement s x x' → J s x')
    (hcommit : ∀ {s x s'}, I s → J s x → p.commit s x s' →
      I s' ∧ ∀ y, J s y → ¬ p.Excludes x y → J s' y)
    {w : World σ τ} (h : (p.system init).Reachable w) : Holds p I J w := by
  refine TransitionSystem.invariant ?_ (fun _ _ => Holds.step hstart hstatement hcommit) h
  rintro ⟨s, xs⟩ ⟨hs, rfl⟩
  exact ⟨hinit s hs, nofun, List.Pairwise.nil⟩

/-- A condition on the statements leaves no more to do. -/
theorem Step.of_restrict {guard : σ → τ → τ → Prop} {w w' : World σ τ}
    (h : (p.restrict guard).Step w w') : p.Step w w' := by
  cases h with
  | start hx hfree => exact .start hx hfree
  | statement hx hfree => exact .statement hx.1 hfree
  | commit hx => exact .commit hx
  | rollback => exact .rollback

theorem reachable_of_restrict {guard : σ → τ → τ → Prop} {init : σ → Prop} {w : World σ τ}
    (h : ((p.restrict guard).system init).Reachable w) : (p.system init).Reachable w := by
  obtain ⟨w₀, hinit, hrun⟩ := h
  exact ⟨w₀, hinit, Relation.ReflTransGen.mono (fun _ _ h => Step.of_restrict h) _ _ hrun⟩

end Protocol

end ReadCommitted
