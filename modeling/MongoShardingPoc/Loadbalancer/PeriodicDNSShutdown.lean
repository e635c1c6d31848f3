import MongoShardingPoc.Loadbalancer.PeriodicDNSClosed

/-!
# Shutting the periodic resolver down

`Close` waits for nothing but `o.m`: `close(r.done)` does not block, and the
goroutine holding `o.m` runs the body and its deferred calls by its own
steps.  So from any reachable state a `Close` call returns after steps of
its own goroutine and of the holder of `o.m` alone, with no step of
`refreshLoop`, of the ticker or of `ResolveNow`.  On the other side,
`refreshLoop` returns only through `r.done`, so only after `Close` has closed
it, and once it is closed the loop can always reach its return.
-/

namespace MongoShardingPoc.Loadbalancer

/-- The steps a goroutine at `pc` still takes inside `Close` once it holds
`o.m`, up to its return. -/
def CallerPc.closeRemaining : CallerPc → Nat
  | .idle | .resolving | .locking => 0
  | .closingDone => 5
  | .closingInner => 4
  | .innerClosing => 3
  | .storing => 2
  | .unlocking => 1

/-! ## `Close` returns -/

section Close

variable {s : Resolver} {g h : Nat}

theorem Invariant.holder_advance (inv : Invariant s) (owner : s.onceOwner = some h) :
    ∃ s', s.advance h = some s' ∧ s.closeReturns ≤ s'.closeReturns ∧
      ((s'.onceOwner = some h ∧
          (s'.callers h).closeRemaining + 1 = (s.callers h).closeRemaining) ∨
        ((s.callers h).closeRemaining = 1 ∧ s'.callers h = .idle ∧ s'.onceOwner = none ∧
          s'.onceDone = true ∧ s'.closeReturns = s.closeReturns + 1)) := by
  have fits := inv.phaseFits h
  unfold PhaseFits at fits
  cases phase : s.callers h with
  | idle | resolving | locking =>
      simp only [phase, CallerPc.holding] at fits
      exact absurd owner fits
  | closingDone | closingInner | innerClosing | storing | unlocking =>
      simp only [phase, CallerPc.holding] at fits
      simp [Resolver.advance, phase, fits, CallerPc.closeRemaining]

/-- The goroutine holding `o.m` returns from `Close` by its own steps, one
per phase it has left. -/
theorem Invariant.holder_returns (inv : Invariant s) (owner : s.onceOwner = some h) :
    ∃ s', s.run (List.replicate (s.callers h).closeRemaining (.advance h)) = some s' ∧
      Invariant s' ∧ s'.callers h = .idle ∧ s'.onceOwner = none ∧ s'.onceDone = true ∧
      (∀ k, k ≠ h → s'.callers k = s.callers k) ∧ s.closeReturns < s'.closeReturns := by
  generalize remaining : (s.callers h).closeRemaining = n
  induction n generalizing s with
  | zero =>
      obtain ⟨_, _, _, ⟨_, next⟩ | ⟨last, _⟩⟩ := inv.holder_advance owner <;> omega
  | succ n inductionHypothesis =>
      obtain ⟨s₁, stepped, _, ⟨owner₁, next⟩ | ⟨last, idle, free, done, returned⟩⟩ :=
        inv.holder_advance owner
      · obtain ⟨s', ran, inv', idle, free, done, others, more⟩ :=
          inductionHypothesis (inv.advanceStep stepped) owner₁ (by omega)
        refine ⟨s', by simp [List.replicate_succ, Resolver.run, Resolver.step, stepped, ran],
          inv', idle, free, done, fun k other => ?_, by omega⟩
        exact (others k other).trans (Resolver.advance_callers_of_ne stepped other)
      · obtain rfl : n = 0 := by omega
        exact ⟨s₁, by simp [Resolver.run, Resolver.step, stepped], inv.advanceStep stepped, idle,
          free, done, fun k other => Resolver.advance_callers_of_ne stepped other, by omega⟩

theorem Invariant.free_lock_returns (inv : Invariant s) (locking : s.callers g = .locking)
    (free : s.onceOwner = none) :
    ∃ n s', s.run (List.replicate n (.advance g)) = some s' ∧ s'.callers g = .idle ∧
      s.closeReturns < s'.closeReturns := by
  obtain ⟨s₁, stepped, inv₁, owner₁, same⟩ : ∃ s₁, s.advance g = some s₁ ∧ Invariant s₁ ∧
      s₁.onceOwner = some g ∧ s₁.closeReturns = s.closeReturns :=
    ⟨{ (s.setCaller g (if s.onceDone then .unlocking else .closingDone)) with onceOwner := some g },
      by simp [Resolver.advance, locking, free], inv.lockStep locking free, rfl, rfl⟩
  obtain ⟨s', ran, -, idle, -, -, -, more⟩ := inv₁.holder_returns owner₁
  exact ⟨(s₁.callers g).closeRemaining + 1, s',
    by simp [List.replicate_succ, Resolver.run, Resolver.step, stepped, ran], idle, same ▸ more⟩

end Close

/-- `Close` waits for nothing but `o.m`: from any reachable state, a goroutine
inside `Close` returns from it by steps of its own and of the goroutine that
holds `o.m`, with no step of `refreshLoop`, of the ticker or of `ResolveNow`,
and it returns with `r.done` closed and `r.inner.Close()` returned. -/
theorem close_returns {s : Resolver} (reachable : Reachable s) {g : Nat}
    (inside : (s.callers g).inClose = true) :
    ∃ actions s', s.run actions = some s' ∧
      (∀ a ∈ actions, ∃ k, a = .advance k ∧ (k = g ∨ s.onceOwner = some k)) ∧
      s'.callers g = .idle ∧ s.closeReturns < s'.closeReturns ∧
      s'.doneClosed = true ∧ s'.innerCloseReturns = 1 := by
  have inv := reachable.invariant
  suffices progress : ∃ actions s', s.run actions = some s' ∧
      (∀ a ∈ actions, ∃ k, a = .advance k ∧ (k = g ∨ s.onceOwner = some k)) ∧
      s'.callers g = .idle ∧ s.closeReturns < s'.closeReturns by
    obtain ⟨actions, s', ran, only, idle, more⟩ := progress
    have inv' := (reachable.run actions ran).invariant
    have counts := inv'.counts_of_returned (by omega)
    exact ⟨actions, s', ran, only, idle, more, inv'.doneClosed.mpr (by omega), counts.2.2⟩
  have ownSteps : ∀ n, ∀ a ∈ List.replicate n (Action.advance g),
      ∃ k, a = .advance k ∧ (k = g ∨ s.onceOwner = some k) :=
    fun _ _ member => ⟨g, List.eq_of_mem_replicate member, .inl rfl⟩
  cases holds : (s.callers g).holding with
  | some done =>
      obtain ⟨s', ran, -, idle, -, -, -, more⟩ :=
        inv.holder_returns ((inv.phaseFits g).owner_eq holds).1
      exact ⟨_, s', ran, ownSteps _, idle, more⟩
  | none =>
      have locking : s.callers g = .locking := by
        cases phase : s.callers g <;> simp_all [CallerPc.inClose, CallerPc.holding]
      rcases Option.eq_none_or_eq_some s.onceOwner with owner | ⟨h, owner⟩
      · obtain ⟨n, s', ran, idle, more⟩ := inv.free_lock_returns locking owner
        exact ⟨_, s', ran, ownSteps n, idle, more⟩
      · obtain ⟨s₁, ran₁, inv₁, -, free, -, others, more₁⟩ := inv.holder_returns owner
        have other : g ≠ h := fun same => (inv.phaseFits g).owner_ne holds (same ▸ owner)
        obtain ⟨n, s', ran, idle, more⟩ :=
          inv₁.free_lock_returns ((others g other).trans locking) free
        refine ⟨_ ++ _, s', by rw [Resolver.run_append, ran₁, Option.some_bind, ran],
          fun a member => ?_, idle, by omega⟩
        rcases List.mem_append.mp member with holder | own
        · exact ⟨h, List.eq_of_mem_replicate holder, .inr owner⟩
        · exact ownSteps n a own

theorem close_returns_oneWaiting :
    Reachable oneWaiting ∧ (oneWaiting.callers 1).inClose = true ∧
      ∃ actions s', oneWaiting.run actions = some s' ∧
        (∀ a ∈ actions, ∃ k, a = .advance k ∧ (k = 1 ∨ oneWaiting.onceOwner = some k)) ∧
        s'.callers 1 = .idle ∧ oneWaiting.closeReturns < s'.closeReturns ∧
        s'.doneClosed = true ∧ s'.innerCloseReturns = 1 :=
  have reachable : Reachable oneWaiting :=
    (Reachable.started 1).run [.close 0, .close 1, .advance 0] rfl
  have inside : (oneWaiting.callers 1).inClose = true := by decide
  ⟨reachable, inside, close_returns reachable inside⟩

/-! ## `refreshLoop` returns -/

/-- `refreshLoop` returns only after a `Close` call has run `close(r.done)`,
which has then run once. -/
theorem loop_returns_after_close {s : Resolver} (reachable : Reachable s)
    (returned : s.loop = .returned) :
    s.doneClosed = true ∧ s.doneCloses = 1 ∧ 0 < s.closeCalls := by
  have inv := reachable.invariant
  have closed := inv.loopReturned returned
  have once : s.doneCloses = 1 := by
    have := inv.doneClosed.mp closed
    have := inv.counts_le.1
    omega
  refine ⟨closed, once, Nat.pos_of_ne_zero fun noCalls => ?_⟩
  have := (inv.counts_of_quiet noCalls).1
  omega

/-- The state after `oneClose` once `refreshLoop` has taken `r.done`. -/
def afterLoopReturned : Resolver :=
  ((Resolver.started 1).run (oneClose ++ [Action.receiveDone])).getD (.started 1)

theorem loop_returns_after_close_afterLoopReturned :
    Reachable afterLoopReturned ∧ afterLoopReturned.loop = .returned ∧
      (afterLoopReturned.doneClosed = true ∧ afterLoopReturned.doneCloses = 1 ∧
        0 < afterLoopReturned.closeCalls) :=
  have reachable : Reachable afterLoopReturned :=
    (Reachable.started 1).run (oneClose ++ [Action.receiveDone]) rfl
  have returned : afterLoopReturned.loop = .returned := by decide
  ⟨reachable, returned, loop_returns_after_close reachable returned⟩

/-! ## `time.NewTicker` and a non-positive interval -/

namespace Resolver

variable {s s' : Resolver}

theorem run_interval {actions : List Action} (ran : s.run actions = some s') :
    s'.interval = s.interval := by
  induction actions generalizing s with
  | nil => cases ran; rfl
  | cons a actions inductionHypothesis =>
      simp only [run, Option.bind_eq_some] at ran
      obtain ⟨middle, stepped, ran⟩ := ran
      exact (inductionHypothesis ran).trans (step_interval stepped)

theorem step_stays_started {a : Action} (nonpositive : s.interval.toInt ≤ 0)
    (started : s.loop = .started ∧ s.tickWaiting = false) (stepped : s.step a = some s') :
    s'.loop = .started ∧ s'.tickWaiting = false := by
  cases a with
  | advance g =>
      have frame := advance_frame stepped
      exact ⟨frame.1.trans started.1, frame.2.1.trans started.2⟩
  | close g =>
      have frame := close_frame stepped
      exact ⟨frame.1.trans started.1, frame.2.1.trans started.2⟩
  | resolveNow g =>
      simp only [step] at stepped
      split at stepped <;> cases stepped
      exact started
  | newTicker | tick | receiveTick | innerResolved | receiveDone =>
      simp [step, started.1, Int.not_lt.mpr nonpositive] at stepped

end Resolver

/-- With a non-positive interval, every reachable state has `refreshLoop`
before `time.NewTicker` with no tick waiting. -/
theorem Reachable.loop_started {s : Resolver} (reachable : Reachable s)
    (nonpositive : s.interval.toInt ≤ 0) : s.loop = .started ∧ s.tickWaiting = false := by
  induction reachable with
  | started interval => exact ⟨rfl, rfl⟩
  | step a _ stepped inductionHypothesis =>
      rw [Resolver.step_interval stepped] at nonpositive
      exact Resolver.step_stays_started nonpositive (inductionHypothesis nonpositive) stepped

/-- `oneClose` from a resolver built with interval zero, whose
`time.NewTicker` panics: `Close` runs to its return without the loop. -/
def closeWithoutTicker : Resolver :=
  ((Resolver.started 0).run oneClose.tail).getD (.started 0)

end MongoShardingPoc.Loadbalancer
