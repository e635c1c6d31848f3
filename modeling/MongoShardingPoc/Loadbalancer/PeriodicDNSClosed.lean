import MongoShardingPoc.Loadbalancer.PeriodicDNSOnce

/-!
# Resolving after `Close`

`Close` closes `r.done` and the inner resolver, but nothing on the resolve
paths reads either: `r.ResolveNow` forwards to `r.inner.ResolveNow` in every
state, and the `select` of `refreshLoop` may take a waiting tick although
`r.done` is closed.  What holds instead is that these are the only two ways
to reach `r.inner.ResolveNow`, that after a returned `Close` the loop's tick
case competes with the ready `r.done` case, and that the loop is gone for
good once it has taken the latter.
-/

namespace MongoShardingPoc.Loadbalancer

namespace Resolver

variable {s s' : Resolver} {a : Action}

theorem step_innerResolveNows (stepped : s.step a = some s')
    (called : s.innerResolveNows < s'.innerResolveNows) :
    (∃ g, a = .resolveNow g) ∨
      (a = .receiveTick ∧ s.loop = .selecting ∧ s.tickWaiting = true) := by
  cases a with
  | resolveNow g => exact .inl ⟨g, rfl⟩
  | receiveTick =>
      simp only [step] at stepped
      split at stepped
      · exact .inr ⟨rfl, ‹_ ∧ _›⟩
      · cases stepped
  | advance g =>
      exact absurd (advance_frame stepped).2.2 called.ne'
  | close g =>
      exact absurd (close_frame stepped).2.2 called.ne'
  | newTicker | tick | innerResolved | receiveDone =>
      simp only [step] at stepped
      split at stepped <;> cases stepped
      simp at called

theorem step_loop_returned (returned : s.loop = .returned) (stepped : s.step a = some s') :
    s'.loop = .returned := by
  cases a with
  | advance g =>
      exact (advance_frame stepped).1.trans returned
  | close g =>
      exact (close_frame stepped).1.trans returned
  | resolveNow g =>
      simp only [step] at stepped
      split at stepped <;> cases stepped
      exact returned
  | newTicker | tick | receiveTick | innerResolved | receiveDone =>
      simp [step, returned] at stepped

end Resolver

/-- A state where one `Close` call has run to its return. -/
def oneClose : List Action :=
  [.newTicker, .close 0, .advance 0, .advance 0, .advance 0, .advance 0, .advance 0,
    .advance 0]

def afterOneClose : Resolver :=
  ((Resolver.started 1).run oneClose).getD (.started 1)

/-- A returned `Close` does not stop `r.inner.ResolveNow` from being called:
right after it, `r.ResolveNow` on another goroutine calls it. -/
theorem innerResolveNow_after_close_returned :
    ¬ ∀ s a s', Reachable s → 0 < s.closeReturns → Resolver.step s a = some s' →
      s'.innerResolveNows = s.innerResolveNows := by
  intro noResolve
  have reachable : Reachable afterOneClose := (Reachable.started 1).run oneClose rfl
  have := noResolve afterOneClose (.resolveNow 1) _ reachable (by decide) rfl
  exact absurd this (by decide)

theorem Invariant.doneClosed_of_returned {s : Resolver} (inv : Invariant s)
    (closed : 0 < s.closeReturns) : s.doneClosed = true :=
  inv.doneClosed.mpr (by rw [(inv.counts_of_returned closed).1]; exact Nat.one_pos)

/-- In every reachable state `r.ResolveNow` on an idle goroutine calls
`r.inner.ResolveNow`, whatever `Close` has done.  The only other call is the
tick case of `refreshLoop`; once a `Close` call has returned, the closed
`r.done` was ready at that `select` too.  Taking `r.done` returns from the
loop, and after that the ticker is stopped, the loop stays returned and only
`r.ResolveNow` calls `r.inner.ResolveNow`. -/
theorem innerResolveNow_after_close {s : Resolver} (reachable : Reachable s) :
    (∀ g, s.callers g = .idle → ∃ s', s.step (.resolveNow g) = some s' ∧
      s'.innerResolveNows = s.innerResolveNows + 1) ∧
    (∀ a s', s.step a = some s' → s.innerResolveNows < s'.innerResolveNows →
      (∃ g, a = .resolveNow g) ∨
        (a = .receiveTick ∧ s.loop = .selecting ∧ s.tickWaiting = true ∧
          (0 < s.closeReturns → s.doneClosed = true ∧ (s.step .receiveDone).isSome))) ∧
    (∀ s', s.step .receiveDone = some s' → s'.loop = .returned) ∧
    (s.loop = .returned → s.step .tick = none ∧ ∀ a s', s.step a = some s' →
      s'.loop = .returned ∧ (s.innerResolveNows < s'.innerResolveNows → ∃ g, a = .resolveNow g)) := by
  refine ⟨fun g idle => by simp [Resolver.step, idle], fun a s' stepped called => ?_,
    fun s' stepped => ?_, fun returned => ⟨by simp [Resolver.step, returned],
      fun a s' stepped => ⟨Resolver.step_loop_returned returned stepped, fun called => ?_⟩⟩⟩
  · rcases Resolver.step_innerResolveNows stepped called with manual | ⟨tick, selecting, waiting⟩
    · exact .inl manual
    · refine .inr ⟨tick, selecting, waiting, fun closed => ?_⟩
      have doneClosed := reachable.invariant.doneClosed_of_returned closed
      exact ⟨doneClosed, by simp [Resolver.step, selecting, doneClosed]⟩
  · simp only [Resolver.step] at stepped
    split at stepped <;> cases stepped
    rfl
  · rcases Resolver.step_innerResolveNows stepped called with manual | ⟨_, selecting, _⟩
    · exact manual
    · simp [returned] at selecting

/-- A state where a tick waits in `ticker.C` while `Close` runs to its
return. -/
def tickDuringClose : Resolver :=
  ((Resolver.started 1).run ([.newTicker, .tick] ++ oneClose.tail)).getD (.started 1)

theorem innerResolveNow_after_close_tickDuringClose :
    Reachable tickDuringClose ∧
      ((∀ g, tickDuringClose.callers g = .idle → ∃ s', tickDuringClose.step (.resolveNow g) = some s' ∧
        s'.innerResolveNows = tickDuringClose.innerResolveNows + 1) ∧
      (∀ a s', tickDuringClose.step a = some s' →
        tickDuringClose.innerResolveNows < s'.innerResolveNows →
        (∃ g, a = .resolveNow g) ∨
          (a = .receiveTick ∧ tickDuringClose.loop = .selecting ∧
            tickDuringClose.tickWaiting = true ∧
            (0 < tickDuringClose.closeReturns →
              tickDuringClose.doneClosed = true ∧ (tickDuringClose.step .receiveDone).isSome))) ∧
      (∀ s', tickDuringClose.step .receiveDone = some s' → s'.loop = .returned) ∧
      (tickDuringClose.loop = .returned → tickDuringClose.step .tick = none ∧
        ∀ a s', tickDuringClose.step a = some s' → s'.loop = .returned ∧
          (tickDuringClose.innerResolveNows < s'.innerResolveNows → ∃ g, a = .resolveNow g))) :=
  have reachable : Reachable tickDuringClose :=
    (Reachable.started 1).run ([Action.newTicker, .tick] ++ oneClose.tail) rfl
  ⟨reachable, innerResolveNow_after_close reachable⟩

/-- The tick that waited while `Close` ran can still be taken after it
returned. -/
example :
    (tickDuringClose.step .receiveTick).map (fun s => (s.closeReturns, s.innerResolveNows)) =
      some (1, 1) := by
  decide

end MongoShardingPoc.Loadbalancer
