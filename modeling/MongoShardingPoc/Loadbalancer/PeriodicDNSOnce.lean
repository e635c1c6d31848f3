import MongoShardingPoc.Loadbalancer.PeriodicDNS

/-!
# `Close` runs its body once

`r.once` guards `close(r.done)` and `r.inner.Close()`.  The invariant below
ties the state of `r.once` to the phase of every goroutine: only the
goroutine that holds `o.m` is in the body or its deferred calls, `o.done` is
set from the body's last deferred call on, and the counts of the body's
events are a function of how far its one run has got.  Every step keeps the
invariant (`Invariant.step`), so every reachable state satisfies it
(`Reachable.invariant`).
-/

namespace MongoShardingPoc.Loadbalancer

/-- Whether a goroutine at `pc` is inside `r.Close`. -/
def CallerPc.inClose : CallerPc → Bool
  | .idle | .resolving => false
  | .locking | .closingDone | .closingInner | .innerClosing | .storing | .unlocking => true

/-- Whether a goroutine at `pc` holds `o.m`, and if so the value of `o.done`
there: unset in the body, set before unlocking. -/
def CallerPc.holding : CallerPc → Option Bool
  | .idle | .resolving | .locking => none
  | .closingDone | .closingInner | .innerClosing | .storing => some false
  | .unlocking => some true

theorem CallerPc.holding_of_not_inClose {pc : CallerPc} (outside : pc.inClose = false) :
    pc.holding = none := by
  cases pc <;> simp_all [CallerPc.inClose, CallerPc.holding]

/-- What the phase of goroutine `g` says about `r.once`. -/
def PhaseFits (s : Resolver) (g : Nat) : Prop :=
  match (s.callers g).holding with
  | none => s.onceOwner ≠ some g
  | some done => s.onceOwner = some g ∧ s.onceDone = done

/-- How many times the body has closed `r.done`, called `r.inner.Close()` and
returned from it, when the goroutine that runs it is at `pc`. -/
def CallerPc.bodyCounts : CallerPc → Nat × Nat × Nat
  | .idle | .resolving | .locking | .closingDone => (0, 0, 0)
  | .closingInner => (1, 0, 0)
  | .innerClosing => (1, 1, 0)
  | .storing | .unlocking => (1, 1, 1)

/-- The body's counts as `r.once` and the goroutine holding `o.m` fix them. -/
def Resolver.bodyCounts (s : Resolver) : Nat × Nat × Nat :=
  if s.onceDone then (1, 1, 1)
  else match s.onceOwner with
    | some g => (s.callers g).bodyCounts
    | none => (0, 0, 0)

structure Invariant (s : Resolver) : Prop where
  phaseFits : ∀ g, PhaseFits s g
  counts : (s.doneCloses, s.innerCloseCalls, s.innerCloseReturns) = s.bodyCounts
  doneClosed : s.doneClosed = true ↔ 0 < s.doneCloses
  quiet : s.closeCalls = 0 → s.onceDone = false ∧ ∀ g, (s.callers g).inClose = false
  returned : 0 < s.closeReturns → s.onceDone = true
  loopReturned : s.loop = .returned → s.doneClosed = true

theorem invariant_started (interval : BitVec 64) : Invariant (.started interval) where
  phaseFits _ := by simp [PhaseFits, Resolver.started, CallerPc.holding]
  counts := rfl
  doneClosed := by simp [Resolver.started]
  quiet _ := by simp [Resolver.started, CallerPc.inClose]
  returned := by simp [Resolver.started]
  loopReturned := by simp [Resolver.started]

/-! ## Phases and the lock -/

section Phases

variable {s : Resolver} {g h : Nat}

theorem PhaseFits.owner_ne (fits : PhaseFits s g) (outside : (s.callers g).holding = none) :
    s.onceOwner ≠ some g := by
  unfold PhaseFits at fits
  rwa [outside] at fits

theorem PhaseFits.owner_eq {done : Bool} (fits : PhaseFits s g)
    (inside : (s.callers g).holding = some done) :
    s.onceOwner = some g ∧ s.onceDone = done := by
  unfold PhaseFits at fits
  rwa [inside] at fits

theorem Invariant.holding_of_ne (inv : Invariant s) (owner : s.onceOwner = some g)
    (other : h ≠ g) : (s.callers h).holding = none := by
  cases inside : (s.callers h).holding with
  | none => rfl
  | some done =>
      have := ((inv.phaseFits h).owner_eq inside).1
      rw [owner, Option.some.injEq] at this
      exact absurd this.symm other

theorem Invariant.closeCalls_pos (inv : Invariant s) (inside : (s.callers g).inClose = true) :
    0 < s.closeCalls :=
  Nat.pos_of_ne_zero fun noCalls => by
    rw [(inv.quiet noCalls).2 g] at inside
    cases inside

theorem Invariant.holding_of_owner_none (inv : Invariant s) (free : s.onceOwner = none) :
    (s.callers h).holding = none := by
  cases inside : (s.callers h).holding with
  | none => rfl
  | some done => simp [((inv.phaseFits h).owner_eq inside).1] at free

theorem phaseFits_of_holder {s' : Resolver} (others : ∀ h, h ≠ g → (s.callers h).holding = none)
    (callers : ∀ h, h ≠ g → s'.callers h = s.callers h)
    (owner : s'.onceOwner = some g ∨ s'.onceOwner = none) (fits : PhaseFits s' g) :
    ∀ h, PhaseFits s' h := by
  intro h
  by_cases same : h = g
  · exact same ▸ fits
  · unfold PhaseFits
    rw [callers h same, others h same]
    rcases owner with owner | owner <;> simp [owner, Ne.symm same]

theorem Invariant.phaseFits_setCaller {pc : CallerPc} (inv : Invariant s)
    (outside : (s.callers g).holding = none) (pcOutside : pc.holding = none) :
    ∀ h, PhaseFits (s.setCaller g pc) h := by
  intro h
  by_cases same : h = g
  · subst same
    simpa [PhaseFits, pcOutside] using (inv.phaseFits h).owner_ne outside
  · simpa [PhaseFits, Function.update_noteq same] using inv.phaseFits h

theorem Invariant.bodyCounts_setCaller {pc : CallerPc} (inv : Invariant s)
    (outside : (s.callers g).holding = none) :
    (s.setCaller g pc).bodyCounts = s.bodyCounts := by
  have notOwner := (inv.phaseFits g).owner_ne outside
  simp only [Resolver.bodyCounts, Resolver.setCaller_onceDone, Resolver.setCaller_onceOwner,
    Resolver.setCaller_callers]
  cases owner : s.onceOwner with
  | none => rfl
  | some o =>
      have : o ≠ g := fun same => notOwner (same ▸ owner)
      simp [Function.update_noteq this]

end Phases

/-! ## Every step keeps the invariant -/

section Step

variable {s s' : Resolver} {g : Nat}

theorem Invariant.loopStep (inv : Invariant s) (loop : LoopPc) (tick : Bool) (resolves : Nat)
    (closed : loop = .returned → s.doneClosed = true) :
    Invariant { s with loop := loop, tickWaiting := tick, innerResolveNows := resolves } :=
  { inv with loopReturned := closed }

theorem Invariant.resolveStep (inv : Invariant s) (pc : CallerPc)
    (outside : (s.callers g).holding = none) (pcOutside : pc.holding = none)
    (pcNotClose : pc.inClose = false) (resolves : Nat) :
    Invariant { (s.setCaller g pc) with innerResolveNows := resolves } where
  phaseFits := inv.phaseFits_setCaller outside pcOutside
  counts := inv.counts.trans (inv.bodyCounts_setCaller outside).symm
  doneClosed := inv.doneClosed
  quiet noCalls := by
    refine ⟨(inv.quiet noCalls).1, fun h => ?_⟩
    by_cases same : h = g
    · simp [same, pcNotClose]
    · simpa [Function.update_noteq same] using (inv.quiet noCalls).2 h
  returned := inv.returned
  loopReturned := inv.loopReturned

theorem Invariant.closeStep (inv : Invariant s) (stepped : s.step (.close g) = some s') :
    Invariant s' := by
  simp only [Resolver.step] at stepped
  split at stepped
  · rename_i idle
    split at stepped
    · rename_i done
      cases stepped
      exact { inv with
        quiet := fun noCalls => absurd noCalls (Nat.succ_ne_zero _)
        returned := fun _ => done }
    · cases stepped
      have outside : (s.callers g).holding = none := by rw [idle]; rfl
      exact
        { phaseFits := inv.phaseFits_setCaller outside rfl
          counts := inv.counts.trans (inv.bodyCounts_setCaller outside).symm
          doneClosed := inv.doneClosed
          quiet := fun noCalls => absurd noCalls (Nat.succ_ne_zero _)
          returned := inv.returned
          loopReturned := inv.loopReturned }
  · cases stepped

theorem Invariant.counts_of_holder (inv : Invariant s) (owner : s.onceOwner = some g)
    (notDone : s.onceDone = false) :
    (s.doneCloses, s.innerCloseCalls, s.innerCloseReturns) = (s.callers g).bodyCounts := by
  simpa [Resolver.bodyCounts, owner, notDone] using inv.counts

theorem Invariant.lockStep (inv : Invariant s) (locking : s.callers g = .locking)
    (free : s.onceOwner = none) :
    Invariant { (s.setCaller g (if s.onceDone then .unlocking else .closingDone)) with
      onceOwner := some g } where
  phaseFits :=
    phaseFits_of_holder (fun _ _ => inv.holding_of_owner_none free)
      (fun _ other => Function.update_noteq other _ _) (.inl rfl)
      (by cases done : s.onceDone <;> simp [PhaseFits, CallerPc.holding, done])
  counts := inv.counts.trans <| by
    cases done : s.onceDone <;> simp [Resolver.bodyCounts, CallerPc.bodyCounts, done, free]
  doneClosed := inv.doneClosed
  quiet noCalls := absurd noCalls (inv.closeCalls_pos (by rw [locking]; rfl)).ne'
  returned := inv.returned
  loopReturned := inv.loopReturned

theorem Invariant.inClose_of_owner (inv : Invariant s) (owner : s.onceOwner = some g) :
    (s.callers g).inClose = true := by
  cases inside : (s.callers g).inClose
  · exact absurd owner ((inv.phaseFits g).owner_ne (CallerPc.holding_of_not_inClose inside))
  · rfl

theorem Invariant.bodyStep (inv : Invariant s) (owner : s.onceOwner = some g)
    (notDone : s.onceDone = false) (pc : CallerPc) (inBody : pc.holding = some false)
    (closed : Bool) (doneCloses innerCloseCalls innerCloseReturns : Nat)
    (counts : (doneCloses, innerCloseCalls, innerCloseReturns) = pc.bodyCounts)
    (closedIff : closed = true ↔ 0 < doneCloses)
    (loopReturned : s.loop = .returned → closed = true) :
    Invariant { (s.setCaller g pc) with
      doneClosed := closed, doneCloses := doneCloses, innerCloseCalls := innerCloseCalls,
      innerCloseReturns := innerCloseReturns } where
  phaseFits :=
    phaseFits_of_holder (fun _ other => inv.holding_of_ne owner other)
      (fun _ other => Function.update_noteq other _ _) (.inl owner)
      (by simp [PhaseFits, inBody, owner, notDone])
  counts := by simp [Resolver.bodyCounts, owner, notDone, counts]
  doneClosed := closedIff
  quiet noCalls := absurd noCalls (inv.closeCalls_pos (inv.inClose_of_owner owner)).ne'
  returned := inv.returned
  loopReturned := loopReturned

theorem Invariant.advanceStep (inv : Invariant s) (stepped : s.advance g = some s') :
    Invariant s' := by
  unfold Resolver.advance at stepped
  split at stepped <;> rename_i phase
  · cases stepped
  · cases stepped
    exact inv.resolveStep .idle (by rw [phase]; rfl) rfl rfl _
  · split at stepped
    · cases stepped
      exact inv.lockStep phase ‹_›
    · cases stepped
  all_goals
    cases stepped
    obtain ⟨owner, done⟩ := (inv.phaseFits g).owner_eq (by rw [phase]; rfl)
    have before := inv.counts_of_holder owner
    have calls := (inv.closeCalls_pos (inv.inClose_of_owner owner)).ne'
    simp only [phase, CallerPc.bodyCounts, Prod.mk.injEq] at before
  · exact inv.bodyStep owner done .closingInner rfl true (s.doneCloses + 1) s.innerCloseCalls
      s.innerCloseReturns (by simp [CallerPc.bodyCounts, before done]) (by simp) fun _ => rfl
  · exact inv.bodyStep owner done .innerClosing rfl s.doneClosed s.doneCloses
      (s.innerCloseCalls + 1) s.innerCloseReturns (by simp [CallerPc.bodyCounts, before done])
      inv.doneClosed inv.loopReturned
  · exact inv.bodyStep owner done .storing rfl s.doneClosed s.doneCloses s.innerCloseCalls
      (s.innerCloseReturns + 1) (by simp [CallerPc.bodyCounts, before done]) inv.doneClosed
      inv.loopReturned
  · exact
      { phaseFits := phaseFits_of_holder (fun _ other => inv.holding_of_ne owner other)
          (fun _ other => Function.update_noteq other _ _) (.inl owner)
          (by simp [PhaseFits, CallerPc.holding, owner])
        counts := by simpa [Resolver.bodyCounts, CallerPc.bodyCounts] using before done
        doneClosed := inv.doneClosed
        quiet := fun noCalls => absurd noCalls calls
        returned := fun _ => rfl
        loopReturned := inv.loopReturned }
  · exact
      { phaseFits := phaseFits_of_holder (fun _ other => inv.holding_of_ne owner other)
          (fun _ other => Function.update_noteq other _ _) (.inr rfl)
          (by simp [PhaseFits, CallerPc.holding])
        counts := by simpa [Resolver.bodyCounts, done] using inv.counts
        doneClosed := inv.doneClosed
        quiet := fun noCalls => absurd noCalls calls
        returned := fun _ => done
        loopReturned := inv.loopReturned }

theorem Invariant.step {a : Action} (inv : Invariant s) (stepped : s.step a = some s') :
    Invariant s' := by
  cases a with
  | newTicker =>
      simp only [Resolver.step] at stepped
      split at stepped <;> cases stepped
      exact inv.loopStep .selecting s.tickWaiting s.innerResolveNows nofun
  | tick =>
      simp only [Resolver.step] at stepped
      split at stepped <;> cases stepped
      exact inv.loopStep s.loop true s.innerResolveNows inv.loopReturned
  | receiveTick =>
      simp only [Resolver.step] at stepped
      split at stepped <;> cases stepped
      exact inv.loopStep .resolving false (s.innerResolveNows + 1) nofun
  | innerResolved =>
      simp only [Resolver.step] at stepped
      split at stepped <;> cases stepped
      exact inv.loopStep .selecting s.tickWaiting s.innerResolveNows nofun
  | receiveDone =>
      simp only [Resolver.step] at stepped
      split at stepped <;> rename_i enabled <;> cases stepped
      exact inv.loopStep .returned s.tickWaiting s.innerResolveNows fun _ => enabled.2
  | resolveNow g =>
      simp only [Resolver.step] at stepped
      split at stepped <;> rename_i idle <;> cases stepped
      exact inv.resolveStep .resolving (by rw [idle]; rfl) rfl rfl _
  | close g =>
      exact inv.closeStep stepped
  | advance g =>
      exact inv.advanceStep stepped

theorem Reachable.invariant {s : Resolver} (reachable : Reachable s) : Invariant s := by
  induction reachable with
  | started interval =>
      exact invariant_started interval
  | step a _ stepped inductionHypothesis =>
      exact inductionHypothesis.step stepped

end Step

/-! ## `Close` is idempotent -/

theorem Resolver.bodyCounts_le (s : Resolver) :
    s.bodyCounts.1 ≤ 1 ∧ s.bodyCounts.2.1 ≤ 1 ∧ s.bodyCounts.2.2 ≤ 1 := by
  unfold Resolver.bodyCounts
  split
  · decide
  · split
    · rename_i g _
      cases s.callers g <;> decide
    · decide

theorem Invariant.counts_le {s : Resolver} (inv : Invariant s) :
    s.doneCloses ≤ 1 ∧ s.innerCloseCalls ≤ 1 ∧ s.innerCloseReturns ≤ 1 := by
  have bounds := s.bodyCounts_le
  rwa [← inv.counts] at bounds

theorem Invariant.counts_of_returned {s : Resolver} (inv : Invariant s)
    (closed : 0 < s.closeReturns) :
    s.doneCloses = 1 ∧ s.innerCloseCalls = 1 ∧ s.innerCloseReturns = 1 := by
  simpa [Resolver.bodyCounts, inv.returned closed] using inv.counts

theorem Invariant.counts_of_quiet {s : Resolver} (inv : Invariant s) (noCalls : s.closeCalls = 0) :
    s.doneCloses = 0 ∧ s.innerCloseCalls = 0 ∧ s.innerCloseReturns = 0 := by
  have free : s.onceOwner = none := by
    cases owner : s.onceOwner with
    | none => rfl
    | some g =>
        exact absurd owner ((inv.phaseFits g).owner_ne
          (CallerPc.holding_of_not_inClose ((inv.quiet noCalls).2 g)))
  simpa [Resolver.bodyCounts, (inv.quiet noCalls).1, free] using inv.counts

/-- For every interleaving of any number of `Close` callers with the other
goroutines, `close(r.done)` and `r.inner.Close()` run at most once; by the
time any `Close` call returns both have run and `r.inner.Close()` has
returned; and with no `Close` call neither runs. -/
theorem close_body_runs_once {s : Resolver} (reachable : Reachable s) :
    s.doneCloses ≤ 1 ∧ s.innerCloseCalls ≤ 1 ∧
    (0 < s.closeReturns →
      s.doneCloses = 1 ∧ s.innerCloseCalls = 1 ∧ s.innerCloseReturns = 1) ∧
    (s.closeCalls = 0 → s.doneCloses = 0 ∧ s.innerCloseCalls = 0) := by
  have inv := reachable.invariant
  exact ⟨inv.counts_le.1, inv.counts_le.2.1, inv.counts_of_returned,
    fun noCalls => ⟨(inv.counts_of_quiet noCalls).1, (inv.counts_of_quiet noCalls).2.1⟩⟩

/-- Two goroutines call `Close` at once; the second waits for the first to
release `o.m`, then returns without running the body. -/
def twoCloses : List Action :=
  [.close 0, .close 1, .advance 0, .advance 0, .advance 0, .advance 0, .advance 0,
    .advance 0, .advance 1, .advance 1]

def afterTwoCloses : Resolver :=
  ((Resolver.started 1).run twoCloses).getD (.started 1)

theorem close_body_runs_once_afterTwoCloses :
    Reachable afterTwoCloses ∧ afterTwoCloses.closeReturns = 2 ∧
      (afterTwoCloses.doneCloses ≤ 1 ∧ afterTwoCloses.innerCloseCalls ≤ 1 ∧
        (0 < afterTwoCloses.closeReturns → afterTwoCloses.doneCloses = 1 ∧
          afterTwoCloses.innerCloseCalls = 1 ∧ afterTwoCloses.innerCloseReturns = 1) ∧
        (afterTwoCloses.closeCalls = 0 →
          afterTwoCloses.doneCloses = 0 ∧ afterTwoCloses.innerCloseCalls = 0)) :=
  have reachable : Reachable afterTwoCloses := (Reachable.started 1).run twoCloses rfl
  ⟨reachable, rfl, close_body_runs_once reachable⟩

/-! ## The lock of `r.once` -/

/-- At most one goroutine is past `o.m.Lock()` and before `o.m.Unlock()`: the
body of `Close` never runs on two goroutines at once. -/
theorem lock_held_by_one {s : Resolver} (reachable : Reachable s) {g h : Nat}
    (gHolds : (s.callers g).holding ≠ none) (hHolds : (s.callers h).holding ≠ none) : g = h := by
  have inv := reachable.invariant
  obtain ⟨_, gInside⟩ := Option.ne_none_iff_exists'.mp gHolds
  obtain ⟨_, hInside⟩ := Option.ne_none_iff_exists'.mp hHolds
  exact Option.some.inj <|
    ((inv.phaseFits g).owner_eq gInside).1.symm.trans ((inv.phaseFits h).owner_eq hInside).1

/-- Goroutine 0 has taken `o.m` while goroutine 1 waits for it. -/
def oneWaiting : Resolver :=
  ((Resolver.started 1).run [.close 0, .close 1, .advance 0]).getD (.started 1)

theorem lock_held_by_one_oneWaiting :
    Reachable oneWaiting ∧ (oneWaiting.callers 0).holding ≠ none ∧
      oneWaiting.callers 1 = .locking ∧ 0 = 0 :=
  have reachable : Reachable oneWaiting := (Reachable.started 1).run [.close 0, .close 1, .advance 0] rfl
  have holds : (oneWaiting.callers 0).holding ≠ none := by decide
  ⟨reachable, holds, by decide, lock_held_by_one reachable holds holds⟩

end MongoShardingPoc.Loadbalancer
