import MongoShardingPoc.Throughput.BulkInsertSafety

/-!
# The bulk insert benchmark runs to its end

No goroutine of the benchmark waits for anything but `mu` and `wg`: a
worker blocks only in `mu.Lock()`, and the worker holding `mu` releases it
by steps of its own; the main goroutine blocks only in `wg.Wait()`, which
returns once every worker has returned.  So from any reachable state the
goroutines can run on until `wg.Wait()` returns: the holder of `mu`
finishes, the main goroutine starts the remaining workers, and each worker
runs to its return in turn.
-/

namespace MongoShardingPoc.Throughput

/-- The steps a worker at `pc` still takes up to its return. -/
def WorkerPc.stepsLeft : WorkerPc → Nat
  | .unstarted | .finished => 0
  | .inserting batch => 2 * (batchesPerWorker - batch) + 6
  | .adding batch => 2 * (batchesPerWorker - batch) + 5
  | .locking => 5
  | .reading => 4
  | .writing _ => 3
  | .unlocking => 2
  | .exiting => 1

section Progress

variable {s : Bench} {g : Nat}

/-- A started worker that has not returned can always take a step while no
other worker holds `mu`: it gets one step closer to its return, and leaves
the main goroutine and the other workers where they are, and `mu` free or
held by itself. -/
theorem Invariant.worker_step (inv : Invariant s) (left : 0 < (s.workers g).stepsLeft)
    (mine : s.muOwner = none ∨ s.muOwner = some g) :
    ∃ a s', s.step a = some s' ∧ (s'.workers g).stepsLeft + 1 = (s.workers g).stepsLeft ∧
      (s'.muOwner = none ∨ s'.muOwner = some g) ∧ s'.main = s.main ∧
      ∀ k, k ≠ g → s'.workers k = s.workers k := by
  have fits := inv.fits g
  have others : ∀ pc : WorkerPc, ∀ k, k ≠ g → Function.update s.workers g pc k = s.workers k :=
    fun pc k other => Function.update_noteq other pc s.workers
  cases pc : s.workers g with
  | unstarted | finished =>
      simp [pc, WorkerPc.stepsLeft] at left
  | inserting batch =>
      rw [pc] at fits
      by_cases more : batch < batchesPerWorker
      · exact ⟨.insert g 0, { (s.setWorker g (.adding batch)) with
          workerLatencies := Function.update s.workerLatencies g (s.workerLatencies g ++ [0])
          sent := s.sent ++ batchIndices g batch },
          by simp [Bench.step, Bench.insert, pc, more], by simp [WorkerPc.stepsLeft], mine, rfl,
          others _⟩
      · exact ⟨.advance g, s.setWorker g .locking, by simp [Bench.step, Bench.advance, pc, more],
          by simp only [WorkerPc.Fits] at fits; simp [WorkerPc.stepsLeft]; omega, mine, rfl,
          others _⟩
  | adding batch =>
      rw [pc] at fits
      exact ⟨.advance g, { (s.setWorker g (.inserting (batch + 1))) with
        totalOps := s.totalOps + BitVec.ofNat 64 docsPerBatch },
        by simp [Bench.step, Bench.advance, pc],
        by simp only [WorkerPc.Fits] at fits; simp [WorkerPc.stepsLeft]; omega, mine, rfl, others _⟩
  | locking =>
      have free : s.muOwner = none := mine.resolve_right fun owner => by
        simpa [pc, WorkerPc.holding] using (inv.owner_iff g).mp owner
      exact ⟨.advance g, { (s.setWorker g .reading) with muOwner := some g },
        by simp [Bench.step, Bench.advance, pc, free], by simp [WorkerPc.stepsLeft], .inr rfl, rfl,
        others _⟩
  | reading =>
      exact ⟨.advance g, s.setWorker g (.writing s.allLatencies),
        by simp [Bench.step, Bench.advance, pc], by simp [WorkerPc.stepsLeft], mine, rfl, others _⟩
  | writing snapshot =>
      exact ⟨.advance g, { (s.setWorker g .unlocking) with
        allLatencies := snapshot ++ s.workerLatencies g },
        by simp [Bench.step, Bench.advance, pc], by simp [WorkerPc.stepsLeft], mine, rfl, others _⟩
  | unlocking =>
      exact ⟨.advance g, { (s.setWorker g .exiting) with muOwner := none },
        by simp [Bench.step, Bench.advance, pc], by simp [WorkerPc.stepsLeft], .inl rfl, rfl,
        others _⟩
  | exiting =>
      exact ⟨.advance g, { (s.setWorker g .finished) with wgCount := s.wgCount - 1 },
        by simp [Bench.step, Bench.advance, pc], by simp [WorkerPc.stepsLeft], mine, rfl, others _⟩

theorem Reachable.worker_finishes (reachable : Reachable s)
    (mine : s.muOwner = none ∨ s.muOwner = some g) :
    ∃ actions s', s.run actions = some s' ∧ (s'.workers g).stepsLeft = 0 ∧
      s'.muOwner = none ∧ s'.main = s.main ∧ ∀ k, k ≠ g → s'.workers k = s.workers k := by
  generalize left : (s.workers g).stepsLeft = n
  induction n generalizing s with
  | zero =>
      refine ⟨[], s, rfl, left, mine.resolve_right fun owner => ?_, rfl, fun _ _ => rfl⟩
      have holds := (reachable.invariant.owner_iff g).mp owner
      cases pc : s.workers g <;> simp_all [WorkerPc.stepsLeft, WorkerPc.holding]
  | succ n inductionHypothesis =>
      obtain ⟨a, s₁, stepped, closer, mine₁, main₁, others₁⟩ :=
        reachable.invariant.worker_step (by omega) mine
      obtain ⟨actions, s', ran, done, free, main', others'⟩ :=
        inductionHypothesis (reachable.step a stepped) mine₁ (by omega)
      exact ⟨a :: actions, s', (Bench.run_cons_of_step stepped actions).trans ran, done, free,
        main'.trans main₁,
        fun k other => (others' k other).trans (others₁ k other)⟩

theorem Reachable.main_waits (reachable : Reachable s) (notDone : s.main ≠ .measuring) :
    ∃ actions s', s.run actions = some s' ∧ s'.main = .waiting ∧ s'.muOwner = s.muOwner := by
  generalize left : goroutines - s.spawned = n
  induction n generalizing s with
  | zero =>
      cases main : s.main with
      | spawning g =>
          have spawned : s.spawned = g := by simp [Bench.spawned, main]
          exact ⟨[.main], { s with main := .waiting },
            by simp [Bench.run, Bench.step, Bench.mainStep, main]; omega, rfl, rfl⟩
      | waiting => exact ⟨[], s, rfl, main, rfl⟩
      | measuring => exact absurd main notDone
  | succ n inductionHypothesis =>
      cases main : s.main with
      | spawning g =>
          have spawned : s.spawned = g := by simp [Bench.spawned, main]
          have below : g < goroutines := by omega
          have stepped : s.step .main = some { (s.setWorker g (.inserting 0)) with
              main := .spawning (g + 1), wgCount := s.wgCount + 1 } := by
            simp [Bench.step, Bench.mainStep, main, below]
          obtain ⟨actions, s', ran, waiting, owner⟩ := inductionHypothesis
            (reachable.step .main stepped) nofun (by simp only [Bench.spawned]; omega)
          exact ⟨.main :: actions, s', (Bench.run_cons_of_step stepped actions).trans ran, waiting,
            owner⟩
      | waiting => exact ⟨[], s, rfl, main, rfl⟩
      | measuring => exact absurd main notDone

theorem Reachable.workers_finish (reachable : Reachable s) (waiting : s.main = .waiting)
    (free : s.muOwner = none) (n : Nat) :
    ∃ actions s', s.run actions = some s' ∧ s'.main = .waiting ∧ s'.muOwner = none ∧
      ∀ k < n, (s'.workers k).stepsLeft = 0 := by
  induction n with
  | zero => exact ⟨[], s, rfl, waiting, free, nofun⟩
  | succ n inductionHypothesis =>
      obtain ⟨actions, s₁, ran₁, waiting₁, free₁, done₁⟩ := inductionHypothesis
      obtain ⟨actions', s', ran, done, free', main', others⟩ :=
        (reachable.run actions ran₁).worker_finishes (g := n) (.inl free₁)
      refine ⟨actions ++ actions', s', by rw [Bench.run_append, ran₁, Option.some_bind, ran],
        main'.trans waiting₁, free', fun k below => ?_⟩
      rcases Nat.lt_succ_iff_lt_or_eq.mp below with earlier | rfl
      · rw [others k (by omega)]
        exact done₁ k earlier
      · exact done

end Progress

/-- From every reachable state, `wg.Wait()` can return: whatever the
interleaving so far, the goroutines can run on until every worker has
returned and the main goroutine is past `wg.Wait()`. -/
theorem wait_can_return {s : Bench} (reachable : Reachable s) :
    ∃ actions s', s.run actions = some s' ∧ s'.main = .measuring := by
  by_cases measuring : s.main = .measuring
  · exact ⟨[], s, rfl, measuring⟩
  -- first the holder of `mu`, if any, returns and releases it
  obtain ⟨actions₁, s₁, ran₁, free₁, main₁⟩ : ∃ actions s₁, s.run actions = some s₁ ∧
      s₁.muOwner = none ∧ s₁.main = s.main := by
    rcases Option.eq_none_or_eq_some s.muOwner with free | ⟨h, owner⟩
    · exact ⟨[], s, rfl, free, rfl⟩
    · obtain ⟨actions, s₁, ran, -, free, main, -⟩ := reachable.worker_finishes (.inr owner)
      exact ⟨actions, s₁, ran, free, main⟩
  have reachable₁ := reachable.run actions₁ ran₁
  obtain ⟨actions₂, s₂, ran₂, waiting₂, owner₂⟩ := reachable₁.main_waits (main₁ ▸ measuring)
  have reachable₂ := reachable₁.run actions₂ ran₂
  obtain ⟨actions₃, s₃, ran₃, waiting₃, -, done₃⟩ :=
    reachable₂.workers_finish waiting₂ (owner₂.trans free₁) goroutines
  -- every worker has returned, so `wg`'s counter is zero
  have inv₃ := (reachable₂.run actions₃ ran₃).invariant
  have idle : s₃.wgCount = 0 := by
    rw [inv₃.wgCount_eq, tally_const _ _ fun k below => ?_, Nat.mul_zero]
    have := done₃ k below
    cases pc : s₃.workers k <;> simp_all [WorkerPc.stepsLeft, WorkerPc.running]
  refine ⟨actions₁ ++ actions₂ ++ actions₃ ++ [.main], { s₃ with main := .measuring }, ?_, rfl⟩
  simp only [Bench.run_append, ran₁, ran₂, ran₃, Option.some_bind]
  simp [Bench.run, Bench.step, Bench.mainStep, waiting₃, idle]

theorem wait_can_return_start :
    Reachable Bench.start ∧ ∃ actions s', Bench.start.run actions = some s' ∧
      s'.main = .measuring :=
  ⟨.start, wait_can_return .start⟩

end MongoShardingPoc.Throughput
