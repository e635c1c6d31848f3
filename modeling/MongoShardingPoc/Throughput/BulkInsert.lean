import Mathlib.Data.BitVec
import Mathlib.Logic.Function.Basic

/-!
# The concurrent bulk insert benchmark

`runBulkInsertBenchmark` starts `goroutines` workers.  Each sends
`batchesPerWorker` batches of `docsPerBatch` documents with an unordered
`InsertMany`, appends each batch's latency to its own `workerLatencies`, and
adds `docsPerBatch` to the shared `atomic.Int64` `totalOps` after every
batch, failed or not.  A worker then appends its latencies to the shared
`allLatencies` under `mu`, and its deferred `wg.Done()` runs.  The main
goroutine calls `wg.Add(1)` before starting each worker, waits in
`wg.Wait()`, and then reads `totalOps` and indexes `allLatencies` for the
percentiles.

The model is one state machine over the main goroutine and the workers,
with one action per atomic step.  `allLatencies = append(allLatencies,
workerLatencies...)` is two steps: the read of `allLatencies` and the write
of the appended slice, which only `mu` keeps other workers from coming
between.  The documents are not modelled beyond their `idx`, from which the
`_id` `bench_%08d` is formatted; `sent` lists the `idx` of every document
sent to the collection, in the order of the `InsertMany` calls.
-/

namespace MongoShardingPoc.Throughput

def goroutines : Nat := 8

def batchesPerWorker : Nat := 10

def docsPerBatch : Nat := 1000

/-- `idx` of document `i` of batch `batch` of worker `workerID`. -/
def docIndex (workerID batch i : Nat) : Nat :=
  workerID * batchesPerWorker * docsPerBatch + batch * docsPerBatch + i

/-- The `idx` of the documents of one batch, in order. -/
def batchIndices (workerID batch : Nat) : List Nat :=
  (List.range docsPerBatch).map (docIndex workerID batch)

abbrev Duration := BitVec 64

/-- Where a worker is: not started yet; at the loop test for `batch`, whose
`InsertMany` comes next while `batch < batchesPerWorker`; after that
`InsertMany`, at `totalOps.Add`; waiting in `mu.Lock()`; holding `mu`, about
to read `allLatencies` (`reading`), to write the appended slice built from
`snapshot` (`writing`), or to unlock (`unlocking`); at the deferred
`wg.Done()` (`exiting`); and returned. -/
inductive WorkerPc where
  | unstarted
  | inserting (batch : Nat)
  | adding (batch : Nat)
  | locking
  | reading
  | writing (snapshot : List Duration)
  | unlocking
  | exiting
  | finished
  deriving DecidableEq, Repr

/-- Where the main goroutine is: at the loop test for worker `g`, in
`wg.Wait()`, and past it, measuring. -/
inductive MainPc where
  | spawning (g : Nat)
  | waiting
  | measuring
  deriving DecidableEq, Repr

/-- The benchmark's goroutines and shared state.  `wgCount` is the counter
of `wg`, and `muOwner` the worker holding `mu`. -/
structure Bench where
  main : MainPc
  wgCount : Nat
  workers : Nat → WorkerPc
  workerLatencies : Nat → List Duration
  muOwner : Option Nat
  totalOps : BitVec 64
  allLatencies : List Duration
  sent : List Nat

/-- The benchmark as `runBulkInsertBenchmark` starts it. -/
def Bench.start : Bench where
  main := .spawning 0
  wgCount := 0
  workers := fun _ => .unstarted
  workerLatencies := fun _ => []
  muOwner := none
  totalOps := 0
  allLatencies := []
  sent := []

/-- One atomic step: of the main goroutine (`main`), the `InsertMany` of
worker `g`'s current batch, which took `latency` (`insert g latency`), or the
next step of worker `g` (`advance g`). -/
inductive Action where
  | main
  | insert (g : Nat) (latency : Duration)
  | advance (g : Nat)
  deriving DecidableEq, Repr

namespace Bench

def setWorker (s : Bench) (g : Nat) (pc : WorkerPc) : Bench :=
  { s with workers := Function.update s.workers g pc }

/-- The next step of the main goroutine: `wg.Add(1)` and `go func(g)` for
each worker, then `wg.Wait()`, which returns once the counter is zero. -/
def mainStep (s : Bench) : Option Bench :=
  match s.main with
  | .spawning g =>
    if g < goroutines then
      some { (s.setWorker g (.inserting 0)) with
        main := .spawning (g + 1), wgCount := s.wgCount + 1 }
    else some { s with main := .waiting }
  | .waiting => if s.wgCount = 0 then some { s with main := .measuring } else none
  | .measuring => none

/-- The `InsertMany` of worker `g`'s current batch, which took `latency`:
the batch goes to the collection and its latency to `workerLatencies`. -/
def insert (s : Bench) (g : Nat) (latency : Duration) : Option Bench :=
  match s.workers g with
  | .inserting batch =>
    if batch < batchesPerWorker then
      some { (s.setWorker g (.adding batch)) with
        workerLatencies := Function.update s.workerLatencies g (s.workerLatencies g ++ [latency])
        sent := s.sent ++ batchIndices g batch }
    else none
  | _ => none

/-- The next step of worker `g` other than an `InsertMany`; `none` when it
waits for `mu`, or has no step of that kind to take. -/
def advance (s : Bench) (g : Nat) : Option Bench :=
  match s.workers g with
  | .inserting batch =>
    if batch < batchesPerWorker then none else some (s.setWorker g .locking)
  | .adding batch =>
    some { (s.setWorker g (.inserting (batch + 1))) with
      totalOps := s.totalOps + BitVec.ofNat 64 docsPerBatch }
  | .locking =>
    if s.muOwner = none then some { (s.setWorker g .reading) with muOwner := some g }
    else none
  | .reading => some (s.setWorker g (.writing s.allLatencies))
  | .writing snapshot =>
    some { (s.setWorker g .unlocking) with allLatencies := snapshot ++ s.workerLatencies g }
  | .unlocking => some { (s.setWorker g .exiting) with muOwner := none }
  | .exiting => some { (s.setWorker g .finished) with wgCount := s.wgCount - 1 }
  | .unstarted | .finished => none

/-- One step of the benchmark; `none` when the action is not enabled. -/
def step (s : Bench) : Action → Option Bench
  | .main => s.mainStep
  | .insert g latency => s.insert g latency
  | .advance g => s.advance g

def run (s : Bench) : List Action → Option Bench
  | [] => some s
  | a :: actions => (s.step a).bind fun s' => s'.run actions

end Bench

/-- The states some interleaving of the goroutines reaches from the start. -/
inductive Reachable : Bench → Prop
  | start : Reachable .start
  | step {s s' : Bench} (a : Action) : Reachable s → s.step a = some s' → Reachable s'

theorem Reachable.run {s : Bench} (reachable : Reachable s) (actions : List Action)
    {s' : Bench} (ran : s.run actions = some s') : Reachable s' := by
  induction actions generalizing s with
  | nil =>
      cases ran
      exact reachable
  | cons a actions inductionHypothesis =>
      simp only [Bench.run, Option.bind_eq_some] at ran
      obtain ⟨middle, stepped, ran⟩ := ran
      exact inductionHypothesis (reachable.step a stepped) ran

namespace Bench

theorem run_cons_of_step {s s₁ : Bench} {a : Action} (stepped : s.step a = some s₁)
    (actions : List Action) : s.run (a :: actions) = s₁.run actions := by
  rw [run, stepped, Option.some_bind]

theorem run_append (s : Bench) (first rest : List Action) :
    s.run (first ++ rest) = (s.run first).bind fun s' => s'.run rest := by
  induction first generalizing s with
  | nil =>
      rfl
  | cons a first inductionHypothesis =>
      rw [List.cons_append, run, run, Option.bind_assoc]
      simp only [inductionHypothesis]

/-! ## One lemma per field of `setWorker` -/

section SetWorker

variable (s : Bench) (g : Nat) (pc : WorkerPc)

@[simp] theorem setWorker_workers :
    (s.setWorker g pc).workers = Function.update s.workers g pc := rfl
@[simp] theorem setWorker_main : (s.setWorker g pc).main = s.main := rfl
@[simp] theorem setWorker_wgCount : (s.setWorker g pc).wgCount = s.wgCount := rfl
@[simp] theorem setWorker_workerLatencies :
    (s.setWorker g pc).workerLatencies = s.workerLatencies := rfl
@[simp] theorem setWorker_muOwner : (s.setWorker g pc).muOwner = s.muOwner := rfl
@[simp] theorem setWorker_totalOps : (s.setWorker g pc).totalOps = s.totalOps := rfl
@[simp] theorem setWorker_allLatencies : (s.setWorker g pc).allLatencies = s.allLatencies := rfl
@[simp] theorem setWorker_sent : (s.setWorker g pc).sent = s.sent := rfl

end SetWorker

/-! ## What a step can do -/

section Cases

variable {s s' : Bench}

theorem mainStep_cases (stepped : s.mainStep = some s') :
    (∃ g, s.main = .spawning g ∧ g < goroutines ∧
      s' = { (s.setWorker g (.inserting 0)) with
        main := .spawning (g + 1), wgCount := s.wgCount + 1 }) ∨
    (∃ g, s.main = .spawning g ∧ goroutines ≤ g ∧ s' = { s with main := .waiting }) ∨
    (s.main = .waiting ∧ s.wgCount = 0 ∧ s' = { s with main := .measuring }) := by
  unfold mainStep at stepped
  split at stepped
  · rename_i g spawning
    split at stepped
    · exact .inl ⟨g, spawning, ‹_›, (Option.some.inj stepped).symm⟩
    · exact .inr (.inl ⟨g, spawning, by omega, (Option.some.inj stepped).symm⟩)
  · split at stepped
    · exact .inr (.inr ⟨‹_›, ‹_›, (Option.some.inj stepped).symm⟩)
    · cases stepped
  · cases stepped

theorem insert_cases {g : Nat} {latency : Duration} (stepped : s.insert g latency = some s') :
    ∃ batch, s.workers g = .inserting batch ∧ batch < batchesPerWorker ∧
      s' = { (s.setWorker g (.adding batch)) with
        workerLatencies := Function.update s.workerLatencies g (s.workerLatencies g ++ [latency])
        sent := s.sent ++ batchIndices g batch } := by
  unfold insert at stepped
  split at stepped
  · rename_i batch inserting
    split at stepped
    · exact ⟨batch, inserting, ‹_›, (Option.some.inj stepped).symm⟩
    · cases stepped
  · cases stepped

theorem advance_cases {g : Nat} (stepped : s.advance g = some s') :
    (∃ batch, s.workers g = .inserting batch ∧ batchesPerWorker ≤ batch ∧
      s' = s.setWorker g .locking) ∨
    (∃ batch, s.workers g = .adding batch ∧
      s' = { (s.setWorker g (.inserting (batch + 1))) with
        totalOps := s.totalOps + BitVec.ofNat 64 docsPerBatch }) ∨
    (s.workers g = .locking ∧ s.muOwner = none ∧
      s' = { (s.setWorker g .reading) with muOwner := some g }) ∨
    (s.workers g = .reading ∧ s' = s.setWorker g (.writing s.allLatencies)) ∨
    (∃ snapshot, s.workers g = .writing snapshot ∧
      s' = { (s.setWorker g .unlocking) with
        allLatencies := snapshot ++ s.workerLatencies g }) ∨
    (s.workers g = .unlocking ∧ s' = { (s.setWorker g .exiting) with muOwner := none }) ∨
    (s.workers g = .exiting ∧
      s' = { (s.setWorker g .finished) with wgCount := s.wgCount - 1 }) := by
  unfold advance at stepped
  split at stepped <;> rename_i pc
  · split at stepped
    · cases stepped
    · exact .inl ⟨_, pc, by omega, (Option.some.inj stepped).symm⟩
  · exact .inr (.inl ⟨_, pc, (Option.some.inj stepped).symm⟩)
  · split at stepped
    · exact .inr (.inr (.inl ⟨pc, ‹_›, (Option.some.inj stepped).symm⟩))
    · cases stepped
  · exact .inr (.inr (.inr (.inl ⟨pc, (Option.some.inj stepped).symm⟩)))
  · exact .inr (.inr (.inr (.inr (.inl ⟨_, pc, (Option.some.inj stepped).symm⟩))))
  · exact .inr (.inr (.inr (.inr (.inr (.inl ⟨pc, (Option.some.inj stepped).symm⟩)))))
  · exact .inr (.inr (.inr (.inr (.inr (.inr ⟨pc, (Option.some.inj stepped).symm⟩)))))
  · cases stepped
  · cases stepped

end Cases

end Bench

end MongoShardingPoc.Throughput
