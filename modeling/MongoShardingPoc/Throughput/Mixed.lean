import MongoShardingPoc.Throughput.BulkInsert

/-!
# The mixed read/write benchmark

`runMixedBenchmark` starts `mixedGoroutines` workers, which loop until a
deadline ten seconds away.  Each turn of a worker's loop increments its
`opCounter` and draws whether to write.  A write is an `InsertOne` of a
document whose `_id` is `mixed_%d_%d` of the worker's id and its
`opCounter`; a read is a `Find` on a random category.  The worker appends the
call's latency to its `localWriteLatencies` or `localReadLatencies` whether
the call fails or not, and only when it succeeds adds one to the shared
`atomic.Int64` `writeOps` or `readOps`.  After the loop it appends its two
local slices to the shared `writeLatencies` and `readLatencies` under `mu`,
and its deferred `wg.Done()` runs.  The main goroutine starts the workers as
in the bulk benchmark, waits in `wg.Wait()`, and then reports `writeOps +
readOps` as the operations done, and percentiles of the two latency slices.

The model is one state machine, like the bulk benchmark's.  A turn's loop
test, `opCounter++` and draw are one step, as they touch nothing shared.
Each append to a shared slice is two steps, the read of the slice and the
write of the appended one, which only `mu` keeps other workers from coming
between.  The clock and the draws are the environment's: the step of a turn
says whether the deadline has passed and, if not, whether the turn writes.
A worker keeps count of its successful and failed calls, and `insertedIds`
records the `(workerID, opCounter)` of every `InsertOne`, from which its
`_id` is formatted; neither is a Go variable.
-/

namespace MongoShardingPoc.Throughput

def mixedGoroutines : Nat := 4

/-- Where a worker of the mixed benchmark is: not started yet; at the loop
test (`looping`); about to `InsertOne` (`writing`) or `Find` (`reading`);
after a call that succeeded, at `writeOps.Add(1)` (`countingWrite`) or at
`cursor.Close` and `readOps.Add(1)` (`countingRead`); waiting in
`mu.Lock()`; holding `mu`, about to read `writeLatencies`, to write the
appended slice built from `snapshot`, to read `readLatencies`, to write that
appended slice, or to unlock; at the deferred `wg.Done()` (`exiting`); and
returned. -/
inductive MixedPc where
  | unstarted
  | looping
  | writing
  | countingWrite
  | reading
  | countingRead
  | locking
  | readingWrites
  | writingWrites (snapshot : List Duration)
  | readingReads
  | writingReads (snapshot : List Duration)
  | unlocking
  | exiting
  | finished
  deriving DecidableEq, Repr

/-- A worker's own variables: where it is, `opCounter`,
`localWriteLatencies` and `localReadLatencies`; and, not Go variables, the
successful writes and reads it has added to `writeOps` and `readOps`, and
its calls that failed. -/
structure MixedWorker where
  pc : MixedPc
  opCounter : Nat
  localWrites : List Duration
  localReads : List Duration
  writesCounted : Nat
  readsCounted : Nat
  writesFailed : Nat
  readsFailed : Nat
  deriving DecidableEq, Repr

/-- A worker before its goroutine starts, and as it starts, at its loop. -/
def MixedWorker.fresh (pc : MixedPc) : MixedWorker :=
  ⟨pc, 0, [], [], 0, 0, 0, 0⟩

/-- The benchmark's goroutines and shared state.  `wgCount` is the counter
of `wg`, and `muOwner` the worker holding `mu`. -/
structure Mixed where
  main : MainPc
  wgCount : Nat
  workers : Nat → MixedWorker
  muOwner : Option Nat
  writeOps : BitVec 64
  readOps : BitVec 64
  writeLatencies : List Duration
  readLatencies : List Duration
  insertedIds : List (Nat × Nat)

/-- The benchmark as `runMixedBenchmark` starts it. -/
def Mixed.start : Mixed where
  main := .spawning 0
  wgCount := 0
  workers := fun _ => .fresh .unstarted
  muOwner := none
  writeOps := 0
  readOps := 0
  writeLatencies := []
  readLatencies := []
  insertedIds := []

/-- One atomic step: of the main goroutine (`main`); a turn of worker `g`'s
loop, with `draw` `none` once the deadline has passed and otherwise whether
the turn writes (`turn g draw`); the `InsertOne` or `Find` of worker `g`'s
turn, which took `latency` and failed or not (`call g latency failed`); or
the next other step of worker `g` (`advance g`). -/
inductive MixedAction where
  | main
  | turn (g : Nat) (draw : Option Bool)
  | call (g : Nat) (latency : Duration) (failed : Bool)
  | advance (g : Nat)
  deriving DecidableEq, Repr

namespace Mixed

/-- Worker `g`'s variables become `f` of them. -/
def move (s : Mixed) (g : Nat) (f : MixedWorker → MixedWorker) : Mixed :=
  { s with workers := Function.update s.workers g (f (s.workers g)) }

/-- The next step of the main goroutine: `wg.Add(1)` and `go func(g)` for
each worker, then `wg.Wait()`, which returns once the counter is zero. -/
def mainStep (s : Mixed) : Option Mixed :=
  match s.main with
  | .spawning g =>
    if g < mixedGoroutines then
      some { (s.move g fun _ => .fresh .looping) with
        main := .spawning (g + 1), wgCount := s.wgCount + 1 }
    else some { s with main := .waiting }
  | .waiting => if s.wgCount = 0 then some { s with main := .measuring } else none
  | .measuring => none

/-- A turn of worker `g`'s loop: past the deadline it leaves the loop;
before it, `opCounter++` and the draw. -/
def turn (s : Mixed) (g : Nat) (draw : Option Bool) : Option Mixed :=
  match (s.workers g).pc, draw with
  | .looping, none => some (s.move g fun w => { w with pc := .locking })
  | .looping, some isWrite =>
    some (s.move g fun w =>
      { w with pc := if isWrite then .writing else .reading, opCounter := w.opCounter + 1 })
  | _, _ => none

/-- The `InsertOne` or `Find` of worker `g`'s turn, which took `latency`:
the latency goes to the worker's local slice whether the call failed or not,
and an `InsertOne` sends the `_id` of `(g, opCounter)`. -/
def call (s : Mixed) (g : Nat) (latency : Duration) (failed : Bool) : Option Mixed :=
  match (s.workers g).pc with
  | .writing =>
    some { (s.move g fun w =>
        { w with pc := if failed then .looping else .countingWrite,
                 localWrites := w.localWrites ++ [latency],
                 writesFailed := if failed then w.writesFailed + 1 else w.writesFailed }) with
      insertedIds := s.insertedIds ++ [(g, (s.workers g).opCounter)] }
  | .reading =>
    some (s.move g fun w =>
      { w with pc := if failed then .looping else .countingRead,
               localReads := w.localReads ++ [latency],
               readsFailed := if failed then w.readsFailed + 1 else w.readsFailed })
  | _ => none

/-- The next step of worker `g` other than a turn or a call; `none` when it
waits for `mu`, or has no step of that kind to take. -/
def advance (s : Mixed) (g : Nat) : Option Mixed :=
  match (s.workers g).pc with
  | .countingWrite =>
    some { (s.move g fun w => { w with pc := .looping, writesCounted := w.writesCounted + 1 }) with
      writeOps := s.writeOps + 1 }
  | .countingRead =>
    some { (s.move g fun w => { w with pc := .looping, readsCounted := w.readsCounted + 1 }) with
      readOps := s.readOps + 1 }
  | .locking =>
    if s.muOwner = none then
      some { (s.move g fun w => { w with pc := .readingWrites }) with muOwner := some g }
    else none
  | .readingWrites => some (s.move g fun w => { w with pc := .writingWrites s.writeLatencies })
  | .writingWrites snapshot =>
    some { (s.move g fun w => { w with pc := .readingReads }) with
      writeLatencies := snapshot ++ (s.workers g).localWrites }
  | .readingReads => some (s.move g fun w => { w with pc := .writingReads s.readLatencies })
  | .writingReads snapshot =>
    some { (s.move g fun w => { w with pc := .unlocking }) with
      readLatencies := snapshot ++ (s.workers g).localReads }
  | .unlocking => some { (s.move g fun w => { w with pc := .exiting }) with muOwner := none }
  | .exiting =>
    some { (s.move g fun w => { w with pc := .finished }) with wgCount := s.wgCount - 1 }
  | _ => none

/-- One step of the benchmark; `none` when the action is not enabled. -/
def step (s : Mixed) : MixedAction → Option Mixed
  | .main => s.mainStep
  | .turn g draw => s.turn g draw
  | .call g latency failed => s.call g latency failed
  | .advance g => s.advance g

def run (s : Mixed) : List MixedAction → Option Mixed
  | [] => some s
  | a :: actions => (s.step a).bind fun s' => s'.run actions

end Mixed

/-- The states some interleaving of the goroutines reaches from the start. -/
inductive MixedReachable : Mixed → Prop
  | start : MixedReachable .start
  | step {s s' : Mixed} (a : MixedAction) : MixedReachable s → s.step a = some s' →
      MixedReachable s'

theorem MixedReachable.run {s : Mixed} (reachable : MixedReachable s) (actions : List MixedAction)
    {s' : Mixed} (ran : s.run actions = some s') : MixedReachable s' := by
  induction actions generalizing s with
  | nil =>
      cases ran
      exact reachable
  | cons a actions inductionHypothesis =>
      simp only [Mixed.run, Option.bind_eq_some] at ran
      obtain ⟨middle, stepped, ran⟩ := ran
      exact inductionHypothesis (reachable.step a stepped) ran

namespace Mixed

/-! ## One lemma per field of `move` -/

section Move

variable (s : Mixed) (g : Nat) (f : MixedWorker → MixedWorker)

@[simp] theorem move_workers :
    (s.move g f).workers = Function.update s.workers g (f (s.workers g)) := rfl
@[simp] theorem move_main : (s.move g f).main = s.main := rfl
@[simp] theorem move_wgCount : (s.move g f).wgCount = s.wgCount := rfl
@[simp] theorem move_muOwner : (s.move g f).muOwner = s.muOwner := rfl
@[simp] theorem move_writeOps : (s.move g f).writeOps = s.writeOps := rfl
@[simp] theorem move_readOps : (s.move g f).readOps = s.readOps := rfl
@[simp] theorem move_writeLatencies : (s.move g f).writeLatencies = s.writeLatencies := rfl
@[simp] theorem move_readLatencies : (s.move g f).readLatencies = s.readLatencies := rfl
@[simp] theorem move_insertedIds : (s.move g f).insertedIds = s.insertedIds := rfl

end Move

end Mixed

end MongoShardingPoc.Throughput
