import MongoShardingPoc.Throughput.BulkInsert
import Mathlib.Data.List.Nodup

/-!
# What every interleaving of the bulk insert benchmark keeps

The benchmark's log promises "8 goroutines × 10 batches × 1,000 docs =
80,000 inserts".  Whatever the interleaving of the workers, and whether
their `InsertMany` calls fail or not, once `wg.Wait()` returns:

* `totalOps` is `80000`: no `Add` is lost, as the counter is atomic;
* `allLatencies` holds the ten latencies of each of the eight workers, as
  one block per worker: no append is lost, since `mu` keeps every other
  worker out between the read of `allLatencies` and the write of the
  appended slice;
* the documents sent are `idx` `0` to `79999`, each once, so that the
  `_id`s never collide.

The invariant below holds in every reachable state; the results follow from
it at the return of `wg.Wait()`.
-/

namespace MongoShardingPoc.Throughput

namespace WorkerPc

/-- The batches whose `InsertMany` has run. -/
def inserted : WorkerPc → Nat
  | .unstarted => 0
  | .inserting batch => batch
  | .adding batch => batch + 1
  | _ => batchesPerWorker

/-- The `totalOps.Add` calls made. -/
def added : WorkerPc → Nat
  | .unstarted => 0
  | .inserting batch | .adding batch => batch
  | _ => batchesPerWorker

/-- `1` while the worker counts in `wg`'s counter: started and not returned. -/
def running : WorkerPc → Nat
  | .unstarted | .finished => 0
  | _ => 1

def holding : WorkerPc → Bool
  | .reading | .writing _ | .unlocking => true
  | _ => false

/-- Whether the worker's latencies are in `allLatencies`. -/
def stored : WorkerPc → Bool
  | .unlocking | .exiting | .finished => true
  | _ => false

/-- The loop counter is within the loop's bound. -/
def Fits : WorkerPc → Prop
  | .inserting batch => batch ≤ batchesPerWorker
  | .adding batch => batch < batchesPerWorker
  | _ => True

theorem inserted_le {pc : WorkerPc} (fits : pc.Fits) : pc.inserted ≤ batchesPerWorker := by
  cases pc <;> simp only [inserted, Fits] at fits ⊢ <;> omega

end WorkerPc

def Bench.spawned (s : Bench) : Nat :=
  match s.main with
  | .spawning g => g
  | _ => goroutines

/-! ## Sums over the workers -/

/-- `f` summed over workers `0` to `n - 1`. -/
def tally {α : Type} (f : α → Nat) (workers : Nat → α) : Nat → Nat
  | 0 => 0
  | n + 1 => tally f workers n + f (workers n)

section Tally

variable {α : Type} (f : α → Nat) (workers : Nat → α)

theorem tally_congr {workers' : Nat → α} {n : Nat}
    (same : ∀ k < n, workers k = workers' k) : tally f workers n = tally f workers' n := by
  induction n with
  | zero => rfl
  | succ n inductionHypothesis =>
      simp only [tally, inductionHypothesis fun k below => same k (by omega), same n (by omega)]

theorem tally_update {g n : Nat} (below : g < n) (pc : α) :
    tally f (Function.update workers g pc) n + f (workers g) = tally f workers n + f pc := by
  induction n with
  | zero => omega
  | succ n inductionHypothesis =>
      simp only [tally]
      rcases Nat.lt_succ_iff_lt_or_eq.mp below with earlier | rfl
      · rw [Function.update_noteq (by omega)]
        have := inductionHypothesis earlier
        omega
      · have others : tally f (Function.update workers g pc) g = tally f workers g :=
          tally_congr f _ fun k below => Function.update_noteq (by omega) pc workers
        rw [others, Function.update_same]
        omega

theorem tally_update_of_eq {g n : Nat} (below : g < n) {pc : α}
    (same : f pc = f (workers g)) :
    tally f (Function.update workers g pc) n = tally f workers n := by
  have := tally_update f workers below pc
  omega

theorem tally_update_succ {g n : Nat} (below : g < n) {pc : α} (bumped : f pc = f (workers g) + 1) :
    tally f (Function.update workers g pc) n = tally f workers n + 1 := by
  have := tally_update f workers below pc
  omega

theorem tally_update_pred {g n : Nat} (below : g < n) {pc : α} (dropped : f pc + 1 = f (workers g)) :
    tally f (Function.update workers g pc) n = tally f workers n - 1 := by
  have := tally_update f workers below pc
  omega

theorem le_tally {g n : Nat} (below : g < n) : f (workers g) ≤ tally f workers n := by
  induction n with
  | zero => omega
  | succ n inductionHypothesis =>
      simp only [tally]
      rcases Nat.lt_succ_iff_lt_or_eq.mp below with earlier | rfl
      · have := inductionHypothesis earlier
        omega
      · omega

theorem tally_const {n c : Nat} (all : ∀ k < n, f (workers k) = c) : tally f workers n = n * c := by
  induction n with
  | zero => simp [tally]
  | succ n inductionHypothesis =>
      simp only [tally, inductionHypothesis fun k below => all k (by omega), all n (by omega),
        Nat.succ_mul]

end Tally

/-! ## The invariant -/

structure Invariant (s : Bench) : Prop where
  spawned_le : s.spawned ≤ goroutines
  unstarted_iff : ∀ g, s.workers g = .unstarted ↔ s.spawned ≤ g
  fits : ∀ g, (s.workers g).Fits
  latencies_length : ∀ g, (s.workerLatencies g).length = (s.workers g).inserted
  owner_iff : ∀ g, s.muOwner = some g ↔ (s.workers g).holding = true
  snapshot_eq : ∀ g snapshot, s.workers g = .writing snapshot → snapshot = s.allLatencies
  wgCount_eq : s.wgCount = tally WorkerPc.running s.workers goroutines
  measuring_wgCount : s.main = .measuring → s.wgCount = 0
  totalOps_eq :
    s.totalOps = BitVec.ofNat 64 (docsPerBatch * tally WorkerPc.added s.workers goroutines)
  stored_order : ∃ order : List Nat, order.Nodup ∧
    (∀ g, g ∈ order ↔ (s.workers g).stored = true) ∧
    s.allLatencies = (order.map s.workerLatencies).flatten
  sent_nodup : s.sent.Nodup
  mem_sent : ∀ x, x ∈ s.sent ↔
    ∃ g batch i, batch < (s.workers g).inserted ∧ i < docsPerBatch ∧ x = docIndex g batch i

theorem invariant_start : Invariant .start where
  spawned_le := by decide
  unstarted_iff g := by simp [Bench.start, Bench.spawned]
  fits _ := trivial
  latencies_length _ := rfl
  owner_iff g := by simp [Bench.start, WorkerPc.holding]
  snapshot_eq _ _ := nofun
  wgCount_eq := rfl
  measuring_wgCount _ := rfl
  totalOps_eq := rfl
  stored_order := ⟨[], List.nodup_nil, fun g => by simp [Bench.start, WorkerPc.stored], rfl⟩
  sent_nodup := List.nodup_nil
  mem_sent x := by simp [Bench.start, WorkerPc.inserted]

theorem docIndex_inj {g batch i g' batch' i' : Nat} (batchBelow : batch < batchesPerWorker)
    (batchBelow' : batch' < batchesPerWorker) (iBelow : i < docsPerBatch)
    (iBelow' : i' < docsPerBatch) (same : docIndex g batch i = docIndex g' batch' i') :
    g = g' ∧ batch = batch' ∧ i = i' := by
  simp only [docIndex, batchesPerWorker, docsPerBatch] at *
  omega

theorem lt_iff_exists_docIndex (x : Nat) :
    x < goroutines * batchesPerWorker * docsPerBatch ↔ ∃ g batch i,
      (g < goroutines ∧ batch < batchesPerWorker) ∧ i < docsPerBatch ∧ x = docIndex g batch i := by
  simp only [docIndex, goroutines, batchesPerWorker, docsPerBatch]
  constructor
  · intro below
    exact ⟨x / 10000, x % 10000 / 1000, x % 1000, by omega, by omega, by omega⟩
  · rintro ⟨g, batch, i, ⟨gBelow, batchBelow⟩, iBelow, rfl⟩
    omega

theorem update_apply_of_eq {α β : Type} (f : α → β) {workers : Nat → α} {g : Nat}
    {pc : α} (same : f pc = f (workers g)) (k : Nat) :
    f (Function.update workers g pc k) = f (workers k) := by
  by_cases other : k = g
  · subst other
    rw [Function.update_same, same]
  · rw [Function.update_noteq other]

section Step

variable {s : Bench}

theorem Invariant.started {g : Nat} (inv : Invariant s) (started : s.workers g ≠ .unstarted) :
    g < goroutines ∧ g < s.spawned := by
  have := inv.spawned_le
  have := (inv.unstarted_iff g).not.mp started
  omega

/-! ### What a move of one worker keeps

Each lemma gives one field of the invariant for the workers after worker
`g` moves to `pc`, from the same field before and from what the move keeps of
the worker; the shared fields it reads are those of `s`. -/

section Move

variable {g : Nat} {pc : WorkerPc} (inv : Invariant s)
include inv

theorem Invariant.unstarted_iff_update (started : s.workers g ≠ .unstarted)
    (started' : pc ≠ .unstarted) :
    ∀ k, Function.update s.workers g pc k = .unstarted ↔ s.spawned ≤ k :=
  (Function.forall_update_iff s.workers fun k pc => pc = .unstarted ↔ s.spawned ≤ k).mpr
    ⟨iff_of_false started' fun spawned => started ((inv.unstarted_iff g).mpr spawned),
      fun k _ => inv.unstarted_iff k⟩

theorem Invariant.fits_update (fits : pc.Fits) : ∀ k, (Function.update s.workers g pc k).Fits :=
  (Function.forall_update_iff s.workers fun _ pc => pc.Fits).mpr ⟨fits, fun k _ => inv.fits k⟩

theorem Invariant.latencies_update (same : pc.inserted = (s.workers g).inserted) :
    ∀ k, (s.workerLatencies k).length = (Function.update s.workers g pc k).inserted :=
  fun k => (update_apply_of_eq _ same k).symm ▸ inv.latencies_length k

theorem Invariant.owner_update (same : pc.holding = (s.workers g).holding) :
    ∀ k, s.muOwner = some k ↔ (Function.update s.workers g pc k).holding = true :=
  fun k => (update_apply_of_eq _ same k).symm ▸ inv.owner_iff k

theorem Invariant.snapshot_eq_update (notWriting : ∀ snapshot, pc ≠ .writing snapshot) :
    ∀ k snapshot, Function.update s.workers g pc k = .writing snapshot →
      snapshot = s.allLatencies :=
  (Function.forall_update_iff s.workers
      fun _ pc => ∀ snapshot, pc = .writing snapshot → snapshot = s.allLatencies).mpr
    ⟨fun snapshot writing => absurd writing (notWriting snapshot), fun k _ => inv.snapshot_eq k⟩

theorem Invariant.wgCount_update (below : g < goroutines)
    (same : pc.running = (s.workers g).running) :
    s.wgCount = tally WorkerPc.running (Function.update s.workers g pc) goroutines :=
  (tally_update_of_eq _ _ below same).symm ▸ inv.wgCount_eq

theorem Invariant.totalOps_update (below : g < goroutines) (same : pc.added = (s.workers g).added) :
    s.totalOps =
      BitVec.ofNat 64 (docsPerBatch * tally WorkerPc.added (Function.update s.workers g pc) goroutines) :=
  (tally_update_of_eq _ _ below same).symm ▸ inv.totalOps_eq

theorem Invariant.stored_update (same : pc.stored = (s.workers g).stored) :
    ∃ order : List Nat, order.Nodup ∧
      (∀ k, k ∈ order ↔ (Function.update s.workers g pc k).stored = true) ∧
      s.allLatencies = (order.map s.workerLatencies).flatten :=
  let ⟨order, nodup, mem, flat⟩ := inv.stored_order
  ⟨order, nodup, fun k => (update_apply_of_eq _ same k).symm ▸ mem k, flat⟩

theorem Invariant.mem_sent_update (same : pc.inserted = (s.workers g).inserted) :
    ∀ x, x ∈ s.sent ↔ ∃ k batch i, batch < (Function.update s.workers g pc k).inserted ∧
      i < docsPerBatch ∧ x = docIndex k batch i := by
  simpa only [update_apply_of_eq _ same] using inv.mem_sent

theorem Invariant.move (started : s.workers g ≠ .unstarted) (started' : pc ≠ .unstarted)
    (fits : pc.Fits) (inserted : pc.inserted = (s.workers g).inserted)
    (added : pc.added = (s.workers g).added) (running : pc.running = (s.workers g).running)
    (holding : pc.holding = (s.workers g).holding) (stored : pc.stored = (s.workers g).stored)
    (snapshot : ∀ snapshot, pc = .writing snapshot → snapshot = s.allLatencies) :
    Invariant (s.setWorker g pc) where
  spawned_le := inv.spawned_le
  unstarted_iff := inv.unstarted_iff_update started started'
  fits := inv.fits_update fits
  latencies_length := inv.latencies_update inserted
  owner_iff := inv.owner_update holding
  snapshot_eq := (Function.forall_update_iff s.workers
      fun _ pc => ∀ snapshot', pc = .writing snapshot' → snapshot' = s.allLatencies).mpr
    ⟨snapshot, fun k _ => inv.snapshot_eq k⟩
  wgCount_eq := inv.wgCount_update (inv.started started).1 running
  measuring_wgCount := inv.measuring_wgCount
  totalOps_eq := inv.totalOps_update (inv.started started).1 added
  stored_order := inv.stored_update stored
  sent_nodup := inv.sent_nodup
  mem_sent := inv.mem_sent_update inserted

end Move

/-! ### One lemma per kind of step -/

section Steps

variable {g : Nat} (inv : Invariant s)
include inv

theorem Invariant.loopExit {batch : Nat} (pc : s.workers g = .inserting batch)
    (done : batchesPerWorker ≤ batch) : Invariant (s.setWorker g .locking) := by
  have last : batch = batchesPerWorker := by
    have := inv.fits g
    rw [pc] at this
    exact le_antisymm this done
  refine inv.move ?_ ?_ trivial ?_ ?_ ?_ ?_ ?_ nofun <;>
    simp [pc, last, WorkerPc.inserted, WorkerPc.added, WorkerPc.running, WorkerPc.holding,
      WorkerPc.stored]

theorem Invariant.add {batch : Nat} (pc : s.workers g = .adding batch) :
    Invariant { (s.setWorker g (.inserting (batch + 1))) with
      totalOps := s.totalOps + BitVec.ofNat 64 docsPerBatch } := by
  have started : s.workers g ≠ .unstarted := by simp [pc]
  have below := (inv.started started).1
  have fits := inv.fits g
  rw [pc] at fits
  refine ⟨inv.spawned_le, inv.unstarted_iff_update started nofun, inv.fits_update fits,
    inv.latencies_update (by simp [pc, WorkerPc.inserted]),
    inv.owner_update (by simp [pc, WorkerPc.holding]), inv.snapshot_eq_update nofun,
    inv.wgCount_update below (by simp [pc, WorkerPc.running]), inv.measuring_wgCount, ?_,
    inv.stored_update (by simp [pc, WorkerPc.stored]), inv.sent_nodup,
    inv.mem_sent_update (by simp [pc, WorkerPc.inserted])⟩
  show s.totalOps + BitVec.ofNat 64 docsPerBatch = BitVec.ofNat 64 (docsPerBatch *
    tally WorkerPc.added (Function.update s.workers g (.inserting (batch + 1))) goroutines)
  rw [tally_update_succ WorkerPc.added s.workers below (by simp [pc, WorkerPc.added]),
    inv.totalOps_eq, BitVec.ofNat_add_ofNat, Nat.mul_succ]

theorem Invariant.lock (pc : s.workers g = .locking) (free : s.muOwner = none) :
    Invariant { (s.setWorker g .reading) with muOwner := some g } := by
  have started : s.workers g ≠ .unstarted := by simp [pc]
  have below := (inv.started started).1
  refine ⟨inv.spawned_le, inv.unstarted_iff_update started nofun, inv.fits_update trivial,
    inv.latencies_update (by simp [pc, WorkerPc.inserted]), ?_, inv.snapshot_eq_update nofun,
    inv.wgCount_update below (by simp [pc, WorkerPc.running]), inv.measuring_wgCount,
    inv.totalOps_update below (by simp [pc, WorkerPc.added]),
    inv.stored_update (by simp [pc, WorkerPc.stored]), inv.sent_nodup,
    inv.mem_sent_update (by simp [pc, WorkerPc.inserted])⟩
  exact (Function.forall_update_iff s.workers fun k pc => some g = some k ↔ pc.holding = true).mpr
    ⟨by simp [WorkerPc.holding], fun k other => by simp [Ne.symm other, ← inv.owner_iff k, free]⟩

theorem Invariant.read (pc : s.workers g = .reading) :
    Invariant (s.setWorker g (.writing s.allLatencies)) := by
  refine inv.move ?_ nofun trivial ?_ ?_ ?_ ?_ ?_ fun _ same => (WorkerPc.writing.inj same).symm <;>
    simp [pc, WorkerPc.inserted, WorkerPc.added, WorkerPc.running, WorkerPc.holding,
      WorkerPc.stored]

theorem Invariant.write {snapshot : List Duration} (pc : s.workers g = .writing snapshot) :
    Invariant { (s.setWorker g .unlocking) with
      allLatencies := snapshot ++ s.workerLatencies g } := by
  have started : s.workers g ≠ .unstarted := by simp [pc]
  have below := (inv.started started).1
  have owner : s.muOwner = some g := (inv.owner_iff g).mpr (by simp [pc, WorkerPc.holding])
  obtain ⟨order, nodup, mem, flat⟩ := inv.stored_order
  have fresh : g ∉ order := fun listed => by simpa [pc, WorkerPc.stored] using (mem g).mp listed
  refine ⟨inv.spawned_le, inv.unstarted_iff_update started nofun, inv.fits_update trivial,
    inv.latencies_update (by simp [pc, WorkerPc.inserted]),
    inv.owner_update (by simp [pc, WorkerPc.holding]), ?_,
    inv.wgCount_update below (by simp [pc, WorkerPc.running]), inv.measuring_wgCount,
    inv.totalOps_update below (by simp [pc, WorkerPc.added]),
    ⟨order ++ [g], List.nodup_append.mpr ⟨nodup, List.nodup_singleton g, ?_⟩, fun k => ?_, ?_⟩,
    inv.sent_nodup, inv.mem_sent_update (by simp [pc, WorkerPc.inserted])⟩
  · -- only the holder of `mu` writes, so no other worker holds a snapshot
    refine (Function.forall_update_iff s.workers fun _ pc =>
      ∀ snapshot', pc = .writing snapshot' → snapshot' = snapshot ++ s.workerLatencies g).mpr
      ⟨nofun, fun k other snapshot' writing => absurd ?_ other⟩
    have holds : s.muOwner = some k := (inv.owner_iff k).mpr (by simp [writing, WorkerPc.holding])
    exact Option.some.inj (holds.symm.trans owner)
  · exact fun k listed last => fresh (List.mem_singleton.mp last ▸ listed)
  · by_cases same : k = g
    · subst same
      simp [fresh, WorkerPc.stored]
    · simp [same, mem k]
  · simp [inv.snapshot_eq g snapshot pc, flat]

theorem Invariant.unlock (pc : s.workers g = .unlocking) :
    Invariant { (s.setWorker g .exiting) with muOwner := none } := by
  have started : s.workers g ≠ .unstarted := by simp [pc]
  have below := (inv.started started).1
  have owner : s.muOwner = some g := (inv.owner_iff g).mpr (by simp [pc, WorkerPc.holding])
  refine ⟨inv.spawned_le, inv.unstarted_iff_update started nofun, inv.fits_update trivial,
    inv.latencies_update (by simp [pc, WorkerPc.inserted]), ?_, inv.snapshot_eq_update nofun,
    inv.wgCount_update below (by simp [pc, WorkerPc.running]), inv.measuring_wgCount,
    inv.totalOps_update below (by simp [pc, WorkerPc.added]),
    inv.stored_update (by simp [pc, WorkerPc.stored]), inv.sent_nodup,
    inv.mem_sent_update (by simp [pc, WorkerPc.inserted])⟩
  exact (Function.forall_update_iff s.workers fun k pc => none = some k ↔ pc.holding = true).mpr
    ⟨by simp [WorkerPc.holding], fun k other => iff_of_false nofun fun holds =>
      other (Option.some.inj (((inv.owner_iff k).mpr holds).symm.trans owner))⟩

theorem Invariant.done (pc : s.workers g = .exiting) :
    Invariant { (s.setWorker g .finished) with wgCount := s.wgCount - 1 } := by
  have started : s.workers g ≠ .unstarted := by simp [pc]
  have below := (inv.started started).1
  refine ⟨inv.spawned_le, inv.unstarted_iff_update started nofun, inv.fits_update trivial,
    inv.latencies_update (by simp [pc, WorkerPc.inserted]),
    inv.owner_update (by simp [pc, WorkerPc.holding]), inv.snapshot_eq_update nofun, ?_,
    fun measuring => by simp [inv.measuring_wgCount measuring],
    inv.totalOps_update below (by simp [pc, WorkerPc.added]),
    inv.stored_update (by simp [pc, WorkerPc.stored]), inv.sent_nodup,
    inv.mem_sent_update (by simp [pc, WorkerPc.inserted])⟩
  show s.wgCount - 1 = tally WorkerPc.running (Function.update s.workers g .finished) goroutines
  rw [tally_update_pred WorkerPc.running s.workers below (by simp [pc, WorkerPc.running]),
    inv.wgCount_eq]

theorem Invariant.insert {batch : Nat} {latency : Duration} (pc : s.workers g = .inserting batch)
    (more : batch < batchesPerWorker) :
    Invariant { (s.setWorker g (.adding batch)) with
      workerLatencies := Function.update s.workerLatencies g (s.workerLatencies g ++ [latency])
      sent := s.sent ++ batchIndices g batch } := by
  have started : s.workers g ≠ .unstarted := by simp [pc]
  have below := (inv.started started).1
  obtain ⟨order, nodup, mem, flat⟩ := inv.stored_order
  have fresh : g ∉ order := fun listed => by simpa [pc, WorkerPc.stored] using (mem g).mp listed
  have stored : (WorkerPc.adding batch).stored = (s.workers g).stored := by
    simp [pc, WorkerPc.stored]
  refine ⟨inv.spawned_le, inv.unstarted_iff_update started nofun, inv.fits_update more,
    fun k => ?_, inv.owner_update (by simp [pc, WorkerPc.holding]), inv.snapshot_eq_update nofun,
    inv.wgCount_update below (by simp [pc, WorkerPc.running]), inv.measuring_wgCount,
    inv.totalOps_update below (by simp [pc, WorkerPc.added]),
    ⟨order, nodup, fun k => (update_apply_of_eq _ stored k).symm ▸ mem k, ?_⟩, ?_, fun x => ?_⟩
  · by_cases same : k = g
    · subst same
      simp [inv.latencies_length k, pc, WorkerPc.inserted]
    · simp [same, inv.latencies_length k]
  · refine flat.trans (congrArg List.flatten (List.map_congr_left fun k listed => ?_))
    exact (Function.update_noteq (show k ≠ g from fun same => fresh (same ▸ listed)) _ _).symm
  · refine List.nodup_append.mpr ⟨inv.sent_nodup,
      (List.nodup_range _).map_on fun i _ j _ same => by simp only [docIndex] at same; omega,
      fun x old new => ?_⟩
    obtain ⟨k, b, i, earlier, iBelow, rfl⟩ := (inv.mem_sent _).mp old
    obtain ⟨j, jBelow, same⟩ := List.mem_map.mp new
    obtain ⟨rfl, rfl, -⟩ := docIndex_inj more
      (lt_of_lt_of_le earlier (WorkerPc.inserted_le (inv.fits k))) (List.mem_range.mp jBelow)
      iBelow same
    simp [pc, WorkerPc.inserted] at earlier
  · -- the batch's `InsertMany` adds exactly its documents to those of the batches before
    have newBatch : ∀ k b, b < (Function.update s.workers g (.adding batch) k).inserted ↔
        b < (s.workers k).inserted ∨ (k = g ∧ b = batch) := by
      intro k b
      by_cases same : k = g
      · subst same
        simp [pc, WorkerPc.inserted]
        omega
      · simp [same]
    show x ∈ s.sent ++ batchIndices g batch ↔ ∃ k b i,
      b < (Function.update s.workers g (.adding batch) k).inserted ∧ i < docsPerBatch ∧
        x = docIndex k b i
    simp only [newBatch, or_and_right, exists_or, List.mem_append, inv.mem_sent x, and_assoc,
      exists_and_left, exists_eq_left, batchIndices, List.mem_map, List.mem_range, @eq_comm _ x]

end Steps

theorem Invariant.spawn {g : Nat} (inv : Invariant s) (spawning : s.main = .spawning g)
    (below : g < goroutines) :
    Invariant { (s.setWorker g (.inserting 0)) with
      main := .spawning (g + 1), wgCount := s.wgCount + 1 } := by
  have spawned : s.spawned = g := by simp [Bench.spawned, spawning]
  have unstarted : s.workers g = .unstarted := (inv.unstarted_iff g).mpr spawned.le
  refine ⟨below, (Function.forall_update_iff s.workers
      fun k pc => pc = .unstarted ↔ g + 1 ≤ k).mpr ⟨iff_of_false nofun (by omega), ?_⟩,
    inv.fits_update (Nat.zero_le _), inv.latencies_update (by simp [unstarted, WorkerPc.inserted]),
    inv.owner_update (by simp [unstarted, WorkerPc.holding]), inv.snapshot_eq_update nofun,
    by show s.wgCount + 1 = tally WorkerPc.running (Function.update s.workers g (.inserting 0)) _
       rw [tally_update_succ WorkerPc.running s.workers below (by simp [unstarted, WorkerPc.running]),
         inv.wgCount_eq],
    nofun,
    inv.totalOps_update below (by simp [unstarted, WorkerPc.added]),
    inv.stored_update (by simp [unstarted, WorkerPc.stored]), inv.sent_nodup,
    inv.mem_sent_update (by simp [unstarted, WorkerPc.inserted])⟩
  intro k other
  rw [inv.unstarted_iff k, spawned]
  omega

theorem Invariant.mainStep {s' : Bench} (inv : Invariant s) (stepped : s.mainStep = some s') :
    Invariant s' := by
  rcases Bench.mainStep_cases stepped with
    ⟨g, spawning, below, rfl⟩ | ⟨g, spawning, above, rfl⟩ | ⟨waiting, zero, rfl⟩
  · exact inv.spawn spawning below
  · -- the loop is over: every worker has been started
    have spawned : s.spawned = goroutines := by
      have := inv.spawned_le
      simp only [Bench.spawned, spawning] at this ⊢
      omega
    exact ⟨le_refl _, fun k => (inv.unstarted_iff k).trans (by rw [spawned]; exact Iff.rfl),
      inv.fits, inv.latencies_length, inv.owner_iff, inv.snapshot_eq, inv.wgCount_eq, nofun, inv.totalOps_eq, inv.stored_order, inv.sent_nodup,
      inv.mem_sent⟩
  · have spawned : s.spawned = goroutines := by simp [Bench.spawned, waiting]
    exact ⟨le_refl _, fun k => (inv.unstarted_iff k).trans (by rw [spawned]; exact Iff.rfl),
      inv.fits, inv.latencies_length, inv.owner_iff, inv.snapshot_eq, inv.wgCount_eq, fun _ => zero, inv.totalOps_eq, inv.stored_order,
      inv.sent_nodup, inv.mem_sent⟩

theorem Invariant.step {s' : Bench} {a : Action} (inv : Invariant s) (stepped : s.step a = some s') :
    Invariant s' := by
  cases a with
  | main => exact inv.mainStep stepped
  | insert g latency =>
      obtain ⟨batch, pc, more, rfl⟩ := Bench.insert_cases stepped
      exact inv.insert pc more
  | advance g =>
      rcases Bench.advance_cases stepped with
        ⟨batch, pc, done, rfl⟩ | ⟨batch, pc, rfl⟩ | ⟨pc, free, rfl⟩ | ⟨pc, rfl⟩ |
          ⟨snapshot, pc, rfl⟩ | ⟨pc, rfl⟩ | ⟨pc, rfl⟩
      · exact inv.loopExit pc done
      · exact inv.add pc
      · exact inv.lock pc free
      · exact inv.read pc
      · exact inv.write pc
      · exact inv.unlock pc
      · exact inv.done pc

theorem Reachable.invariant {s : Bench} (reachable : Reachable s) : Invariant s := by
  induction reachable with
  | start => exact invariant_start
  | step _ _ stepped inductionHypothesis => exact inductionHypothesis.step stepped

end Step

/-! ## When `wg.Wait()` returns -/

theorem Invariant.workers_of_measuring {s : Bench} (inv : Invariant s)
    (measuring : s.main = .measuring) (g : Nat) :
    (g < goroutines → s.workers g = .finished) ∧ (goroutines ≤ g → s.workers g = .unstarted) := by
  have spawned : s.spawned = goroutines := by simp [Bench.spawned, measuring]
  have idle := inv.wgCount_eq ▸ inv.measuring_wgCount measuring
  refine ⟨fun below => ?_, fun above => (inv.unstarted_iff g).mpr (spawned ▸ above)⟩
  have notRunning := le_tally WorkerPc.running s.workers below
  have started : s.workers g ≠ .unstarted := (inv.unstarted_iff g).not.mpr (by omega)
  cases pc : s.workers g <;> simp_all [WorkerPc.running]

/-- Whatever the interleaving, and whether the `InsertMany` calls fail or
not: once `wg.Wait()` returns, `totalOps` is `goroutines * batchesPerWorker *
docsPerBatch`, 80,000; `allLatencies` is the concatenation of the
`batchesPerWorker` latencies of each worker, one block per worker in the
order they took `mu`, so that it holds `goroutines * batchesPerWorker`, 80,
latencies; and the documents sent have the `idx` `0` to 79,999, each once. -/
theorem bulkInsert_after_wait {s : Bench} (reachable : Reachable s)
    (measuring : s.main = .measuring) :
    s.totalOps.toNat = goroutines * batchesPerWorker * docsPerBatch ∧
    (∃ order : List Nat, order.Perm (List.range goroutines) ∧
      s.allLatencies = (order.map s.workerLatencies).flatten ∧
      ∀ g ∈ order, (s.workerLatencies g).length = batchesPerWorker) ∧
    s.allLatencies.length = goroutines * batchesPerWorker ∧
    s.sent.Perm (List.range (goroutines * batchesPerWorker * docsPerBatch)) := by
  have inv := reachable.invariant
  have final := inv.workers_of_measuring measuring
  have inserted : ∀ g, (s.workers g).inserted = if g < goroutines then batchesPerWorker else 0 := by
    intro g
    split
    · simp [(final g).1 ‹_›, WorkerPc.inserted]
    · simp [(final g).2 (by omega), WorkerPc.inserted]
  obtain ⟨order, nodup, mem, flat⟩ := inv.stored_order
  have listed : ∀ g, g ∈ order ↔ g < goroutines := by
    intro g
    rw [mem g]
    by_cases below : g < goroutines
    · simp [below, (final g).1 below, WorkerPc.stored]
    · simp [below, (final g).2 (by omega), WorkerPc.stored]
  have perm : order.Perm (List.range goroutines) :=
    (List.perm_ext_iff_of_nodup nodup (List.nodup_range _)).mpr fun g => by
      rw [listed, List.mem_range]
  have blocks : ∀ g ∈ order, (s.workerLatencies g).length = batchesPerWorker := fun g member => by
    rw [inv.latencies_length, inserted, if_pos ((listed g).mp member)]
  refine ⟨?_, ⟨order, perm, flat, blocks⟩, ?_, ?_⟩
  · have added : tally WorkerPc.added s.workers goroutines = goroutines * batchesPerWorker :=
      tally_const _ _ fun k below => by simp [(final k).1 below, WorkerPc.added]
    rw [inv.totalOps_eq, added]
    rfl
  · have lengths : order.map (List.length ∘ s.workerLatencies) =
        order.map fun _ => batchesPerWorker := List.map_congr_left blocks
    rw [flat, List.length_flatten, List.map_map, lengths, List.map_const', List.sum_const_nat,
      perm.length_eq, List.length_range]
  · have batches : ∀ g batch, batch < (s.workers g).inserted ↔
        g < goroutines ∧ batch < batchesPerWorker := fun g batch => by
      rw [inserted]
      split <;> simp [*]
    refine (List.perm_ext_iff_of_nodup inv.sent_nodup (List.nodup_range _)).mpr fun x => ?_
    rw [inv.mem_sent, List.mem_range, lt_iff_exists_docIndex]
    simp only [batches]

/-- Every worker in turn, each with every `InsertMany` taking `latency`: the
main goroutine starts all of them and enters `wg.Wait()`, then each worker
runs to its return, and `wg.Wait()` returns. -/
def sequentialRun (latency : Duration) : List Action :=
  List.replicate (goroutines + 1) .main ++
    (List.range goroutines).flatMap (fun g =>
      (List.replicate batchesPerWorker [.insert g latency, .advance g]).flatten ++
        List.replicate 6 (.advance g)) ++
    [.main]

def afterSequentialRun : Bench :=
  (Bench.start.run (sequentialRun 0)).getD .start

set_option maxRecDepth 2000 in
theorem bulkInsert_after_wait_afterSequentialRun :
    Reachable afterSequentialRun ∧ afterSequentialRun.main = .measuring ∧
      (afterSequentialRun.totalOps.toNat = goroutines * batchesPerWorker * docsPerBatch ∧
      (∃ order : List Nat, order.Perm (List.range goroutines) ∧
        afterSequentialRun.allLatencies = (order.map afterSequentialRun.workerLatencies).flatten ∧
        ∀ g ∈ order, (afterSequentialRun.workerLatencies g).length = batchesPerWorker) ∧
      afterSequentialRun.allLatencies.length = goroutines * batchesPerWorker ∧
      afterSequentialRun.sent.Perm (List.range (goroutines * batchesPerWorker * docsPerBatch))) :=
  have reachable : Reachable afterSequentialRun := Reachable.start.run (sequentialRun 0) rfl
  have measuring : afterSequentialRun.main = .measuring := by decide
  ⟨reachable, measuring, bulkInsert_after_wait reachable measuring⟩

end MongoShardingPoc.Throughput
