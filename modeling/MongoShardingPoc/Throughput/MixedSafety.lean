import MongoShardingPoc.Throughput.Mixed
import MongoShardingPoc.Throughput.BulkInsertSafety

/-!
# What every interleaving of the mixed benchmark keeps

The benchmark reports `writeOps + readOps` as the operations it did, and the
percentiles of `writeLatencies` and `readLatencies`.  Whatever the
interleaving of the workers, the deadline and the draws, and whether the
calls fail or not, once `wg.Wait()` returns:

* `writeOps` and `readOps` are the successful writes and reads of all the
  workers: no `Add` is lost, as the counters are atomic;
* `writeLatencies` and `readLatencies` hold the local slices of the four
  workers, one block per worker in the order they took `mu`: no append is
  lost, since `mu` keeps every other worker out between the read of a shared
  slice and the write of the appended one;
* a worker's latencies number at least its successful calls, and more when
  one of its calls failed: the percentiles are over every call, the
  operation count over the successful ones;
* no two `InsertOne` calls send the same `(workerID, opCounter)`, so the
  `_id`s the benchmark formats from them never collide.
-/

namespace MongoShardingPoc.Throughput

namespace MixedPc

/-- `1` while the worker counts in `wg`'s counter: started and not returned. -/
def running : MixedPc → Nat
  | .unstarted | .finished => 0
  | _ => 1

def holding : MixedPc → Bool
  | .readingWrites | .writingWrites _ | .readingReads | .writingReads _ | .unlocking => true
  | _ => false

/-- Whether the worker's write latencies are in `writeLatencies`. -/
def writesStored : MixedPc → Bool
  | .readingReads | .writingReads _ | .unlocking | .exiting | .finished => true
  | _ => false

/-- Whether the worker's read latencies are in `readLatencies`. -/
def readsStored : MixedPc → Bool
  | .unlocking | .exiting | .finished => true
  | _ => false

/-- `1` at `writeOps.Add(1)`: a successful write not counted yet. -/
def pendingWrites : MixedPc → Nat
  | .countingWrite => 1
  | _ => 0

/-- `1` at `readOps.Add(1)`: a successful read not counted yet. -/
def pendingReads : MixedPc → Nat
  | .countingRead => 1
  | _ => 0

end MixedPc

/-- What holds of each worker's own variables: a worker not started yet has
its initial variables; its local latencies are one per call, counted,
failed, or successful and about to be counted; and a turn's `opCounter` is
positive. -/
structure MixedWorker.Fits (w : MixedWorker) : Prop where
  fresh : w.pc = .unstarted → w = .fresh .unstarted
  writes_length : w.localWrites.length = w.writesCounted + w.writesFailed + w.pc.pendingWrites
  reads_length : w.localReads.length = w.readsCounted + w.readsFailed + w.pc.pendingReads
  writing_pos : w.pc = .writing → 0 < w.opCounter

def Mixed.spawned (s : Mixed) : Nat :=
  match s.main with
  | .spawning g => g
  | _ => mixedGoroutines

structure MixedInvariant (s : Mixed) : Prop where
  spawned_le : s.spawned ≤ mixedGoroutines
  unstarted_iff : ∀ g, (s.workers g).pc = .unstarted ↔ s.spawned ≤ g
  fits : ∀ g, (s.workers g).Fits
  owner_iff : ∀ g, s.muOwner = some g ↔ (s.workers g).pc.holding = true
  writesSnapshot_eq : ∀ g snapshot, (s.workers g).pc = .writingWrites snapshot →
    snapshot = s.writeLatencies
  readsSnapshot_eq : ∀ g snapshot, (s.workers g).pc = .writingReads snapshot →
    snapshot = s.readLatencies
  wgCount_eq : s.wgCount = tally (fun w : MixedWorker => w.pc.running) s.workers mixedGoroutines
  measuring_wgCount : s.main = .measuring → s.wgCount = 0
  writeOps_eq : s.writeOps = BitVec.ofNat 64 (tally MixedWorker.writesCounted s.workers mixedGoroutines)
  readOps_eq : s.readOps = BitVec.ofNat 64 (tally MixedWorker.readsCounted s.workers mixedGoroutines)
  writes_order : ∃ order : List Nat, order.Nodup ∧
    (∀ g, g ∈ order ↔ (s.workers g).pc.writesStored = true) ∧
    s.writeLatencies = (order.map fun g => (s.workers g).localWrites).flatten
  reads_order : ∃ order : List Nat, order.Nodup ∧
    (∀ g, g ∈ order ↔ (s.workers g).pc.readsStored = true) ∧
    s.readLatencies = (order.map fun g => (s.workers g).localReads).flatten
  ids_nodup : s.insertedIds.Nodup
  mem_ids : ∀ k op, (k, op) ∈ s.insertedIds → 0 < op ∧ op ≤ (s.workers k).opCounter ∧
    ((s.workers k).pc = .writing → op < (s.workers k).opCounter)

theorem mixedInvariant_start : MixedInvariant .start where
  spawned_le := by decide
  unstarted_iff g := by simp [Mixed.start, Mixed.spawned, MixedWorker.fresh]
  fits _ := ⟨fun _ => rfl, rfl, rfl, nofun⟩
  owner_iff g := by simp [Mixed.start, MixedWorker.fresh, MixedPc.holding]
  writesSnapshot_eq _ _ := nofun
  readsSnapshot_eq _ _ := nofun
  wgCount_eq := rfl
  measuring_wgCount _ := rfl
  writeOps_eq := rfl
  readOps_eq := rfl
  writes_order := ⟨[], List.nodup_nil, fun g => by simp [Mixed.start, MixedWorker.fresh,
    MixedPc.writesStored], rfl⟩
  reads_order := ⟨[], List.nodup_nil, fun g => by simp [Mixed.start, MixedWorker.fresh,
    MixedPc.readsStored], rfl⟩
  ids_nodup := List.nodup_nil
  mem_ids _ _ := nofun

theorem map_update_of_mem {β : Type} (project : MixedWorker → β) (workers : Nat → MixedWorker)
    {order : List Nat} {g : Nat} {w : MixedWorker} (same : g ∈ order → project w = project (workers g)) :
    (order.map fun k => project (Function.update workers g w k)) = order.map fun k => project (workers k) :=
  List.map_congr_left fun k member => by
    by_cases other : k = g
    · subst other
      rw [Function.update_same, same member]
    · rw [Function.update_noteq other]

section Step

variable {s : Mixed}

theorem MixedInvariant.started {g : Nat} (inv : MixedInvariant s)
    (started : (s.workers g).pc ≠ .unstarted) : g < mixedGoroutines ∧ g < s.spawned := by
  have := inv.spawned_le
  have := (inv.unstarted_iff g).not.mp started
  omega

/-! ### What a move of one worker keeps

Each lemma gives one field of the invariant for the workers after worker
`g`'s variables become `w`, from the same field before and from what the
move keeps of the worker; the shared fields it reads are those of `s`. -/

section Update

variable {g : Nat} {w : MixedWorker} (inv : MixedInvariant s)
include inv

theorem MixedInvariant.unstarted_iff_update (started : (s.workers g).pc ≠ .unstarted)
    (started' : w.pc ≠ .unstarted) :
    ∀ k, (Function.update s.workers g w k).pc = .unstarted ↔ s.spawned ≤ k :=
  (Function.forall_update_iff s.workers fun k w => w.pc = .unstarted ↔ s.spawned ≤ k).mpr
    ⟨iff_of_false started' fun spawned => started ((inv.unstarted_iff g).mpr spawned),
      fun k _ => inv.unstarted_iff k⟩

theorem MixedInvariant.fits_update (fits : w.Fits) :
    ∀ k, (Function.update s.workers g w k).Fits :=
  (Function.forall_update_iff s.workers fun _ w => w.Fits).mpr ⟨fits, fun k _ => inv.fits k⟩

theorem MixedInvariant.owner_update (same : w.pc.holding = (s.workers g).pc.holding) :
    ∀ k, s.muOwner = some k ↔ (Function.update s.workers g w k).pc.holding = true :=
  fun k => (update_apply_of_eq (fun w : MixedWorker => w.pc.holding) same k).symm ▸ inv.owner_iff k

theorem MixedInvariant.writesSnapshot_update
    (snapshot : ∀ snapshot, w.pc = .writingWrites snapshot → snapshot = s.writeLatencies) :
    ∀ k snapshot', (Function.update s.workers g w k).pc = .writingWrites snapshot' →
      snapshot' = s.writeLatencies :=
  (Function.forall_update_iff s.workers fun _ w =>
      ∀ snapshot', w.pc = .writingWrites snapshot' → snapshot' = s.writeLatencies).mpr
    ⟨snapshot, fun k _ => inv.writesSnapshot_eq k⟩

theorem MixedInvariant.readsSnapshot_update
    (snapshot : ∀ snapshot, w.pc = .writingReads snapshot → snapshot = s.readLatencies) :
    ∀ k snapshot', (Function.update s.workers g w k).pc = .writingReads snapshot' →
      snapshot' = s.readLatencies :=
  (Function.forall_update_iff s.workers fun _ w =>
      ∀ snapshot', w.pc = .writingReads snapshot' → snapshot' = s.readLatencies).mpr
    ⟨snapshot, fun k _ => inv.readsSnapshot_eq k⟩

theorem MixedInvariant.wgCount_update (below : g < mixedGoroutines)
    (same : w.pc.running = (s.workers g).pc.running) :
    s.wgCount = tally (fun w : MixedWorker => w.pc.running) (Function.update s.workers g w)
      mixedGoroutines :=
  (tally_update_of_eq (fun w : MixedWorker => w.pc.running) s.workers below same).symm ▸
    inv.wgCount_eq

theorem MixedInvariant.writeOps_update (below : g < mixedGoroutines)
    (same : w.writesCounted = (s.workers g).writesCounted) :
    s.writeOps = BitVec.ofNat 64
      (tally MixedWorker.writesCounted (Function.update s.workers g w) mixedGoroutines) :=
  (tally_update_of_eq _ _ below same).symm ▸ inv.writeOps_eq

theorem MixedInvariant.readOps_update (below : g < mixedGoroutines)
    (same : w.readsCounted = (s.workers g).readsCounted) :
    s.readOps = BitVec.ofNat 64
      (tally MixedWorker.readsCounted (Function.update s.workers g w) mixedGoroutines) :=
  (tally_update_of_eq _ _ below same).symm ▸ inv.readOps_eq

theorem MixedInvariant.writes_order_update (same : w.pc.writesStored = (s.workers g).pc.writesStored)
    (kept : (s.workers g).pc.writesStored = true → w.localWrites = (s.workers g).localWrites) :
    ∃ order : List Nat, order.Nodup ∧
      (∀ k, k ∈ order ↔ (Function.update s.workers g w k).pc.writesStored = true) ∧
      s.writeLatencies = (order.map fun k => (Function.update s.workers g w k).localWrites).flatten :=
  let ⟨order, nodup, mem, flat⟩ := inv.writes_order
  ⟨order, nodup,
    fun k => (update_apply_of_eq (fun w : MixedWorker => w.pc.writesStored) same k).symm ▸ mem k,
    by rw [map_update_of_mem MixedWorker.localWrites s.workers fun member => kept ((mem g).mp member)]
       exact flat⟩

theorem MixedInvariant.reads_order_update (same : w.pc.readsStored = (s.workers g).pc.readsStored)
    (kept : (s.workers g).pc.readsStored = true → w.localReads = (s.workers g).localReads) :
    ∃ order : List Nat, order.Nodup ∧
      (∀ k, k ∈ order ↔ (Function.update s.workers g w k).pc.readsStored = true) ∧
      s.readLatencies = (order.map fun k => (Function.update s.workers g w k).localReads).flatten :=
  let ⟨order, nodup, mem, flat⟩ := inv.reads_order
  ⟨order, nodup,
    fun k => (update_apply_of_eq (fun w : MixedWorker => w.pc.readsStored) same k).symm ▸ mem k,
    by rw [map_update_of_mem MixedWorker.localReads s.workers fun member => kept ((mem g).mp member)]
       exact flat⟩

theorem MixedInvariant.mem_ids_update (w : MixedWorker)
    (counter : (s.workers g).opCounter ≤ w.opCounter)
    (fresh : w.pc = .writing → ∀ op, (g, op) ∈ s.insertedIds → op < w.opCounter) :
    ∀ k op, (k, op) ∈ s.insertedIds → 0 < op ∧ op ≤ (Function.update s.workers g w k).opCounter ∧
      ((Function.update s.workers g w k).pc = .writing →
        op < (Function.update s.workers g w k).opCounter) := by
  intro k op listed
  obtain ⟨positive, atMost, _⟩ := inv.mem_ids k op listed
  by_cases other : k = g
  · subst other
    simp only [Function.update_same]
    exact ⟨positive, atMost.trans counter, fun writing => fresh writing op listed⟩
  · simp only [Function.update_noteq other]
    exact inv.mem_ids k op listed

theorem MixedInvariant.move (w : MixedWorker) (started : (s.workers g).pc ≠ .unstarted)
    (started' : w.pc ≠ .unstarted) (fits : w.Fits)
    (running : w.pc.running = (s.workers g).pc.running)
    (holding : w.pc.holding = (s.workers g).pc.holding)
    (writesStored : w.pc.writesStored = (s.workers g).pc.writesStored)
    (readsStored : w.pc.readsStored = (s.workers g).pc.readsStored)
    (writesCounted : w.writesCounted = (s.workers g).writesCounted)
    (readsCounted : w.readsCounted = (s.workers g).readsCounted)
    (localWrites : (s.workers g).pc.writesStored = true → w.localWrites = (s.workers g).localWrites)
    (localReads : (s.workers g).pc.readsStored = true → w.localReads = (s.workers g).localReads)
    (counter : (s.workers g).opCounter ≤ w.opCounter)
    (fresh : w.pc = .writing → ∀ op, (g, op) ∈ s.insertedIds → op < w.opCounter)
    (writesSnapshot : ∀ snapshot, w.pc = .writingWrites snapshot → snapshot = s.writeLatencies)
    (readsSnapshot : ∀ snapshot, w.pc = .writingReads snapshot → snapshot = s.readLatencies) :
    MixedInvariant (s.move g fun _ => w) where
  spawned_le := inv.spawned_le
  unstarted_iff := inv.unstarted_iff_update started started'
  fits := inv.fits_update fits
  owner_iff := inv.owner_update holding
  writesSnapshot_eq := inv.writesSnapshot_update writesSnapshot
  readsSnapshot_eq := inv.readsSnapshot_update readsSnapshot
  wgCount_eq := inv.wgCount_update (inv.started started).1 running
  measuring_wgCount := inv.measuring_wgCount
  writeOps_eq := inv.writeOps_update (inv.started started).1 writesCounted
  readOps_eq := inv.readOps_update (inv.started started).1 readsCounted
  writes_order := inv.writes_order_update writesStored localWrites
  reads_order := inv.reads_order_update readsStored localReads
  ids_nodup := inv.ids_nodup
  mem_ids := inv.mem_ids_update w counter fresh

end Update

theorem MixedWorker.Fits.setPc {w : MixedWorker} (fits : w.Fits) {pc : MixedPc}
    (started : pc ≠ .unstarted) (notWriting : pc ≠ .writing)
    (writes : pc.pendingWrites = w.pc.pendingWrites) (reads : pc.pendingReads = w.pc.pendingReads) :
    { w with pc }.Fits where
  fresh := fun unstarted => absurd unstarted started
  writes_length := writes ▸ fits.writes_length
  reads_length := reads ▸ fits.reads_length
  writing_pos := fun writing => absurd writing notWriting

theorem flatten_append_update {g : Nat} (project : MixedWorker → List Duration) {order : List Nat}
    (fresh : g ∉ order) {w : MixedWorker} (same : project w = project (s.workers g)) :
    (order.map fun k => project (s.workers k)).flatten ++ project (s.workers g) =
      ((order ++ [g]).map fun k => project (Function.update s.workers g w k)).flatten := by
  rw [List.map_append, List.flatten_append,
    map_update_of_mem project s.workers fun member => absurd member fresh]
  simp [same]

/-! ### One lemma per kind of step -/

section Steps

variable {g : Nat} (inv : MixedInvariant s)
include inv

/-- Past the deadline, a worker leaves its loop. -/
theorem MixedInvariant.leave (pc : (s.workers g).pc = .looping) :
    MixedInvariant (s.move g fun w => { w with pc := .locking }) :=
  inv.move { s.workers g with pc := .locking } (by simp [pc]) nofun
    ((inv.fits g).setPc nofun nofun (by simp [pc, MixedPc.pendingWrites])
      (by simp [pc, MixedPc.pendingReads])) (by simp [pc, MixedPc.running])
    (by simp [pc, MixedPc.holding]) (by simp [pc, MixedPc.writesStored])
    (by simp [pc, MixedPc.readsStored]) rfl rfl (fun _ => rfl) (fun _ => rfl) le_rfl nofun nofun
    nofun

/-- Before the deadline, a turn increments `opCounter` and draws. -/
theorem MixedInvariant.draw (pc : (s.workers g).pc = .looping) (isWrite : Bool) :
    MixedInvariant (s.move g fun w =>
      { w with pc := if isWrite then .writing else .reading, opCounter := w.opCounter + 1 }) := by
  refine inv.move _ (by simp [pc]) (by cases isWrite <;> simp)
    ⟨fun unstarted => ?_, ?_, ?_, fun _ => Nat.succ_pos _⟩
    (by cases isWrite <;> simp [pc, MixedPc.running]) (by cases isWrite <;> simp [pc, MixedPc.holding])
    (by cases isWrite <;> simp [pc, MixedPc.writesStored])
    (by cases isWrite <;> simp [pc, MixedPc.readsStored]) rfl rfl (fun _ => rfl) (fun _ => rfl)
    (Nat.le_succ _) (fun _ op listed => Nat.lt_succ_of_le (inv.mem_ids g op listed).2.1)
    (by cases isWrite <;> simp) (by cases isWrite <;> simp)
  · cases isWrite <;> simp at unstarted
  · cases isWrite <;> simpa [pc, MixedPc.pendingWrites] using (inv.fits g).writes_length
  · cases isWrite <;> simpa [pc, MixedPc.pendingReads] using (inv.fits g).reads_length

theorem MixedInvariant.insert (pc : (s.workers g).pc = .writing) (latency : Duration)
    (failed : Bool) :
    MixedInvariant { (s.move g fun w =>
        { w with pc := if failed then .looping else .countingWrite,
                 localWrites := w.localWrites ++ [latency],
                 writesFailed := if failed then w.writesFailed + 1 else w.writesFailed }) with
      insertedIds := s.insertedIds ++ [(g, (s.workers g).opCounter)] } := by
  have started : (s.workers g).pc ≠ .unstarted := by simp [pc]
  have below := (inv.started started).1
  have fits := inv.fits g
  have fresh : (g, (s.workers g).opCounter) ∉ s.insertedIds := fun listed =>
    Nat.lt_irrefl _ ((inv.mem_ids g _ listed).2.2 pc)
  have notWriting : (if failed then MixedPc.looping else .countingWrite) ≠ .writing := by
    cases failed <;> simp
  refine ⟨inv.spawned_le, inv.unstarted_iff_update started (by cases failed <;> simp),
    inv.fits_update ⟨fun unstarted => by cases failed <;> simp at unstarted, ?_, ?_,
      fun writing => absurd writing notWriting⟩,
    inv.owner_update (by cases failed <;> simp [pc, MixedPc.holding]),
    inv.writesSnapshot_update (by cases failed <;> simp),
    inv.readsSnapshot_update (by cases failed <;> simp),
    inv.wgCount_update below (by cases failed <;> simp [pc, MixedPc.running]), inv.measuring_wgCount,
    inv.writeOps_update below rfl, inv.readOps_update below rfl,
    inv.writes_order_update (by cases failed <;> simp [pc, MixedPc.writesStored])
      (by simp [pc, MixedPc.writesStored]),
    inv.reads_order_update (by cases failed <;> simp [pc, MixedPc.readsStored]) fun _ => rfl,
    List.nodup_append.mpr ⟨inv.ids_nodup, List.nodup_singleton _, fun id listed single => by
      rw [List.mem_singleton.mp single] at listed
      exact fresh listed⟩, fun k op listed => ?_⟩
  · have counted := fits.writes_length
    cases failed <;> simp [pc, MixedPc.pendingWrites] at counted ⊢ <;> omega
  · cases failed <;> simpa [pc, MixedPc.pendingReads] using fits.reads_length
  · rcases List.mem_append.mp listed with earlier | new
    · exact inv.mem_ids_update (g := g)
        { s.workers g with pc := if failed then .looping else .countingWrite,
                           localWrites := (s.workers g).localWrites ++ [latency],
                           writesFailed := if failed then (s.workers g).writesFailed + 1
                             else (s.workers g).writesFailed }
        le_rfl (fun writing => absurd writing notWriting) k op earlier
    · obtain ⟨rfl, rfl⟩ := Prod.mk.inj (List.mem_singleton.mp new)
      simp only [Mixed.move_workers, Function.update_same]
      exact ⟨fits.writing_pos pc, le_rfl, fun writing => absurd writing notWriting⟩

/-- A `Find` records its latency whether it fails or not. -/
theorem MixedInvariant.find (pc : (s.workers g).pc = .reading) (latency : Duration)
    (failed : Bool) :
    MixedInvariant (s.move g fun w =>
      { w with pc := if failed then .looping else .countingRead,
               localReads := w.localReads ++ [latency],
               readsFailed := if failed then w.readsFailed + 1 else w.readsFailed }) := by
  have fits := inv.fits g
  refine inv.move _ (by simp [pc]) (by cases failed <;> simp)
    ⟨fun unstarted => by cases failed <;> simp at unstarted, ?_, ?_,
      fun writing => by cases failed <;> simp at writing⟩
    (by cases failed <;> simp [pc, MixedPc.running]) (by cases failed <;> simp [pc, MixedPc.holding])
    (by cases failed <;> simp [pc, MixedPc.writesStored])
    (by cases failed <;> simp [pc, MixedPc.readsStored]) rfl rfl (fun _ => rfl)
    (by simp [pc, MixedPc.readsStored]) le_rfl (fun writing => by cases failed <;> simp at writing)
    (by cases failed <;> simp) (by cases failed <;> simp)
  · cases failed <;> simpa [pc, MixedPc.pendingWrites] using fits.writes_length
  · have counted := fits.reads_length
    cases failed <;> simp [pc, MixedPc.pendingReads] at counted ⊢ <;> omega

/-- A successful write adds one to `writeOps`, and the worker counts it. -/
theorem MixedInvariant.countWrite (pc : (s.workers g).pc = .countingWrite) :
    MixedInvariant { (s.move g fun w =>
        { w with pc := .looping, writesCounted := w.writesCounted + 1 }) with
      writeOps := s.writeOps + 1 } := by
  have started : (s.workers g).pc ≠ .unstarted := by simp [pc]
  have below := (inv.started started).1
  have fits := inv.fits g
  refine ⟨inv.spawned_le, inv.unstarted_iff_update started nofun,
    inv.fits_update ⟨nofun, ?_, ?_, nofun⟩, inv.owner_update (by simp [pc, MixedPc.holding]),
    inv.writesSnapshot_update nofun, inv.readsSnapshot_update nofun,
    inv.wgCount_update below (by simp [pc, MixedPc.running]), inv.measuring_wgCount, ?_,
    inv.readOps_update below rfl,
    inv.writes_order_update (by simp [pc, MixedPc.writesStored]) fun _ => rfl,
    inv.reads_order_update (by simp [pc, MixedPc.readsStored]) fun _ => rfl,
    inv.ids_nodup, inv.mem_ids_update (g := g) _ le_rfl nofun⟩
  · have counted := fits.writes_length
    simp [pc, MixedPc.pendingWrites] at counted ⊢
    omega
  · have counted := fits.reads_length
    simp [pc, MixedPc.pendingReads] at counted ⊢
    omega
  · show s.writeOps + 1 = BitVec.ofNat 64 (tally MixedWorker.writesCounted
      (Function.update s.workers g
        { s.workers g with pc := .looping, writesCounted := (s.workers g).writesCounted + 1 })
      mixedGoroutines)
    rw [tally_update_succ MixedWorker.writesCounted s.workers below rfl, inv.writeOps_eq, BitVec.ofNat_eq_ofNat,
      BitVec.ofNat_add_ofNat]

/-- A successful read adds one to `readOps`, and the worker counts it. -/
theorem MixedInvariant.countRead (pc : (s.workers g).pc = .countingRead) :
    MixedInvariant { (s.move g fun w =>
        { w with pc := .looping, readsCounted := w.readsCounted + 1 }) with
      readOps := s.readOps + 1 } := by
  have started : (s.workers g).pc ≠ .unstarted := by simp [pc]
  have below := (inv.started started).1
  have fits := inv.fits g
  refine ⟨inv.spawned_le, inv.unstarted_iff_update started nofun,
    inv.fits_update ⟨nofun, ?_, ?_, nofun⟩, inv.owner_update (by simp [pc, MixedPc.holding]),
    inv.writesSnapshot_update nofun, inv.readsSnapshot_update nofun,
    inv.wgCount_update below (by simp [pc, MixedPc.running]), inv.measuring_wgCount,
    inv.writeOps_update below rfl, ?_,
    inv.writes_order_update (by simp [pc, MixedPc.writesStored]) fun _ => rfl,
    inv.reads_order_update (by simp [pc, MixedPc.readsStored]) fun _ => rfl,
    inv.ids_nodup, inv.mem_ids_update (g := g) _ le_rfl nofun⟩
  · have counted := fits.writes_length
    simp [pc, MixedPc.pendingWrites] at counted ⊢
    omega
  · have counted := fits.reads_length
    simp [pc, MixedPc.pendingReads] at counted ⊢
    omega
  · show s.readOps + 1 = BitVec.ofNat 64 (tally MixedWorker.readsCounted
      (Function.update s.workers g
        { s.workers g with pc := .looping, readsCounted := (s.workers g).readsCounted + 1 })
      mixedGoroutines)
    rw [tally_update_succ MixedWorker.readsCounted s.workers below rfl, inv.readOps_eq, BitVec.ofNat_eq_ofNat,
      BitVec.ofNat_add_ofNat]

theorem MixedInvariant.holder_eq {k : Nat} (holds : (s.workers g).pc.holding = true)
    (holds' : (s.workers k).pc.holding = true) : k = g :=
  Option.some.inj (((inv.owner_iff k).mpr holds').symm.trans ((inv.owner_iff g).mpr holds))

/-- `mu.Lock()` when `mu` is free. -/
theorem MixedInvariant.lock (pc : (s.workers g).pc = .locking) (free : s.muOwner = none) :
    MixedInvariant { (s.move g fun w => { w with pc := .readingWrites }) with muOwner := some g } := by
  have started : (s.workers g).pc ≠ .unstarted := by simp [pc]
  have below := (inv.started started).1
  refine ⟨inv.spawned_le, inv.unstarted_iff_update started nofun,
    inv.fits_update ((inv.fits g).setPc nofun nofun (by simp [pc, MixedPc.pendingWrites])
      (by simp [pc, MixedPc.pendingReads])), ?_,
    inv.writesSnapshot_update nofun, inv.readsSnapshot_update nofun,
    inv.wgCount_update below (by simp [pc, MixedPc.running]), inv.measuring_wgCount,
    inv.writeOps_update below rfl, inv.readOps_update below rfl,
    inv.writes_order_update (by simp [pc, MixedPc.writesStored]) fun _ => rfl,
    inv.reads_order_update (by simp [pc, MixedPc.readsStored]) fun _ => rfl,
    inv.ids_nodup, inv.mem_ids_update (g := g) _ le_rfl nofun⟩
  exact (Function.forall_update_iff s.workers fun k w => some g = some k ↔ w.pc.holding = true).mpr
    ⟨by simp [MixedPc.holding], fun k other => by simp [Ne.symm other, ← inv.owner_iff k, free]⟩

/-- The read of `writeLatencies`, while the worker holds `mu`. -/
theorem MixedInvariant.readWrites (pc : (s.workers g).pc = .readingWrites) :
    MixedInvariant (s.move g fun w => { w with pc := .writingWrites s.writeLatencies }) :=
  inv.move _ (by simp [pc]) nofun ((inv.fits g).setPc nofun nofun (by simp [pc, MixedPc.pendingWrites])
      (by simp [pc, MixedPc.pendingReads]))
    (by simp [pc, MixedPc.running]) (by simp [pc, MixedPc.holding])
    (by simp [pc, MixedPc.writesStored]) (by simp [pc, MixedPc.readsStored]) rfl rfl (fun _ => rfl)
    (fun _ => rfl) le_rfl nofun (fun _ writing => (MixedPc.writingWrites.inj writing).symm) nofun

/-- The read of `readLatencies`, while the worker holds `mu`. -/
theorem MixedInvariant.readReads (pc : (s.workers g).pc = .readingReads) :
    MixedInvariant (s.move g fun w => { w with pc := .writingReads s.readLatencies }) :=
  inv.move _ (by simp [pc]) nofun ((inv.fits g).setPc nofun nofun (by simp [pc, MixedPc.pendingWrites])
      (by simp [pc, MixedPc.pendingReads]))
    (by simp [pc, MixedPc.running]) (by simp [pc, MixedPc.holding])
    (by simp [pc, MixedPc.writesStored]) (by simp [pc, MixedPc.readsStored]) rfl rfl (fun _ => rfl)
    (fun _ => rfl) le_rfl nofun nofun (fun _ writing => (MixedPc.writingReads.inj writing).symm)

theorem MixedInvariant.appendWrites {snapshot : List Duration}
    (pc : (s.workers g).pc = .writingWrites snapshot) :
    MixedInvariant { (s.move g fun w => { w with pc := .readingReads }) with
      writeLatencies := snapshot ++ (s.workers g).localWrites } := by
  have started : (s.workers g).pc ≠ .unstarted := by simp [pc]
  have below := (inv.started started).1
  have holds : (s.workers g).pc.holding = true := by simp [pc, MixedPc.holding]
  obtain ⟨order, nodup, mem, flat⟩ := inv.writes_order
  have fresh : g ∉ order := by simp [mem, pc, MixedPc.writesStored]
  refine ⟨inv.spawned_le, inv.unstarted_iff_update started nofun,
    inv.fits_update ((inv.fits g).setPc nofun nofun (by simp [pc, MixedPc.pendingWrites])
      (by simp [pc, MixedPc.pendingReads])),
    inv.owner_update (by simp [pc, MixedPc.holding]), ?_, inv.readsSnapshot_update nofun,
    inv.wgCount_update below (by simp [pc, MixedPc.running]), inv.measuring_wgCount,
    inv.writeOps_update below rfl, inv.readOps_update below rfl,
    ⟨order ++ [g], List.nodup_append.mpr ⟨nodup, List.nodup_singleton g,
      fun k member single => fresh (List.mem_singleton.mp single ▸ member)⟩, fun k => ?_, ?_⟩,
    inv.reads_order_update (by simp [pc, MixedPc.readsStored]) fun _ => rfl,
    inv.ids_nodup, inv.mem_ids_update (g := g) _ le_rfl nofun⟩
  · refine (Function.forall_update_iff s.workers fun _ w => ∀ snapshot', w.pc = .writingWrites
      snapshot' → snapshot' = snapshot ++ (s.workers g).localWrites).mpr ⟨nofun, fun k other => ?_⟩
    intro snapshot' writing
    exact absurd (inv.holder_eq holds (by simp [writing, MixedPc.holding])) other
  · by_cases same : k = g
    · subst same
      simp [MixedPc.writesStored]
    · simp [same, mem k]
  · show snapshot ++ (s.workers g).localWrites = _
    rw [inv.writesSnapshot_eq g snapshot pc, flat]
    exact flatten_append_update MixedWorker.localWrites fresh rfl

theorem MixedInvariant.appendReads {snapshot : List Duration}
    (pc : (s.workers g).pc = .writingReads snapshot) :
    MixedInvariant { (s.move g fun w => { w with pc := .unlocking }) with
      readLatencies := snapshot ++ (s.workers g).localReads } := by
  have started : (s.workers g).pc ≠ .unstarted := by simp [pc]
  have below := (inv.started started).1
  have holds : (s.workers g).pc.holding = true := by simp [pc, MixedPc.holding]
  obtain ⟨order, nodup, mem, flat⟩ := inv.reads_order
  have fresh : g ∉ order := by simp [mem, pc, MixedPc.readsStored]
  refine ⟨inv.spawned_le, inv.unstarted_iff_update started nofun,
    inv.fits_update ((inv.fits g).setPc nofun nofun (by simp [pc, MixedPc.pendingWrites])
      (by simp [pc, MixedPc.pendingReads])),
    inv.owner_update (by simp [pc, MixedPc.holding]), inv.writesSnapshot_update nofun, ?_,
    inv.wgCount_update below (by simp [pc, MixedPc.running]), inv.measuring_wgCount,
    inv.writeOps_update below rfl, inv.readOps_update below rfl,
    inv.writes_order_update (by simp [pc, MixedPc.writesStored]) fun _ => rfl,
    ⟨order ++ [g], List.nodup_append.mpr ⟨nodup, List.nodup_singleton g,
      fun k member single => fresh (List.mem_singleton.mp single ▸ member)⟩, fun k => ?_, ?_⟩,
    inv.ids_nodup, inv.mem_ids_update (g := g) _ le_rfl nofun⟩
  · refine (Function.forall_update_iff s.workers fun _ w => ∀ snapshot', w.pc = .writingReads
      snapshot' → snapshot' = snapshot ++ (s.workers g).localReads).mpr ⟨nofun, fun k other => ?_⟩
    intro snapshot' writing
    exact absurd (inv.holder_eq holds (by simp [writing, MixedPc.holding])) other
  · by_cases same : k = g
    · subst same
      simp [MixedPc.readsStored]
    · simp [same, mem k]
  · show snapshot ++ (s.workers g).localReads = _
    rw [inv.readsSnapshot_eq g snapshot pc, flat]
    exact flatten_append_update MixedWorker.localReads fresh rfl

/-- `mu.Unlock()`. -/
theorem MixedInvariant.unlock (pc : (s.workers g).pc = .unlocking) :
    MixedInvariant { (s.move g fun w => { w with pc := .exiting }) with muOwner := none } := by
  have started : (s.workers g).pc ≠ .unstarted := by simp [pc]
  have below := (inv.started started).1
  have holds : (s.workers g).pc.holding = true := by simp [pc, MixedPc.holding]
  refine ⟨inv.spawned_le, inv.unstarted_iff_update started nofun,
    inv.fits_update ((inv.fits g).setPc nofun nofun (by simp [pc, MixedPc.pendingWrites])
      (by simp [pc, MixedPc.pendingReads])), ?_,
    inv.writesSnapshot_update nofun, inv.readsSnapshot_update nofun,
    inv.wgCount_update below (by simp [pc, MixedPc.running]), inv.measuring_wgCount,
    inv.writeOps_update below rfl, inv.readOps_update below rfl,
    inv.writes_order_update (by simp [pc, MixedPc.writesStored]) fun _ => rfl,
    inv.reads_order_update (by simp [pc, MixedPc.readsStored]) fun _ => rfl,
    inv.ids_nodup, inv.mem_ids_update (g := g) _ le_rfl nofun⟩
  refine (Function.forall_update_iff s.workers fun k w => none = some k ↔ w.pc.holding = true).mpr
    ⟨by simp [MixedPc.holding], fun k other => ?_⟩
  simp only [reduceCtorEq, false_iff, Bool.not_eq_true]
  cases holding : (s.workers k).pc.holding
  · rfl
  · exact absurd (inv.holder_eq holds holding) other

/-- The deferred `wg.Done()`, after which the worker has returned. -/
theorem MixedInvariant.exit (pc : (s.workers g).pc = .exiting) :
    MixedInvariant { (s.move g fun w => { w with pc := .finished }) with
      wgCount := s.wgCount - 1 } := by
  have started : (s.workers g).pc ≠ .unstarted := by simp [pc]
  have below := (inv.started started).1
  refine ⟨inv.spawned_le, inv.unstarted_iff_update started nofun,
    inv.fits_update ((inv.fits g).setPc nofun nofun (by simp [pc, MixedPc.pendingWrites])
      (by simp [pc, MixedPc.pendingReads])),
    inv.owner_update (by simp [pc, MixedPc.holding]), inv.writesSnapshot_update nofun,
    inv.readsSnapshot_update nofun, ?_, fun measuring => ?_,
    inv.writeOps_update below rfl, inv.readOps_update below rfl,
    inv.writes_order_update (by simp [pc, MixedPc.writesStored]) fun _ => rfl,
    inv.reads_order_update (by simp [pc, MixedPc.readsStored]) fun _ => rfl,
    inv.ids_nodup, inv.mem_ids_update (g := g) _ le_rfl nofun⟩
  · show s.wgCount - 1 = tally (fun w : MixedWorker => w.pc.running)
      (Function.update s.workers g { s.workers g with pc := .finished }) mixedGoroutines
    rw [tally_update_pred (fun w : MixedWorker => w.pc.running) s.workers below (by simp [pc]; rfl),
      inv.wgCount_eq]
  · show s.wgCount - 1 = 0
    rw [inv.measuring_wgCount measuring]

end Steps

/-! ### The main goroutine -/

section Main

variable (inv : MixedInvariant s)
include inv

/-- `wg.Add(1)` and `go func(g)` for the next worker. -/
theorem MixedInvariant.spawn {g : Nat} (main : s.main = .spawning g) (below : g < mixedGoroutines) :
    MixedInvariant { (s.move g fun _ => .fresh .looping) with
      main := .spawning (g + 1), wgCount := s.wgCount + 1 } := by
  have spawned : s.spawned = g := by simp [Mixed.spawned, main]
  have unstarted : (s.workers g).pc = .unstarted := (inv.unstarted_iff g).mpr spawned.le
  have initial := (inv.fits g).fresh unstarted
  refine ⟨by simp [Mixed.spawned]; omega, fun k => ?_,
    inv.fits_update ⟨nofun, rfl, rfl, nofun⟩,
    inv.owner_update (by simp [unstarted, MixedPc.holding, MixedWorker.fresh]),
    inv.writesSnapshot_update nofun, inv.readsSnapshot_update nofun, ?_, nofun,
    inv.writeOps_update below (by rw [initial]; rfl), inv.readOps_update below (by rw [initial]; rfl),
    inv.writes_order_update (by simp [unstarted, MixedPc.writesStored, MixedWorker.fresh])
      (by simp [unstarted, MixedPc.writesStored]),
    inv.reads_order_update (by simp [unstarted, MixedPc.readsStored, MixedWorker.fresh])
      (by simp [unstarted, MixedPc.readsStored]),
    inv.ids_nodup, inv.mem_ids_update (g := g) _ (by rw [initial]; rfl) nofun⟩
  · show (Function.update s.workers g (.fresh .looping) k).pc = .unstarted ↔ g + 1 ≤ k
    by_cases same : k = g
    · subst same
      simp [MixedWorker.fresh]
    · rw [Function.update_noteq same, inv.unstarted_iff k, spawned]
      omega
  · show s.wgCount + 1 = tally (fun w : MixedWorker => w.pc.running)
      (Function.update s.workers g (.fresh .looping)) mixedGoroutines
    rw [tally_update_succ (fun w : MixedWorker => w.pc.running) s.workers below
      (by simp [unstarted]; rfl), inv.wgCount_eq]

/-- Every worker is started, and the main goroutine enters `wg.Wait()`. -/
theorem MixedInvariant.wait {g : Nat} (main : s.main = .spawning g) (done : mixedGoroutines ≤ g) :
    MixedInvariant { s with main := .waiting } := by
  have spawned : s.spawned = mixedGoroutines := by
    have := inv.spawned_le
    simp only [Mixed.spawned, main] at this ⊢
    omega
  exact { inv with
    spawned_le := le_refl _
    unstarted_iff := fun k => by
      show (s.workers k).pc = .unstarted ↔ mixedGoroutines ≤ k
      rw [inv.unstarted_iff k, spawned]
    measuring_wgCount := nofun }

/-- `wg.Wait()` returns once the counter is zero. -/
theorem MixedInvariant.measure (main : s.main = .waiting) (idle : s.wgCount = 0) :
    MixedInvariant { s with main := .measuring } :=
  { inv with
    spawned_le := le_refl _
    unstarted_iff := fun k => by
      show (s.workers k).pc = .unstarted ↔ mixedGoroutines ≤ k
      rw [inv.unstarted_iff k, show s.spawned = mixedGoroutines by simp [Mixed.spawned, main]]
    measuring_wgCount := fun _ => idle }

end Main

theorem MixedInvariant.step {s' : Mixed} (inv : MixedInvariant s) {a : MixedAction}
    (stepped : s.step a = some s') : MixedInvariant s' := by
  cases a with
  | main =>
      simp only [Mixed.step, Mixed.mainStep] at stepped
      split at stepped
      · rename_i g main
        split at stepped
        · exact Option.some.inj stepped ▸ inv.spawn main ‹_›
        · exact Option.some.inj stepped ▸ inv.wait main (by omega)
      · split at stepped
        · exact Option.some.inj stepped ▸ inv.measure ‹_› ‹_›
        · cases stepped
      · cases stepped
  | turn g draw =>
      simp only [Mixed.step, Mixed.turn] at stepped
      split at stepped
      · exact Option.some.inj stepped ▸ inv.leave ‹_›
      · exact Option.some.inj stepped ▸ inv.draw ‹_› _
      · cases stepped
  | call g latency failed =>
      simp only [Mixed.step, Mixed.call] at stepped
      split at stepped
      · exact Option.some.inj stepped ▸ inv.insert ‹_› latency failed
      · exact Option.some.inj stepped ▸ inv.find ‹_› latency failed
      · cases stepped
  | advance g =>
      simp only [Mixed.step, Mixed.advance] at stepped
      split at stepped
      · exact Option.some.inj stepped ▸ inv.countWrite ‹_›
      · exact Option.some.inj stepped ▸ inv.countRead ‹_›
      · split at stepped
        · exact Option.some.inj stepped ▸ inv.lock ‹_› ‹_›
        · cases stepped
      · exact Option.some.inj stepped ▸ inv.readWrites ‹_›
      · exact Option.some.inj stepped ▸ inv.appendWrites ‹_›
      · exact Option.some.inj stepped ▸ inv.readReads ‹_›
      · exact Option.some.inj stepped ▸ inv.appendReads ‹_›
      · exact Option.some.inj stepped ▸ inv.unlock ‹_›
      · exact Option.some.inj stepped ▸ inv.exit ‹_›
      · cases stepped

theorem MixedReachable.invariant (reachable : MixedReachable s) : MixedInvariant s := by
  induction reachable with
  | start => exact mixedInvariant_start
  | step a _ stepped inductionHypothesis => exact inductionHypothesis.step stepped

theorem MixedInvariant.workers_of_measuring (inv : MixedInvariant s)
    (measuring : s.main = .measuring) (g : Nat) :
    (g < mixedGoroutines → (s.workers g).pc = .finished) ∧
      (mixedGoroutines ≤ g → s.workers g = .fresh .unstarted) := by
  have spawned : s.spawned = mixedGoroutines := by simp [Mixed.spawned, measuring]
  have idle := inv.wgCount_eq ▸ inv.measuring_wgCount measuring
  refine ⟨fun below => ?_, fun above => (inv.fits g).fresh ((inv.unstarted_iff g).mpr (spawned ▸ above))⟩
  have notRunning := le_tally (fun w : MixedWorker => w.pc.running) s.workers below
  have started : (s.workers g).pc ≠ .unstarted := (inv.unstarted_iff g).not.mpr (by omega)
  cases pc : (s.workers g).pc <;> simp_all [MixedPc.running]

end Step

/-- Whatever the interleaving, the deadline and the draws, and whether the
calls fail or not: once `wg.Wait()` returns, `writeOps` and `readOps` are the
sums of the successful writes and reads the workers counted; `writeLatencies`
and `readLatencies` are the workers' local slices, one block per worker; a
worker's slices hold one latency per call, failed or not; and no two
`InsertOne` calls sent the same `(workerID, opCounter)`, each of one of the
workers. -/
theorem mixed_after_wait {s : Mixed} (reachable : MixedReachable s)
    (measuring : s.main = .measuring) :
    s.writeOps = BitVec.ofNat 64 (tally MixedWorker.writesCounted s.workers mixedGoroutines) ∧
    s.readOps = BitVec.ofNat 64 (tally MixedWorker.readsCounted s.workers mixedGoroutines) ∧
    (∃ order : List Nat, order.Perm (List.range mixedGoroutines) ∧
      s.writeLatencies = (order.map fun g => (s.workers g).localWrites).flatten) ∧
    (∃ order : List Nat, order.Perm (List.range mixedGoroutines) ∧
      s.readLatencies = (order.map fun g => (s.workers g).localReads).flatten) ∧
    (∀ g, (s.workers g).localWrites.length =
        (s.workers g).writesCounted + (s.workers g).writesFailed ∧
      (s.workers g).localReads.length = (s.workers g).readsCounted + (s.workers g).readsFailed) ∧
    s.insertedIds.Nodup ∧ ∀ k op, (k, op) ∈ s.insertedIds → k < mixedGoroutines := by
  have inv := reachable.invariant
  have final := inv.workers_of_measuring measuring
  have ended : ∀ g, (s.workers g).pc = .finished ∨ s.workers g = .fresh .unstarted := fun g => by
    by_cases below : g < mixedGoroutines
    · exact .inl ((final g).1 below)
    · exact .inr ((final g).2 (by omega))
  have perm : ∀ order : List Nat, order.Nodup → (∀ g, g ∈ order ↔ g < mixedGoroutines) →
      order.Perm (List.range mixedGoroutines) := fun order nodup mem =>
    (List.perm_ext_iff_of_nodup nodup (List.nodup_range _)).mpr fun g => by
      rw [mem, List.mem_range]
  obtain ⟨writeOrder, writeNodup, writeMem, writeFlat⟩ := inv.writes_order
  obtain ⟨readOrder, readNodup, readMem, readFlat⟩ := inv.reads_order
  refine ⟨inv.writeOps_eq, inv.readOps_eq, ⟨writeOrder, perm _ writeNodup fun g => ?_, writeFlat⟩,
    ⟨readOrder, perm _ readNodup fun g => ?_, readFlat⟩, fun g => ?_, inv.ids_nodup,
    fun k op listed => ?_⟩
  · rw [writeMem]
    by_cases below : g < mixedGoroutines
    · simp [below, (final g).1 below, MixedPc.writesStored]
    · simp [below, (final g).2 (by omega), MixedWorker.fresh, MixedPc.writesStored]
  · rw [readMem]
    by_cases below : g < mixedGoroutines
    · simp [below, (final g).1 below, MixedPc.readsStored]
    · simp [below, (final g).2 (by omega), MixedWorker.fresh, MixedPc.readsStored]
  · have writes := (inv.fits g).writes_length
    have reads := (inv.fits g).reads_length
    rcases ended g with finished | unstarted
    · simp only [finished, MixedPc.pendingWrites, MixedPc.pendingReads, Nat.add_zero] at writes reads
      exact ⟨writes, reads⟩
    · rw [unstarted]
      exact ⟨rfl, rfl⟩
  · obtain ⟨positive, atMost, _⟩ := inv.mem_ids k op listed
    by_contra above
    rw [(final k).2 (by omega)] at atMost
    exact absurd atMost (by simp [MixedWorker.fresh]; omega)

/-- Each worker in turn writes once, reads once with a `Find` that fails, and
leaves its loop at the deadline; then `wg.Wait()` returns. -/
def mixedRun : List MixedAction :=
  List.replicate (mixedGoroutines + 1) .main ++
    (List.range mixedGoroutines).flatMap (fun g =>
      [.turn g (some true), .call g 1 false, .advance g, .turn g (some false), .call g 2 true,
        .turn g none] ++ List.replicate 7 (.advance g)) ++
    [.main]

def afterMixedRun : Mixed :=
  (Mixed.start.run mixedRun).getD .start

theorem mixed_after_wait_afterMixedRun :
    MixedReachable afterMixedRun ∧ afterMixedRun.main = .measuring ∧
      (afterMixedRun.writeOps =
          BitVec.ofNat 64 (tally MixedWorker.writesCounted afterMixedRun.workers mixedGoroutines) ∧
        afterMixedRun.readOps =
          BitVec.ofNat 64 (tally MixedWorker.readsCounted afterMixedRun.workers mixedGoroutines) ∧
        (∃ order : List Nat, order.Perm (List.range mixedGoroutines) ∧
          afterMixedRun.writeLatencies =
            (order.map fun g => (afterMixedRun.workers g).localWrites).flatten) ∧
        (∃ order : List Nat, order.Perm (List.range mixedGoroutines) ∧
          afterMixedRun.readLatencies =
            (order.map fun g => (afterMixedRun.workers g).localReads).flatten) ∧
        (∀ g, (afterMixedRun.workers g).localWrites.length =
            (afterMixedRun.workers g).writesCounted + (afterMixedRun.workers g).writesFailed ∧
          (afterMixedRun.workers g).localReads.length =
            (afterMixedRun.workers g).readsCounted + (afterMixedRun.workers g).readsFailed) ∧
        afterMixedRun.insertedIds.Nodup ∧
        ∀ k op, (k, op) ∈ afterMixedRun.insertedIds → k < mixedGoroutines) :=
  have reachable : MixedReachable afterMixedRun := MixedReachable.start.run mixedRun rfl
  have measuring : afterMixedRun.main = .measuring := by decide
  ⟨reachable, measuring, mixed_after_wait reachable measuring⟩

end MongoShardingPoc.Throughput
