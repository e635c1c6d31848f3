import Mathlib.Data.List.Basic
import Mathlib.Data.List.Infix
import Mathlib.Data.PNat.Basic
import MongoShardingPoc.GoValues

/-!
# Batched inserts

`batchInsert` hands `docs` to `collection.InsertMany` in slices of
`batchSize`, in order, and returns the first error.  The collection is any
state `σ`, and `insertMany` is what its `InsertMany` does to it and answers;
a run records each call with the batch it was given and its answer.

The loop is written for any positive batch size.  It is first shown to send
the slices `batchesFrom size docs i`, in order, until the first error
(`batchInsertFrom_eq_insertBatches`); the properties of a run then split into
ones of `insertBatches`, which stops at the first error, and ones of the
slices, which cover `docs` once.

The insert loops of `RunJumboChunkAnalysis` and `RunChunkLab` have the same
shape over the indices of the documents they build, and wrap the first error
with the index of its batch, each with its own message: `insertFrom`.
-/

namespace MongoShardingPoc.Sharding

def batchSize : ℕ+ := 1000

@[simp]
theorem batchSize_coe : (batchSize : Nat) = 1000 :=
  rfl

/-- `docs[i:stop]`. -/
def slice {α : Type} (docs : List α) (i stop : Nat) : List α :=
  (docs.take stop).drop i

section Loop

variable {σ α ε : Type} (insertMany : σ → List α → σ × Option ε)

/-- The loop of `batchInsert` from index `i` on, for batches of `size`: the
collection after it, the `InsertMany` calls it made, each with its batch and
answer, and the error it returns. -/
def batchInsertFrom (size : ℕ+) (docs : List α) (i : Nat) (coll : σ) :
    σ × List (List α × Option ε) × Option ε :=
  if i < docs.length then
    let stop := if i + size > docs.length then docs.length else i + size
    let batch := slice docs i stop
    match insertMany coll batch with
    | (coll, some err) => (coll, [(batch, some err)], some err)
    | (coll, none) =>
      let (coll, calls, result) := batchInsertFrom size docs (i + size) coll
      (coll, (batch, none) :: calls, result)
  else (coll, [], none)
termination_by docs.length - i
decreasing_by have := size.pos; omega

def batchInsert (coll : σ) (docs : List α) : σ × List (List α × Option ε) × Option ε :=
  batchInsertFrom insertMany batchSize docs 0 coll

/-- Send `batches` to `InsertMany` in order, stopping at the first error. -/
def insertBatches (coll : σ) : List (List α) → σ × List (List α × Option ε) × Option ε
  | [] => (coll, [], none)
  | batch :: batches =>
    match insertMany coll batch with
    | (coll, some err) => (coll, [(batch, some err)], some err)
    | (coll, none) =>
      let (coll, calls, result) := insertBatches coll batches
      (coll, (batch, none) :: calls, result)

/-- `InsertMany` called on each of `batches` in turn from `coll`, whatever
it answers: the collection the calls leave, and each batch with the answer
it got from the collection the calls before it left. -/
def callEach (coll : σ) : List (List α) → σ × List (List α × Option ε)
  | [] => (coll, [])
  | batch :: batches =>
    ((callEach (insertMany coll batch).1 batches).1,
      (batch, (insertMany coll batch).2) :: (callEach (insertMany coll batch).1 batches).2)

end Loop

/-! ## The slices -/

section Slices

variable {α : Type} (size : ℕ+) {docs : List α} {i : Nat}

/-- The slices `docs[i + size*k : min(i + size*(k+1), len(docs))]`, for `k`
below `⌈(len(docs) - i) / size⌉`. -/
def batchesFrom (docs : List α) (i : Nat) : List (List α) :=
  (List.range ((docs.length - i + size - 1) / size)).map fun k =>
    slice docs (i + size * k) (min (i + size * (k + 1)) docs.length)

theorem batchesFrom_of_lt (inRange : i < docs.length) :
    batchesFrom size docs i =
      slice docs i (min (i + size) docs.length) :: batchesFrom size docs (i + size) := by
  have count : (docs.length - i + size - 1) / size =
      (docs.length - (i + size) + size - 1) / size + 1 := by
    have positive := size.pos
    by_cases full : i + size ≤ docs.length
    · rw [← Nat.add_div_right _ positive]
      congr 1
      omega
    · rw [Nat.div_eq_of_lt (show docs.length - (i + size) + size - 1 < size by omega)]
      exact Nat.div_eq_of_lt_le (by omega) (by omega)
  have shift : ∀ m, i + size * (m + 1) = i + size + size * m := fun m => by
    rw [Nat.mul_succ]
    omega
  rw [batchesFrom, count, List.range_succ_eq_map, List.map_cons, List.map_map, batchesFrom]
  congr 1
  · simp
  · exact List.map_congr_left fun k _ => by simp only [Function.comp_apply, shift k, shift (k + 1)]

theorem batchesFrom_of_le (outOfRange : docs.length ≤ i) : batchesFrom size docs i = [] := by
  simp only [batchesFrom, List.map_eq_nil_iff, List.range_eq_nil]
  exact Nat.div_eq_of_lt (by have := size.pos; omega)

theorem batchesFrom_getElem {k : Nat} (h : k < (batchesFrom size docs i).length) :
    (batchesFrom size docs i)[k] =
      slice docs (i + size * k) (min (i + size * (k + 1)) docs.length) := by
  simp [batchesFrom]

theorem length_batchesFrom :
    (batchesFrom size docs i).length = (docs.length - i + size - 1) / size := by
  simp [batchesFrom]

theorem batchesFrom_length_mem {batch : List α} (member : batch ∈ batchesFrom size docs i) :
    batch ≠ [] ∧ batch.length ≤ size := by
  obtain ⟨k, below, rfl⟩ := List.mem_map.mp member
  have first : (k + 1) * size ≤ docs.length - i + size - 1 :=
    (Nat.le_div_iff_mul_le size.pos).mp (List.mem_range.mp below)
  rw [Nat.succ_mul, Nat.mul_comm] at first
  rw [Nat.mul_succ]
  simp only [slice, ne_eq, List.drop_eq_nil_iff, List.length_take, List.length_drop,
    not_le]
  have := size.pos
  omega

theorem flatten_batchesFrom (docs : List α) (i : Nat) :
    (batchesFrom size docs i).flatten = docs.drop i := by
  by_cases inRange : i < docs.length
  · rw [batchesFrom_of_lt size inRange, List.flatten_cons, flatten_batchesFrom docs (i + size),
      slice, List.drop_take, ← List.drop_drop]
    have sameTake : (docs.drop i).take (min (i + size) docs.length - i) = (docs.drop i).take size := by
      rw [List.take_eq_take, List.length_drop]
      omega
    rw [sameTake, List.take_append_drop]
  · rw [batchesFrom_of_le size (by omega), List.drop_eq_nil_of_le (by omega), List.flatten_nil]
termination_by docs.length - i
decreasing_by have := size.pos; omega

theorem flatten_take_batchesFrom (docs : List α) (i k : Nat) :
    ((batchesFrom size docs i).take k).flatten = (docs.drop i).take (size * k) := by
  induction k generalizing i with
  | zero =>
      simp
  | succ k inductionHypothesis =>
      by_cases inRange : i < docs.length
      · have firstSlice : slice docs i (min (i + size) docs.length) = (docs.drop i).take size := by
          rw [slice, List.drop_take, List.take_eq_take, List.length_drop]
          omega
        rw [batchesFrom_of_lt size inRange, List.take_succ_cons, List.flatten_cons,
          inductionHypothesis, firstSlice, Nat.mul_succ, Nat.add_comm ((size : Nat) * k),
          List.take_add, List.drop_drop]
      · rw [batchesFrom_of_le size (by omega), List.drop_eq_nil_of_le (by omega)]
        simp

end Slices

/-! ## Sending batches until the first error -/

section Send

variable {σ α ε : Type} (insertMany : σ → List α → σ × Option ε)

variable {coll coll' : σ} {batch : List α} {batches : List (List α)}

theorem insertBatches_cons_of_error {err : ε} (answer : insertMany coll batch = (coll', some err)) :
    insertBatches insertMany coll (batch :: batches) = (coll', [(batch, some err)], some err) := by
  simp [insertBatches, answer]

theorem insertBatches_cons_of_ok (answer : insertMany coll batch = (coll', none)) :
    insertBatches insertMany coll (batch :: batches) =
      ((insertBatches insertMany coll' batches).1,
        (batch, none) :: (insertBatches insertMany coll' batches).2.1,
        (insertBatches insertMany coll' batches).2.2) := by
  simp [insertBatches, answer]

theorem insertBatches_sends_leading (coll : σ) (batches : List (List α)) :
    (insertBatches insertMany coll batches).2.1.map Prod.fst <+: batches := by
  induction batches generalizing coll with
  | nil =>
      exact List.nil_prefix
  | cons batch batches inductionHypothesis =>
      rcases answer : insertMany coll batch with ⟨coll', _ | err⟩
      · simpa [insertBatches_cons_of_ok _ answer] using inductionHypothesis coll'
      · simp [insertBatches_cons_of_error _ answer]

theorem insertBatches_error {k : Nat} {call : List α × Option ε} {e : ε} (coll : σ)
    (batches : List (List α)) (kth : (insertBatches insertMany coll batches).2.1[k]? = some call)
    (failed : call.2 = some e) :
    (insertBatches insertMany coll batches).2.2 = some e ∧
      (insertBatches insertMany coll batches).2.1.length = k + 1 := by
  induction batches generalizing coll k with
  | nil =>
      simp [insertBatches] at kth
  | cons batch batches inductionHypothesis =>
      rcases answer : insertMany coll batch with ⟨coll', _ | err⟩
      · rw [insertBatches_cons_of_ok _ answer] at kth ⊢
        cases k with
        | zero =>
            simp only [List.getElem?_cons_zero, Option.some.injEq] at kth
            simp [← kth] at failed
        | succ k =>
            simpa using inductionHypothesis coll' (by simpa using kth)
      · rw [insertBatches_cons_of_error _ answer] at kth ⊢
        cases k with
        | zero =>
            simp only [List.getElem?_cons_zero, Option.some.injEq] at kth
            simpa [← kth] using failed
        | succ k =>
            simp at kth

theorem insertBatches_success (coll : σ) (batches : List (List α))
    (succeeded : ∀ call ∈ (insertBatches insertMany coll batches).2.1, call.2 = none) :
    (insertBatches insertMany coll batches).2.2 = none ∧
      (insertBatches insertMany coll batches).2.1.map Prod.fst = batches := by
  induction batches generalizing coll with
  | nil =>
      simp [insertBatches]
  | cons batch batches inductionHypothesis =>
      rcases answer : insertMany coll batch with ⟨coll', _ | err⟩
      · rw [insertBatches_cons_of_ok _ answer] at succeeded ⊢
        simp only [List.mem_cons, forall_eq_or_imp] at succeeded
        simpa using inductionHypothesis coll' succeeded.2
      · rw [insertBatches_cons_of_error _ answer] at succeeded
        simp at succeeded

theorem insertBatches_accepting (accepting : ∀ coll batch, (insertMany coll batch).2 = none)
    (coll : σ) (batches : List (List α)) : (insertBatches insertMany coll batches).2.2 = none := by
  induction batches generalizing coll with
  | nil => rfl
  | cons batch batches inductionHypothesis =>
      rw [insertBatches_cons_of_ok insertMany (Prod.ext rfl (accepting coll batch))]
      exact inductionHypothesis _

theorem callEach_append (coll : σ) (first rest : List (List α)) :
    callEach insertMany coll (first ++ rest) =
      ((callEach insertMany (callEach insertMany coll first).1 rest).1,
        (callEach insertMany coll first).2 ++
          (callEach insertMany (callEach insertMany coll first).1 rest).2) := by
  induction first generalizing coll with
  | nil => rfl
  | cons batch first inductionHypothesis => simp [callEach, inductionHypothesis]

/-- What a run records is what `InsertMany` answers: calling it on the
batches sent, in order, from `coll` gives each recorded answer and the
collection the run returns. -/
theorem callEach_insertBatches (coll : σ) (batches : List (List α)) :
    callEach insertMany coll ((insertBatches insertMany coll batches).2.1.map Prod.fst) =
      ((insertBatches insertMany coll batches).1, (insertBatches insertMany coll batches).2.1) := by
  induction batches generalizing coll with
  | nil => rfl
  | cons batch batches inductionHypothesis =>
      rcases answer : insertMany coll batch with ⟨coll', _ | err⟩
      · simp [insertBatches_cons_of_ok _ answer, callEach, answer, inductionHypothesis]
      · simp [insertBatches_cons_of_error _ answer, callEach, answer]

end Send

section Refinement

variable {σ α ε : Type} (insertMany : σ → List α → σ × Option ε)

/-- The loop sends the slices of `batchesFrom`, in order, until the first
error. -/
theorem batchInsertFrom_eq_insertBatches (size : ℕ+) (docs : List α) (i : Nat) (coll : σ) :
    batchInsertFrom insertMany size docs i coll =
      insertBatches insertMany coll (batchesFrom size docs i) := by
  rw [batchInsertFrom]
  split
  · rename_i inRange
    have stop : (if i + size > docs.length then docs.length else i + size) =
        min (i + size) docs.length := by
      split <;> omega
    rw [batchesFrom_of_lt size inRange, insertBatches, stop]
    dsimp only
    rcases insertMany coll (slice docs i (min (i + size) docs.length)) with ⟨coll, _ | err⟩
    · simp only [batchInsertFrom_eq_insertBatches size docs (i + size)]
    · rfl
  · rw [batchesFrom_of_le size (by omega), insertBatches]
termination_by docs.length - i
decreasing_by all_goals have := size.pos; omega

end Refinement

/-! ## `batchInsert` -/

section BatchInsert

variable {σ α ε : Type} (insertMany : σ → List α → σ × Option ε)

/-- `batchInsert` calls `InsertMany` on `docs[0:min(1000,n)]`,
`docs[1000:min(2000,n)]`, and so on, in order, each batch non-empty and at
most 1000 long, and each call's answer is what `InsertMany` gives on the
collection the calls before it left.  If every call succeeds there are
`⌈n/1000⌉` of them, they cover `docs` exactly once and no error is returned;
if the `k`-th call fails, its error is returned and no further call is
made. -/
theorem batchInsert_sends_each_doc_once (coll : σ) (docs : List α) :
    callEach insertMany coll ((batchInsert insertMany coll docs).2.1.map Prod.fst) =
      ((batchInsert insertMany coll docs).1, (batchInsert insertMany coll docs).2.1) ∧
    (∀ k (h : k < (batchInsert insertMany coll docs).2.1.length),
      (batchInsert insertMany coll docs).2.1[k].1 =
        slice docs (1000 * k) (min (1000 * (k + 1)) docs.length)) ∧
    (∀ call ∈ (batchInsert insertMany coll docs).2.1, call.1 ≠ [] ∧ call.1.length ≤ 1000) ∧
    ((∀ call ∈ (batchInsert insertMany coll docs).2.1, call.2 = none) →
      (batchInsert insertMany coll docs).2.2 = none ∧
        (batchInsert insertMany coll docs).2.1.length = (docs.length + 999) / 1000 ∧
        ((batchInsert insertMany coll docs).2.1.map Prod.fst).flatten = docs) ∧
    (∀ k call e, (batchInsert insertMany coll docs).2.1[k]? = some call → call.2 = some e →
      (batchInsert insertMany coll docs).2.2 = some e ∧
        (batchInsert insertMany coll docs).2.1.length = k + 1) ∧
    (docs = [] → (batchInsert insertMany coll docs).2.1 = []) := by
  have refines : batchInsert insertMany coll docs =
      insertBatches insertMany coll (batchesFrom batchSize docs 0) :=
    batchInsertFrom_eq_insertBatches insertMany batchSize docs 0 coll
  have sent : (batchInsert insertMany coll docs).2.1.map Prod.fst <+:
      batchesFrom batchSize docs 0 := by
    simpa only [refines] using insertBatches_sends_leading insertMany coll _
  refine ⟨by simpa only [refines] using callEach_insertBatches insertMany coll _,
    fun k below => ?_, fun call member => ?_, fun succeeded => ?_,
    fun k call e kth failed => ?_, fun noDocs => ?_⟩
  · have kth := sent.getElem
      (show k < ((batchInsert insertMany coll docs).2.1.map Prod.fst).length by simpa using below)
    simp only [List.getElem_map] at kth
    rw [kth, batchesFrom_getElem, batchSize_coe, Nat.zero_add, Nat.zero_add]
  · simpa using batchesFrom_length_mem batchSize (sent.subset (List.mem_map_of_mem _ member))
  · have all := insertBatches_success insertMany coll _ (by simpa only [refines] using succeeded)
    rw [← refines] at all
    refine ⟨all.1, ?_, ?_⟩
    · have := congrArg List.length all.2
      simp only [List.length_map, length_batchesFrom, batchSize_coe, Nat.sub_zero] at this
      exact this.trans (by omega)
    · rw [all.2, flatten_batchesFrom, List.drop_zero]
  · simpa only [refines] using
      insertBatches_error insertMany coll _ (by simpa only [refines] using kth) failed
  · have none : batchesFrom batchSize docs 0 = [] := batchesFrom_of_le batchSize (by simp [noDocs])
    rw [none, List.prefix_nil, List.map_eq_nil_iff] at sent
    exact sent

/-- When the `k`-th call fails, `InsertMany` accepted each call before it on
the collection the calls before that one left, and those calls were given
`docs[0:1000*k]`, each document once and in order; it rejected the `k`-th
batch with the error on the collection the first `k` calls left, and that
call's collection is the one `batchInsert` returns. -/
theorem batchInsert_accepted_before_error (coll : σ) (docs : List α) {k : Nat}
    {call : List α × Option ε} {e : ε}
    (kth : (batchInsert insertMany coll docs).2.1[k]? = some call) (failed : call.2 = some e) :
    (∀ earlier ∈ (callEach insertMany coll
        (((batchInsert insertMany coll docs).2.1.take k).map Prod.fst)).2, earlier.2 = none) ∧
      (((batchInsert insertMany coll docs).2.1.take k).map Prod.fst).flatten =
        docs.take (1000 * k) ∧
      insertMany (callEach insertMany coll
          (((batchInsert insertMany coll docs).2.1.take k).map Prod.fst)).1 call.1 =
        ((batchInsert insertMany coll docs).1, some e) := by
  have refines : batchInsert insertMany coll docs =
      insertBatches insertMany coll (batchesFrom batchSize docs 0) :=
    batchInsertFrom_eq_insertBatches insertMany batchSize docs 0 coll
  have stops := insertBatches_error insertMany coll _ (by simpa only [refines] using kth) failed
  rw [← refines] at stops
  -- the calls are the first `k` and the failing one
  have split : (batchInsert insertMany coll docs).2.1 =
      (batchInsert insertMany coll docs).2.1.take k ++ [call] := by
    conv_lhs => rw [← List.take_of_length_le (le_of_eq stops.2)]
    rw [List.take_succ, kth]
    rfl
  have answers : callEach insertMany coll ((batchInsert insertMany coll docs).2.1.map Prod.fst) =
      ((batchInsert insertMany coll docs).1, (batchInsert insertMany coll docs).2.1) := by
    simpa only [refines] using callEach_insertBatches insertMany coll _
  rw [split, List.map_append, callEach_append] at answers
  simp only [List.map_cons, List.map_nil, callEach, Prod.mk.injEq] at answers
  obtain ⟨returned, recorded⟩ := answers
  have earlierRecorded := List.append_inj_left' recorded rfl
  refine ⟨fun earlier member => ?_, ?_, ?_⟩
  · rw [earlierRecorded] at member
    obtain ⟨j, jth⟩ := List.mem_iff_getElem?.mp member
    have before : j < k := by
      by_contra later
      simp [List.getElem?_take, later] at jth
    rw [List.getElem?_take_of_lt before] at jth
    cases answer : earlier.2 with
    | none => rfl
    | some e' =>
        have := (insertBatches_error insertMany coll _
          (by simpa only [refines] using jth) answer).2
        rw [← refines] at this
        omega
  · have sent := List.prefix_iff_eq_take.mp (insertBatches_sends_leading insertMany coll
      (batchesFrom batchSize docs 0))
    rw [← refines, List.length_map] at sent
    rw [List.map_take, sent, List.take_take, Nat.min_eq_left (by omega),
      flatten_take_batchesFrom, List.drop_zero, batchSize_coe]
  · have lastRecorded := List.append_inj_right' recorded rfl
    simp only [List.cons.injEq, and_true] at lastRecorded
    have answer : _ = call.2 := congrArg Prod.snd lastRecorded
    rw [← returned, ← failed, ← answer]

/-- A collection that counts the `InsertMany` calls made on it, accepts the
first and rejects every later one with the count so far. -/
def acceptFirst (calls : Nat) (_ : List Nat) : Nat × Option Nat :=
  (calls + 1, if calls = 0 then none else some calls)

theorem batchInsert_acceptFirst_second :
    (batchInsert acceptFirst 0 (List.range 1001)).2.1[1]? =
      some (slice (List.range 1001) 1000 1001, some 1) := by
  rw [batchInsert, batchInsertFrom_eq_insertBatches, batchesFrom_of_lt batchSize (by simp),
    batchesFrom_of_lt batchSize (by simp), batchesFrom_of_le batchSize (by simp)]
  simp [insertBatches, acceptFirst]

theorem batchInsert_accepted_before_error_acceptFirst :
    (batchInsert acceptFirst 0 (List.range 1001)).2.1[1]? =
        some (slice (List.range 1001) 1000 1001, some 1) ∧
      (slice (List.range 1001) 1000 1001, some 1).2 = some 1 ∧
      ((∀ earlier ∈ (callEach acceptFirst 0
          (((batchInsert acceptFirst 0 (List.range 1001)).2.1.take 1).map Prod.fst)).2,
          earlier.2 = none) ∧
        (((batchInsert acceptFirst 0 (List.range 1001)).2.1.take 1).map Prod.fst).flatten =
          (List.range 1001).take (1000 * 1) ∧
        acceptFirst (callEach acceptFirst 0
            (((batchInsert acceptFirst 0 (List.range 1001)).2.1.take 1).map Prod.fst)).1
            (slice (List.range 1001) 1000 1001, some 1).1 =
          ((batchInsert acceptFirst 0 (List.range 1001)).1, some 1)) :=
  ⟨batchInsert_acceptFirst_second, rfl,
    batchInsert_accepted_before_error acceptFirst 0 (List.range 1001)
      batchInsert_acceptFirst_second rfl⟩

end BatchInsert

/-! ## Loops over document indices -/

section Indexed

open MongoShardingPoc.Go

/-- The insert loops of `RunJumboChunkAnalysis` and `RunChunkLab` from `i`
on, for `count` documents in batches of `size`: `InsertMany` of the
documents `i` to `end`, and the first error as `fmt.Errorf(format, i, err)`,
whose `%d` prints the decimal digits of `i`. -/
def insertFrom (format : String) (insertMany : List Nat → Option GoError) (count : Nat) (size : ℕ+)
    (i : Nat) : Option GoError :=
  if i < count then
    let stop := if i + size > count then count else i + size
    match insertMany (List.range' i (stop - i)) with
    | some err => some (.named format (toString i) err)
    | none => insertFrom format insertMany count size (i + size)
  else none
termination_by count - i
decreasing_by have := size.pos; omega

theorem insertFrom_error (format : String) (insertMany : List Nat → Option GoError) (count : Nat)
    (size : ℕ+) (i : Nat) {err : GoError} (failed : insertFrom format insertMany count size i = some err) :
    ∃ k cause, i + size * k < count ∧ err = .named format (toString (i + size * k)) cause := by
  by_cases below : i < count
  · rw [insertFrom, if_pos below] at failed
    rcases answered : insertMany (List.range' i ((if i + size > count then count else i + size) - i))
      with _ | cause
    · simp only [answered] at failed
      obtain ⟨k, cause, later, rfl⟩ := insertFrom_error format insertMany count size (i + size) failed
      refine ⟨k + 1, cause, by rw [Nat.mul_succ]; omega, ?_⟩
      rw [show i + size * (k + 1) = i + size + size * k by rw [Nat.mul_succ]; omega]
    · simp only [answered, Option.some.injEq] at failed
      exact ⟨0, cause, by simpa using below, by simpa using failed.symm⟩
  · rw [insertFrom, if_neg below] at failed
    cases failed
termination_by count - i
decreasing_by have := size.pos; omega

end Indexed

end MongoShardingPoc.Sharding
