import MongoShardingPoc.GoValues
import MongoShardingPoc.GoFloat
import MongoShardingPoc.Bson
import Mathlib.Data.List.AList
import Mathlib.Data.BitVec

/-!
# Shard statistics

Three functions read per-shard statistics out of decoded `bson.M` results:

* `GetShardDistribution` adds up the `storageStats.count` of every
  `$collStats` result that names a shard, and keeps the count of each shard
  in a map;
* `GetPerShardDocCount` keeps the count of each shard reported by a `$group`
  aggregation, and falls back to `getPerShardCountFallback` when the
  aggregation fails or yields no result at all;
* `extractTargetedShards` lists the shards an `explain` result names.

The database is not modelled: each function is given what its calls answer,
as decoded `bson.M` values.  An `int64` is a `BitVec 64`, whose addition
wraps as Go's does.

The cursor loops all act on the same rows: the results that decode and name
a shard (`shardRows`).  `GetShardDistribution`'s total counts every row
while its map keeps the last count per shard, so the two agree when no shard
is named twice.
-/

namespace MongoShardingPoc.Sharding

open MongoShardingPoc.Go MongoShardingPoc.Bson

def stringVal (m : Document) (key : String) : String :=
  m.stringAt key

def intVal (m : Document) (key : String) : BitVec 64 :=
  m.intAt key

/-- A `map[string]int64`. -/
abbrev Counts := AList fun _ : String => BitVec 64

/-! ## `GetShardDistribution` -/

structure ShardDistribution where
  collection : String
  shards : Counts
  total : BitVec 64

/-- The count of a `$collStats` result: `storageStats.count`, and `0` when
`storageStats` is not a `bson.M`. -/
def storageCount (doc : Document) : BitVec 64 :=
  match doc.lookup "storageStats" with
  | some (.document stats) => intVal stats "count"
  | _ => 0

/-- One turn of the cursor loop of `GetShardDistribution`; a result that does
not decode is skipped. -/
def ShardDistribution.record (dist : ShardDistribution) : Option Document → ShardDistribution
  | none => dist
  | some doc =>
    let shard := stringVal doc "shard"
    let count := storageCount doc
    if shard ≠ "" then
      { dist with shards := dist.shards.insert shard count, total := dist.total + count }
    else dist

/-- `GetShardDistribution`, given what the `$collStats` aggregation answers:
an error, or its cursor's results, each decoded or not. -/
def getShardDistribution (collection : String)
    (aggregate : Except GoError (List (Option Document))) : Except GoError ShardDistribution :=
  match aggregate with
  | .error err => .error (.named "collStats for %s: %w" collection err)
  | .ok cursor => .ok (cursor.foldl ShardDistribution.record ⟨collection, ∅, 0⟩)

/-! ## `GetPerShardDocCount` -/

/-- One turn of the cursor loop of `GetPerShardDocCount`: `hasResults` is set
before the result is decoded. -/
def recordShardCount : Bool × Counts → Option Document → Bool × Counts
  | (_, counts), none => (true, counts)
  | (_, counts), some doc =>
    let shard := stringVal doc "_id"
    let count := intVal doc "count"
    (true, if shard ≠ "" then counts.insert shard count else counts)

/-- The loop of `getPerShardCountFallback` over the `$collStats` results. -/
def collectShardName (shardNames : List String) : Option Document → List String
  | none => shardNames
  | some doc =>
    let shard := stringVal doc "shard"
    if shard ≠ "" then shardNames ++ [shard] else shardNames

/-- What the database answers the calls of `GetPerShardDocCount`: the
`$match`/`$group` aggregation, and for the fallback the `$collStats`
aggregation, `CountDocuments` (its error is dropped, and the driver then
answers `0`) and the `$collStats` aggregation of `GetShardDistribution`. -/
structure CountSources where
  group : Except GoError (List (Option Document))
  collStats : Except GoError (List (Option Document))
  countDocuments : BitVec 64
  distribution : Except GoError (List (Option Document))

/-- The count `getPerShardCountFallback` gives a shard:
`int64(float64(totalCount) * proportion)` with
`proportion := float64(shardCount) / float64(dist.Total)`. -/
def fallbackShare (totalCount shardCount total : BitVec 64) : BitVec 64 :=
  let proportion := (Float64.ofInt64 shardCount).div (Float64.ofInt64 total)
  ((Float64.ofInt64 totalCount).mul proportion).toInt64

/-- `getPerShardCountFallback`.  Go ranges over `dist.Shards` in no fixed
order; every turn writes another key, so the order does not matter. -/
def getPerShardCountFallback (collection : String) (sources : CountSources) :
    Except GoError Counts :=
  match sources.collStats with
  | .error err => .error (.wrapped "collStats: %w" err)
  | .ok cursor =>
    let shardNames := cursor.foldl collectShardName []
    let totalCount := sources.countDocuments
    match getShardDistribution collection sources.distribution with
    | .error _ =>
      match shardNames with
      | first :: _ => .ok ((∅ : Counts).insert first totalCount)
      | [] => .ok ∅
    | .ok dist =>
      .ok (dist.shards.entries.foldl (fun counts entry =>
        if 0 < dist.total.toInt then counts.insert entry.1 (fallbackShare totalCount entry.2 dist.total)
        else counts) ∅)

def getPerShardDocCount (collection : String) (sources : CountSources) : Except GoError Counts :=
  match sources.group with
  | .error _ => getPerShardCountFallback collection sources
  | .ok cursor =>
    let (hasResults, counts) := cursor.foldl recordShardCount (false, ∅)
    if !hasResults then getPerShardCountFallback collection sources
    else .ok counts

/-! ## `extractTargetedShards` -/

/-- What the loop of `extractTargetedShards` keeps from a `bson.M` entry of
`winningPlan.shards`: its `shardName`, when that is not empty. -/
def shardNameOf (sm : Document) : Option String :=
  let name := stringVal sm "shardName"
  if name ≠ "" then some name else none

/-- The loop of `extractTargetedShards` over `winningPlan.shards`. -/
def appendShardNames (shards : List String) (shardList : List Value) : List String :=
  appendDocuments shardNameOf shards shardList

def extractTargetedShards (result : Document) : List String :=
  match result.lookup "queryPlanner" with
  | some (.document qp) =>
    match qp.lookup "winningPlan" with
    | some (.document wp) =>
      match wp.lookup "shards" with
      | some (.array shardList) => appendShardNames [] shardList
      | _ => []
    | _ => []
  | _ => []

/-! ## The rows the loops act on -/

/-- The results that decode and name a shard under `key`, with what `read`
takes from each. -/
def shardRows {β : Type} (key : String) (read : Document → β) :
    List (Option Document) → List (String × β) :=
  List.filterMap fun result => result.bind fun doc =>
    if stringVal doc key ≠ "" then some (stringVal doc key, read doc) else none

section Rows

variable {β : Type} (key : String) (read : Document → β) (cursor : List (Option Document))

@[simp]
theorem shardRows_nil : shardRows key read [] = [] :=
  rfl

@[simp]
theorem shardRows_none : shardRows key read (none :: cursor) = shardRows key read cursor :=
  rfl

theorem shardRows_some (doc : Document) :
    shardRows key read (some doc :: cursor) =
      if stringVal doc key ≠ "" then (stringVal doc key, read doc) :: shardRows key read cursor
      else shardRows key read cursor := by
  by_cases named : stringVal doc key ≠ "" <;> simp [shardRows, named]

end Rows

/-! ## Writing rows into a map -/

/-- The map after `counts[shard] = count` for every row, in order. -/
def Counts.writeAll (counts : Counts) (rows : List (String × BitVec 64)) : Counts :=
  rows.foldl (fun counts row => counts.insert row.1 row.2) counts

/-- The count of the last row naming `shard`. -/
def lastCount (rows : List (String × BitVec 64)) (shard : String) : Option (BitVec 64) :=
  ((rows.filter (·.1 == shard)).getLast?).map Prod.snd

def Counts.sum (counts : Counts) : BitVec 64 :=
  (counts.entries.map Sigma.snd).sum

theorem Counts.lookup_writeAll (counts : Counts) (rows : List (String × BitVec 64))
    (shard : String) :
    (counts.writeAll rows).lookup shard = (lastCount rows shard).or (counts.lookup shard) := by
  induction rows generalizing counts with
  | nil =>
      rfl
  | cons row rows inductionHypothesis =>
      obtain ⟨name, count⟩ := row
      rw [writeAll, List.foldl_cons, ← writeAll, inductionHypothesis]
      by_cases same : name = shard
      · subst same
        simp only [AList.lookup_insert, lastCount, List.filter_cons, beq_self_eq_true, if_true,
          List.getLast?_cons]
        cases (rows.filter (·.1 == name)).getLast? <;> rfl
      · simp [AList.lookup_insert_ne (Ne.symm same), lastCount, List.filter_cons, same]

theorem Counts.sum_writeAll (counts : Counts) (rows : List (String × BitVec 64))
    (fresh : ∀ row ∈ rows, row.1 ∉ counts) (distinct : (rows.map Prod.fst).Nodup) :
    (counts.writeAll rows).sum = counts.sum + (rows.map Prod.snd).sum := by
  induction rows generalizing counts with
  | nil =>
      simp [writeAll]
  | cons row rows inductionHypothesis =>
      obtain ⟨name, count⟩ := row
      simp only [List.map_cons, List.nodup_cons, List.mem_map] at distinct
      rw [writeAll, List.foldl_cons, ← writeAll, inductionHypothesis]
      · have added : Counts.sum (counts.insert name count) = count + counts.sum := by
          rw [Counts.sum, AList.insert_entries_of_neg (fresh (name, count) (by simp)), List.map_cons,
            List.sum_cons]
          rfl
        rw [added, List.map_cons, List.sum_cons]
        dsimp only
        ac_rfl
      · intro row member
        rw [AList.mem_insert, not_or]
        exact ⟨fun same => distinct.1 ⟨row, member, same⟩, fresh row (by simp [member])⟩
      · exact distinct.2

/-! ## What `GetShardDistribution` computes -/

theorem foldl_record (cursor : List (Option Document)) (dist : ShardDistribution) :
    cursor.foldl ShardDistribution.record dist =
      { dist with
        shards := dist.shards.writeAll (shardRows "shard" storageCount cursor)
        total := dist.total + ((shardRows "shard" storageCount cursor).map Prod.snd).sum } := by
  induction cursor generalizing dist with
  | nil =>
      cases dist
      simp [Counts.writeAll]
  | cons result cursor inductionHypothesis =>
      cases result with
      | none =>
          exact inductionHypothesis dist
      | some doc =>
          rw [List.foldl_cons, inductionHypothesis, shardRows_some]
          by_cases named : stringVal doc "shard" ≠ ""
          · simp [ShardDistribution.record, named, Counts.writeAll, BitVec.add_assoc]
          · simp [ShardDistribution.record, named]

/-- `GetShardDistribution` wraps the error of the aggregation; otherwise its
map holds, for each shard, the count of the last result naming it, and its
total is the sum, wrapping at the `int64` bound, of the counts of all results
naming a shard, so that the total is the sum of the map's counts when no
shard is named twice. -/
theorem getShardDistribution_counts (collection : String) :
    (∀ err, getShardDistribution collection (.error err) =
      .error (.named "collStats for %s: %w" collection err)) ∧
    ∀ cursor, ∃ dist, getShardDistribution collection (.ok cursor) = .ok dist ∧
      dist.collection = collection ∧
      dist.total = ((shardRows "shard" storageCount cursor).map Prod.snd).sum ∧
      (∀ shard, dist.shards.lookup shard = lastCount (shardRows "shard" storageCount cursor) shard) ∧
      (((shardRows "shard" storageCount cursor).map Prod.fst).Nodup →
        dist.total = dist.shards.sum) := by
  refine ⟨fun _ => rfl, fun cursor => ⟨_, rfl, ?_⟩⟩
  rw [foldl_record]
  refine ⟨rfl, BitVec.zero_add _, fun shard => ?_, fun distinct => ?_⟩
  · simp [Counts.lookup_writeAll]
  · rw [Counts.sum_writeAll _ _ (by simp) distinct]
    simp [Counts.sum]

/-- When a shard is named twice, the total counts both results and the map
only the last. -/
example :
    (getShardDistribution "c" (.ok [some [("shard", .string "s"), ("storageStats",
      .document [("count", .int64 5)])], some [("shard", .string "s"), ("storageStats",
      .document [("count", .int64 7)])]])).toOption.map (fun dist => (dist.total, dist.shards.sum)) =
      some (12, 7) := by
  decide

/-! ## What `GetPerShardDocCount` computes -/

theorem foldl_recordShardCount (cursor : List (Option Document)) (hasResults : Bool)
    (counts : Counts) :
    cursor.foldl recordShardCount (hasResults, counts) =
      (hasResults || !cursor.isEmpty,
        counts.writeAll (shardRows "_id" (fun doc => intVal doc "count") cursor)) := by
  induction cursor generalizing hasResults counts with
  | nil =>
      simp [Counts.writeAll]
  | cons result cursor inductionHypothesis =>
      cases result with
      | none =>
          simpa [recordShardCount] using inductionHypothesis true counts
      | some doc =>
          rw [List.foldl_cons, shardRows_some]
          by_cases named : stringVal doc "_id" ≠ ""
          · simp [recordShardCount, named, inductionHypothesis, Counts.writeAll]
          · simp [recordShardCount, named, inductionHypothesis]

theorem foldl_collectShardName (cursor : List (Option Document)) (shardNames : List String) :
    cursor.foldl collectShardName shardNames =
      shardNames ++ (shardRows "shard" (fun _ => ()) cursor).map Prod.fst := by
  induction cursor generalizing shardNames with
  | nil =>
      simp
  | cons result cursor inductionHypothesis =>
      cases result with
      | none =>
          exact inductionHypothesis shardNames
      | some doc =>
          rw [List.foldl_cons, shardRows_some]
          by_cases named : stringVal doc "shard" ≠ ""
          · simp [collectShardName, named, inductionHypothesis]
          · simp [collectShardName, named, inductionHypothesis]

theorem lookup_foldl_insert (f : BitVec 64 → BitVec 64) (shard : String) :
    ∀ (entries : List (Σ _ : String, BitVec 64)) (counts : Counts), entries.NodupKeys →
      (entries.foldl (fun counts entry => counts.insert entry.1 (f entry.2)) counts).lookup shard =
        ((entries.dlookup shard).map f).or (counts.lookup shard)
  | [], _, _ => rfl
  | ⟨name, count⟩ :: entries, counts, nodup => by
      rw [List.nodupKeys_cons] at nodup
      rw [List.foldl_cons, lookup_foldl_insert f shard entries _ nodup.2]
      by_cases same : shard = name
      · subst same
        simp [List.dlookup_eq_none.mpr nodup.1]
      · simp [List.dlookup_cons_ne entries ⟨name, count⟩ same, AList.lookup_insert_ne same]

/-- `getPerShardCountFallback` wraps the error of its `$collStats`
aggregation; when `GetShardDistribution` fails it gives all of
`CountDocuments`' total to the first shard the `$collStats` results name; and
otherwise, when the distribution's total is positive, it gives every shard of
the distribution its share of that total computed in `float64`, and returns
an empty map when it is not. -/
theorem getPerShardCountFallback_counts (collection : String) (sources : CountSources) :
    (∀ err, sources.collStats = .error err →
      getPerShardCountFallback collection sources =
        .error (.wrapped "collStats: %w" err)) ∧
    (∀ cursor err, sources.collStats = .ok cursor →
      getShardDistribution collection sources.distribution = .error err →
      ∃ counts, getPerShardCountFallback collection sources = .ok counts ∧
        ∀ shard, counts.lookup shard =
          if some shard = ((shardRows "shard" (fun _ => ()) cursor).map Prod.fst).head? then
            some sources.countDocuments
          else none) ∧
    (∀ cursor dist, sources.collStats = .ok cursor →
      getShardDistribution collection sources.distribution = .ok dist →
      ∃ counts, getPerShardCountFallback collection sources = .ok counts ∧
        ∀ shard, counts.lookup shard =
          if 0 < dist.total.toInt then
            (dist.shards.lookup shard).map (fallbackShare sources.countDocuments · dist.total)
          else none) := by
  refine ⟨fun err collStats => by simp [getPerShardCountFallback, collStats],
    fun cursor err collStats failed => ?_, fun cursor dist collStats distribution => ?_⟩
  · simp only [getPerShardCountFallback, collStats, failed, foldl_collectShardName,
      List.nil_append]
    cases names : (shardRows "shard" (fun _ => ()) cursor).map Prod.fst with
    | nil =>
        exact ⟨∅, rfl, fun shard => by simp⟩
    | cons first rest =>
        refine ⟨_, rfl, fun shard => ?_⟩
        by_cases same : shard = first
        · subst same
          rw [AList.lookup_insert]
          simp
        · rw [AList.lookup_insert_ne same, AList.lookup_empty]
          simp [same]
  · simp only [getPerShardCountFallback, collStats, distribution]
    refine ⟨_, rfl, fun shard => ?_⟩
    by_cases positive : 0 < dist.total.toInt
    · simp only [positive, if_true]
      rw [lookup_foldl_insert (fallbackShare sources.countDocuments · dist.total) shard _ _
        dist.shards.nodupKeys]
      simp [AList.lookup]
    · simp only [positive, if_false]
      induction dist.shards.entries with
      | nil => rfl
      | cons entry entries inductionHypothesis => exact inductionHypothesis

/-- The share `getPerShardCountFallback` gives a shard is the exact share
`totalCount * shardCount / total` up to a relative error of `2^-50`, rounded
down: `float64` rounds `shardCount`, `total`, their quotient and the product,
each within `2^-53`, and `int64` truncates. -/
theorem fallbackShare_bounds (totalCount shardCount total : BitVec 64)
    (countedNonneg : 0 ≤ totalCount.toInt) (countedSmall : totalCount.toInt < 2 ^ 53)
    (shardNonneg : 0 ≤ shardCount.toInt) (atMost : shardCount.toInt ≤ total.toInt)
    (positive : 0 < total.toInt) :
    (totalCount.toInt * shardCount.toInt / total.toInt : ℚ) * (1 - 2⁻¹ ^ 50) - 1 <
        (fallbackShare totalCount shardCount total).toInt ∧
      ((fallbackShare totalCount shardCount total).toInt : ℚ) ≤
        totalCount.toInt * shardCount.toInt / total.toInt * (1 + 2⁻¹ ^ 50) := by
  have t0 : (0 : ℚ) ≤ totalCount.toInt := by exact_mod_cast countedNonneg
  have t1 : (totalCount.toInt : ℚ) < 2 ^ 53 := by exact_mod_cast countedSmall
  have c0 : (0 : ℚ) ≤ shardCount.toInt := by exact_mod_cast shardNonneg
  have d0 : (0 : ℚ) < total.toInt := by exact_mod_cast positive
  have cd : (shardCount.toInt : ℚ) ≤ total.toInt := by exact_mod_cast atMost
  obtain ⟨cSign, cLow, cHigh⟩ := Float64.ofInt64_within shardNonneg
  obtain ⟨dSign, dLow, dHigh⟩ := Float64.ofInt64_within positive.le
  obtain ⟨pSign, pLow, pHigh⟩ := Float64.div_within cSign dSign
    (lt_of_lt_of_le (mul_pos d0 (by norm_num)) dLow)
  obtain ⟨rSign, rLow, rHigh⟩ :=
    Float64.mul_within (Float64.ofInt64_within countedNonneg).1 pSign
  rw [Float64.ofInt64_exact countedNonneg countedSmall] at rLow rHigh
  obtain ⟨lower, upper⟩ := mul_div_within t0 c0 d0 cLow cHigh dLow dHigh pLow pHigh rLow rHigh
  -- the exact share is at most `totalCount`, so the product stays below `2^63`
  have small : ((Float64.ofInt64 totalCount).mul
      ((Float64.ofInt64 shardCount).div (Float64.ofInt64 total))).toRat < 2 ^ 63 := by
    have share : (totalCount.toInt * shardCount.toInt / total.toInt : ℚ) ≤ totalCount.toInt := by
      rw [mul_div_assoc]
      exact mul_le_of_le_one_right t0 ((div_le_one d0).mpr cd)
    calc _ ≤ _ := upper
      _ ≤ (totalCount.toInt : ℚ) * (1 + 2⁻¹ ^ 50) := mul_le_mul_of_nonneg_right share (by norm_num)
      _ < 2 ^ 53 * 2 := mul_lt_mul'' t1 (by norm_num) t0 (by norm_num)
      _ ≤ 2 ^ 63 := by norm_num
  simp only [fallbackShare]
  rw [Float64.toInt64_toInt rSign small]
  push_cast
  exact ⟨by linarith only [lower, Nat.lt_floor_add_one ((Float64.ofInt64 totalCount).mul
      ((Float64.ofInt64 shardCount).div (Float64.ofInt64 total))).toRat],
    (Nat.floor_le (Float64.toRat_nonneg rSign)).trans upper⟩

theorem fallbackShare_bounds_ninetyOfTen :
    ((90 : BitVec 64).toInt * (7 : BitVec 64).toInt / (10 : BitVec 64).toInt : ℚ) * (1 - 2⁻¹ ^ 50) - 1 <
        (fallbackShare 90 7 10).toInt ∧
      ((fallbackShare 90 7 10).toInt : ℚ) ≤
        (90 : BitVec 64).toInt * (7 : BitVec 64).toInt / (10 : BitVec 64).toInt * (1 + 2⁻¹ ^ 50) :=
  fallbackShare_bounds 90 7 10 (by decide) (by decide) (by decide) (by decide) (by decide)

set_option maxRecDepth 4000 in
/-- The share is not always the exact share rounded down: with 90 documents
and 7 of 10, it is 62, not 63. -/
example : fallbackShare 90 7 10 = 62 := by
  decide

/-- `GetPerShardDocCount` falls back exactly when its aggregation fails or
its cursor yields no result at all; otherwise it returns, for each shard, the
count of the last result naming it, even when no result decodes. -/
theorem getPerShardDocCount_counts (collection : String) (sources : CountSources) :
    ((∃ err, sources.group = .error err) ∨ sources.group = .ok [] →
      getPerShardDocCount collection sources =
        getPerShardCountFallback collection sources) ∧
    ∀ result cursor, sources.group = .ok (result :: cursor) →
      ∃ counts, getPerShardDocCount collection sources = .ok counts ∧
        ∀ shard, counts.lookup shard =
          lastCount (shardRows "_id" (fun doc => intVal doc "count") (result :: cursor)) shard := by
  refine ⟨fun fallsBack => ?_, fun result cursor group => ?_⟩
  · rcases fallsBack with ⟨err, group⟩ | group <;> simp [getPerShardDocCount, group]
  · refine ⟨(∅ : Counts).writeAll (shardRows "_id" (fun doc => intVal doc "count")
      (result :: cursor)), ?_, fun shard => by simp [Counts.lookup_writeAll]⟩
    simp only [getPerShardDocCount, group, foldl_recordShardCount]
    simp

/-! ## What `extractTargetedShards` computes -/

theorem shardNameOf_ne {sm : Document} {name : String} (kept : shardNameOf sm = some name) :
    name ≠ "" := by
  simp only [shardNameOf] at kept
  split at kept
  · cases kept
    assumption
  · cases kept

theorem extractTargetedShards_of_shards {result qp wp : Document} {shardList : List Value}
    (planner : result.lookup "queryPlanner" = some (.document qp))
    (winning : qp.lookup "winningPlan" = some (.document wp))
    (shards : wp.lookup "shards" = some (.array shardList)) :
    extractTargetedShards result =
      shardList.filterMap fun entry => entry.asDocument.bind shardNameOf := by
  simp [extractTargetedShards, planner, winning, shards, appendShardNames, appendDocuments_eq]

theorem extractTargetedShards_of_no_shards {result : Document}
    (missing : ∀ qp wp shardList, result.lookup "queryPlanner" = some (.document qp) →
      qp.lookup "winningPlan" = some (.document wp) →
      wp.lookup "shards" ≠ some (.array shardList)) :
    extractTargetedShards result = [] := by
  unfold extractTargetedShards
  split
  · rename_i qp planner
    split
    · rename_i wp winning
      split
      · rename_i shardList shards
        exact absurd shards (missing qp wp shardList planner winning)
      · rfl
    · rfl
  · rfl

theorem extractTargetedShards_eq_filterMap (result : Document) :
    ∃ shardList : List Value, extractTargetedShards result =
      shardList.filterMap fun entry => entry.asDocument.bind shardNameOf := by
  by_cases found : ∃ qp wp shardList, result.lookup "queryPlanner" = some (.document qp) ∧
      qp.lookup "winningPlan" = some (.document wp) ∧ wp.lookup "shards" = some (.array shardList)
  · obtain ⟨qp, wp, shardList, planner, winning, shards⟩ := found
    exact ⟨shardList, extractTargetedShards_of_shards planner winning shards⟩
  · exact ⟨[], extractTargetedShards_of_no_shards fun qp wp shardList planner winning shards =>
      found ⟨qp, wp, shardList, planner, winning, shards⟩⟩

/-- `extractTargetedShards` lists, in order, the non-empty `shardName` of
every `bson.M` entry of `queryPlanner.winningPlan.shards`, and nothing when a
level of that path is missing or has another type. -/
theorem extractTargetedShards_names (result : Document) :
    (∀ qp wp shardList, result.lookup "queryPlanner" = some (.document qp) →
      qp.lookup "winningPlan" = some (.document wp) →
      wp.lookup "shards" = some (.array shardList) →
      extractTargetedShards result =
        shardList.filterMap fun entry => entry.asDocument.bind shardNameOf) ∧
    ((∀ qp wp shardList, result.lookup "queryPlanner" = some (.document qp) →
      qp.lookup "winningPlan" = some (.document wp) →
      wp.lookup "shards" ≠ some (.array shardList)) →
      extractTargetedShards result = []) ∧
    ∀ name ∈ extractTargetedShards result, name ≠ "" := by
  refine ⟨fun _ _ _ => extractTargetedShards_of_shards, fun missing =>
    extractTargetedShards_of_no_shards missing, fun name member => ?_⟩
  obtain ⟨shardList, shape⟩ := extractTargetedShards_eq_filterMap result
  rw [shape] at member
  obtain ⟨entry, -, kept⟩ := List.mem_filterMap.mp member
  obtain ⟨sm, -, named⟩ := Option.bind_eq_some.mp kept
  exact shardNameOf_ne named

end MongoShardingPoc.Sharding
