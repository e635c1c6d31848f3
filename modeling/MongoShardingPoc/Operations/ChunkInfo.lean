import MongoShardingPoc.Sharding.ShardStats
import MongoShardingPoc.Sharding.BatchInsert

/-!
# Chunk counts per shard

`GetChunkInfo` counts the chunks of a namespace per shard with a `$group`
aggregation over `config.chunks` keyed by `ns`.  When that aggregation fails,
or its counts add up to `0`, it falls back to `getChunkInfoByUUID`, which
looks the collection's `uuid` up in `config.collections` and runs the same
aggregation keyed by it, as MongoDB 7.0 keys chunks.  Both functions run the
same cursor loop: the map keeps the last count of each shard, and the total
adds every count.

Every return of either function carries a `ChunkInfo`, also next to an
error: the one next to an error is always the empty one of the namespace.

The loop's type switch on `count` has no `int` case, unlike `intVal` of the
sharding package: a count of Go type `int` reads as `0` here.

`RunChunkLab` shards a collection, inserts fifty thousand documents of one
category and five thousand of ten, and reports the chunks before and after
a manual split.  Only its setup can make it fail: the reports and the split
only log.
-/

namespace MongoShardingPoc.Operations

open MongoShardingPoc.Go MongoShardingPoc.Bson MongoShardingPoc.Sharding

/-- `ChunkInfo`; `ns` is its `Namespace`. -/
structure ChunkInfo where
  ns : String
  totalCount : BitVec 64
  perShard : Counts

def ChunkInfo.empty (ns : String) : ChunkInfo :=
  ⟨ns, 0, ∅⟩

/-- The type switch on `doc["count"]` of the chunk loops: `int32`, `int64`
and `float64`, and `0` for anything else. -/
def chunkCount (doc : Document) : BitVec 64 :=
  match doc.lookup "count" with
  | some (.int32 v) => v.signExtend 64
  | some (.int64 v) => v
  | some (.float64 v) => v
  | _ => 0

/-- One turn of the cursor loop of `GetChunkInfo` and `getChunkInfoByUUID`; a
result that does not decode is skipped. -/
def ChunkInfo.record (info : ChunkInfo) : Option Document → ChunkInfo
  | none => info
  | some doc =>
    let shard := doc.stringAt "_id"
    let count := chunkCount doc
    if shard ≠ "" then
      { info with perShard := info.perShard.insert shard count,
                  totalCount := info.totalCount + count }
    else info

/-- What the database answers the calls of `GetChunkInfo`: the aggregation
keyed by `ns`, the `config.collections` document of the namespace, and the
aggregation keyed by its `uuid`. -/
structure ChunkSources where
  byNamespace : Except GoError (List (Option Document))
  collection : Except GoError Document
  byUUID : Except GoError (List (Option Document))

def getChunkInfoByUUID (ns : String) (sources : ChunkSources) : ChunkInfo × Option GoError :=
  match sources.collection with
  | .error err => (ChunkInfo.empty ns, some (.wrapped "lookup collection uuid: %w" err))
  | .ok collDoc =>
    match collDoc.lookup "uuid" with
    | none => (ChunkInfo.empty ns, some (.formatted "no uuid for %s" [.text ns]))
    | some _ =>
      match sources.byUUID with
      | .error err => (ChunkInfo.empty ns, some (.wrapped "aggregate chunks by uuid: %w" err))
      | .ok cursor => (cursor.foldl ChunkInfo.record (ChunkInfo.empty ns), none)

def getChunkInfo (ns : String) (sources : ChunkSources) : ChunkInfo × Option GoError :=
  match sources.byNamespace with
  | .error _ => getChunkInfoByUUID ns sources
  | .ok cursor =>
    let info := cursor.foldl ChunkInfo.record (ChunkInfo.empty ns)
    if info.totalCount = 0 then getChunkInfoByUUID ns sources else (info, none)

/-! ## The loop -/

/-- The chunk loops read `count` as `intVal` does, except a count of Go type
`int`, which they read as `0`. -/
theorem chunkCount_eq (doc : Document) :
    (∀ n, doc.lookup "count" = some (.int n) → chunkCount doc = 0) ∧
    ((∀ n, doc.lookup "count" ≠ some (.int n)) → chunkCount doc = intVal doc "count") := by
  refine ⟨fun n isInt => by simp [chunkCount, isInt], fun notInt => ?_⟩
  simp only [chunkCount, intVal, Document.intAt]
  split <;> simp_all

theorem foldl_chunkRecord (cursor : List (Option Document)) (info : ChunkInfo) :
    cursor.foldl ChunkInfo.record info =
      { info with
        perShard := info.perShard.writeAll (shardRows "_id" chunkCount cursor)
        totalCount :=
          info.totalCount + ((shardRows "_id" chunkCount cursor).map Prod.snd).sum } := by
  induction cursor generalizing info with
  | nil =>
      cases info
      simp [Counts.writeAll]
  | cons result cursor inductionHypothesis =>
      cases result with
      | none =>
          exact inductionHypothesis info
      | some doc =>
          rw [List.foldl_cons, inductionHypothesis, shardRows_some]
          by_cases named : doc.stringAt "_id" ≠ ""
          · simp [ChunkInfo.record, named, stringVal, Counts.writeAll, BitVec.add_assoc]
          · simp [ChunkInfo.record, named, stringVal]

/-- What a `ChunkInfo` of `ns` reports of `rows`: the sum of their counts,
and for each shard the count of the last row naming it. -/
def ChunkInfo.Tallies (info : ChunkInfo) (ns : String) (rows : List (String × BitVec 64)) :
    Prop :=
  info.ns = ns ∧ info.totalCount = (rows.map Prod.snd).sum ∧
    ∀ shard, info.perShard.lookup shard = lastCount rows shard

theorem chunkLoop_tallies (ns : String) (cursor : List (Option Document)) :
    (cursor.foldl ChunkInfo.record (ChunkInfo.empty ns)).Tallies ns
        (shardRows "_id" chunkCount cursor) ∧
      (((shardRows "_id" chunkCount cursor).map Prod.fst).Nodup →
        (cursor.foldl ChunkInfo.record (ChunkInfo.empty ns)).totalCount =
          (cursor.foldl ChunkInfo.record (ChunkInfo.empty ns)).perShard.sum) := by
  rw [foldl_chunkRecord]
  refine ⟨⟨rfl, BitVec.zero_add _,
    fun shard => by simp [ChunkInfo.empty, Counts.lookup_writeAll]⟩, fun distinct => ?_⟩
  rw [Counts.sum_writeAll _ _ (by simp [ChunkInfo.empty]) distinct]
  simp [ChunkInfo.empty, Counts.sum]

/-! ## What the two functions return -/

theorem getChunkInfoByUUID_empty_of_error (ns : String) (sources : ChunkSources)
    {info : ChunkInfo} {err : GoError} (failed : getChunkInfoByUUID ns sources = (info, some err)) :
    info = ChunkInfo.empty ns := by
  unfold getChunkInfoByUUID at failed
  split at failed
  · exact (Prod.mk.inj failed).1.symm
  · split at failed
    · exact (Prod.mk.inj failed).1.symm
    · split at failed
      · exact (Prod.mk.inj failed).1.symm
      · exact absurd (Prod.mk.inj failed).2 nofun

/-- `GetChunkInfo` reports the chunk rows of the aggregation keyed by `ns`
when it answers with counts whose `int64` sum is not `0`, and otherwise
returns exactly what `getChunkInfoByUUID` returns; whenever it returns an
error, the `ChunkInfo` next to it is the empty one of the namespace. -/
theorem getChunkInfo_result (ns : String) (sources : ChunkSources) :
    (∀ cursor, sources.byNamespace = .ok cursor →
      ((shardRows "_id" chunkCount cursor).map Prod.snd).sum ≠ 0 →
      ∃ info, getChunkInfo ns sources = (info, none) ∧
        info.Tallies ns (shardRows "_id" chunkCount cursor)) ∧
    ((∃ err, sources.byNamespace = .error err) ∨
        (∃ cursor, sources.byNamespace = .ok cursor ∧
          ((shardRows "_id" chunkCount cursor).map Prod.snd).sum = 0) →
      getChunkInfo ns sources = getChunkInfoByUUID ns sources) ∧
    ∀ info err, getChunkInfo ns sources = (info, some err) → info = ChunkInfo.empty ns := by
  have tallies := fun cursor => (chunkLoop_tallies ns cursor).1
  refine ⟨fun cursor answered nonZero => ⟨_, ?_, tallies cursor⟩, fun fallsBack => ?_,
    fun info err failed => ?_⟩
  · simp only [getChunkInfo, answered]
    rw [(tallies cursor).2.1, if_neg nonZero]
  · rcases fallsBack with ⟨err, failed⟩ | ⟨cursor, answered, zero⟩
    · simp [getChunkInfo, failed]
    · simp [getChunkInfo, answered, (tallies cursor).2.1, zero]
  · unfold getChunkInfo at failed
    split at failed
    · exact getChunkInfoByUUID_empty_of_error ns sources failed
    · dsimp only at failed
      split at failed
      · exact getChunkInfoByUUID_empty_of_error ns sources failed
      · exact absurd (Prod.mk.inj failed).2 nofun

/-! ## The chunk lab -/

def jumboDocCount : Nat := 50000

/-- A document `RunChunkLab` inserts, by its loop and the index `j` its
fields are formatted from. -/
inductive ChunkLabDoc where
  | hotspot (j : Nat)
  | distributed (j : Nat)
  deriving DecidableEq, Repr

/-- What the database answers `RunChunkLab`: `shardCollection`, and each
`InsertMany` by the documents it is given. -/
structure ChunkLabAnswers where
  shardCollection : Option GoError
  insertMany : List ChunkLabDoc → Option GoError

/-- `RunChunkLab`: its two insert loops, in batches of a thousand, after
`shardCollection`.  What `GetChunkInfo` and `ManualSplitChunk` answer only
reaches the log. -/
def runChunkLab (answers : ChunkLabAnswers) : Except GoError Unit :=
  match answers.shardCollection with
  | some err => .error (.wrapped "shard collection: %w" err)
  | none =>
    match insertFrom "bulk insert at %d: %w" (fun js => answers.insertMany (js.map .hotspot))
        jumboDocCount batchSize 0 with
    | some err => .error err
    | none =>
      match insertFrom "distributed insert at %d: %w" (fun js => answers.insertMany (js.map .distributed))
          5000 batchSize 0 with
      | some err => .error err
      | none => .ok ()

/-- A chunk lab whose `shardCollection` fails. -/
def unshardedChunkLab : ChunkLabAnswers :=
  ⟨some (.external "not sharded"), fun _ => none⟩

end MongoShardingPoc.Operations
