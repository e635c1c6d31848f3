import Mathlib.Data.PNat.Basic
import MongoShardingPoc.GoValues
import MongoShardingPoc.Bson
import MongoShardingPoc.Sharding.BatchInsert

/-!
# The jumbo chunk analysis

`RunJumboChunkAnalysis` shards a collection on `{ status: 1 }`, a key with
three values, inserts `jumboDocCount` documents in batches of a thousand,
lists the chunks of the namespace with `getChunksForNamespace`, and asks
`moveChunk` to move the first chunk to a shard that `findDifferentShard`
picks from `listShards`.  Everything after the inserts only logs: the
counts per status, the chunks, and the answer of `moveChunk`.

`getChunksForNamespace` queries `config.chunks` by `ns` and, when that fails
or finds nothing, looks the collection's `uuid` up in `config.collections`
and queries by it, as MongoDB 7.0 keys chunks.  `queryChunks` keeps each
chunk's `Shard`, `""` when `shard` is not a string.  Its `Min` and `Max` are
left out: whether `doc["min"].(bson.D)` holds depends on the Go type the
driver gives an embedded document of a `bson.M`, which `Value` does not
record, and they only reach the log and the `find` of `moveChunk`.

A document of the insert loop is named by its index `j`; its fields are
formatted from `j`.
-/

namespace MongoShardingPoc.HA

open MongoShardingPoc.Go MongoShardingPoc.Bson MongoShardingPoc.Sharding

/-! ## The insert loop -/

def jumboCollection : String := "jumbo_analysis"

def jumboDocCount : Nat := 30000

def jumboBatchSize : ℕ+ := 1000

@[simp]
theorem jumboBatchSize_coe : (jumboBatchSize : Nat) = 1000 :=
  rfl

/-! ## Chunks and shards -/

/-- `chunkDoc`, by its `Shard`. -/
structure ChunkDoc where
  shard : String
  deriving DecidableEq, Repr

/-- `queryChunks` on the cursor `Find` opened, or its error: a result that
does not decode is skipped. -/
def queryChunks (cursor : Except GoError (List (Option Document))) : Except GoError (List ChunkDoc) :=
  cursor.map fun results => results.filterMap fun result => result.map fun doc => ⟨doc.stringAt "shard"⟩

/-- What the database answers `getChunksForNamespace`: the `config.chunks`
query by `ns`, the `config.collections` document of the namespace, and the
query by its `uuid`. -/
structure ChunkAnswers where
  byNamespace : Except GoError (List (Option Document))
  collection : Except GoError Document
  byUUID : Except GoError (List (Option Document))

/-- The fallback of `getChunksForNamespace`, by the collection's `uuid`. -/
def chunksByUUID (ns : String) (answers : ChunkAnswers) : Except GoError (List ChunkDoc) :=
  match answers.collection with
  | .error err => .error (.wrapped "lookup collection: %w" err)
  | .ok collDoc =>
    match collDoc.lookup "uuid" with
    | none => .error (.formatted "no uuid for %s" [.text ns])
    | some _ => queryChunks answers.byUUID

def getChunksForNamespace (ns : String) (answers : ChunkAnswers) : Except GoError (List ChunkDoc) :=
  match queryChunks answers.byNamespace with
  | .ok chunks => if chunks.length > 0 then .ok chunks else chunksByUUID ns answers
  | .error _ => chunksByUUID ns answers

/-- What `findDifferentShard` keeps of a `bson.M` entry of `shards`: its
`_id`, when it is a string other than `excludeShard`. -/
def otherShardId (excludeShard : String) (m : Document) : Option String :=
  match m.lookup "_id" with
  | some (.string id) => if id ≠ excludeShard then some id else none
  | _ => none

theorem otherShardId_eq_some {excludeShard id : String} {m : Document} :
    otherShardId excludeShard m = some id ↔ m.lookup "_id" = some (.string id) ∧ id ≠ excludeShard := by
  unfold otherShardId
  split <;> simp_all [and_comm, eq_comm]

/-- `findDifferentShard`, given what `listShards` answers. -/
def findDifferentShard (listShards : Except GoError Document) (excludeShard : String) : String :=
  match listShards with
  | .error _ => ""
  | .ok result =>
    ((result.arrayAt "shards").findSome? fun s => s.asDocument.bind (otherShardId excludeShard)).getD ""

/-! ## The lab -/

/-- What the database answers `RunJumboChunkAnalysis`: `shardCollection`,
each `InsertMany` by the indices of its documents, the chunk queries, and
`listShards`. -/
structure JumboAnswers where
  shardCollection : Option GoError
  insertMany : List Nat → Option GoError
  chunks : ChunkAnswers
  listShards : Except GoError Document

/-- `RunJumboChunkAnalysis` on database `db`: what it returns, and the
namespace and target shard of the `moveChunk` it sends, if any. -/
def runJumboChunkAnalysis (db : String) (answers : JumboAnswers) :
    Except GoError Unit × Option (String × String) :=
  match answers.shardCollection with
  | some err => (.error (.wrapped "shard collection: %w" err), none)
  | none =>
    match insertFrom "insert at %d: %w" answers.insertMany jumboDocCount jumboBatchSize 0 with
    | some err => (.error err, none)
    | none =>
      match (getChunksForNamespace (db ++ "." ++ jumboCollection) answers.chunks).toOption.getD [] with
      | [] => (.ok (), none)
      | first :: _ =>
        if findDifferentShard answers.listShards first.shard ≠ "" then
          (.ok (), some (db ++ "." ++ jumboCollection, findDifferentShard answers.listShards first.shard))
        else (.ok (), none)

/-! ## What the lab does -/

theorem findDifferentShard_spec (listShards : Except GoError Document) (excludeShard : String) :
    findDifferentShard listShards excludeShard = "" ∨
      ∃ result m, listShards = .ok result ∧ Value.document m ∈ result.arrayAt "shards" ∧
        m.lookup "_id" = some (.string (findDifferentShard listShards excludeShard)) ∧
        findDifferentShard listShards excludeShard ≠ excludeShard := by
  rcases listShards with err | result
  · exact .inl rfl
  · cases found : (result.arrayAt "shards").findSome? fun s => s.asDocument.bind (otherShardId excludeShard) with
    | none => exact .inl (by simp only [findDifferentShard, found, Option.getD_none])
    | some id =>
        right
        obtain ⟨s, entry, kept⟩ := List.exists_of_findSome?_eq_some found
        obtain ⟨m, rfl, named⟩ := Value.asDocument_bind_eq_some.mp kept
        simp only [findDifferentShard, found, Option.getD_some]
        exact ⟨result, m, rfl, entry, otherShardId_eq_some.mp named⟩

end MongoShardingPoc.HA
