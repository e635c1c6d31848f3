import Mathlib.Data.List.Basic

/-!
# Decoded BSON documents

The sharding and cluster packages decode command and aggregation results
into `bson.M` and read them through type assertions.  A decoded `bson.M` is
modelled as a list of fields, and a value by its dynamic Go type, since the
code reads nothing else of it.  BSON strings are UTF-8, so a Lean `String`
stands for a Go string here.

Both packages carry their own copies of the same helpers: `stringVal` and
`stringField`, `intVal` and `intField`, and several loops that range over a
`bson.A` and keep something from each of its `bson.M` entries.  Their shared
bodies are defined once here.
-/

namespace MongoShardingPoc.Bson

/-- A value of a `bson.M` or `bson.D`, by its dynamic Go type: `string`,
`int64`, `int32`, `float64`, `int` (64 bits wide), `bool`, an embedded
document, a `bson.A`, or anything else.  A `float64` is kept as `int64(v)`,
the only thing the code reads of one. -/
inductive Value where
  | string (s : String)
  | int64 (n : BitVec 64)
  | int32 (n : BitVec 32)
  | float64 (truncated : BitVec 64)
  | int (n : BitVec 64)
  | bool (b : Bool)
  | document (fields : List (String × Value))
  | array (items : List Value)
  | other

/-- A decoded `bson.M`: `m[key]` is the value of its field `key`. -/
abbrev Document := List (String × Value)

/-- `v.(bson.M)`. -/
def Value.asDocument : Value → Option Document
  | .document m => some m
  | _ => none

theorem Value.asDocument_bind_eq_some {α : Type} {v : Value} {keep : Document → Option α} {a : α} :
    v.asDocument.bind keep = some a ↔ ∃ m, v = .document m ∧ keep m = some a := by
  cases v <;> simp [Value.asDocument]

/-- `m[key].(string)`, and `""` when the field is missing or holds no
string. -/
def Document.stringAt (m : Document) (key : String) : String :=
  match m.lookup key with
  | some (.string v) => v
  | _ => ""

/-- The type switch on `m[key]` that takes an `int64`, `int32`, `float64` or
`int` field to a 64-bit integer, and anything else to `0`. -/
def Document.intAt (m : Document) (key : String) : BitVec 64 :=
  match m.lookup key with
  | some (.int64 v) => v
  | some (.int32 v) => v.signExtend 64
  | some (.float64 v) => v
  | some (.int v) => v
  | _ => 0

/-- The elements of `m[key].(bson.A)`, and none when the assertion fails: a
`for range` over them under `if ..., ok` runs over exactly these. -/
def Document.arrayAt (m : Document) (key : String) : List Value :=
  match m.lookup key with
  | some (.array items) => items
  | _ => []

/-- A loop over a `bson.A` that appends to `acc` what `keep` takes from each
`bson.M` entry, skipping the other entries. -/
def appendDocuments {α : Type} (keep : Document → Option α) (acc : List α) :
    List Value → List α
  | [] => acc
  | .document m :: rest =>
    appendDocuments keep (match keep m with | some a => acc ++ [a] | none => acc) rest
  | _ :: rest => appendDocuments keep acc rest

theorem appendDocuments_eq {α : Type} (keep : Document → Option α) (acc : List α)
    (entries : List Value) :
    appendDocuments keep acc entries =
      acc ++ entries.filterMap fun entry => entry.asDocument.bind keep := by
  induction entries generalizing acc with
  | nil =>
      simp [appendDocuments]
  | cons entry entries inductionHypothesis =>
      cases entry with
      | document m =>
          cases kept : keep m <;>
            simp [appendDocuments, Value.asDocument, kept, inductionHypothesis]
      | _ =>
          simp [appendDocuments, Value.asDocument, inductionHypothesis]

end MongoShardingPoc.Bson
