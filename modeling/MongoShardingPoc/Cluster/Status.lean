import MongoShardingPoc.GoValues
import MongoShardingPoc.Bson

/-!
# Cluster status

`GetClusterStatus` reads the results of the `listShards`, `balancerStatus`
and `listDatabases` commands into a `ClusterStatus`; only a failing
`listShards` makes it fail, and the other two commands' errors leave their
parts at their zero values.  `VerifyCluster` checks the `listShards` result:
that `shards` is a `bson.A` of the expected length, and that every `bson.M`
entry of it is in state `1`; an entry of another type counts towards the
length but is not checked.

The commands are not modelled: each function is given what they answer.
-/

namespace MongoShardingPoc.Cluster

open MongoShardingPoc.Go MongoShardingPoc.Bson

def stringField (m : Document) (key : String) : String :=
  m.stringAt key

/-- `intField`; an `int` is 64 bits wide. -/
def intField (m : Document) (key : String) : BitVec 64 :=
  m.intAt key

structure ShardInfo where
  id : String
  host : String
  state : BitVec 64
  deriving DecidableEq, Repr

structure BalancerInfo where
  enabled : Bool
  deriving DecidableEq, Repr

structure DatabaseInfo where
  name : String
  deriving DecidableEq, Repr

structure ClusterStatus where
  shards : List ShardInfo
  balancer : BalancerInfo
  databases : List DatabaseInfo
  deriving DecidableEq, Repr

/-! ## `GetClusterStatus` -/

/-- The `ShardInfo` that `GetClusterStatus` builds from a `listShards`
entry. -/
def shardInfoOf (m : Document) : ShardInfo :=
  ⟨stringField m "_id", stringField m "host", intField m "state"⟩

/-- The loop of `GetClusterStatus` over `listShards`' `shards`. -/
def appendShardInfos (shards : List ShardInfo) (entries : List Value) : List ShardInfo :=
  appendDocuments (fun m => some (shardInfoOf m)) shards entries

/-- The loop of `GetClusterStatus` over `listDatabases`' `databases`. -/
def appendDatabaseInfos (databases : List DatabaseInfo) (entries : List Value) :
    List DatabaseInfo :=
  appendDocuments (fun m => some ⟨stringField m "name"⟩) databases entries

/-- `GetClusterStatus`, given what the `listShards`, `balancerStatus` and
`listDatabases` commands answer: a decoded `bson.M`, or an error. -/
def getClusterStatus (shardsResult balResult dbResult : Except GoError Document) :
    Except GoError ClusterStatus :=
  match shardsResult with
  | .error err => .error (.wrapped "listShards: %w" err)
  | .ok shardsResult =>
    let shards := appendShardInfos [] (shardsResult.arrayAt "shards")
    let enabled := match balResult with
      | .ok balResult =>
        match balResult.lookup "mode" with
        | some (.string mode) => mode == "full"
        | _ => false
      | .error _ => false
    let databases := match dbResult with
      | .ok dbResult => appendDatabaseInfos [] (dbResult.arrayAt "databases")
      | .error _ => []
    .ok ⟨shards, ⟨enabled⟩, databases⟩

/-- The loop of `VerifyCluster` over the shards: the error for the first
`bson.M` entry whose `state` is not `1`. -/
def checkShardStates : List Value → Option GoError
  | [] => none
  | .document m :: rest =>
    let id := stringField m "_id"
    let state := intField m "state"
    if state ≠ 1 then
      some (.formatted "shard %s state=%d, expected 1" [.text id, .number state.toInt])
    else checkShardStates rest
  | _ :: rest => checkShardStates rest

/-- `VerifyCluster`, given what `listShards` answers and what `client.Ping`
returns. -/
def verifyCluster (expectedShards : Int) (result : Except GoError Document)
    (ping : Option GoError) : Except GoError Unit :=
  match result with
  | .error err => .error (.wrapped "listShards: %w" err)
  | .ok result =>
    match result.lookup "shards" with
    | some (.array shards) =>
      if (shards.length : Int) ≠ expectedShards then
        .error (.formatted "expected %d shards, got %d"
          [.number expectedShards, .number shards.length])
      else
        match checkShardStates shards with
        | some err => .error err
        | none =>
          match ping with
          | some err => .error (.wrapped "cluster ping: %w" err)
          | none => .ok ()
    | _ => .error (.plain "unexpected listShards format")

theorem checkShardStates_eq_none (shards : List Value) :
    checkShardStates shards = none ↔ ∀ m, Value.document m ∈ shards → intField m "state" = 1 := by
  induction shards with
  | nil =>
      simp [checkShardStates]
  | cons entry shards inductionHypothesis =>
      cases entry with
      | document m =>
          by_cases active : intField m "state" = 1 <;>
            simp_all [checkShardStates]
      | _ =>
          simp [checkShardStates, inductionHypothesis]

theorem checkShardStates_first (before after : List Value) (m : Document)
    (active : ∀ m', Value.document m' ∈ before → intField m' "state" = 1)
    (inactive : intField m "state" ≠ 1) :
    checkShardStates (before ++ .document m :: after) =
      some (.formatted "shard %s state=%d, expected 1"
        [.text (stringField m "_id"), .number (intField m "state").toInt]) := by
  induction before with
  | nil =>
      simp_all [checkShardStates]
  | cons entry before inductionHypothesis =>
      have rest := inductionHypothesis fun m' member => active m' (List.mem_cons_of_mem _ member)
      cases entry with
      | document m' =>
          simp [checkShardStates, active m' (List.mem_cons_self _ _), rest]
      | _ =>
          simpa [checkShardStates] using rest

/-- `VerifyCluster` succeeds exactly when `listShards` answers with a
`shards` array of the expected length whose `bson.M` entries are all in
state `1`, and the ping succeeds; when the length is right, it reports the
first `bson.M` entry that is not in state `1`. -/
theorem verifyCluster_checks (expectedShards : Int) (result : Except GoError Document)
    (ping : Option GoError) :
    (verifyCluster expectedShards result ping = .ok () ↔
      ∃ fields shards, result = .ok fields ∧ fields.lookup "shards" = some (.array shards) ∧
        (shards.length : Int) = expectedShards ∧
        (∀ m, Value.document m ∈ shards → intField m "state" = 1) ∧ ping = none) ∧
    ∀ fields before m after, result = .ok fields →
      fields.lookup "shards" = some (.array (before ++ .document m :: after)) →
      ((before ++ .document m :: after).length : Int) = expectedShards →
      (∀ m', Value.document m' ∈ before → intField m' "state" = 1) →
      intField m "state" ≠ 1 →
      verifyCluster expectedShards result ping =
        .error (.formatted "shard %s state=%d, expected 1"
          [.text (stringField m "_id"), .number (intField m "state").toInt]) := by
  refine ⟨⟨fun ok => ?_, ?_⟩, ?_⟩
  · rcases result with err | fields
    · cases ok
    · simp only [verifyCluster] at ok
      split at ok
      · rename_i shards listed
        split_ifs at ok with length
        split at ok
        · cases ok
        · rename_i checked
          cases ping with
          | some err =>
              cases ok
          | none =>
              exact ⟨fields, shards, rfl, listed, not_not.mp length,
                (checkShardStates_eq_none shards).mp checked, rfl⟩
      · cases ok
  · rintro ⟨fields, shards, rfl, listed, length, active, rfl⟩
    simp [verifyCluster, listed, length, (checkShardStates_eq_none shards).mpr active]
  · rintro fields before m after rfl listed length active inactive
    simp only [verifyCluster, listed, length, ne_eq, not_true_eq_false, if_false,
      checkShardStates_first before after m active inactive]

end MongoShardingPoc.Cluster
