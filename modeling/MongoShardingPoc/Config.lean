import Mathlib.Data.List.Basic

/-!
# The cluster configuration

`config.Load` builds the configuration of the sharded cluster: the
credentials and the application database come from environment variables,
with a default for each, and the topology is fixed: a config server replica
set and three shard replica sets of three members each, and two `mongos`
routers.

Whatever the environment, every credential is non-empty, and the topology
has what the setup program relies on: no replica set is empty (it reads
`Members[0]` of each), no two members share an address, and no address holds
the `,` and `/` that `AddShard`'s connection string uses as separators.
-/

namespace MongoShardingPoc.Config

structure Member where
  host : String
  port : String
  deriving DecidableEq, Repr

def Member.addr (m : Member) : String :=
  m.host ++ ":" ++ m.port

structure ReplicaSet where
  name : String
  members : List Member
  deriving DecidableEq, Repr

structure ClusterConfig where
  adminUser : String
  adminPassword : String
  appUser : String
  appPassword : String
  readOnlyUser : String
  readOnlyPassword : String
  appDatabase : String
  configRS : ReplicaSet
  shards : List ReplicaSet
  mongosHosts : List String
  deriving DecidableEq, Repr

/-- `env`, given `os.Getenv`, which answers `""` for an unset variable. -/
def env (getenv : String → String) (key fallback : String) : String :=
  let v := getenv key
  if v ≠ "" then v else fallback

def load (getenv : String → String) : ClusterConfig where
  adminUser := env getenv "MONGO_ADMIN_USER" "clusterAdmin"
  adminPassword := env getenv "MONGO_ADMIN_PASSWORD" "admin123"
  appUser := env getenv "MONGO_APP_USER" "appUser"
  appPassword := env getenv "MONGO_APP_PASSWORD" "app123"
  readOnlyUser := env getenv "MONGO_READONLY_USER" "readOnlyUser"
  readOnlyPassword := env getenv "MONGO_READONLY_PASSWORD" "read123"
  appDatabase := env getenv "MONGO_APP_DATABASE" "sharding_poc"
  configRS := ⟨"configrs", [⟨"cfg-1", "27019"⟩, ⟨"cfg-2", "27020"⟩, ⟨"cfg-3", "27021"⟩]⟩
  shards :=
    [⟨"shard1rs", [⟨"shard1-1", "27022"⟩, ⟨"shard1-2", "27023"⟩, ⟨"shard1-3", "27024"⟩]⟩,
      ⟨"shard2rs", [⟨"shard2-1", "27025"⟩, ⟨"shard2-2", "27026"⟩, ⟨"shard2-3", "27027"⟩]⟩,
      ⟨"shard3rs", [⟨"shard3-1", "27028"⟩, ⟨"shard3-2", "27029"⟩, ⟨"shard3-3", "27030"⟩]⟩]
  mongosHosts := ["localhost:27017", "localhost:27018"]

theorem env_ne_empty (getenv : String → String) (key : String) {fallback : String}
    (nonEmpty : fallback ≠ "") : env getenv key fallback ≠ "" := by
  unfold env
  dsimp only
  split <;> assumption

/-- Every replica set of a configuration: the config servers' and the
shards'. -/
def ClusterConfig.replicaSets (cfg : ClusterConfig) : List ReplicaSet :=
  cfg.configRS :: cfg.shards

/-- Whatever the environment, `Load` gives non-empty credentials and
database name, three shards, replica sets that are all non-empty, member
addresses that are pairwise distinct, distinct from the `mongos` addresses
and free of `,` and `/`, and at least one `mongos`. -/
example (getenv : String → String) :
    (∀ setting ∈ [(load getenv).adminUser, (load getenv).adminPassword, (load getenv).appUser,
        (load getenv).appPassword, (load getenv).readOnlyUser, (load getenv).readOnlyPassword,
        (load getenv).appDatabase], setting ≠ "") ∧
      (load getenv).shards.length = 3 ∧
      (∀ rs ∈ (load getenv).replicaSets, rs.members ≠ []) ∧
      (((load getenv).replicaSets.flatMap fun rs => rs.members.map Member.addr) ++
        (load getenv).mongosHosts).Nodup ∧
      (∀ rs ∈ (load getenv).replicaSets, ∀ m ∈ rs.members,
        ',' ∉ m.addr.data ∧ '/' ∉ m.addr.data) ∧
      (load getenv).mongosHosts ≠ [] := by
  refine ⟨fun setting member => ?_, ?_⟩
  · simp only [load, List.mem_cons, List.mem_singleton, List.not_mem_nil, or_false] at member
    rcases member with rfl | rfl | rfl | rfl | rfl | rfl | rfl <;>
      exact env_ne_empty getenv _ (by decide)
  · simp only [load, ClusterConfig.replicaSets]
    decide

end MongoShardingPoc.Config
