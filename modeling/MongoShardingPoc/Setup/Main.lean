import MongoShardingPoc.Cluster.Setup
import MongoShardingPoc.Cluster.Status

/-!
# The setup program

`cmd/sharding-poc`'s `main` sets the cluster up in a fixed order: it waits
for every node, initiates each replica set and waits for its primary,
creates the admin user on each, waits for the `mongos` routers and connects
to the first, registers the shards, enables sharding on the application's
database, creates the application's users and verifies the cluster.  Each
call runs under `must`, which ends the program with a fatal log at the first
failure; the connection to `mongos` under `log.Fatalf`.  `Members[0]` of an
empty replica set panics, as `MongosHosts[0]` and `MongosHosts[1]` do when
there are too few routers.

The program is its list of calls, `mainSteps`, run by `runChecked` until the
first failure against what each call answers.  The answers are keyed by what
tells the calls apart on the configuration `Load` gives: a host, or a replica
set's name.  What follows `VerifyCluster` only logs, and the model keeps of
it only the indexing that can panic.

For every environment the program never panics; it sends `addShard` only
once every node has answered, every replica set is initiated and has a
primary, its admin user exists and `mongos` is connected; and it completes
exactly when every call succeeds.
-/

namespace MongoShardingPoc.Setup

open MongoShardingPoc.Go MongoShardingPoc.Bson MongoShardingPoc.Config MongoShardingPoc.Cluster

/-! ## Calls and answers -/

/-- A call `main` makes, with the arguments its model reads. -/
inductive SetupCall where
  | waitForHost (host : String)
  | initReplicaSet (rsName : String) (members : List Member) (isConfigSvr : Bool)
  | waitForPrimary (host : String)
  | createAdminUser (host user password : String)
  | connectMongos (host : String)
  | addShard (rsName : String) (members : List Member)
  | enableSharding (dbName : String)
  | createAppUser (db user pwd : String)
  | createReadOnlyUser (db user pwd : String)
  | verifyCluster (expectedShards : Int)
  deriving DecidableEq, Repr

/-- What the nodes answer the calls of `main`: `WaitForHost`'s rounds by
host; `InitReplicaSet`'s connection and `replSetInitiate` by replica set;
`WaitForPrimary`'s connection and rounds, and `CreateAdminUser`'s connection
and `createUser`, by host; `ConnectMongos`; `addShard` by replica set;
`enableSharding`; the two `createUser`s of the application's users; and
`VerifyCluster`'s `listShards` and ping. -/
structure SetupAnswers where
  hostRounds : String → List HostRound
  initConnect : String → Option String
  replSetInitiate : String → Option String
  primaryConnect : String → Option String
  primaryRounds : String → List PrimaryRound
  adminConnect : String → Option String
  createUser : String → Option String
  mongosConnect : Option String
  mongosPing : Option String
  addShard : String → Option String
  enableSharding : Option String
  appUser : Option String
  readOnlyUser : Option String
  listShards : Except GoError Document
  ping : Option GoError

/-- What a call returns, given the answers: `none` where `InitReplicaSet`'s
`members[0]` panics. -/
def callResult (answers : SetupAnswers) : SetupCall → Option (Except GoError Unit)
  | .waitForHost host => some (waitForHost host (answers.hostRounds host))
  | .initReplicaSet rsName members isConfigSvr =>
    (initReplicaSet rsName members isConfigSvr (answers.initConnect rsName)
      (answers.replSetInitiate rsName)).map Prod.snd
  | .waitForPrimary host =>
    some (waitForPrimary host (answers.primaryConnect host) (answers.primaryRounds host))
  | .createAdminUser host user password =>
    some (createAdminUser host user password (answers.adminConnect host) (answers.createUser host)).2
  | .connectMongos host => some (connectMongos host answers.mongosConnect answers.mongosPing)
  | .addShard rsName members => some (addShard rsName members (answers.addShard rsName)).2
  | .enableSharding _ => some (enableSharding answers.enableSharding)
  | .createAppUser db user pwd => some (Security.createAppUser db user pwd answers.appUser).2
  | .createReadOnlyUser db user pwd =>
    some (Security.createReadOnlyUser db user pwd answers.readOnlyUser).2
  | .verifyCluster expectedShards =>
    some (verifyCluster expectedShards answers.listShards answers.ping)

@[simp]
theorem callResult_eq_none_iff (answers : SetupAnswers) (call : SetupCall) :
    callResult answers call = none ↔ ∃ rsName isConfigSvr, call = .initReplicaSet rsName [] isConfigSvr := by
  cases call <;> simp [callResult, initReplicaSet_eq_none_iff]

/-! ## Running under `must` -/

/-- How `main` ends on a failed call: `must(err, msg)`, or
`log.Fatalf(format, err)`. -/
inductive OnFailure where
  | must (msg : String)
  | fatalf (format : String)
  deriving DecidableEq, Repr

/-- The fatal log `main` exits with when a call fails with `err`. -/
def OnFailure.exitError : OnFailure → GoError → GoError
  | .must msg, err => .named "[FATAL] %s: %v" msg err
  | .fatalf format, err => .wrapped format err

/-- How the setup program ends: `os.Exit(0)`, a fatal log, or a panic. -/
inductive SetupExit where
  | completed
  | fatal (err : GoError)
  | panicked
  deriving DecidableEq, Repr

/-- A statement of `main`: a call and how its failure ends the program, or
`none` for an index that panics. -/
abbrev Step := Option (SetupCall × OnFailure)

def must (call : SetupCall) (msg : String) : SetupCall × OnFailure :=
  (call, .must msg)

/-- `main`'s statements run in order until the first failure: how the
program ends, and each call made with its result. -/
def runChecked (answers : SetupAnswers) : List Step → SetupExit × List (SetupCall × Except GoError Unit)
  | [] => (.completed, [])
  | none :: _ => (.panicked, [])
  | some (call, onFailure) :: steps =>
    match callResult answers call with
    | none => (.panicked, [])
    | some (.error err) => (.fatal (onFailure.exitError err), [(call, .error err)])
    | some (.ok ()) => (runChecked answers steps).map id ((call, .ok ()) :: ·)

/-! ## The program -/

/-- `Members[0].Addr()`, `none` where it panics. -/
def firstAddr (members : List Member) : Option String :=
  members.head?.map Member.addr

def waitForAllNodes (cfg : ClusterConfig) : List Step :=
  cfg.configRS.members.map (fun m => some (must (.waitForHost m.addr) m.addr)) ++
    cfg.shards.flatMap fun shard => shard.members.map fun m => some (must (.waitForHost m.addr) m.addr)

/-- The two calls of `initAllReplicaSets` for one replica set:
`InitReplicaSet`, then `WaitForPrimary` on its first member. -/
def initSet (rs : ReplicaSet) (isConfigSvr : Bool) : List Step :=
  [some (must (.initReplicaSet rs.name rs.members isConfigSvr) ("init " ++ rs.name)),
    (firstAddr rs.members).map fun host => must (.waitForPrimary host) ("primary " ++ rs.name)]

def initAllReplicaSets (cfg : ClusterConfig) : List Step :=
  initSet cfg.configRS true ++ cfg.shards.flatMap fun shard => initSet shard false

def createAdminUsers (cfg : ClusterConfig) : List Step :=
  (firstAddr cfg.configRS.members).map
      (fun host => must (.createAdminUser host cfg.adminUser cfg.adminPassword) "admin on config") ::
    cfg.shards.map fun shard => (firstAddr shard.members).map fun host =>
      must (.createAdminUser host cfg.adminUser cfg.adminPassword) ("admin on " ++ shard.name)

def connectToMongos (cfg : ClusterConfig) : List Step :=
  cfg.mongosHosts.map (fun host => some (must (.waitForHost host) ("mongos " ++ host))) ++
    [cfg.mongosHosts.head?.map fun host => (.connectMongos host, .fatalf "connect to mongos: %v")]

def registerShards (cfg : ClusterConfig) : List Step :=
  cfg.shards.map fun shard => some (must (.addShard shard.name shard.members) ("addShard " ++ shard.name))

def enableDatabaseSharding (cfg : ClusterConfig) : List Step :=
  [some (must (.enableSharding cfg.appDatabase) "enableSharding")]

def createRBACUsers (cfg : ClusterConfig) : List Step :=
  [some (must (.createAppUser cfg.appDatabase cfg.appUser cfg.appPassword) "create app user"),
    some (must (.createReadOnlyUser cfg.appDatabase cfg.readOnlyUser cfg.readOnlyPassword)
      "create read-only user")]

/-- `verifyCluster`: `VerifyCluster` under `must`; the status it then prints
only logs. -/
def verifyCluster (cfg : ClusterConfig) : List Step :=
  [some (must (.verifyCluster cfg.shards.length) "cluster verification")]

/-- `verifyRBAC`, whose checks only log: `MongosHosts[0]` panics when there
is no `mongos`. -/
def verifyRBAC (cfg : ClusterConfig) : List Step :=
  if cfg.mongosHosts = [] then [none] else []

/-- `printConnectionInfo`: `MongosHosts[1]` panics when there are fewer than
two `mongos`. -/
def printConnectionInfo (cfg : ClusterConfig) : List Step :=
  if cfg.mongosHosts.length < 2 then [none] else []

def beforeRegister (cfg : ClusterConfig) : List Step :=
  waitForAllNodes cfg ++ initAllReplicaSets cfg ++ createAdminUsers cfg ++ connectToMongos cfg

/-- The statements of `main` after `config.Load`; `verifyMongosFailover`
only logs. -/
def mainSteps (cfg : ClusterConfig) : List Step :=
  beforeRegister cfg ++ registerShards cfg ++ enableDatabaseSharding cfg ++ createRBACUsers cfg ++
    verifyCluster cfg ++ verifyRBAC cfg ++ printConnectionInfo cfg

/-- `main`, given the environment and what the nodes answer. -/
def main (getenv : String → String) (answers : SetupAnswers) :
    SetupExit × List (SetupCall × Except GoError Unit) :=
  runChecked answers (mainSteps (load getenv))

/-! ## What a run does -/

section Run

variable (answers : SetupAnswers)

theorem runChecked_append (xs ys : List Step) :
    runChecked answers (xs ++ ys) =
      if (runChecked answers xs).1 = .completed then
        ((runChecked answers ys).1, (runChecked answers xs).2 ++ (runChecked answers ys).2)
      else runChecked answers xs := by
  induction xs using runChecked.induct answers with
  | case1 => simp [runChecked]
  | case2 => simp [runChecked]
  | case3 call onFailure steps unanswered => simp [runChecked, unanswered]
  | case4 call onFailure steps err failed => simp [runChecked, failed]
  | case5 call onFailure steps succeeded inductionHypothesis =>
      rw [List.cons_append, runChecked, runChecked, succeeded]
      simp only [inductionHypothesis, Prod.map_fst, id]
      split_ifs <;> rfl

theorem runChecked_completed_iff (steps : List Step) :
    (runChecked answers steps).1 = .completed ↔
      ∀ step ∈ steps, ∃ call onFailure, step = some (call, onFailure) ∧
        callResult answers call = some (.ok ()) := by
  induction steps using runChecked.induct answers with
  | case1 => simp [runChecked]
  | case2 => simp [runChecked]
  | case3 call onFailure steps unanswered => simp [runChecked, unanswered]
  | case4 call onFailure steps err failed => simp [runChecked, failed]
  | case5 call onFailure steps succeeded inductionHypothesis =>
      simp [runChecked, succeeded, inductionHypothesis]

theorem runChecked_made_of_completed (steps : List Step)
    (completed : (runChecked answers steps).1 = .completed) :
    ∀ call onFailure, some (call, onFailure) ∈ steps → (call, .ok ()) ∈ (runChecked answers steps).2 := by
  induction steps using runChecked.induct answers with
  | case1 => simp
  | case2 => simp [runChecked] at completed
  | case3 call onFailure steps unanswered => simp [runChecked, unanswered] at completed
  | case4 call onFailure steps err failed => simp [runChecked, failed] at completed
  | case5 call onFailure steps succeeded inductionHypothesis =>
      simp only [runChecked, succeeded, Prod.map_fst, Prod.map_snd, id] at completed ⊢
      rintro call' onFailure' (⟨⟩ | ⟨_, listed⟩)
      · exact .head _
      · exact .tail _ (inductionHypothesis completed call' onFailure' listed)

theorem runChecked_made (steps : List Step) :
    ∀ entry ∈ (runChecked answers steps).2,
      (∃ onFailure, some (entry.1, onFailure) ∈ steps) ∧ callResult answers entry.1 = some entry.2 := by
  induction steps using runChecked.induct answers with
  | case1 => simp [runChecked]
  | case2 => simp [runChecked]
  | case3 call onFailure steps unanswered => simp [runChecked, unanswered]
  | case4 call onFailure steps err failed => simp [runChecked, failed]
  | case5 call onFailure steps succeeded inductionHypothesis =>
      simp only [runChecked, succeeded, Prod.map_snd]
      rintro entry (⟨⟩ | ⟨_, made⟩)
      · exact ⟨⟨onFailure, .head _⟩, succeeded⟩
      · obtain ⟨⟨other, listed⟩, returned⟩ := inductionHypothesis entry made
        exact ⟨⟨other, .tail _ listed⟩, returned⟩

theorem runChecked_made_ok (steps : List Step) :
    ∀ pre entry post, (runChecked answers steps).2 = pre ++ entry :: post →
      ∀ earlier ∈ pre, earlier.2 = .ok () := by
  induction steps using runChecked.induct answers with
  | case1 => simp [runChecked]
  | case2 => simp [runChecked]
  | case3 call onFailure steps unanswered => simp [runChecked, unanswered]
  | case4 call onFailure steps err failed =>
      rintro (_ | ⟨first, pre⟩) entry post made
      · simp
      · simp [runChecked, failed] at made
  | case5 call onFailure steps succeeded inductionHypothesis =>
      rintro (_ | ⟨first, pre⟩) entry post made
      · simp
      · simp only [runChecked, succeeded, Prod.map_snd, List.cons_append, List.cons.injEq] at made
        rintro earlier (⟨⟩ | ⟨_, listed⟩)
        · rw [← made.1]
        · exact inductionHypothesis pre entry post made.2 earlier listed

theorem runChecked_ne_panicked (steps : List Step)
    (calls : ∀ step ∈ steps, ∃ call onFailure, step = some (call, onFailure) ∧
      callResult answers call ≠ none) :
    (runChecked answers steps).1 ≠ .panicked := by
  induction steps using runChecked.induct answers with
  | case1 => simp [runChecked]
  | case2 => simp at calls
  | case3 call onFailure steps unanswered =>
      obtain ⟨_, _, same, answered⟩ := calls _ (.head _)
      cases same
      exact absurd unanswered answered
  | case4 call onFailure steps err failed => simp [runChecked, failed]
  | case5 call onFailure steps succeeded inductionHypothesis =>
      simp only [runChecked, succeeded, Prod.map_fst, id]
      exact inductionHypothesis fun step listed => calls step (.tail _ listed)

theorem runChecked_fatal (steps : List Step) {err : GoError}
    (fatal : (runChecked answers steps).1 = .fatal err) :
    ∃ pre call onFailure cause, some (call, onFailure) ∈ steps ∧
      (runChecked answers steps).2 = pre ++ [(call, .error cause)] ∧
      err = onFailure.exitError cause := by
  induction steps using runChecked.induct answers with
  | case1 => simp [runChecked] at fatal
  | case2 => simp [runChecked] at fatal
  | case3 call onFailure steps unanswered => simp [runChecked, unanswered] at fatal
  | case4 call onFailure steps cause failed =>
      simp only [runChecked, failed, SetupExit.fatal.injEq] at fatal
      exact ⟨[], call, onFailure, cause, .head _, by simp [runChecked, failed], fatal.symm⟩
  | case5 call onFailure steps succeeded inductionHypothesis =>
      simp only [runChecked, succeeded, Prod.map_fst, Prod.map_snd, id] at fatal ⊢
      obtain ⟨pre, call', onFailure', cause, listed, made, rfl⟩ := inductionHypothesis fatal
      exact ⟨(call, .ok ()) :: pre, call', onFailure', cause, .tail _ listed, by rw [made]; rfl, rfl⟩

end Run

/-! ## What `main` does -/

/-- Every statement is a call, and no call panics, whatever the answers. -/
def NeverPanics (steps : List Step) : Prop :=
  ∀ step ∈ steps, ∃ call onFailure, step = some (call, onFailure) ∧ ∀ answers, callResult answers call ≠ none

theorem NeverPanics.append {xs ys : List Step} (left : NeverPanics xs) (right : NeverPanics ys) :
    NeverPanics (xs ++ ys) := by
  intro step listed
  rcases List.mem_append.mp listed with listed | listed
  · exact left step listed
  · exact right step listed

theorem NeverPanics.flatMap {α : Type} {xs : List α} {f : α → List Step}
    (each : ∀ x ∈ xs, NeverPanics (f x)) : NeverPanics (xs.flatMap f) := by
  intro step listed
  obtain ⟨x, member, listed⟩ := List.mem_flatMap.mp listed
  exact each x member step listed

theorem NeverPanics.map_some {α : Type} {xs : List α} {f : α → SetupCall × OnFailure}
    (each : ∀ x ∈ xs, ∀ answers, callResult answers (f x).1 ≠ none) :
    NeverPanics (xs.map fun x => some (f x)) := by
  intro step listed
  obtain ⟨x, member, rfl⟩ := List.mem_map.mp listed
  exact ⟨(f x).1, (f x).2, rfl, each x member⟩

theorem firstAddr_cons (first : Member) (rest : List Member) :
    firstAddr (first :: rest) = some first.addr :=
  rfl

theorem initSet_neverPanics (rs : ReplicaSet) (isConfigSvr : Bool) (nonEmpty : rs.members ≠ []) :
    NeverPanics (initSet rs isConfigSvr) := by
  obtain ⟨first, rest, split⟩ := List.exists_cons_of_ne_nil nonEmpty
  simp [NeverPanics, initSet, split, firstAddr_cons, must]

theorem mainSteps_neverPanics (cfg : ClusterConfig)
    (nonEmpty : ∀ rs ∈ cfg.replicaSets, rs.members ≠ []) (routers : 2 ≤ cfg.mongosHosts.length) :
    NeverPanics (mainSteps cfg) := by
  obtain ⟨router, others, hosts⟩ := List.exists_cons_of_ne_nil
    (List.ne_nil_of_length_pos (by omega : 0 < cfg.mongosHosts.length))
  have firstSome : ∀ rs ∈ cfg.replicaSets, ∃ first, firstAddr rs.members = some first := by
    intro rs listed
    obtain ⟨first, rest, split⟩ := List.exists_cons_of_ne_nil (nonEmpty rs listed)
    exact ⟨first.addr, by rw [split, firstAddr_cons]⟩
  have nodes : NeverPanics (waitForAllNodes cfg) :=
    (NeverPanics.map_some (by simp [must])).append
      (NeverPanics.flatMap fun _ _ => NeverPanics.map_some (by simp [must]))
  have inits : NeverPanics (initAllReplicaSets cfg) :=
    (initSet_neverPanics _ _ (nonEmpty _ (.head _))).append
      (NeverPanics.flatMap fun shard listed => initSet_neverPanics _ _ (nonEmpty _ (.tail _ listed)))
  have admins : NeverPanics (createAdminUsers cfg) := by
    intro step listed
    rcases List.mem_cons.mp listed with rfl | listed
    · obtain ⟨first, found⟩ := firstSome _ (.head _)
      simp [found, must]
    · obtain ⟨shard, member, rfl⟩ := List.mem_map.mp listed
      obtain ⟨first, found⟩ := firstSome _ (.tail _ member)
      simp [found, must]
  have routed : NeverPanics (connectToMongos cfg) :=
    (NeverPanics.map_some (by simp [must])).append (by simp [NeverPanics, hosts])
  have printed : NeverPanics (printConnectionInfo cfg) := by
    simp [NeverPanics, printConnectionInfo, show ¬ cfg.mongosHosts.length < 2 by omega]
  exact ((((((((nodes.append inits).append admins).append routed).append
    (by simp [NeverPanics, registerShards, must])).append
    (by simp [NeverPanics, enableDatabaseSharding, must])).append
    (by simp [NeverPanics, createRBACUsers, must])).append
    (by simp [NeverPanics, verifyCluster, must])).append
    (by simp [NeverPanics, verifyRBAC, hosts])).append printed

/-- What `main` has made of a replica set's calls: every member answered
`WaitForHost`, and `InitReplicaSet`, then `WaitForPrimary` and
`CreateAdminUser` on its first member, succeeded. -/
def SetReady (made : List (SetupCall × Except GoError Unit)) (cfg : ClusterConfig) (rs : ReplicaSet)
    (isConfigSvr : Bool) : Prop :=
  ∃ first rest, rs.members = first :: rest ∧
    (∀ m ∈ rs.members, (SetupCall.waitForHost m.addr, .ok ()) ∈ made) ∧
    (SetupCall.initReplicaSet rs.name rs.members isConfigSvr, .ok ()) ∈ made ∧
    (SetupCall.waitForPrimary first.addr, .ok ()) ∈ made ∧
    (SetupCall.createAdminUser first.addr cfg.adminUser cfg.adminPassword, .ok ()) ∈ made

/-- What `main` has made before it registers the shards: the config
servers' replica set and every shard's are ready, every `mongos` answered
`WaitForHost`, and the first is connected. -/
structure ReadyToRegister (cfg : ClusterConfig) (made : List (SetupCall × Except GoError Unit)) :
    Prop where
  configServers : SetReady made cfg cfg.configRS true
  shards : ∀ shard ∈ cfg.shards, SetReady made cfg shard false
  routers : ∀ host ∈ cfg.mongosHosts, (SetupCall.waitForHost host, .ok ()) ∈ made
  connected : ∃ host rest, cfg.mongosHosts = host :: rest ∧ (SetupCall.connectMongos host, .ok ()) ∈ made

section Ready

variable {cfg : ClusterConfig} {made : List (SetupCall × Except GoError Unit)}

theorem some_eq_map_iff {α β : Type} {f : α → β} {x : Option α} {b : β} :
    some b = x.map f ↔ ∃ a, x = some a ∧ f a = b := by
  cases x <;> simp [eq_comm]

theorem addShard_not_mem_beforeRegister (name : String) (members : List Member) (onFailure : OnFailure) :
    some (SetupCall.addShard name members, onFailure) ∉ beforeRegister cfg := by
  simp [beforeRegister, waitForAllNodes, initAllReplicaSets, initSet, createAdminUsers, connectToMongos,
    must, some_eq_map_iff]

theorem setReady_of_completed
    (allCalls : ∀ step ∈ beforeRegister cfg, ∃ call onFailure, step = some (call, onFailure))
    (allMade : ∀ call onFailure, some (call, onFailure) ∈ beforeRegister cfg → (call, .ok ()) ∈ made)
    (rs : ReplicaSet) (isConfigSvr : Bool) {initMsg primaryMsg adminMsg : String}
    (nodes : ∀ m ∈ rs.members, some (must (.waitForHost m.addr) m.addr) ∈ beforeRegister cfg)
    (init : some (must (.initReplicaSet rs.name rs.members isConfigSvr) initMsg) ∈ beforeRegister cfg)
    (primary : (firstAddr rs.members).map (fun host => must (.waitForPrimary host) primaryMsg) ∈
      beforeRegister cfg)
    (admin : (firstAddr rs.members).map
      (fun host => must (.createAdminUser host cfg.adminUser cfg.adminPassword) adminMsg) ∈
        beforeRegister cfg) :
    SetReady made cfg rs isConfigSvr := by
  obtain ⟨call, onFailure, present⟩ := allCalls _ primary
  obtain ⟨first, rest, members⟩ : ∃ first rest, rs.members = first :: rest := by
    cases split : rs.members with
    | nil => simp [split, firstAddr] at present
    | cons first rest => exact ⟨first, rest, rfl⟩
  rw [members, firstAddr_cons, Option.map_some'] at primary admin
  exact ⟨first, rest, members, fun m listed => allMade _ _ (nodes m listed), allMade _ _ init,
    allMade _ _ primary, allMade _ _ admin⟩

theorem readyToRegister_of_completed
    (allCalls : ∀ step ∈ beforeRegister cfg, ∃ call onFailure, step = some (call, onFailure))
    (allMade : ∀ call onFailure, some (call, onFailure) ∈ beforeRegister cfg → (call, .ok ()) ∈ made) :
    ReadyToRegister cfg made := by
  have ofNodes : ∀ {step}, step ∈ waitForAllNodes cfg → step ∈ beforeRegister cfg := fun listed =>
    List.mem_append_left _ (List.mem_append_left _ (List.mem_append_left _ listed))
  have ofInits : ∀ {step}, step ∈ initAllReplicaSets cfg → step ∈ beforeRegister cfg := fun listed =>
    List.mem_append_left _ (List.mem_append_left _ (List.mem_append_right _ listed))
  have ofAdmins : ∀ {step}, step ∈ createAdminUsers cfg → step ∈ beforeRegister cfg := fun listed =>
    List.mem_append_left _ (List.mem_append_right _ listed)
  have ofRouters : ∀ {step}, step ∈ connectToMongos cfg → step ∈ beforeRegister cfg := fun listed =>
    List.mem_append_right _ listed
  refine ⟨?_, fun shard listed => ?_, fun host listed => ?_, ?_⟩
  · exact setReady_of_completed allCalls allMade _ true
      (fun m listed => ofNodes (List.mem_append_left _ (List.mem_map_of_mem _ listed)))
      (ofInits (List.mem_append_left _ (.head _)))
      (ofInits (List.mem_append_left _ (.tail _ (.head _)))) (ofAdmins (.head _))
  · exact setReady_of_completed allCalls allMade _ false
      (fun m member => ofNodes (List.mem_append_right _
        (List.mem_flatMap.mpr ⟨shard, listed, List.mem_map_of_mem _ member⟩)))
      (ofInits (List.mem_append_right _ (List.mem_flatMap.mpr ⟨shard, listed, .head _⟩)))
      (ofInits (List.mem_append_right _ (List.mem_flatMap.mpr ⟨shard, listed, .tail _ (.head _)⟩)))
      (ofAdmins (.tail _ (List.mem_map.mpr ⟨shard, listed, rfl⟩)))
  · exact allMade _ _ (ofRouters (List.mem_append_left _ (List.mem_map_of_mem _ listed)))
  · have connect := ofRouters (List.mem_append_right _ (.head _) :
      cfg.mongosHosts.head?.map (fun host => (SetupCall.connectMongos host,
        OnFailure.fatalf "connect to mongos: %v")) ∈ connectToMongos cfg)
    obtain ⟨call, onFailure, present⟩ := allCalls _ connect
    cases hosts : cfg.mongosHosts with
    | nil => simp [hosts] at present
    | cons host rest =>
        rw [hosts, List.head?_cons, Option.map_some'] at connect
        exact ⟨host, rest, rfl, allMade _ _ connect⟩

end Ready

theorem readyToRegister_of_sent (cfg : ClusterConfig) (answers : SetupAnswers) {name : String}
    {members : List Member} {result : Except GoError Unit}
    (sent : (SetupCall.addShard name members, result) ∈ (runChecked answers (mainSteps cfg)).2) :
    ReadyToRegister cfg (runChecked answers (mainSteps cfg)).2 := by
  obtain ⟨after, split⟩ : ∃ after, mainSteps cfg = beforeRegister cfg ++ after :=
    ⟨_, by simp only [mainSteps, List.append_assoc]; rfl⟩
  have completed : (runChecked answers (beforeRegister cfg)).1 = .completed := by
    by_contra incomplete
    rw [split, runChecked_append, if_neg incomplete] at sent
    obtain ⟨⟨onFailure, listed⟩, -⟩ := runChecked_made answers _ _ sent
    exact addShard_not_mem_beforeRegister name members onFailure listed
  rw [split, runChecked_append, if_pos completed]
  refine readyToRegister_of_completed (fun step listed => ?_) fun call onFailure listed =>
    List.mem_append_left _ (runChecked_made_of_completed answers _ completed call onFailure listed)
  obtain ⟨call, onFailure, rfl, -⟩ := (runChecked_completed_iff answers _).mp completed step listed
  exact ⟨call, onFailure, rfl⟩

theorem registered_of_completed (cfg : ClusterConfig) (answers : SetupAnswers)
    (completed : (runChecked answers (mainSteps cfg)).1 = .completed) :
    (∀ shard ∈ cfg.shards,
      (SetupCall.addShard shard.name shard.members, .ok ()) ∈ (runChecked answers (mainSteps cfg)).2) ∧
    (SetupCall.verifyCluster cfg.shards.length, .ok ()) ∈ (runChecked answers (mainSteps cfg)).2 := by
  refine ⟨fun shard listed => runChecked_made_of_completed answers _ completed _
    (.must ("addShard " ++ shard.name)) ?_, runChecked_made_of_completed answers _ completed _
    (.must "cluster verification") ?_⟩
  · exact List.mem_append_left _ (List.mem_append_left _ (List.mem_append_left _ (List.mem_append_left _
      (List.mem_append_left _ (List.mem_append_right _ (List.mem_map_of_mem _ listed))))))
  · exact List.mem_append_left _ (List.mem_append_left _ (List.mem_append_right _ (.head _)))

/-- The setup program, on the configuration `Load` gives and whatever the
nodes answer: it never panics; each call it makes returns what that call's
model returns; a fatal exit comes from the last call it made, after every
earlier call succeeded, and logs that call's error under the call's own
message; it sends `addShard` only once every node has answered, every
replica set is initiated with a primary and its admin user, and `mongos` is
connected; and when it completes, every shard is registered and the cluster
verified for three shards. -/
theorem main_run_safe (getenv : String → String) (answers : SetupAnswers) :
    (main getenv answers).1 ≠ .panicked ∧
    (∀ entry ∈ (main getenv answers).2, callResult answers entry.1 = some entry.2) ∧
    (∀ err, (main getenv answers).1 = .fatal err →
      ∃ pre call onFailure cause, some (call, onFailure) ∈ mainSteps (load getenv) ∧
        (main getenv answers).2 = pre ++ [(call, .error cause)] ∧
        (∀ earlier ∈ pre, earlier.2 = .ok ()) ∧ err = onFailure.exitError cause) ∧
    (∀ name members result, (SetupCall.addShard name members, result) ∈ (main getenv answers).2 →
      ReadyToRegister (load getenv) (main getenv answers).2) ∧
    ((main getenv answers).1 = .completed →
      (∀ shard ∈ (load getenv).shards,
        (SetupCall.addShard shard.name shard.members, .ok ()) ∈ (main getenv answers).2) ∧
      (SetupCall.verifyCluster 3, .ok ()) ∈ (main getenv answers).2) := by
  have neverPanics := mainSteps_neverPanics (load getenv)
    (by simp only [load, ClusterConfig.replicaSets]; decide) (by simp [load])
  refine ⟨runChecked_ne_panicked answers _ fun step listed => ?_,
    fun entry made => (runChecked_made answers _ entry made).2, fun err fatal => ?_,
    fun _ _ _ sent => readyToRegister_of_sent _ answers sent,
    fun completed => registered_of_completed _ answers completed⟩
  · obtain ⟨call, onFailure, rfl, never⟩ := neverPanics step listed
    exact ⟨call, onFailure, rfl, never answers⟩
  · obtain ⟨pre, call, onFailure, cause, listed, made, rfl⟩ := runChecked_fatal answers _ fatal
    exact ⟨pre, call, onFailure, cause, listed, made, runChecked_made_ok answers _ pre _ [] made, rfl⟩

end MongoShardingPoc.Setup
