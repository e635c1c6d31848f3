import MongoShardingPoc.GoValues
import MongoShardingPoc.Bson
import MongoShardingPoc.Config

/-!
# Setting the cluster up

The setup steps run one command each, and are written to be run again on a
cluster that is already set up: `InitReplicaSet`, `CreateAdminUser`,
`AddShard` and the security package's `createUser` take an error as success
when its text mentions that what they create exists already, and return any
other error wrapped.  That handling is one definition, `tolerateExisting`,
applied to each step's own markers and format.

`InitReplicaSet` sends the members in order with their index as `_id`, and
`AddShard` names a shard by a connection string `rsName/host:port,...` whose
host list reads back, split at commas, as the member addresses.  For the
configuration `Load` gives, that holds of every shard, and no setup step
indexes an empty member list.

The commands are not modelled: each step is given the text of the error
they answer, if any.
-/

namespace MongoShardingPoc.Cluster

open MongoShardingPoc.Go MongoShardingPoc.Bson MongoShardingPoc.Config

def containsAny (s : String) (subs : List String) : Bool :=
  subs.any (contains s)

/-- The error handling the setup steps share: success when the command
succeeds or its error's text mentions one of `markers`, and otherwise the
error wrapped by `wrap`. -/
def tolerateExisting (markers : List String) (wrap : GoError → GoError) :
    Option String → Except GoError Unit
  | none => .ok ()
  | some text => if containsAny text markers then .ok () else .error (wrap (.external text))

/-- The `createUser` command of `CreateAdminUser` and of the security
package's `createUser`. -/
def createUserCommand (user pwd role db : String) : Document :=
  [("createUser", .string user), ("pwd", .string pwd),
    ("roles", .array [.document [("role", .string role), ("db", .string db)]])]

/-! ## The steps -/

/-- The `replSetInitiate` configuration `InitReplicaSet` sends: a member
document per member, with its index as `_id`, and `configsvr` for the config
servers' replica set. -/
def replSetConfig (rsName : String) (members : List Member) (isConfigSvr : Bool) : Document :=
  let memberDocs := members.enum.map fun (i, m) =>
    Value.document [("_id", .int (BitVec.ofNat 64 i)), ("host", .string m.addr)]
  let rsConfig := [("_id", .string rsName), ("members", .array memberDocs)]
  if isConfigSvr then rsConfig ++ [("configsvr", .bool true)] else rsConfig

/-- `InitReplicaSet`, given the errors, if any, of connecting to the first
member and of `replSetInitiate`: `none` where `members[0]` panics, and
otherwise the configuration sent, if it gets that far, and the result. -/
def initReplicaSet (rsName : String) (members : List Member) (isConfigSvr : Bool)
    (connect answer : Option String) : Option (Option Document × Except GoError Unit) :=
  match members with
  | [] => none
  | first :: _ =>
    match connect with
    | some text => some (none, .error (.named "connect to %s: %w" first.addr (.external text)))
    | none =>
      some (some (replSetConfig rsName members isConfigSvr),
        tolerateExisting ["already initialized", "AlreadyInitialized"]
          (.named "replSetInitiate %s: %w" rsName) answer)

/-- `CreateAdminUser`, given the errors, if any, of connecting to `host` and
of `createUser`: the command sent, if it gets that far, and the result. -/
def createAdminUser (host user password : String) (connect answer : Option String) :
    Option Document × Except GoError Unit :=
  match connect with
  | some text => (none, .error (.named "connect to %s: %w" host (.external text)))
  | none =>
    (some (createUserCommand user password "root" "admin"),
      tolerateExisting ["already exists", "UserAlreadyExists", "51003"]
        (.named "createUser on %s: %w" host) answer)

/-- `strings.Join`. -/
def join (elems : List String) (sep : String) : String :=
  ⟨sep.data.intercalate (elems.map String.data)⟩

/-- The connection string `AddShard` names a shard by. -/
def shardConnString (rsName : String) (members : List Member) : String :=
  rsName ++ "/" ++ join (members.map Member.addr) ","

/-- `AddShard`, given the error `addShard` answers, if any: the command sent,
and the result. -/
def addShard (rsName : String) (members : List Member) (answer : Option String) :
    Document × Except GoError Unit :=
  ([("addShard", .string (shardConnString rsName members))],
    tolerateExisting ["already", "E11000"] (.named "addShard %s: %w" rsName) answer)

/-- The body of the loop of `hasPrimary`: whether an entry of `members` is a
`bson.M` whose `stateStr` is the string `"PRIMARY"`. -/
def isPrimaryMember : Value → Bool
  | .document member =>
    match member.lookup "stateStr" with
    | some (.string state) => state == "PRIMARY"
    | _ => false
  | _ => false

/-- `hasPrimary`, given what `replSetGetStatus` answers. -/
def hasPrimary (status : Except GoError Document) : Bool :=
  match status with
  | .error _ => false
  | .ok status => (status.arrayAt "members").any isPrimaryMember

/-! ## Waiting and connecting -/

/-- A round of `WaitForHost`'s loop: the errors, if any, of connecting and of
the ping, and what the `select` receives. -/
structure HostRound where
  connect : Option String
  ping : Option String
  cancelled : Option GoError

/-- `WaitForHost`, given the rounds that start before its deadline: a round
finds the host when it connects and the ping succeeds. -/
def waitForHost (host : String) (rounds : List HostRound) : Except GoError Unit :=
  pollRounds (fun round => if round.connect = none ∧ round.ping = none then some () else none)
    HostRound.cancelled (.formatted "timeout waiting for %s" [.text host]) rounds

/-- A round of `WaitForPrimary`'s loop: what `replSetGetStatus` answers to
`hasPrimary`, and what the `select` receives. -/
structure PrimaryRound where
  status : Except GoError Document
  cancelled : Option GoError

/-- `WaitForPrimary`, given the error of connecting to `host`, if any, and
the rounds that start before its deadline. -/
def waitForPrimary (host : String) (connect : Option String) (rounds : List PrimaryRound) :
    Except GoError Unit :=
  match connect with
  | some text => .error (.named "connect to %s: %w" host (.external text))
  | none =>
    pollRounds (fun round => if hasPrimary round.status then some () else none) PrimaryRound.cancelled
      (.formatted "timeout waiting for PRIMARY on %s" [.text host]) rounds

/-- `ConnectMongos`, given the errors, if any, of connecting to `host` and of
the ping. -/
def connectMongos (host : String) (connect ping : Option String) : Except GoError Unit :=
  match connect, ping with
  | some text, _ => .error (.named "connect to mongos %s: %w" host (.external text))
  | none, some text => .error (.named "ping mongos %s: %w" host (.external text))
  | none, none => .ok ()

/-- `EnableSharding`: an error of `enableSharding`, automatic since MongoDB
7.0, is only logged. -/
def enableSharding (_answer : Option String) : Except GoError Unit :=
  .ok ()

end MongoShardingPoc.Cluster

namespace MongoShardingPoc.Security

open MongoShardingPoc.Go MongoShardingPoc.Bson MongoShardingPoc.Cluster

def isUserExists (err : Option String) : Bool :=
  match err with
  | none => false
  | some s => contains s "already exists" || contains s "UserAlreadyExists" || contains s "51003"

/-- `createUser`, given the error the `createUser` command answers, if any:
the command sent, and the result. -/
def createUser (db user pwd role : String) (answer : Option String) :
    Document × Except GoError Unit :=
  (createUserCommand user pwd role db,
    match answer with
    | none => .ok ()
    | some text =>
      if isUserExists (some text) then .ok ()
      else .error (.named "create user '%s': %w" user (.external text)))

def createAppUser (db user pwd : String) : Option String → Document × Except GoError Unit :=
  createUser db user pwd "readWrite"

def createReadOnlyUser (db user pwd : String) : Option String → Document × Except GoError Unit :=
  createUser db user pwd "read"

theorem isUserExists_some (text : String) :
    isUserExists (some text) = containsAny text ["already exists", "UserAlreadyExists", "51003"] := by
  simp [isUserExists, containsAny, Bool.or_assoc]

theorem createUser_result (db user pwd role : String) (answer : Option String) :
    (createUser db user pwd role answer).2 =
      tolerateExisting ["already exists", "UserAlreadyExists", "51003"]
        (.named "create user '%s': %w" user) answer := by
  cases answer <;> simp [createUser, tolerateExisting, isUserExists_some]

end MongoShardingPoc.Security

namespace MongoShardingPoc.Cluster

open MongoShardingPoc.Go MongoShardingPoc.Bson MongoShardingPoc.Config

/-! ## What the steps do -/

/-- The command's error mentions one of `markers`, if there is an error. -/
def Mentions (answer : Option String) (markers : List String) : Prop :=
  ∀ text, answer = some text → ∃ marker ∈ markers, marker.data <:+: text.data

theorem containsAny_iff (s : String) (subs : List String) :
    containsAny s subs = true ↔ ∃ sub ∈ subs, sub.data <:+: s.data := by
  simp [containsAny, contains]

theorem tolerateExisting_ok_iff (markers : List String) (wrap : GoError → GoError)
    (answer : Option String) :
    tolerateExisting markers wrap answer = .ok () ↔ Mentions answer markers := by
  cases answer with
  | none =>
      simp [tolerateExisting, Mentions]
  | some text =>
      by_cases mentioned : containsAny text markers = true
      · simpa [tolerateExisting, mentioned, Mentions] using (containsAny_iff text markers).mp mentioned
      · simp only [tolerateExisting, mentioned, Bool.false_eq_true, if_false, Mentions,
          Option.some.injEq, forall_eq']
        exact ⟨nofun, fun found => absurd ((containsAny_iff text markers).mpr found) mentioned⟩

theorem tolerateExisting_error (markers : List String) (wrap : GoError → GoError) (text : String)
    (unmarked : ¬ Mentions (some text) markers) :
    tolerateExisting markers wrap (some text) = .error (wrap (.external text)) := by
  have missing : containsAny text markers = false := by
    by_contra found
    exact unmarked fun _ same => Option.some.inj same ▸
      (containsAny_iff text markers).mp (Bool.not_eq_false _ ▸ found)
  simp [tolerateExisting, missing]

/-- What a step tolerating existing objects is for: it succeeds exactly when
the command succeeds or its error mentions one of `markers`, and otherwise
returns that error wrapped by `wrap`. -/
def Tolerates (result : Except GoError Unit) (answer : Option String) (markers : List String)
    (wrap : GoError → GoError) : Prop :=
  (result = .ok () ↔ Mentions answer markers) ∧
    ∀ text, answer = some text → ¬ Mentions answer markers → result = .error (wrap (.external text))

theorem tolerateExisting_tolerates (markers : List String) (wrap : GoError → GoError)
    (answer : Option String) :
    Tolerates (tolerateExisting markers wrap answer) answer markers wrap :=
  ⟨tolerateExisting_ok_iff markers wrap answer, fun text answered unmarked =>
    answered ▸ tolerateExisting_error markers wrap text (answered ▸ unmarked)⟩

/-- Every setup step is safe to run again: it succeeds exactly when its
command succeeds or the command's error mentions one of the step's markers,
and otherwise returns that error wrapped with the step's format.
`createUser`, which tests its error through `isUserExists`, tolerates the
same errors as `CreateAdminUser`. -/
theorem setup_steps_tolerate_existing (rsName host user password db pwd role : String)
    (members : List Member) (isConfigSvr : Bool) (answer : Option String) :
    (∀ result, initReplicaSet rsName members isConfigSvr none answer = some result →
      Tolerates result.2 answer ["already initialized", "AlreadyInitialized"]
        (.named "replSetInitiate %s: %w" rsName)) ∧
    Tolerates (createAdminUser host user password none answer).2 answer
      ["already exists", "UserAlreadyExists", "51003"] (.named "createUser on %s: %w" host) ∧
    Tolerates (addShard rsName members answer).2 answer ["already", "E11000"]
      (.named "addShard %s: %w" rsName) ∧
    Tolerates (Security.createUser db user pwd role answer).2 answer
      ["already exists", "UserAlreadyExists", "51003"] (.named "create user '%s': %w" user) := by
  refine ⟨fun result initiated => ?_, tolerateExisting_tolerates _ _ _,
    tolerateExisting_tolerates _ _ _, ?_⟩
  · cases members with
    | nil => exact absurd initiated nofun
    | cons first rest =>
        obtain rfl := Option.some.inj initiated
        exact tolerateExisting_tolerates _ _ _
  · rw [Security.createUser_result]
    exact tolerateExisting_tolerates _ _ _

theorem initReplicaSet_eq_none_iff (rsName : String) (members : List Member) (isConfigSvr : Bool)
    (connect answer : Option String) :
    initReplicaSet rsName members isConfigSvr connect answer = none ↔ members = [] := by
  cases members with
  | nil =>
      simp [initReplicaSet]
  | cons first rest =>
      cases connect <;> simp [initReplicaSet]

/-- `InitReplicaSet` panics exactly on an empty member list; the configuration
it sends names the replica set, lists every member in order with its index
as `_id` and its address as `host`, and marks a config servers' replica
set. -/
theorem initReplicaSet_config (rsName : String) (members : List Member) (isConfigSvr : Bool)
    (connect answer : Option String) :
    (initReplicaSet rsName members isConfigSvr connect answer = none ↔ members = []) ∧
    (∀ first rest, members = first :: rest → connect = none →
      (initReplicaSet rsName members isConfigSvr connect answer).map Prod.fst =
        some (some (replSetConfig rsName members isConfigSvr))) ∧
    (replSetConfig rsName members isConfigSvr).lookup "_id" = some (.string rsName) ∧
    ((replSetConfig rsName members isConfigSvr).arrayAt "members").length = members.length ∧
    (∀ k (h : k < members.length),
      ((replSetConfig rsName members isConfigSvr).arrayAt "members")[k]? =
        some (.document [("_id", .int (BitVec.ofNat 64 k)), ("host", .string members[k].addr)])) ∧
    ((replSetConfig rsName members isConfigSvr).lookup "configsvr" = some (.bool true) ↔
      isConfigSvr = true) := by
  have listed : (replSetConfig rsName members isConfigSvr).arrayAt "members" =
      members.enum.map fun (i, m) =>
        Value.document [("_id", .int (BitVec.ofNat 64 i)), ("host", .string m.addr)] := by
    cases isConfigSvr <;> rfl
  refine ⟨initReplicaSet_eq_none_iff rsName members isConfigSvr connect answer,
    fun first rest nonEmpty connected => by subst nonEmpty connected; rfl,
    by cases isConfigSvr <;> rfl, by simp [listed], fun k below => ?_, ?_⟩
  · simp [listed, List.getElem?_enum, List.getElem?_eq_getElem below]
  · cases isConfigSvr
    · exact iff_of_false (fun found => Option.noConfusion (show none = some _ from found))
        Bool.false_ne_true
    · exact iff_of_true rfl rfl

theorem shardConnString_hosts (rsName : String) (members : List Member)
    (nonEmpty : members ≠ []) (noComma : ∀ m ∈ members, ',' ∉ m.addr.data) :
    ∃ hosts, (shardConnString rsName members).data = rsName.data ++ '/' :: hosts ∧
      hosts.splitOn ',' = members.map fun m => m.addr.data := by
  refine ⟨[','].intercalate (members.map fun m => m.addr.data), ?_, ?_⟩
  · simp [shardConnString, join, Function.comp_def]
  · exact List.splitOn_intercalate _ _ (by simpa using noComma) (by simpa using nonEmpty)

/-- `AddShard` and `InitReplicaSet` on the configuration `Load` gives: no
replica set is empty, so `members[0]` never panics, and every shard is named
by its name, which holds no `/`, then `/`, then a host list that splits at
commas into exactly the shard's member addresses. -/
example (getenv : String → String) :
    (∀ rs ∈ (load getenv).replicaSets, ∀ isConfigSvr connect answer,
      initReplicaSet rs.name rs.members isConfigSvr connect answer ≠ none) ∧
    ∀ rs ∈ (load getenv).shards, '/' ∉ rs.name.data ∧
      ∃ hosts, (shardConnString rs.name rs.members).data = rs.name.data ++ '/' :: hosts ∧
        hosts.splitOn ',' = rs.members.map fun m => m.addr.data := by
  refine ⟨fun rs listed isConfigSvr connect answer => ?_, fun rs listed => ?_⟩
  · have nonEmpty : rs.members ≠ [] := by
      simp only [load, ClusterConfig.replicaSets, List.mem_cons, List.not_mem_nil,
        or_false] at listed
      rcases listed with rfl | rfl | rfl | rfl <;> decide
    exact fun panics => nonEmpty ((initReplicaSet_eq_none_iff _ _ _ _ _).mp panics)
  · simp only [load, List.mem_cons, List.not_mem_nil, or_false] at listed
    rcases listed with rfl | rfl | rfl <;>
      exact ⟨by decide, shardConnString_hosts _ _ (by decide) (by decide)⟩

theorem isPrimaryMember_iff (entry : Value) :
    isPrimaryMember entry = true ↔
      ∃ member, entry = .document member ∧ member.lookup "stateStr" = some (.string "PRIMARY") := by
  cases entry with
  | document member =>
      simp only [isPrimaryMember, Value.document.injEq, exists_eq_left']
      split <;> simp_all
  | _ => simp [isPrimaryMember]

theorem hasPrimary_iff (status : Except GoError Document) :
    hasPrimary status = true ↔ ∃ fields member, status = .ok fields ∧
      Value.document member ∈ fields.arrayAt "members" ∧
        member.lookup "stateStr" = some (.string "PRIMARY") := by
  cases status with
  | error _ => simp [hasPrimary]
  | ok fields =>
      simp only [hasPrimary, List.any_eq_true, isPrimaryMember_iff, Except.ok.injEq]
      constructor
      · rintro ⟨_, listed, member, rfl, primary⟩
        exact ⟨fields, member, rfl, listed, primary⟩
      · rintro ⟨_, member, rfl, listed, primary⟩
        exact ⟨_, listed, member, rfl, primary⟩

end MongoShardingPoc.Cluster
