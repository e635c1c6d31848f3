import MongoShardingPoc.HA.Primary
import MongoShardingPoc.HA.Jumbo
import Mathlib.Data.List.Nodup

/-!
# The HA failure labs

The `main` of the HA labs runs `RunShardFailoverTest`,
`RunConfigServerOutageTest` and `RunJumboChunkAnalysis` in turn through
`runLab`, which logs a lab's error and goes on to the next one.  It warns
that the tests stop and start Docker containers, and that all containers
will be restored after each test.

`RunShardFailoverTest` finds the primary of `shard1rs` with `FindPrimary`,
inserts a hundred documents, stops the primary's container, waits with
`WaitForNewPrimary` for one of the other members to be elected, inserts a
hundred more with up to five attempts, and starts the container again.
`RunConfigServerOutageTest` pings the cluster, inserts fifty documents, stops
`cfg-2` and `cfg-3`, probes reads, a write and a metadata command, and starts
both again.

Each lab is modelled on every path through it: what the cluster and `docker`
answer are inputs, and a lab returns what it returns and the `docker`
commands it runs, in order.  No `docker` command is run twice in a run of the
labs, so giving `docker`'s answers as a function of the command loses no
run.  What only reaches the log is left
out: the probes and counts of both labs, the recovery pings of the outage
lab, and `PrintRSStatus`.

Whatever the cluster and `docker` answer, every container a lab stops is
started again later in the run, and a failed `docker stop` of the outage lab
is followed by a start too; the failover lab does not start a container it
failed to stop.
-/

namespace MongoShardingPoc.HA

open MongoShardingPoc.Go MongoShardingPoc.Bson

/-! ## `docker` -/

/-- A `docker` command of the labs: `docker stop name` or
`docker start name`. -/
inductive DockerCall where
  | stop (name : String)
  | start (name : String)
  deriving DecidableEq, Repr

/-- How a `docker` command fails: the text of the error that
`cmd.CombinedOutput()` returns, and the command's output. -/
structure ExecFailure where
  err : String
  output : String
  deriving DecidableEq, Repr

/-- What `docker` answers each command: `none` when it exits with status
`0`. -/
abbrev Docker := DockerCall → Option ExecFailure

/-- `StopContainer`.  `StartContainer` is the same with `docker start`; the
labs only log its error. -/
def stopContainer (docker : Docker) (name : String) : Option GoError :=
  (docker (.stop name)).map fun failure =>
    .formatted "%s: %s" [.text failure.err, .text (trimSpaceText failure.output)]

/-- Whether each container runs after `docker` ran `call`: a command that
succeeds stops or starts its container, and one that fails changes
nothing. -/
def DockerCall.apply (docker : Docker) (running : String → Bool) (call : DockerCall) :
    String → Bool :=
  match call with
  | .stop name => if docker call = none then Function.update running name false else running
  | .start name => if docker call = none then Function.update running name true else running

/-! ## `RunShardFailoverTest` -/

def shardMembers : List String :=
  ["shard1-1:27022", "shard1-2:27023", "shard1-3:27024"]

def containerMap : List (String × String) :=
  [("shard1-1:27022", "shard1-1"), ("shard1-2:27023", "shard1-2"), ("shard1-3:27024", "shard1-3")]

/-- `containerMap[addr]`: `""` for an address the map does not hold. -/
def containerOf (addr : String) : String :=
  (containerMap.lookup addr).getD ""

/-- `remainingMembers`: the members other than `primaryAddr`, in order. -/
def remainingMembers (primaryAddr : String) : List String :=
  shardMembers.filter (· != primaryAddr)

/-- The retry loop of the post-failover insert, from attempt `attempt` on
with `remaining` attempts left and `last` the error of the attempt before:
it leaves at the first `InsertMany` that succeeds, and ends with the error
of the last attempt. -/
def retryInsert (insertMany : Nat → Option GoError) (attempt : Nat) (last : Option GoError) :
    Nat → Option GoError
  | 0 => last
  | remaining + 1 =>
    match insertMany attempt with
    | none => none
    | some err => retryInsert insertMany (attempt + 1) (some err) remaining

/-- What the cluster answers `RunShardFailoverTest`: `replSetGetStatus` of
each member to `FindPrimary`, the pre-failover `InsertMany`, the scans of
`WaitForNewPrimary`, and the post-failover `InsertMany` of each attempt. -/
structure FailoverAnswers where
  status : String → Option Document
  preInsert : Option GoError
  rounds : List Round
  postInsert : Nat → Option GoError

/-- `RunShardFailoverTest`: what it returns, and the `docker` commands it
runs.  `WaitForNewPrimary`'s timeout of sixty seconds prints as `1m0s`. -/
def runShardFailoverTest (docker : Docker) (answers : FailoverAnswers) :
    Except GoError Unit × List DockerCall :=
  match findPrimary shardMembers answers.status with
  | .error err => (.error (.wrapped "find primary: %w" err), [])
  | .ok primaryAddr =>
    match answers.preInsert with
    | some err => (.error (.wrapped "pre-failover insert: %w" err), [])
    | none =>
      match stopContainer docker (containerOf primaryAddr) with
      | some err =>
        (.error (.named "stop %s: %w" (containerOf primaryAddr) err), [.stop (containerOf primaryAddr)])
      | none =>
        match waitForNewPrimary (remainingMembers primaryAddr) primaryAddr "1m0s" answers.rounds with
        | .error err =>
          (.error (.wrapped "election timeout: %w" err),
            [.stop (containerOf primaryAddr), .start (containerOf primaryAddr)])
        | .ok _ =>
          match retryInsert answers.postInsert 0 none 5 with
          | some err =>
            (.error (.wrapped "post-failover insert failed: %w" err),
              [.stop (containerOf primaryAddr), .start (containerOf primaryAddr)])
          | none => (.ok (), [.stop (containerOf primaryAddr), .start (containerOf primaryAddr)])

/-! ## `RunConfigServerOutageTest` -/

/-- `configServers` of `RunConfigServerOutageTest`; `cfg-1` is kept. -/
def configServers : List String :=
  ["cfg-2", "cfg-3"]

/-- The stop loop of `RunConfigServerOutageTest` over `rest`, the servers of
`servers` still to stop: when a stop fails, every one of `servers` is started
and the loop returns `fmt.Errorf("stop %s: %w", cs, err)`. -/
def stopServers (docker : Docker) (servers : List String) :
    List String → Option GoError × List DockerCall
  | [] => (none, [])
  | cs :: rest =>
    match stopContainer docker cs with
    | some err => (some (.named "stop %s: %w" cs err), .stop cs :: servers.map .start)
    | none => ((stopServers docker servers rest).1, .stop cs :: (stopServers docker servers rest).2)

/-- What the cluster answers `RunConfigServerOutageTest`: the first `Ping`
and the baseline `InsertMany`. -/
structure OutageAnswers where
  ping : Option GoError
  baselineInsert : Option GoError

/-- `RunConfigServerOutageTest`: what it returns, and the `docker` commands
it runs. -/
def runConfigServerOutageTest (docker : Docker) (answers : OutageAnswers) :
    Except GoError Unit × List DockerCall :=
  match answers.ping with
  | some err => (.error (.wrapped "cluster not healthy: %w" err), [])
  | none =>
    match answers.baselineInsert with
    | some err => (.error (.wrapped "baseline insert: %w" err), [])
    | none =>
      match stopServers docker configServers configServers with
      | (some err, calls) => (.error err, calls)
      | (none, calls) => (.ok (), calls ++ configServers.map .start)

/-! ## The labs' `main` -/

/-- `runLab`: a failing lab is logged with its name, and the next one
runs. -/
def runLab (name : String) : Except GoError Unit → List (String × GoError)
  | .error err => [(name, err)]
  | .ok () => []

/-- A run of the HA labs: the `docker` commands, in order, and each failed
lab with its error, as `runLab` logs them. -/
structure LabsRun where
  dockerCalls : List DockerCall
  failures : List (String × GoError)

/-- The HA labs' `main` once both clients are connected, on the application
database `db`.  The jumbo analysis runs no `docker` command. -/
def runHALabs (docker : Docker) (db : String) (failover : FailoverAnswers)
    (outage : OutageAnswers) (jumbo : JumboAnswers) : LabsRun where
  dockerCalls := (runShardFailoverTest docker failover).2 ++ (runConfigServerOutageTest docker outage).2
  failures := runLab "Shard Failover" (runShardFailoverTest docker failover).1 ++
    runLab "Config Server Outage" (runConfigServerOutageTest docker outage).1 ++
    runLab "Jumbo Chunk Analysis" (runJumboChunkAnalysis db jumbo).1

/-! ## Restoring containers -/

/-- Every `docker stop` of a list of commands that succeeded is followed,
later in the list, by a `docker start` of its container. -/
def Restores (docker : Docker) : List DockerCall → Prop
  | [] => True
  | .stop name :: rest => (docker (.stop name) = none → .start name ∈ rest) ∧ Restores docker rest
  | .start _ :: rest => Restores docker rest

section Restores

variable {docker : Docker}

theorem Restores.append {calls calls' : List DockerCall} (restores : Restores docker calls)
    (restores' : Restores docker calls') : Restores docker (calls ++ calls') := by
  induction calls with
  | nil => exact restores'
  | cons call calls inductionHypothesis =>
      cases call with
      | stop name =>
          exact ⟨fun stopped => List.mem_append_left _ (restores.1 stopped),
            inductionHypothesis restores.2⟩
      | start name => exact inductionHypothesis restores

theorem restores_starts (servers : List String) : Restores docker (servers.map .start) := by
  induction servers with
  | nil => trivial
  | cons server servers inductionHypothesis => exact inductionHypothesis

theorem restores_stops_starts {names servers : List String} (within : ∀ name ∈ names, name ∈ servers) :
    Restores docker (names.map .stop ++ servers.map .start) := by
  induction names with
  | nil => exact restores_starts servers
  | cons name names inductionHypothesis =>
      refine ⟨fun _ => ?_, inductionHypothesis fun other member => within other (.tail _ member)⟩
      exact List.mem_append_right _ (List.mem_map_of_mem _ (within name (.head _)))

theorem Restores.start_mem {calls pre post : List DockerCall} {name : String}
    (restores : Restores docker calls) (split : calls = pre ++ .stop name :: post)
    (stopped : docker (.stop name) = none) : .start name ∈ post := by
  induction pre generalizing calls with
  | nil =>
      subst split
      exact restores.1 stopped
  | cons call pre inductionHypothesis =>
      subst split
      cases call with
      | stop other => exact inductionHypothesis restores.2 rfl
      | start other =>
          exact inductionHypothesis (show Restores docker (pre ++ .stop name :: post) from restores) rfl

theorem Restores.running {calls : List DockerCall} (restores : Restores docker calls)
    (starts : ∀ name, docker (.start name) = none) {running : String → Bool} {name : String}
    (before : running name = true ∨ .start name ∈ calls) :
    calls.foldl (DockerCall.apply docker) running name = true := by
  induction calls generalizing running with
  | nil => simpa using before
  | cons call calls inductionHypothesis =>
      cases call with
      | stop other =>
          refine inductionHypothesis restores.2 ?_
          by_cases same : name = other
          · subst same
            by_cases stopped : docker (.stop name) = none
            · exact .inr (restores.1 stopped)
            · simpa [DockerCall.apply, stopped] using before
          · unfold DockerCall.apply
            split <;> simpa [same] using before
      | start other =>
          refine inductionHypothesis restores ?_
          by_cases same : name = other
          · subst same
            simp [DockerCall.apply, starts]
          · simpa [DockerCall.apply, starts, same] using before

end Restores

/-! ## What each lab runs -/

theorem runShardFailoverTest_calls (docker : Docker) (answers : FailoverAnswers) :
    (runShardFailoverTest docker answers).2 = [] ∨
      ∃ primaryAddr, findPrimary shardMembers answers.status = .ok primaryAddr ∧
        ((runShardFailoverTest docker answers).2 = [.stop (containerOf primaryAddr)] ∧
            docker (.stop (containerOf primaryAddr)) ≠ none ∨
          (runShardFailoverTest docker answers).2 =
            [.stop (containerOf primaryAddr), .start (containerOf primaryAddr)]) := by
  unfold runShardFailoverTest
  split
  · exact .inl rfl
  · rename_i primaryAddr found
    split
    · exact .inl rfl
    · split
      · rename_i err stopFailed
        refine .inr ⟨primaryAddr, found, .inl ⟨rfl, fun stopped => ?_⟩⟩
        simp [stopContainer, stopped] at stopFailed
      · refine .inr ⟨primaryAddr, found, .inr ?_⟩
        split
        · rfl
        · split <;> rfl

theorem stopServers_calls (docker : Docker) (servers rest : List String) :
    stopServers docker servers rest = (none, rest.map .stop) ∨
      ∃ names err, names <+: rest ∧ stopServers docker servers rest =
        (some err, names.map .stop ++ servers.map .start) := by
  induction rest with
  | nil => exact .inl rfl
  | cons cs rest inductionHypothesis =>
      unfold stopServers
      split
      · exact .inr ⟨[cs], _, List.prefix_cons_inj cs |>.mpr (List.nil_prefix), rfl⟩
      · rcases inductionHypothesis with done | ⟨names, err, leading, failed⟩
        · exact .inl (by rw [done]; rfl)
        · exact .inr ⟨cs :: names, err, (List.prefix_cons_inj cs).mpr leading, by rw [failed]; rfl⟩

theorem runConfigServerOutageTest_calls (docker : Docker) (answers : OutageAnswers) :
    (runConfigServerOutageTest docker answers).2 = [] ∨
      ∃ names, names <+: configServers ∧
        (runConfigServerOutageTest docker answers).2 = names.map .stop ++ configServers.map .start := by
  unfold runConfigServerOutageTest
  split
  · exact .inl rfl
  · split
    · exact .inl rfl
    · rcases stopServers_calls docker configServers configServers with done | ⟨names, err, leading, failed⟩
      · exact .inr ⟨configServers, List.prefix_refl _, by rw [done]⟩
      · exact .inr ⟨names, leading, by rw [failed]⟩

theorem containerOf_cases (addr : String) :
    containerOf addr ∈ ["shard1-1", "shard1-2", "shard1-3", ""] := by
  unfold containerOf containerMap
  simp only [List.lookup_cons]
  split <;> (try split) <;> (try split) <;> simp

theorem containerOf_not_mem_configServers (addr : String) : containerOf addr ∉ configServers := by
  have named := containerOf_cases addr
  generalize containerOf addr = container at named
  revert container
  decide

/-! ## The failover lab -/

theorem retryInsert_eq_none (insertMany : Nat → Option GoError) (attempt : Nat)
    (last : Option GoError) (remaining : Nat) :
    retryInsert insertMany attempt last (remaining + 1) = none ↔
      ∃ k ≤ remaining, insertMany (attempt + k) = none := by
  induction remaining generalizing attempt last with
  | zero =>
      cases answered : insertMany attempt <;> simp [retryInsert, answered]
  | succ remaining inductionHypothesis =>
      cases answered : insertMany attempt with
      | none => exact ⟨fun _ => ⟨0, Nat.zero_le _, answered⟩, fun _ => by simp [retryInsert, answered]⟩
      | some err =>
          rw [retryInsert, answered]
          simp only
          rw [inductionHypothesis]
          constructor
          · rintro ⟨k, below, failed⟩
            exact ⟨k + 1, by omega, by rw [← failed, Nat.add_assoc, Nat.add_comm 1]⟩
          · rintro ⟨k, below, failed⟩
            cases k with
            | zero => simp_all
            | succ k => exact ⟨k, by omega, by rw [← failed, Nat.add_assoc, Nat.add_comm 1]⟩

theorem retryInsert_of_failed (insertMany : Nat → Option GoError) (attempt : Nat)
    (last : Option GoError) (remaining : Nat) (failed : ∀ k ≤ remaining, insertMany (attempt + k) ≠ none) :
    retryInsert insertMany attempt last (remaining + 1) = insertMany (attempt + remaining) := by
  induction remaining generalizing attempt last with
  | zero =>
      obtain ⟨err, answered⟩ := Option.ne_none_iff_exists'.mp (failed 0 (Nat.le_refl 0))
      simp only [Nat.add_zero] at answered
      simp [retryInsert, answered]
  | succ remaining inductionHypothesis =>
      obtain ⟨err, answered⟩ := Option.ne_none_iff_exists'.mp (failed 0 (Nat.zero_le _))
      simp only [Nat.add_zero] at answered
      rw [retryInsert, answered]
      simp only
      rw [inductionHypothesis (attempt + 1) (some err) fun k below => by
        rw [Nat.add_assoc, Nat.add_comm 1]; exact failed (k + 1) (by omega)]
      rw [Nat.add_assoc, Nat.add_comm 1]

theorem mem_remainingMembers {primaryAddr addr : String} :
    addr ∈ remainingMembers primaryAddr ↔ addr ∈ shardMembers ∧ addr ≠ primaryAddr := by
  simp [remainingMembers]

/-- The failover lab succeeds only when `FindPrimary` reported a primary,
the pre-failover insert succeeded, `docker` stopped the primary's container,
`WaitForNewPrimary` found, in the answer of a member other than the primary,
a `PRIMARY` named otherwise than the primary, and one of the five
post-failover inserts succeeded.  It fails with `post-failover insert failed`
only when all five inserts failed, and then with the fifth's error. -/
theorem runShardFailoverTest_result (docker : Docker) (answers : FailoverAnswers) :
    ((runShardFailoverTest docker answers).1 = .ok () →
      ∃ primaryAddr newPrimary, findPrimary shardMembers answers.status = .ok primaryAddr ∧
        answers.preInsert = none ∧ docker (.stop (containerOf primaryAddr)) = none ∧
        newPrimary ≠ primaryAddr ∧
        (∃ round ∈ answers.rounds, ∃ addr ∈ shardMembers, addr ≠ primaryAddr ∧
          ∃ answer doc : Document, round.status addr = some answer ∧
            Value.document doc ∈ answer.arrayAt "members" ∧ doc.stringAt "stateStr" = "PRIMARY" ∧
            doc.stringAt "name" = newPrimary) ∧
        ∃ attempt < 5, answers.postInsert attempt = none) ∧
    ∀ err, (runShardFailoverTest docker answers).1 =
        .error (.wrapped "post-failover insert failed: %w" err) →
      (∀ attempt < 5, answers.postInsert attempt ≠ none) ∧ answers.postInsert 4 = some err := by
  constructor
  · intro succeeded
    unfold runShardFailoverTest at succeeded
    split at succeeded
    · cases succeeded
    rename_i primaryAddr found
    split at succeeded
    · cases succeeded
    rename_i inserted
    split at succeeded
    · cases succeeded
    rename_i stopped
    split at succeeded
    · cases succeeded
    rename_i newPrimary elected
    split at succeeded
    · cases succeeded
    rename_i retried
    obtain ⟨fresh, round, listed, addr, member, answer, doc, status', entry, primary, named⟩ :=
      waitForNewPrimary_found elected
    obtain ⟨attempt, below, succeededAt⟩ := (retryInsert_eq_none _ 0 none 4).mp retried
    refine ⟨primaryAddr, newPrimary, found, inserted, by simpa [stopContainer] using stopped, fresh,
      ⟨round, listed, addr, (mem_remainingMembers.mp member).1, (mem_remainingMembers.mp member).2,
        answer, doc, status', entry, primary, named⟩, attempt, by omega, by simpa using succeededAt⟩
  · intro err failed
    unfold runShardFailoverTest at failed
    split at failed
    · simp at failed
    split at failed
    · simp at failed
    split at failed
    · simp at failed
    split at failed
    · simp at failed
    split at failed
    · rename_i err' retried
      obtain rfl : err' = err := by simpa using failed
      have allFailed : ∀ attempt < 5, answers.postInsert attempt ≠ none := fun attempt below succeeded =>
        absurd ((retryInsert_eq_none _ 0 none 4).mpr ⟨attempt, by omega, by simpa using succeeded⟩)
          (by rw [retried]; exact Option.some_ne_none _)
      refine ⟨allFailed, ?_⟩
      rw [← retried, retryInsert_of_failed _ 0 none 4 fun k below => by
        simpa using allFailed k (by omega)]
    · cases failed

/-! ## The labs restore their containers -/

/-- Whatever the cluster and `docker` answer, the HA labs run no `docker`
command twice, and stop only `cfg-2`, `cfg-3` and the container `containerMap`
gives for the primary `FindPrimary` reported; every `docker stop` that
succeeded is followed later in the run by a `docker start` of the same
container; and so, when every `docker start` succeeds, every container that
was running before the labs is running after them. -/
theorem haLabs_restore_containers (docker : Docker) (db : String) (failover : FailoverAnswers)
    (outage : OutageAnswers) (jumbo : JumboAnswers) :
    (runHALabs docker db failover outage jumbo).dockerCalls.Nodup ∧
    (∀ name, .stop name ∈ (runHALabs docker db failover outage jumbo).dockerCalls →
      name ∈ configServers ∨
        ∃ primaryAddr, findPrimary shardMembers failover.status = .ok primaryAddr ∧
          name = containerOf primaryAddr) ∧
    (∀ pre name post, (runHALabs docker db failover outage jumbo).dockerCalls = pre ++ .stop name :: post →
      docker (.stop name) = none → .start name ∈ post) ∧
    ((∀ name, docker (.start name) = none) → ∀ (running : String → Bool) name, running name = true →
      (runHALabs docker db failover outage jumbo).dockerCalls.foldl (DockerCall.apply docker) running name =
        true) := by
  have restores : Restores docker (runHALabs docker db failover outage jumbo).dockerCalls := by
    refine Restores.append ?_ ?_
    · rcases runShardFailoverTest_calls docker failover with
        calls | ⟨primaryAddr, -, ⟨calls, failed⟩ | calls⟩ <;> rw [calls]
      · trivial
      · exact ⟨fun stopped => absurd stopped failed, trivial⟩
      · exact ⟨fun _ => .head _, trivial⟩
    · rcases runConfigServerOutageTest_calls docker outage with none | ⟨names, leading, calls⟩
      · rw [none]
        trivial
      · rw [calls]
        exact restores_stops_starts fun name member => leading.subset member
  have failoverCalls : ∀ call ∈ (runShardFailoverTest docker failover).2, ∃ primaryAddr,
      findPrimary shardMembers failover.status = .ok primaryAddr ∧
        (call = .stop (containerOf primaryAddr) ∨ call = .start (containerOf primaryAddr)) := by
    intro call member
    rcases runShardFailoverTest_calls docker failover with
      calls | ⟨primaryAddr, found, ⟨calls, -⟩ | calls⟩ <;> rw [calls] at member
    · cases member
    · exact ⟨primaryAddr, found, .inl (List.mem_singleton.mp member)⟩
    · exact ⟨primaryAddr, found, by simpa using member⟩
  have outageCalls : ∀ call ∈ (runConfigServerOutageTest docker outage).2,
      ∃ name ∈ configServers, call = .stop name ∨ call = .start name := by
    intro call member
    rcases runConfigServerOutageTest_calls docker outage with none | ⟨names, leading, calls⟩
    · rw [none] at member
      cases member
    · rw [calls, List.mem_append, List.mem_map, List.mem_map] at member
      rcases member with ⟨name, listed, rfl⟩ | ⟨name, listed, rfl⟩
      · exact ⟨name, leading.subset listed, .inl rfl⟩
      · exact ⟨name, listed, .inr rfl⟩
  have failoverNodup : (runShardFailoverTest docker failover).2.Nodup := by
    rcases runShardFailoverTest_calls docker failover with
      calls | ⟨primaryAddr, -, ⟨calls, -⟩ | calls⟩ <;> rw [calls] <;> simp
  have outageNodup : (runConfigServerOutageTest docker outage).2.Nodup := by
    rcases runConfigServerOutageTest_calls docker outage with none | ⟨names, leading, calls⟩
    · rw [none]
      exact List.nodup_nil
    · have distinct : configServers.Nodup := by decide
      rw [calls, List.nodup_append]
      exact ⟨(leading.sublist.nodup distinct).map fun _ _ => DockerCall.stop.inj,
        distinct.map fun _ _ => DockerCall.start.inj, by simp [List.Disjoint]⟩
  refine ⟨List.nodup_append.mpr ⟨failoverNodup, outageNodup, fun call inFailover inOutage => ?_⟩,
    fun name member => ?_, fun pre name post split => restores.start_mem split,
    fun starts running name before => restores.running starts (.inl before)⟩
  · obtain ⟨primaryAddr, -, named⟩ := failoverCalls call inFailover
    obtain ⟨name, server, named'⟩ := outageCalls call inOutage
    apply containerOf_not_mem_configServers primaryAddr
    rcases named with rfl | rfl <;> rcases named' with same | same <;> cases same <;> exact server
  · rcases List.mem_append.mp member with inFailover | inOutage
    · obtain ⟨primaryAddr, found, named⟩ := failoverCalls _ inFailover
      rcases named with named | named <;> cases named
      exact .inr ⟨primaryAddr, found, rfl⟩
    · obtain ⟨server, listed, named⟩ := outageCalls _ inOutage
      rcases named with named | named <;> cases named
      exact .inl listed

end MongoShardingPoc.HA
