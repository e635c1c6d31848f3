import MongoShardingPoc.GoValues
import MongoShardingPoc.Bson

/-!
# The balancer lab

`RunBalancerLab` stops the balancer, restricts it to a window of 02:00 to
05:00 through the `balancer` document of `config.settings`, reads the window
back, starts the balancer again and clears the window.  The window is
written by `SetBalancerWindow`, an upserting `UpdateOne` whose `$set` writes
`activeWindow` as `{ start, stop }` in `"%02d:%02d"` form, read by
`GetBalancerWindow` from what `FindOne` decodes, and removed by
`ClearBalancerWindow`, an `$unset` without upsert.

The server is not modelled: each call is given its answer.  What the lab
reads back, the balancer states and the window, only reaches the log, and so
does a failure to read or to clear the window; the lab's result is decided by
the other calls alone.
-/

namespace MongoShardingPoc.Operations

open MongoShardingPoc.Go MongoShardingPoc.Bson

/-! ## The balancer calls -/

structure BalancerState where
  mode : String
  inProgress : Bool

/-- `GetBalancerStatus`, given what `balancerStatus` answers. -/
def getBalancerStatus (answer : Except GoError Document) : Except GoError BalancerState :=
  match answer with
  | .error err => .error (.wrapped "balancerStatus: %w" err)
  | .ok result =>
    .ok ⟨result.stringAt "mode",
      match result.lookup "inBalancerRound" with
      | some (.bool inProgress) => inProgress
      | _ => false⟩

/-- The body `StartBalancer` and `StopBalancer` share: run the command and
wrap its error. -/
def balancerCommand (format : String) (fault : Option GoError) : Except GoError Unit :=
  match fault with
  | some err => .error (.wrapped format err)
  | none => .ok ()

/-- `StartBalancer`, given the error `balancerStart` fails with, if any. -/
def startBalancer (fault : Option GoError) : Except GoError Unit :=
  balancerCommand "balancerStart: %w" fault

/-- `StopBalancer`, given the error `balancerStop` fails with, if any. -/
def stopBalancer (fault : Option GoError) : Except GoError Unit :=
  balancerCommand "balancerStop: %w" fault

structure BalancerWindow where
  start : String
  stop : String
  deriving DecidableEq, Repr

/-- `fmt.Sprintf("%02d", n)`: the sign, then the digits of `|n|`, padded with
zeros to two characters in all. -/
def zeroPad2 (n : Int) : String :=
  ⟨(if n < 0 then ['-'] else []) ++
    List.replicate (2 - (if n < 0 then 1 else 0) - (toString n.natAbs).length) '0' ++
    (toString n.natAbs).data⟩

/-- `fmt.Sprintf("%02d:%02d", hour, min)`. -/
def windowTime (hour min : Int) : String :=
  zeroPad2 hour ++ ":" ++ zeroPad2 min

/-- The `activeWindow` that `SetBalancerWindow` writes. -/
def activeWindow (startHour startMin stopHour stopMin : Int) : Value :=
  .document [("start", .string (windowTime startHour startMin)),
    ("stop", .string (windowTime stopHour stopMin))]

def windowUpdate (startHour startMin stopHour stopMin : Int) : Document :=
  [("$set", .document [("activeWindow", activeWindow startHour startMin stopHour stopMin)])]

/-- The filter `bson.M{"_id": "balancer"}` of the settings calls. -/
def balancerFilter : Document :=
  [("_id", .string "balancer")]

/-- An `UpdateOne` on `config.settings`: its filter, its update, and whether
it upserts. -/
structure SettingsUpdate where
  filter : Document
  update : Document
  upsert : Bool

/-- `SetBalancerWindow`, given what `UpdateOne` answers each request: its
error, if it fails. -/
def setBalancerWindow (startHour startMin stopHour stopMin : Int)
    (updateOne : SettingsUpdate → Option GoError) : Except GoError Unit :=
  match updateOne ⟨balancerFilter, windowUpdate startHour startMin stopHour stopMin, true⟩ with
  | some err => .error (.wrapped "set balancer window: %w" err)
  | none => .ok ()

/-- What `GetBalancerWindow` reads of the `balancer` document. -/
def windowOf (doc : Document) : BalancerWindow :=
  match doc.lookup "activeWindow" with
  | some (.document aw) => ⟨Document.stringAt aw "start", Document.stringAt aw "stop"⟩
  | _ => ⟨"", ""⟩

/-- `GetBalancerWindow`, given what `FindOne` with a filter decodes to: the
document, or the error, `mongo.ErrNoDocuments` when none matches. -/
def getBalancerWindow (findOne : Document → Except GoError Document) :
    Except GoError BalancerWindow :=
  match findOne balancerFilter with
  | .error err => .error (.wrapped "read balancer settings: %w" err)
  | .ok doc => .ok (windowOf doc)

def clearUpdate : Document :=
  [("$unset", .document [("activeWindow", .string "")])]

/-- `ClearBalancerWindow`, given what `UpdateOne` answers each request. -/
def clearBalancerWindow (updateOne : SettingsUpdate → Option GoError) : Except GoError Unit :=
  match updateOne ⟨balancerFilter, clearUpdate, false⟩ with
  | some err => .error (.wrapped "clear balancer window: %w" err)
  | none => .ok ()

/-! ## `RunBalancerLab` -/

/-- The calls of `RunBalancerLab` to the cluster, in order. -/
inductive LabCall where
  | initialStatus
  | stop
  | statusAfterStop
  | setWindow
  | readWindow
  | start
  | statusAfterStart
  | clearWindow
  deriving DecidableEq, Repr

/-- What the cluster answers the lab: the result of each `balancerStatus`,
the error of each balancer command and of each `UpdateOne`, and what
`FindOne` decodes to. -/
structure LabAnswers where
  status : LabCall → Except GoError Document
  command : LabCall → Option GoError
  updateOne : LabCall → SettingsUpdate → Option GoError
  findOne : Document → Except GoError Document

/-- `RunBalancerLab`: its result, and the calls it made, in order.  The
states and the window it reads are only logged, and so is a failure to read
the window or to clear it. -/
def runBalancerLab (answers : LabAnswers) : Except GoError Unit × List LabCall :=
  match getBalancerStatus (answers.status .initialStatus) with
  | .error err => (.error (.wrapped "initial status: %w" err), [.initialStatus])
  | .ok _ =>
  match stopBalancer (answers.command .stop) with
  | .error err => (.error (.wrapped "stop: %w" err), [.initialStatus, .stop])
  | .ok () =>
  match getBalancerStatus (answers.status .statusAfterStop) with
  | .error err =>
    (.error (.wrapped "status after stop: %w" err), [.initialStatus, .stop, .statusAfterStop])
  | .ok _ =>
  match setBalancerWindow 2 0 5 0 (answers.updateOne .setWindow) with
  | .error err =>
    (.error (.wrapped "set window: %w" err), [.initialStatus, .stop, .statusAfterStop, .setWindow])
  | .ok () =>
  let _window := getBalancerWindow answers.findOne
  match startBalancer (answers.command .start) with
  | .error err =>
    (.error (.wrapped "start: %w" err),
      [.initialStatus, .stop, .statusAfterStop, .setWindow, .readWindow, .start])
  | .ok () =>
  match getBalancerStatus (answers.status .statusAfterStart) with
  | .error err =>
    (.error (.wrapped "status after start: %w" err),
      [.initialStatus, .stop, .statusAfterStop, .setWindow, .readWindow, .start, .statusAfterStart])
  | .ok _ =>
  let _cleared := clearBalancerWindow (answers.updateOne .clearWindow)
  (.ok (), [.initialStatus, .stop, .statusAfterStop, .setWindow, .readWindow, .start,
    .statusAfterStart, .clearWindow])

/-! ## Reading the window back -/

theorem zeroPad2_of_lt (n : Nat) (small : n < 100) :
    zeroPad2 n = ⟨[Nat.digitChar (n / 10), Nat.digitChar (n % 10)]⟩ := by
  revert n
  decide

theorem windowTime_of_lt (hour min : Nat) (hourSmall : hour < 100) (minSmall : min < 100) :
    windowTime hour min = ⟨[Nat.digitChar (hour / 10), Nat.digitChar (hour % 10), ':',
      Nat.digitChar (min / 10), Nat.digitChar (min % 10)]⟩ := by
  rw [windowTime, zeroPad2_of_lt hour hourSmall, zeroPad2_of_lt min minSmall]
  rfl

theorem windowOf_activeWindow (doc : Document) (startHour startMin stopHour stopMin : Int) :
    (doc.lookup "activeWindow" = some (activeWindow startHour startMin stopHour stopMin) →
      windowOf doc = ⟨windowTime startHour startMin, windowTime stopHour stopMin⟩) ∧
    (doc.lookup "activeWindow" = none → windowOf doc = ⟨"", ""⟩) :=
  ⟨fun written => by simp only [windowOf, written, activeWindow]; rfl,
    fun cleared => by simp only [windowOf, cleared]⟩

/-! ## What the lab returns -/

/-- The calls of `RunBalancerLab` when none fails. -/
def labCalls : List LabCall :=
  [.initialStatus, .stop, .statusAfterStop, .setWindow, .readWindow, .start, .statusAfterStart,
    .clearWindow]

end MongoShardingPoc.Operations
