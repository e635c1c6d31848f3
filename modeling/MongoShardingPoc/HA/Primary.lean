import MongoShardingPoc.GoValues
import MongoShardingPoc.Bson

/-!
# Finding the primary of a replica set

`FindPrimary` asks each member of a replica set in turn for
`replSetGetStatus`, and returns the `name` of the first entry of the first
answer that lists a `PRIMARY`.  `WaitForNewPrimary` repeats such a scan until
its deadline, looking for a `PRIMARY` whose name differs from the old
primary, and waits two seconds between scans unless the context is done
first.

The two scans read an entry differently: `FindPrimary` keeps a `PRIMARY`
only when its `name` is a string, while `WaitForNewPrimary` reads a `name`
that is missing or not a string as `""`, and so takes such an entry for a new
primary named `""`.

The connections and commands are not modelled: each scan is given, per
member address, the status that address answers, or `none` where connecting
or the command fails.  The deadline of `WaitForNewPrimary` is given as the
scans it has time for, each with what its `select` receives.
-/

namespace MongoShardingPoc.HA

open MongoShardingPoc.Go MongoShardingPoc.Bson

/-! ## `FindPrimary` -/

/-- What `FindPrimary` keeps of an entry of `members`: its `name`, when its
`stateStr` is `"PRIMARY"` and its `name` a string. -/
def primaryName (doc : Document) : Option String :=
  match doc.lookup "stateStr", doc.lookup "name" with
  | some (.string "PRIMARY"), some (.string name) => some name
  | _, _ => none

/-- `FindPrimary`, given the status each address answers. -/
def findPrimary (members : List String) (status : String → Option Document) :
    Except GoError String :=
  match members.findSome? fun addr => (status addr).bind fun answer =>
      (answer.arrayAt "members").findSome? fun m => m.asDocument.bind primaryName with
  | some name => .ok name
  | none => .error (.formatted "no PRIMARY found among %v" [.strings members])

/-! ## `WaitForNewPrimary` -/

/-- What `WaitForNewPrimary` keeps of an entry of `members`: its `name`, read
as `""` when it is not a string, when its `stateStr` is `"PRIMARY"` and the
name is not `oldPrimary`. -/
def newPrimaryName (oldPrimary : String) (doc : Document) : Option String :=
  if doc.stringAt "stateStr" = "PRIMARY" ∧ doc.stringAt "name" ≠ oldPrimary then
    some (doc.stringAt "name")
  else none

/-- One scan of `WaitForNewPrimary` over the members. -/
def scanForNewPrimary (members : List String) (oldPrimary : String)
    (status : String → Option Document) : Option String :=
  members.findSome? fun addr => (status addr).bind fun answer =>
    (answer.arrayAt "members").findSome? fun m => m.asDocument.bind (newPrimaryName oldPrimary)

/-- A scan of `WaitForNewPrimary`: the status each address answers, and
what the `select` after the scan receives, `ctx.Err()` when the context is
done first and `none` when the two seconds pass. -/
structure Round where
  status : String → Option Document
  cancelled : Option GoError

/-- `WaitForNewPrimary`, given the scans it has time for before its deadline,
and `timeout` as `%v` prints it. -/
def waitForNewPrimary (members : List String) (oldPrimary timeout : String) :
    List Round → Except GoError String
  | [] => .error (.formatted "no new primary elected within %v" [.text timeout])
  | round :: rounds =>
    match scanForNewPrimary members oldPrimary round.status with
    | some name => .ok name
    | none =>
      match round.cancelled with
      | some err => .error err
      | none => waitForNewPrimary members oldPrimary timeout rounds

/-! ## What the scans find -/

theorem primaryName_eq_some {doc : Document} {name : String} :
    primaryName doc = some name ↔
      doc.lookup "stateStr" = some (.string "PRIMARY") ∧ doc.lookup "name" = some (.string name) := by
  unfold primaryName
  split <;> simp_all

theorem newPrimaryName_eq_some {oldPrimary name : String} {doc : Document} :
    newPrimaryName oldPrimary doc = some name ↔
      (doc.stringAt "stateStr" = "PRIMARY" ∧ doc.stringAt "name" ≠ oldPrimary) ∧
        doc.stringAt "name" = name := by
  simp only [newPrimaryName, Option.ite_none_right_eq_some, Option.some.injEq]

theorem exists_of_scan_eq_some {members : List String} {status : String → Option Document}
    {keep : Document → Option String} {name : String}
    (found : members.findSome? (fun addr => (status addr).bind fun answer =>
      (answer.arrayAt "members").findSome? fun m => m.asDocument.bind keep) = some name) :
    ∃ addr ∈ members, ∃ answer doc : Document, status addr = some answer ∧
      Value.document doc ∈ answer.arrayAt "members" ∧ keep doc = some name := by
  obtain ⟨addr, listed, answered⟩ := List.exists_of_findSome?_eq_some found
  obtain ⟨answer, status', inner⟩ := Option.bind_eq_some.mp answered
  obtain ⟨m, entry, kept⟩ := List.exists_of_findSome?_eq_some inner
  obtain ⟨doc, rfl, kept⟩ := Value.asDocument_bind_eq_some.mp kept
  exact ⟨addr, listed, answer, doc, status', entry, kept⟩

/-- `FindPrimary` returns the `name` of an entry that one of the members
lists as `PRIMARY`; it fails, naming the members, exactly when no member that
answers lists a `PRIMARY` with a string `name`. -/
theorem findPrimary_result (members : List String) (status : String → Option Document) :
    (∀ name, findPrimary members status = .ok name →
      ∃ addr ∈ members, ∃ answer doc : Document, status addr = some answer ∧
        Value.document doc ∈ answer.arrayAt "members" ∧
        doc.lookup "stateStr" = some (.string "PRIMARY") ∧
        doc.lookup "name" = some (.string name)) ∧
    (findPrimary members status =
        .error (.formatted "no PRIMARY found among %v" [.strings members]) ↔
      ∀ addr ∈ members, ∀ answer, status addr = some answer →
        ∀ doc, Value.document doc ∈ answer.arrayAt "members" → primaryName doc = none) := by
  refine ⟨fun name found => ?_, ?_⟩
  · unfold findPrimary at found
    split at found
    · rename_i name' scanned
      obtain rfl : name' = name := Except.ok.inj found
      obtain ⟨addr, listed, answer, doc, status', entry, kept⟩ := exists_of_scan_eq_some scanned
      exact ⟨addr, listed, answer, doc, status', entry, primaryName_eq_some.mp kept⟩
    · cases found
  · unfold findPrimary
    split
    · rename_i name scanned
      simp only [reduceCtorEq, false_iff, not_forall]
      obtain ⟨addr, listed, answer, doc, status', entry, kept⟩ := exists_of_scan_eq_some scanned
      exact ⟨addr, listed, answer, status', doc, entry, by simp [kept]⟩
    · rename_i scanned
      simp only [List.findSome?_eq_none_iff, Option.bind_eq_none] at scanned
      simp only [true_iff]
      exact fun addr listed answer status' doc entry =>
        scanned addr listed answer status' _ entry doc rfl

theorem waitForNewPrimary_eq_pollRounds (members : List String) (oldPrimary timeout : String)
    (rounds : List Round) :
    waitForNewPrimary members oldPrimary timeout rounds =
      pollRounds (fun round => scanForNewPrimary members oldPrimary round.status) Round.cancelled
        (.formatted "no new primary elected within %v" [.text timeout]) rounds := by
  induction rounds with
  | nil => rfl
  | cons round rounds inductionHypothesis =>
      rw [waitForNewPrimary, pollRounds, inductionHypothesis]
      cases scanForNewPrimary members oldPrimary round.status <;> cases round.cancelled <;> rfl

theorem waitForNewPrimary_found {members : List String} {oldPrimary timeout name : String}
    {rounds : List Round} (found : waitForNewPrimary members oldPrimary timeout rounds = .ok name) :
    name ≠ oldPrimary ∧ ∃ round ∈ rounds, ∃ addr ∈ members, ∃ answer doc : Document,
      round.status addr = some answer ∧ Value.document doc ∈ answer.arrayAt "members" ∧
      doc.stringAt "stateStr" = "PRIMARY" ∧ doc.stringAt "name" = name := by
  rw [waitForNewPrimary_eq_pollRounds] at found
  obtain ⟨round, listed, scanned⟩ := pollRounds_ok _ _ _ found
  obtain ⟨addr, member, answer, doc, status', entry, kept⟩ := exists_of_scan_eq_some scanned
  obtain ⟨⟨primary, fresh⟩, rfl⟩ := newPrimaryName_eq_some.mp kept
  exact ⟨fresh, round, listed, addr, member, answer, doc, status', entry, primary, rfl⟩

/-- `WaitForNewPrimary` returns only a name other than `oldPrimary` that an
entry listed as `PRIMARY` in one of its scans has, read as `""` when it is not
a string; when it fails, it is with the timeout error or with the context's
error after a scan; and it fails with the timeout error when no scan finds a
new primary and the context stays live. -/
theorem waitForNewPrimary_result (members : List String) (oldPrimary timeout : String)
    (rounds : List Round) :
    (∀ name, waitForNewPrimary members oldPrimary timeout rounds = .ok name →
      name ≠ oldPrimary ∧ ∃ round ∈ rounds, ∃ addr ∈ members, ∃ answer doc : Document,
        round.status addr = some answer ∧ Value.document doc ∈ answer.arrayAt "members" ∧
        doc.stringAt "stateStr" = "PRIMARY" ∧ doc.stringAt "name" = name) ∧
    (∀ err, waitForNewPrimary members oldPrimary timeout rounds = .error err →
      err = .formatted "no new primary elected within %v" [.text timeout] ∨
        ∃ round ∈ rounds, round.cancelled = some err) ∧
    ((∀ round ∈ rounds,
        scanForNewPrimary members oldPrimary round.status = none ∧ round.cancelled = none) →
      waitForNewPrimary members oldPrimary timeout rounds =
        .error (.formatted "no new primary elected within %v" [.text timeout])) := by
  refine ⟨fun _ found => waitForNewPrimary_found found, fun err failed => ?_, fun quiet => ?_⟩
  · rw [waitForNewPrimary_eq_pollRounds] at failed
    exact pollRounds_error _ _ _ failed
  · rw [waitForNewPrimary_eq_pollRounds]
    exact pollRounds_of_quiet _ _ _ quiet

/-- The two scans differ on an entry listed as `PRIMARY` whose `name` is not
a string: `FindPrimary` passes over it, while `WaitForNewPrimary` takes it
for a new primary named `""`, unless the old primary's name is `""`. -/
theorem unnamed_primary (doc : Document) (oldPrimary : String)
    (primary : doc.lookup "stateStr" = some (.string "PRIMARY"))
    (unnamed : ∀ name, doc.lookup "name" ≠ some (.string name)) (named : oldPrimary ≠ "") :
    primaryName doc = none ∧ newPrimaryName oldPrimary doc = some "" := by
  have empty : doc.stringAt "name" = "" := by
    unfold Document.stringAt
    split
    · rename_i name found
      exact absurd found (unnamed name)
    · rfl
  refine ⟨?_, newPrimaryName_eq_some.mpr ⟨⟨by rw [Document.stringAt, primary], ?_⟩, empty⟩⟩
  · cases kept : primaryName doc with
    | none => rfl
    | some name => exact absurd (primaryName_eq_some.mp kept).2 (unnamed name)
  · rw [empty]
    exact Ne.symm named

end MongoShardingPoc.HA
