import Mathlib.Data.String.Basic
import Mathlib.Algebra.Order.BigOperators.Group.List
import MongoShardingPoc.GoFloat
import MongoShardingPoc.Sharding.BatchInsert
import MongoShardingPoc.Sharding.ShardStats

/-!
# The zone demo

`RunZoneDemo` shards `customers_zones` on `{ region: 1, customer_id: 1 }`,
puts each of three shards in a zone, tags for each region the shard key
range from `{ region, customer_id: MinKey }` to `{ region, customer_id:
MaxKey }` with the region's zone, inserts `docsPerRegion` customers per
region, and reports for each region how many of its documents are on the
shard of its zone.  Each setup loop returns its first error, wrapped.

The database is not modelled: every `admin` command is given its answer by
what it sends, and the counts come from `GetShardDistribution` and
`GetPerShardDocCount` as `ShardStats` models them.  A document is modelled by
its shard key; its other fields only reach the database.

A zone range holds its `min` and not its `max`, in BSON order, field by
field: `MinKey` below every string, `MaxKey` above every string, and strings
by their bytes.  In that order every document the demo inserts falls in
exactly one tagged range, the one of its own region.

A region is `COMPLIANT` when its percentage on the expected shard, computed
in `float64`, is not below 100: exactly when all its counted documents are
on that shard.  A region whose counts cannot be read, or are all zero, is
skipped by `continue` before `allCompliant` is cleared, so the report calls
every region fully compliant when none of them could be checked.
-/

namespace MongoShardingPoc.Sharding

open MongoShardingPoc.Go MongoShardingPoc.Bson

structure Zone where
  name : String
  shard : String
  deriving DecidableEq, Repr

structure RegionRange where
  region : String
  zone : String
  deriving DecidableEq, Repr

def zoneCollection : String := "customers_zones"

def docsPerRegion : Nat := 3000

def zones : List Zone :=
  [⟨"EU-Zone", "shard1rs"⟩, ⟨"US-Zone", "shard2rs"⟩, ⟨"APAC-Zone", "shard3rs"⟩]

def regionRanges : List RegionRange :=
  [⟨"EU", "EU-Zone"⟩, ⟨"US", "US-Zone"⟩, ⟨"APAC", "APAC-Zone"⟩]

def regions : List String :=
  ["EU", "US", "APAC"]

/-! ## Shard keys and zone ranges -/

/-- A value of a shard key field: `primitive.MinKey{}`, a string, or
`primitive.MaxKey{}`. -/
inductive KeyValue where
  | minKey
  | string (s : String)
  | maxKey
  deriving DecidableEq, Repr

/-- BSON order on these values. -/
def KeyValue.Lt : KeyValue → KeyValue → Prop
  | .minKey, .minKey => False
  | .minKey, _ => True
  | .string a, .string b => a < b
  | .string _, .maxKey => True
  | _, _ => False

/-- A value of the shard key `{ region: 1, customer_id: 1 }`. -/
structure ShardKey where
  region : KeyValue
  customerId : KeyValue
  deriving DecidableEq, Repr

/-- BSON order on shard keys: by `region`, then by `customer_id`. -/
def ShardKey.Lt (a b : ShardKey) : Prop :=
  a.region.Lt b.region ∨ (a.region = b.region ∧ a.customerId.Lt b.customerId)

/-- A shard key in a zone range: from `min`, included, to `max`, excluded. -/
def ShardKey.InRange (key min max : ShardKey) : Prop :=
  (min = key ∨ min.Lt key) ∧ key.Lt max

def RegionRange.min (r : RegionRange) : ShardKey :=
  ⟨.string r.region, .minKey⟩

def RegionRange.max (r : RegionRange) : ShardKey :=
  ⟨.string r.region, .maxKey⟩

/-- `fmt.Sprintf("%06d", i)`. -/
def zeroPad6 (i : Nat) : String :=
  ⟨List.replicate (6 - (toString i).length) '0' ++ (toString i).data⟩

/-- The shard key of customer `i` of `region`, whose `customer_id` is
`fmt.Sprintf("%s-%06d", region, i)`. -/
def docKey (region : String) (i : Nat) : ShardKey :=
  ⟨.string region, .string (region ++ "-" ++ zeroPad6 i)⟩

/-- The documents of the insert loop, by their shard keys: for each region
in turn, its `docsPerRegion` customers. -/
def zoneDocs : List ShardKey :=
  regions.flatMap fun region => (List.range docsPerRegion).map (docKey region)

/-! ## The commands -/

def shardKey : List (String × Int) :=
  [("region", 1), ("customer_id", 1)]

/-- An `admin` command of the demo, by what it sends. -/
inductive ZoneCommand where
  | shardCollection (ns : String) (key : List (String × Int))
  | addShardToZone (shard zone : String)
  | updateZoneKeyRange (ns : String) (min max : ShardKey) (zone : String)
  deriving DecidableEq, Repr

/-- `ShardCollection`, given the error each command fails with, if any. -/
def shardCollection (db collection : String) (key : List (String × Int))
    (runCommand : ZoneCommand → Option GoError) : Option GoError :=
  (runCommand (.shardCollection (db ++ "." ++ collection) key)).map
    (.named "shardCollection %s: %w" (db ++ "." ++ collection))

def addShardToZone (shard zone : String) (runCommand : ZoneCommand → Option GoError) :
    Option GoError :=
  (runCommand (.addShardToZone shard zone)).map
    (.formattedWrapped "addShardToZone %s→%s: %w" [.text shard, .text zone])

def updateZoneKeyRange (ns : String) (min max : ShardKey) (zone : String)
    (runCommand : ZoneCommand → Option GoError) : Option GoError :=
  (runCommand (.updateZoneKeyRange ns min max zone)).map (.named "updateZoneKeyRange %s: %w" zone)

/-! ## The compliance report -/

/-- The loop that finds `expectedShard`: the shard of the first zone named
`zone`, and `""` when there is none. -/
def expectedShard (zone : String) : List Zone → String
  | [] => ""
  | z :: rest => if z.name = zone then z.shard else expectedShard zone rest

/-- The loop over a region's counts: their `int64` sum, and the count of
`expectedShard`. -/
def tallyCounts (expected : String) (counts : Counts) : BitVec 64 × BitVec 64 :=
  counts.entries.foldl (fun tally entry =>
    (tally.1 + entry.2, if entry.1 = expected then entry.2 else tally.2)) (0, 0)

/-- What the report prints for a region. -/
inductive ComplianceLine where
  | unverified (region : String) (err : GoError)
  | noDocuments (region : String)
  | verified (region expectedShard : String) (correctCount total : BitVec 64) (status : String)
  deriving Repr

/-- Whether the line clears `allCompliant`. -/
def ComplianceLine.migrating : ComplianceLine → Bool
  | .verified _ _ _ _ status => status == "MIGRATING"
  | _ => false

/-- `pct := float64(correctCount) / float64(total) * 100`. -/
def percent (correctCount total : BitVec 64) : Float64 :=
  ((Float64.ofInt64 correctCount).div (Float64.ofInt64 total)).mul (Float64.ofInt64 100)

/-- One turn of the report loop, given what `GetPerShardDocCount` returns. -/
def complianceLine (r : RegionRange) (counts : Except GoError Counts) : ComplianceLine :=
  match counts with
  | .error err => .unverified r.region err
  | .ok counts =>
    let (total, correctCount) := tallyCounts (expectedShard r.zone zones) counts
    if total = 0 then .noDocuments r.region
    else
      .verified r.region (expectedShard r.zone zones) correctCount total
        (if (percent correctCount total).lt (Float64.ofInt64 100) then "MIGRATING" else "COMPLIANT")

/-! ## `RunZoneDemo` -/

/-- What the cluster answers the demo: each `admin` command by what it sends,
each `InsertMany` by its documents, the `$collStats` aggregation of
`GetShardDistribution`, and the calls of `GetPerShardDocCount` by region. -/
structure ZoneDemoAnswers where
  runCommand : ZoneCommand → Option GoError
  insertMany : List ShardKey → Option GoError
  distribution : Except GoError (List (Option Document))
  perShardCounts : String → CountSources

/-- The compliance report: a line per region, and `allCompliant`. -/
structure ComplianceReport where
  lines : List ComplianceLine
  allCompliant : Bool

/-- `RunZoneDemo`.  `DropCollection`, the index creation and the wait for
the balancer return nothing it reads. -/
def runZoneDemo (db : String) (answers : ZoneDemoAnswers) : Except GoError ComplianceReport :=
  match shardCollection db zoneCollection shardKey answers.runCommand with
  | some err => .error (.wrapped "shard collection: %w" err)
  | none =>
    match zones.findSome? fun z =>
        (addShardToZone z.shard z.name answers.runCommand).map (.wrapped "add shard to zone: %w") with
    | some err => .error err
    | none =>
      let ns := db ++ "." ++ zoneCollection
      match regionRanges.findSome? fun r =>
          (updateZoneKeyRange ns r.min r.max r.zone answers.runCommand).map
            (.named "update zone range for %s: %w" r.region) with
      | some err => .error err
      | none =>
        match (batchInsert (fun (_ : Unit) batch => ((), answers.insertMany batch)) () zoneDocs).2.2 with
        | some err => .error (.wrapped "insert: %w" err)
        | none =>
          match getShardDistribution zoneCollection answers.distribution with
          | .error err => .error (.wrapped "distribution: %w" err)
          | .ok _ =>
            let lines := regionRanges.map fun r =>
              complianceLine r (getPerShardDocCount zoneCollection (answers.perShardCounts r.region))
            .ok ⟨lines, lines.all fun line => !line.migrating⟩

/-! ## Routing -/

theorem inRange_iff (region customerId : String) (r : RegionRange) :
    (⟨.string region, .string customerId⟩ : ShardKey).InRange r.min r.max ↔
      r.region = region := by
  simp only [ShardKey.InRange, ShardKey.Lt, KeyValue.Lt, RegionRange.min, RegionRange.max,
    ShardKey.mk.injEq, KeyValue.string.injEq, and_true, reduceCtorEq, and_false, false_or]
  constructor
  · rintro ⟨below | same, above | same'⟩
    · exact absurd below (lt_asymm above)
    · exact same'.symm
    · exact same
    · exact same
  · rintro rfl
    exact ⟨.inr rfl, .inr rfl⟩

/-- Every document the demo inserts lies in exactly one tagged range, the one
of its own region, which the demo tags once; the report expects a different
shard for each region. -/
example :
    (∀ key ∈ zoneDocs, ∀ r ∈ regionRanges,
      key.InRange r.min r.max ↔ key.region = .string r.region) ∧
    (∀ region ∈ regions, (regionRanges.filter fun r => r.region = region).length = 1) ∧
    (regionRanges.map fun r => expectedShard r.zone zones).Nodup := by
  refine ⟨fun key inserted r _ => ?_, by decide, by decide⟩
  obtain ⟨region, -, i, -, rfl⟩ : ∃ region ∈ regions, ∃ i ∈ List.range docsPerRegion,
      docKey region i = key := by simpa [zoneDocs] using inserted
  rw [docKey, inRange_iff, KeyValue.string.injEq, eq_comm]

/-! ## The report -/

theorem percent_hundred {correctCount : BitVec 64} (positive : 0 < correctCount.toInt)
    (small : correctCount.toInt < 2 ^ 53) : (percent correctCount correctCount).toRat = 100 := by
  have nonneg := positive.le
  have hundredSign := (Float64.ofInt64_within (show (0 : Int) ≤ (100 : BitVec 64).toInt by decide)).1
  have hundred := Float64.ofInt64_exact (show (0 : Int) ≤ (100 : BitVec 64).toInt by decide)
    (show (100 : BitVec 64).toInt < 2 ^ 53 by decide)
  have sign := (Float64.ofInt64_within nonneg).1
  have convertedPos : 0 < (Float64.ofInt64 correctCount).toRat := by
    rw [Float64.ofInt64_exact nonneg small]
    exact_mod_cast positive
  have quotientSign := (Float64.div_within sign sign convertedPos).1
  have one := Float64.div_self_toRat sign convertedPos
  have value := Float64.mul_value quotientSign hundredSign
  rw [one, hundred, show ((100 : BitVec 64).toInt : ℚ) = ((100 : Nat) : ℚ) * 2 ^ (0 : Int) by
    norm_num [show (100 : BitVec 64).toInt = 100 by decide], one_mul] at value
  rw [percent, Float64.mul_of_nonneg quotientSign hundredSign,
    round_of_representable _ one_pos _ (by norm_num) value]
  norm_num

/-- `pct < 100` exactly when `correctCount < total`: for counts from `0` to
`total`, below `2^50`, the roundings of `float64` cannot reach `100` from
below or leave it. -/
theorem percent_lt_hundred_iff {correctCount total : BitVec 64} (nonneg : 0 ≤ correctCount.toInt)
    (atMost : correctCount.toInt ≤ total.toInt) (positive : 0 < total.toInt)
    (small : total.toInt < 2 ^ 50) :
    (percent correctCount total).lt (Float64.ofInt64 100) = true ↔
      correctCount.toInt < total.toInt := by
  have hundred := Float64.ofInt64_exact (show (0 : Int) ≤ (100 : BitVec 64).toInt by decide)
    (show (100 : BitVec 64).toInt < 2 ^ 53 by decide)
  rw [Float64.lt_iff, hundred, show ((100 : BitVec 64).toInt : ℚ) = 100 by
    norm_num [show (100 : BitVec 64).toInt = 100 by decide]]
  constructor
  · intro below
    by_contra notBelow
    have same : correctCount = total := BitVec.eq_of_toInt_eq (by omega)
    subst same
    rw [percent_hundred positive (by omega)] at below
    exact lt_irrefl _ below
  · intro below
    have c0 : (0 : ℚ) ≤ correctCount.toInt := by exact_mod_cast nonneg
    have t0 : (0 : ℚ) < total.toInt := by exact_mod_cast positive
    have t1 : (total.toInt : ℚ) < 2 ^ 50 := by exact_mod_cast small
    have ct : (correctCount.toInt : ℚ) + 1 ≤ total.toInt := by exact_mod_cast below
    have cSign := (Float64.ofInt64_within nonneg).1
    have tSign := (Float64.ofInt64_within positive.le).1
    have hundredSign :=
      (Float64.ofInt64_within (show (0 : Int) ≤ (100 : BitVec 64).toInt by decide)).1
    have cExact := Float64.ofInt64_exact nonneg (by omega)
    have tExact := Float64.ofInt64_exact positive.le (by omega)
    obtain ⟨pSign, -, pHigh⟩ := Float64.div_within cSign tSign (by rw [tExact]; exact t0)
    obtain ⟨-, -, rHigh⟩ := Float64.mul_within pSign hundredSign
    rw [cExact, tExact] at pHigh
    rw [hundred, show ((100 : BitVec 64).toInt : ℚ) = 100 by
      norm_num [show (100 : BitVec 64).toInt = 100 by decide]] at rHigh
    -- the exact ratio is at most `1 - 2^-50`, and two roundings cannot lift it to `1`
    have ratio : (correctCount.toInt : ℚ) / total.toInt ≤ 1 - 2⁻¹ ^ 50 := by
      rw [div_le_iff₀ t0]
      have : (total.toInt : ℚ) * 2⁻¹ ^ 50 < 1 := by
        calc (total.toInt : ℚ) * 2⁻¹ ^ 50 < 2 ^ 50 * 2⁻¹ ^ 50 :=
              mul_lt_mul_of_pos_right t1 (by positivity)
          _ = 1 := by norm_num
      linarith
    unfold percent
    calc _ ≤ ((Float64.ofInt64 correctCount).div (Float64.ofInt64 total)).toRat * 100 *
          (1 + 2⁻¹ ^ 53) := rHigh
      _ ≤ (1 - 2⁻¹ ^ 50) * (1 + 2⁻¹ ^ 53) * 100 * (1 + 2⁻¹ ^ 53) :=
          mul_le_mul_of_nonneg_right (mul_le_mul_of_nonneg_right
            (pHigh.trans (mul_le_mul_of_nonneg_right ratio (by norm_num))) (by norm_num)) (by norm_num)
      _ < 100 := by norm_num

/-! ## What a region's line says -/

section Tally

variable (expected : String)

theorem foldl_tally (entries : List (Σ _ : String, BitVec 64)) (nodup : entries.NodupKeys)
    (tally : BitVec 64 × BitVec 64) :
    entries.foldl (fun tally entry =>
        (tally.1 + entry.2, if entry.1 = expected then entry.2 else tally.2)) tally =
      (tally.1 + (entries.map Sigma.snd).sum, (entries.dlookup expected).getD tally.2) := by
  induction entries generalizing tally with
  | nil => simp
  | cons entry entries inductionHypothesis =>
      obtain ⟨shard, count⟩ := entry
      rw [List.nodupKeys_cons] at nodup
      rw [List.foldl_cons, inductionHypothesis nodup.2, List.map_cons, List.sum_cons, BitVec.add_assoc]
      by_cases same : shard = expected
      · subst same
        simp [List.dlookup_eq_none.mpr nodup.1]
      · simp [same, List.dlookup_cons_ne entries ⟨shard, count⟩ (Ne.symm same)]

theorem tallyCounts_eq (counts : Counts) :
    tallyCounts expected counts =
      ((counts.entries.map Sigma.snd).sum, (counts.lookup expected).getD 0) := by
  rw [tallyCounts, foldl_tally expected _ counts.nodupKeys]
  simp [AList.lookup]

theorem sum_toInt_eq (entries : List (Σ _ : String, BitVec 64)) (nodup : entries.NodupKeys) :
    (entries.map fun entry => entry.2.toInt).sum =
      ((entries.dlookup expected).getD 0).toInt +
        ((entries.filter fun entry => entry.1 ≠ expected).map fun entry => entry.2.toInt).sum := by
  induction entries with
  | nil => simp
  | cons entry entries inductionHypothesis =>
      obtain ⟨shard, count⟩ := entry
      rw [List.nodupKeys_cons] at nodup
      rw [List.map_cons, List.sum_cons, inductionHypothesis nodup.2]
      by_cases same : shard = expected
      · subst same
        simp [List.dlookup_eq_none.mpr nodup.1]
      · simp [same, List.dlookup_cons_ne entries ⟨shard, count⟩ (Ne.symm same)]
        ring

end Tally

theorem toInt_sum_of_nonneg (values : List (BitVec 64)) (nonneg : ∀ v ∈ values, 0 ≤ v.toInt)
    (small : (values.map BitVec.toInt).sum < 2 ^ 63) :
    values.sum.toInt = (values.map BitVec.toInt).sum := by
  induction values with
  | nil => rfl
  | cons v values inductionHypothesis =>
      simp only [List.mem_cons, forall_eq_or_imp] at nonneg
      simp only [List.map_cons, List.sum_cons] at small ⊢
      have rest : 0 ≤ (values.map BitVec.toInt).sum :=
        List.sum_nonneg fun x member => by
          obtain ⟨w, listed, rfl⟩ := List.mem_map.mp member
          exact nonneg.2 w listed
      have sumInt := inductionHypothesis nonneg.2 (by omega)
      have headNonneg := nonneg.1
      rw [← sumInt] at rest small ⊢
      revert headNonneg rest small
      simp only [BitVec.toInt_eq_toNat_cond, BitVec.toNat_add]
      split_ifs <;> omega

/-- The report's line for a region whose counts are not negative and sum to
less than `2^50`: no documents when they are all zero, and otherwise the
count on the expected shard and the total, `COMPLIANT` exactly when every
counted document of the region is on the expected shard. -/
theorem complianceLine_of_counts (r : RegionRange) (counts : Counts)
    (nonneg : ∀ entry ∈ counts.entries, 0 ≤ entry.2.toInt)
    (small : (counts.entries.map fun entry => entry.2.toInt).sum < 2 ^ 50) :
    complianceLine r (.ok counts) =
      if (counts.entries.map fun entry => entry.2.toInt).sum = 0 then .noDocuments r.region
      else .verified r.region (expectedShard r.zone zones)
        ((counts.lookup (expectedShard r.zone zones)).getD 0) (counts.entries.map Sigma.snd).sum
        (if ∀ entry ∈ counts.entries, entry.1 ≠ expectedShard r.zone zones → entry.2 = 0
          then "COMPLIANT" else "MIGRATING") := by
  have valuesNonneg : ∀ v ∈ counts.entries.map Sigma.snd, 0 ≤ v.toInt := fun v member => by
    obtain ⟨entry, listed, rfl⟩ := List.mem_map.mp member
    exact nonneg entry listed
  have total : ((counts.entries.map Sigma.snd).sum).toInt =
      (counts.entries.map fun entry => entry.2.toInt).sum := by
    rw [toInt_sum_of_nonneg _ valuesNonneg (by rw [List.map_map]; exact small.trans (by norm_num)),
      List.map_map]
    rfl
  have split : (counts.entries.map fun entry => entry.2.toInt).sum =
      ((counts.lookup (expectedShard r.zone zones)).getD 0).toInt +
        ((counts.entries.filter fun entry => entry.1 ≠ expectedShard r.zone zones).map
          fun entry => entry.2.toInt).sum :=
    sum_toInt_eq (expectedShard r.zone zones) counts.entries counts.nodupKeys
  have others : 0 ≤ ((counts.entries.filter fun entry => entry.1 ≠ expectedShard r.zone zones).map
      fun entry => entry.2.toInt).sum :=
    List.sum_nonneg fun x member => by
      obtain ⟨entry, listed, rfl⟩ := List.mem_map.mp member
      exact nonneg entry (List.mem_of_mem_filter listed)
  have correct : 0 ≤ ((counts.lookup (expectedShard r.zone zones)).getD 0).toInt := by
    cases found : counts.lookup (expectedShard r.zone zones) with
    | none => decide
    | some count => exact nonneg ⟨_, count⟩ (AList.mem_lookup_iff.mp found)
  simp only [complianceLine, tallyCounts_eq]
  by_cases empty : (counts.entries.map fun entry => entry.2.toInt).sum = 0
  · rw [if_pos (BitVec.eq_of_toInt_eq (by rw [total, empty]; rfl)), if_pos empty]
  · rw [if_neg (fun zero => empty (by rw [← total, zero]; rfl)), if_neg empty]
    congr 1
    -- `pct < 100` exactly when some count is on another shard
    have lt := percent_lt_hundred_iff correct (by rw [total, split]; omega)
      (by rw [total]; omega) (by rw [total]; exact small)
    rw [total, split] at lt
    by_cases elsewhere : ∀ entry ∈ counts.entries, entry.1 ≠ expectedShard r.zone zones → entry.2 = 0
    · have zero : ((counts.entries.filter fun entry => entry.1 ≠ expectedShard r.zone zones).map
          fun entry => entry.2.toInt).sum = 0 :=
        List.sum_eq_zero fun x member => by
          obtain ⟨entry, listed, rfl⟩ := List.mem_map.mp member
          obtain ⟨inCounts, other⟩ := List.mem_filter.mp listed
          rw [elsewhere entry inCounts (of_decide_eq_true other)]
          rfl
      rw [if_pos elsewhere, if_neg (by rw [lt, zero]; omega)]
    · rw [if_neg elsewhere, if_pos (lt.mpr ?_)]
      push_neg at elsewhere
      obtain ⟨entry, inCounts, other, nonzero⟩ := elsewhere
      have positive : 0 < entry.2.toInt := lt_of_le_of_ne (nonneg entry inCounts)
        (fun zero => nonzero (BitVec.eq_of_toInt_eq (by rw [← zero]; rfl)))
      have := List.single_le_sum (fun x member => by
          obtain ⟨e, listed, rfl⟩ := List.mem_map.mp member
          exact nonneg e (List.mem_of_mem_filter listed)) _
        (List.mem_map_of_mem (fun entry : Σ _ : String, BitVec 64 => entry.2.toInt)
          (show entry ∈ counts.entries.filter fun entry => entry.1 ≠ expectedShard r.zone zones from
            List.mem_filter.mpr ⟨inCounts, by simpa using other⟩))
      dsimp only at this
      omega

/-- The counts of a region with ten of its documents still on another shard. -/
def migratingCounts : Counts :=
  ((∅ : Counts).insert "shard2rs" 10).insert "shard1rs" 2990

theorem complianceLine_of_counts_migratingCounts :
    (∀ entry ∈ migratingCounts.entries, 0 ≤ entry.2.toInt) ∧
      (migratingCounts.entries.map fun entry => entry.2.toInt).sum < 2 ^ 50 ∧
      complianceLine ⟨"EU", "EU-Zone"⟩ (.ok migratingCounts) =
        .verified "EU" "shard1rs" 2990 3000 "MIGRATING" := by
  have nonneg : ∀ entry ∈ migratingCounts.entries, 0 ≤ entry.2.toInt := by decide
  have small : (migratingCounts.entries.map fun entry => entry.2.toInt).sum < 2 ^ 50 := by decide
  refine ⟨nonneg, small, ?_⟩
  rw [complianceLine_of_counts _ _ nonneg small]
  rfl

/-! ## What `RunZoneDemo` reports -/

/-- A cluster that accepts every command and insert and answers the
distribution gets the report of the regions' counts. -/
theorem runZoneDemo_of_accepted (db : String) (answers : ZoneDemoAnswers)
    (accepted : ∀ command, answers.runCommand command = none)
    (inserted : ∀ batch, answers.insertMany batch = none) (cursor : List (Option Document))
    (read : answers.distribution = .ok cursor) :
    runZoneDemo db answers = .ok ⟨regionRanges.map fun r =>
        complianceLine r (getPerShardDocCount zoneCollection (answers.perShardCounts r.region)),
      (regionRanges.map fun r => complianceLine r
        (getPerShardDocCount zoneCollection (answers.perShardCounts r.region))).all
          fun line => !line.migrating⟩ := by
  have noInsertError : (batchInsert (fun (_ : Unit) batch => ((), answers.insertMany batch)) ()
      zoneDocs).2.2 = none := by
    rw [batchInsert, batchInsertFrom_eq_insertBatches]
    exact insertBatches_accepting _ (fun _ batch => inserted batch) _ _
  simp only [runZoneDemo, shardCollection, addShardToZone, updateZoneKeyRange, accepted,
    Option.map_none', noInsertError, getShardDistribution, read]
  rfl

/-- A cluster that accepts the whole setup and every insert, and whose counts
cannot be read: `$group` and `$collStats` both fail. -/
def unreadableCounts : ZoneDemoAnswers where
  runCommand _ := none
  insertMany _ := none
  distribution := .ok []
  perShardCounts _ :=
    ⟨.error (.external "unreachable"), .error (.external "unreachable"), 0, .error (.external "unreachable")⟩

/-- Its report: no region verified, and every region called compliant. -/
def unverifiedReport : ComplianceReport :=
  ⟨regionRanges.map fun r => .unverified r.region (.wrapped "collStats: %w" (.external "unreachable")),
    true⟩

end MongoShardingPoc.Sharding
