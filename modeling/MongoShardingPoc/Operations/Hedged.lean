import Mathlib.Algebra.Order.BigOperators.Group.List
import Mathlib.Algebra.Order.Ring.Nat
import Mathlib.Data.BitVec

/-!
# The hedged reads lab

`RunHedgedReadsLab` times `hedgedQueryCount` reads with `benchmarkReads`,
once without and once with hedging, and compares their averages, computed
by `avgDuration`.  A query whose `Find` fails is left out of the latencies.

`avgDuration` adds the latencies as `int64`s, which wrap, and divides by
their count with Go's signed division.  As long as the latencies add up to
less than `2^63` nanoseconds, about 292 years, nothing wraps, and the average
is the floor of the true mean: it lies between the fastest and the slowest
query.
-/

namespace MongoShardingPoc.Operations

/-- A `time.Duration`: an `int64` count of nanoseconds. -/
abbrev Latency := BitVec 64

def hedgedQueryCount : Nat := 20

/-- `fmt.Sprintf("cat_%d", i%10)`: the category of seeded document `i`, and
the filter of query `i`. -/
def category (i : Nat) : String :=
  "cat_" ++ toString (i % 10)

/-- `benchmarkReads`, given the latency of query `i` on its filter, or `none`
when its `Find` fails: the latencies of the queries that did not fail, in
order. -/
def benchmarkReads (find : Nat → String → Option Latency) : List Latency :=
  (List.range hedgedQueryCount).filterMap fun i => find i (category i)

def avgDuration (durations : List Latency) : Latency :=
  if durations.length = 0 then 0
  else (durations.foldl (· + ·) 0).sdiv (BitVec.ofNat 64 durations.length)

theorem length_benchmarkReads_le (find : Nat → String → Option Latency) :
    (benchmarkReads find).length ≤ hedgedQueryCount :=
  (List.length_filterMap_le _ _).trans_eq (List.length_range _)

theorem foldl_add_toNat (durations : List Latency) (acc : Latency) :
    (durations.foldl (· + ·) acc).toNat = (acc.toNat + (durations.map BitVec.toNat).sum) % 2 ^ 64 := by
  induction durations generalizing acc with
  | nil => simp [Nat.mod_eq_of_lt acc.isLt]
  | cons d rest inductionHypothesis =>
      rw [List.foldl_cons, inductionHypothesis, BitVec.toNat_add, Nat.mod_add_mod, List.map_cons,
        List.sum_cons, Nat.add_assoc]

section Average

variable {durations : List Latency} (nonEmpty : durations ≠ [])
  (noOverflow : (durations.map BitVec.toNat).sum < 2 ^ 63) (short : durations.length < 2 ^ 63)
include nonEmpty noOverflow short

theorem avgDuration_toNat :
    (avgDuration durations).toNat = (durations.map BitVec.toNat).sum / durations.length := by
  have total : (durations.foldl (· + ·) 0).toNat = (durations.map BitVec.toNat).sum := by
    rw [foldl_add_toNat, BitVec.ofNat_eq_ofNat, BitVec.toNat_ofNat, Nat.zero_mod, Nat.zero_add,
      Nat.mod_eq_of_lt (by omega)]
  have count : (BitVec.ofNat 64 durations.length).toNat = durations.length := by
    rw [BitVec.toNat_ofNat, Nat.mod_eq_of_lt (by omega)]
  have totalNonneg : (durations.foldl (· + ·) 0).msb = false :=
    BitVec.msb_eq_false_iff_two_mul_lt.mpr (by rw [total]; omega)
  have countNonneg : (BitVec.ofNat 64 durations.length).msb = false :=
    BitVec.msb_eq_false_iff_two_mul_lt.mpr (by rw [count]; omega)
  rw [avgDuration, if_neg (mt List.length_eq_zero.mp nonEmpty), BitVec.sdiv_eq, totalNonneg,
    countNonneg, BitVec.udiv_eq, BitVec.toNat_udiv, total, count]

theorem avgDuration_between :
    (∃ d ∈ durations, d.toNat ≤ (avgDuration durations).toNat) ∧
      ∃ d ∈ durations, (avgDuration durations).toNat ≤ d.toNat := by
  have positive : 0 < durations.length := List.length_pos.mpr nonEmpty
  have constSum : ∀ a : Nat, (durations.map fun _ => a).sum = durations.length * a := fun a => by
    rw [List.map_const', List.sum_const_nat]
  rw [avgDuration_toNat nonEmpty noOverflow short]
  constructor
  · obtain ⟨d, listed, below⟩ := List.exists_lt_of_sum_lt _ _
      (show (durations.map BitVec.toNat).sum <
          (durations.map fun _ => (durations.map BitVec.toNat).sum / durations.length + 1).sum by
        rw [constSum]
        exact Nat.lt_mul_div_succ _ positive)
    exact ⟨d, listed, Nat.le_of_lt_succ below⟩
  · exact List.exists_le_of_sum_le nonEmpty _ _
      (show (durations.map fun _ => (durations.map BitVec.toNat).sum / durations.length).sum ≤
          (durations.map BitVec.toNat).sum by
        rw [constSum]
        exact Nat.mul_div_le _ _)

end Average

/-- The average the lab reports for a run of `benchmarkReads` is `0` when
every query fails; otherwise, unless the latencies add up to `2^63`
nanoseconds or more, it is the floor of their mean, and lies between the
fastest and the slowest query that did not fail. -/
theorem benchmarkReads_average (find : Nat → String → Option Latency)
    (noOverflow : ((benchmarkReads find).map BitVec.toNat).sum < 2 ^ 63) :
    (benchmarkReads find = [] → avgDuration (benchmarkReads find) = 0) ∧
    (benchmarkReads find ≠ [] →
      (avgDuration (benchmarkReads find)).toNat =
          ((benchmarkReads find).map BitVec.toNat).sum / (benchmarkReads find).length ∧
        (∃ d ∈ benchmarkReads find, d.toNat ≤ (avgDuration (benchmarkReads find)).toNat) ∧
        ∃ d ∈ benchmarkReads find, (avgDuration (benchmarkReads find)).toNat ≤ d.toNat) := by
  have short : (benchmarkReads find).length < 2 ^ 63 :=
    (length_benchmarkReads_le find).trans_lt (by decide)
  refine ⟨fun none => by rw [none]; rfl, fun nonEmpty => ?_⟩
  exact ⟨avgDuration_toNat nonEmpty noOverflow short, avgDuration_between nonEmpty noOverflow short⟩

/-- Every query answers, query `i` after `i + 1` nanoseconds. -/
def allQueriesAnswer (i : Nat) (_filter : String) : Option Latency :=
  some (BitVec.ofNat 64 (i + 1))

theorem benchmarkReads_average_allQueriesAnswer :
    ((benchmarkReads allQueriesAnswer).map BitVec.toNat).sum < 2 ^ 63 ∧
      (benchmarkReads allQueriesAnswer = [] → avgDuration (benchmarkReads allQueriesAnswer) = 0) ∧
      (benchmarkReads allQueriesAnswer ≠ [] →
        (avgDuration (benchmarkReads allQueriesAnswer)).toNat =
            ((benchmarkReads allQueriesAnswer).map BitVec.toNat).sum /
              (benchmarkReads allQueriesAnswer).length ∧
          (∃ d ∈ benchmarkReads allQueriesAnswer,
            d.toNat ≤ (avgDuration (benchmarkReads allQueriesAnswer)).toNat) ∧
          ∃ d ∈ benchmarkReads allQueriesAnswer,
            (avgDuration (benchmarkReads allQueriesAnswer)).toNat ≤ d.toNat) :=
  have noOverflow : ((benchmarkReads allQueriesAnswer).map BitVec.toNat).sum < 2 ^ 63 := by
    decide
  ⟨noOverflow, benchmarkReads_average _ noOverflow⟩

end MongoShardingPoc.Operations
