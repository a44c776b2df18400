import IndexAdvisor.Plan
import IndexAdvisor.Proofs.Json.Double
import IndexAdvisor.Proofs.Json.Number
import Mathlib.Algebra.BigOperators.Group.List.Basic
import Mathlib.Algebra.Group.Action.Defs
import Mathlib.Algebra.Order.BigOperators.Group.List

/-!
# Costs of a plan

The operators of a plan are paid from the last to the first, so the one that stands first costs
most. The scans share the total: with a join by a division that is worked out in double precision.
The share of a table is twice the total over an odd number and so is never a half; it stays further
from one than the division can be wrong, and the rounded cost is the one that exact division gives.
-/

set_option autoImplicit false

namespace IndexAdvisor.Plan

open IndexAdvisor.Json (Double)
open IndexAdvisor.Sql

/-! ## Operators -/

/-- The operators of a statement in the order in which they stand, each with its description and
what it adds to the running cost. -/
def standing (f : Features) : List (Kind × String × Nat) :=
  (if f.hasJoin then [(.hashJoin, f.joinConditionText, 300)] else []) ++
  (if f.hasWhere then [(.filter, f.whereText, 200)] else []) ++
  (if f.hasGroupBy then [(.groupBy, "Group by " ++ f.groupByText, 200)] else []) ++
  (if f.hasOrderBy then [(.sort, "Sort by " ++ f.orderByText, 150)] else [])

/-- What some operators add to the running cost. -/
def added (ops : List (Kind × String × Nat)) : Nat := (ops.map fun o => o.2.2).sum

/-- What operators cost, in the order in which they stand: each the cost before all of them and
what those behind it add. -/
def operatorCosts (cost : Nat) : List (Kind × String × Nat) → List Nat
  | [] => []
  | _ :: later => (cost + added later) :: operatorCosts cost later

/-- The step of an operator with this cost. -/
def step (o : Kind × String × Nat) (cost : Nat) : Node := .operator o.1 o.2.1 cost

/-- An operator with what its kind adds to the running cost. -/
def charged (o : Kind × String) : Kind × String × Nat := (o.1, o.2, o.1.increment)

theorem length_operatorCosts (cost : Nat) (ops : List (Kind × String × Nat)) :
    (operatorCosts cost ops).length = ops.length := by
  induction ops with
  | nil => rfl
  | cons o later ih => rw [operatorCosts, List.length_cons, List.length_cons, ih]

theorem added_append (ops ops' : List (Kind × String × Nat)) :
    added (ops ++ ops') = added ops + added ops' := by
  rw [added, List.map_append, List.sum_append]
  rfl

theorem added_singleton (o : Kind × String × Nat) : added [o] = o.2.2 := List.sum_singleton

theorem added_ite (present : Bool) (o : Kind × String × Nat) :
    added (if present then [o] else []) = if present then o.2.2 else 0 := by
  cases present with
  | false => rfl
  | true => exact added_singleton o

theorem operatorCosts_concat (cost : Nat) (ops : List (Kind × String × Nat))
    (o : Kind × String × Nat) :
    operatorCosts cost (ops ++ [o]) = operatorCosts (cost + o.2.2) ops ++ [cost] := by
  induction ops with
  | nil => rfl
  | cons p later ih =>
      have hcost : cost + added (later ++ [o]) = cost + o.2.2 + added later := by
        rw [added_append, added_singleton, Nat.add_comm (added later), Nat.add_assoc]
      rw [List.cons_append, operatorCosts, operatorCosts, ih, hcost]
      rfl

/-- The operator that is paid last stands first. -/
theorem stack_eq (cost : Nat) (ops : List (Kind × String)) :
    stack cost ops =
      (List.zipWith step (ops.reverse.map charged) (operatorCosts cost (ops.reverse.map charged)),
        cost + added (ops.reverse.map charged)) := by
  induction ops generalizing cost with
  | nil => rfl
  | cons o more ih =>
      obtain ⟨kind, description⟩ := o
      have htotal (ops : List (Kind × String × Nat)) : cost + kind.increment + added ops =
          cost + added (ops ++ [charged (kind, description)]) := by
        rw [added_append, added_singleton, Nat.add_comm (added ops), ← Nat.add_assoc]
        rfl
      rw [stack, ih, List.reverse_cons, List.map_append, List.map_singleton, operatorCosts_concat,
        List.zipWith_append (by rw [length_operatorCosts]), htotal]
      rfl

theorem map_charged_operators (f : Features) : (operators f).reverse.map charged = standing f := by
  unfold operators standing
  cases f.hasOrderBy <;> cases f.hasGroupBy <;> cases f.hasWhere <;> cases f.hasJoin <;> rfl

theorem added_standing (f : Features) :
    added (standing f) = (if f.hasJoin then 300 else 0) + (if f.hasWhere then 200 else 0) +
      (if f.hasGroupBy then 200 else 0) + if f.hasOrderBy then 150 else 0 := by
  simp only [standing, added_append, added_ite]

/-- What has run up when all operators are paid is even, and small. -/
theorem exists_total_eq (f : Features) :
    ∃ m, 100 + added (standing f) = 2 * m ∧ 50 ≤ m ∧ m ≤ 475 := by
  refine ⟨50 + (if f.hasJoin then 150 else 0) + (if f.hasWhere then 100 else 0) +
    (if f.hasGroupBy then 100 else 0) + if f.hasOrderBy then 75 else 0, ?_⟩
  rw [added_standing]
  split_ifs <;> omega

theorem mem_operatorCosts_le {cost c : Nat} {ops : List (Kind × String × Nat)}
    (h : c ∈ operatorCosts cost ops) : c ≤ cost + added ops := by
  induction ops with
  | nil => cases h
  | cons o later ih =>
      have hadded : added (o :: later) = o.2.2 + added later := rfl
      rcases List.mem_cons.mp h with rfl | h
      · omega
      · have := ih h
        omega

/-! ## Scans -/

theorem value_half : (Double.nearest 3 2 0).value = 3 / 2 := by
  rw [Double.value_nearest_eq (n := 3) (j := -1) two_ne_zero (by norm_num) (by norm_num)
    (by norm_num)]
  norm_num

/-- A share is not too small to be rounded as a number in double precision. -/
theorem two_zpow_le_share {total k : Nat} (hpos : 0 < total) (hk : k < 2 ^ 50) :
    (2 : ℚ) ^ (-1022 : Int) ≤ (2 * total : Nat) / (2 * k + 3 : Nat) := by
  calc (2 : ℚ) ^ (-1022 : Int) ≤ 2 ^ (-53 : Int) := by
        gcongr
        · norm_num
        · norm_num
    _ = 1 / (2 ^ 53 : Nat) := by norm_num
    _ ≤ (2 * total : Nat) / (2 * k + 3 : Nat) := by
        gcongr
        · exact_mod_cast (by omega : 1 ≤ 2 * total)
        · omega

/-- **With a join** a scan costs the natural number that is nearest to its share. There is always
one: a share is no half. -/
theorem abs_scanCost_sub_lt {total k : Nat} (hpos : 0 < total) (htotal : total < 2 ^ 51)
    (hk : k < 2 ^ 50) : |(scanCost total k true : ℚ) - total / (k + 3 / 2)| < 1 / 2 := by
  have hsum : (Double.ofNat k).value + (Double.nearest 3 2 0).value =
      (2 * k + 3 : Nat) * 2 ^ (-1 : Int) := by
    rw [Double.value_ofNat (by omega), value_half]
    push_cast
    ring
  have hdivisor := Double.value_plus hsum (by omega) (by norm_num)
  have hshare : (Double.ofNat total).value /
      ((Double.ofNat k).plus (Double.nearest 3 2 0)).value =
        (2 * total : Nat) / (2 * k + 3 : Nat) := by
    rw [Double.value_ofNat (by omega), hdivisor]
    push_cast
    field_simp
  have hne : (Double.ofNat total).value ≠ 0 := by
    rw [Double.value_ofNat (by omega)]
    exact_mod_cast hpos.ne'
  have hne' : ((Double.ofNat k).plus (Double.nearest 3 2 0)).value ≠ 0 := by
    rw [hdivisor]
    positivity
  obtain ⟨place, hrounds⟩ := Double.exists_rounds_quotient hne hne' (hshare ▸ two_zpow_le_share hpos hk)
  have herror := hrounds.error_le
  rw [hshare] at herror
  have hround := Double.abs_round_sub_lt ⟨k + 1, by ring⟩ (by omega) herror
  have hquotient : ((2 * total : Nat) : ℚ) / (2 * k + 3 : Nat) = total / (k + 3 / 2) := by
    push_cast
    field_simp
  rwa [hquotient] at hround

/-- **Without a join** it costs half of the total. -/
theorem scanCost_two_mul {m : Nat} (hm : m < 2 ^ 52) (k : Nat) : scanCost (2 * m) k false = m := by
  have hhalf : (Double.ofNat (2 * m)).value / (Double.ofNat 2).value = m * 2 ^ (0 : Int) := by
    rw [Double.value_ofNat (by omega), Double.value_ofNat (by norm_num)]
    push_cast
    field_simp
  refine Double.round_eq ?_
  have hne : (Double.ofNat 2).value ≠ 0 := by
    rw [Double.value_ofNat (by norm_num)]
    norm_num
  have hvalue := Double.value_quotient hne hhalf (by omega) (by norm_num)
  rwa [zpow_zero, mul_one] at hvalue

/-- The nearest natural numbers lie as the numbers themselves do. -/
theorem le_of_abs_sub_lt {m n : Nat} {x y : ℚ} (hm : |(m : ℚ) - x| < 1 / 2)
    (hn : |(n : ℚ) - y| < 1 / 2) (h : x ≤ y) : m ≤ n := by
  have hlow := (abs_lt.mp hm).2
  have hhigh := (abs_lt.mp hn).1
  have hlt : (m : ℚ) < (n + 1 : Nat) := by
    push_cast
    linarith
  exact Nat.lt_succ_iff.mp (Nat.cast_lt.mp hlt)

/-- **Scans cost no more than those before them.** -/
theorem scanCost_antitone {m j k : Nat} (hpos : 0 < m) (hm : m < 2 ^ 50) (hjk : j ≤ k)
    (hk : k < 2 ^ 50) (hasJoin : Bool) :
    scanCost (2 * m) k hasJoin ≤ scanCost (2 * m) j hasJoin := by
  cases hasJoin with
  | false => rw [scanCost_two_mul (by omega), scanCost_two_mul (by omega)]
  | true =>
      refine le_of_abs_sub_lt (abs_scanCost_sub_lt (by omega) (by omega) hk)
        (abs_scanCost_sub_lt (by omega) (by omega) (by omega)) ?_
      gcongr

/-- No scan costs more than the total. -/
theorem scanCost_le {m k : Nat} (hpos : 0 < m) (hm : m < 2 ^ 50) (hk : k < 2 ^ 50)
    (hasJoin : Bool) : scanCost (2 * m) k hasJoin ≤ 2 * m := by
  cases hasJoin with
  | false =>
      rw [scanCost_two_mul (by omega)]
      omega
  | true =>
      refine le_of_abs_sub_lt (abs_scanCost_sub_lt (by omega) (by omega) hk)
        (y := (2 * m : Nat)) (by norm_num) ?_
      refine div_le_self (by positivity) ?_
      have : (0 : ℚ) ≤ k := by positivity
      linarith

/-! ## Texts of costs -/

theorem unsigned?_toDigits {bits n : Nat} (h : n < 2 ^ bits) :
    Text.unsigned? bits (Nat.toDigits 10 n) = some n := by
  rw [Text.unsigned?, Text.natural?_toDigits]
  · exact if_pos h
  · intro ds hds
    have hplus : '+' ∈ Nat.toDigits 10 n := by
      rw [hds]
      exact List.mem_cons_self
    exact absurd (Json.isDigit_of_mem_toDigits hplus) (by decide)

theorem costValue?_eq {n : Node} {c : Nat} (hcost : n.cost = toString c) (hc : c < 2 ^ 64) :
    n.costValue? = some c := by
  rw [Node.costValue?, hcost, Nat.toString_eq_repr, Nat.toList_repr, unsigned?_toDigits hc]

/-- Steps that are made with some costs have these costs. -/
theorem map_costValue?_zipWith {α : Type} {make : α → Nat → Node}
    (hmake : ∀ x c, (make x c).cost = toString c) {xs : List α} {costs : List Nat}
    (hlength : costs.length = xs.length) (hcosts : ∀ c ∈ costs, c < 2 ^ 64) :
    (List.zipWith make xs costs).map Node.costValue? = costs.map some := by
  induction xs generalizing costs with
  | nil =>
      rw [List.length_eq_zero_iff.mp hlength]
      rfl
  | cons x xs ih =>
      obtain ⟨c, costs, rfl⟩ := List.exists_cons_of_length_eq_add_one hlength
      have hrest := ih (Nat.succ.inj hlength) fun d hd => hcosts d (List.mem_cons_of_mem c hd)
      rw [List.zipWith_cons_cons, List.map_cons, List.map_cons, hrest,
        costValue?_eq (hmake x c) (hcosts c List.mem_cons_self)]

theorem totalCost_eq_sum {plan : List Node} {costs : List Nat}
    (h : plan.map Node.costValue? = costs.map some) (hsum : costs.sum < 2 ^ 64) :
    totalCost plan = costs.sum := by
  have hvalues : plan.filterMap Node.costValue? = costs := by
    calc plan.filterMap Node.costValue?
        = (plan.map Node.costValue?).filterMap id := by
          rw [List.filterMap_map]
          rfl
      _ = costs := by
          rw [h, List.filterMap_map]
          exact List.filterMap_some
  rw [totalCost, hvalues, ← List.sum_eq_foldl]
  exact Nat.mod_eq_of_lt hsum

/-! ## Plans -/

/-- What the scans of a plan cost, in the order of the tables. -/
def scanCosts (f : Features) : List Nat :=
  (List.range f.tables.length).map fun k => scanCost (100 + added (standing f)) k f.hasJoin

theorem length_scanCosts (f : Features) : (scanCosts f).length = f.tables.length := by
  rw [scanCosts, List.length_map, List.length_range]

theorem ofFeatures_eq (f : Features) :
    ofFeatures f = List.zipWith step (standing f) (operatorCosts 100 (standing f)) ++
      List.zipWith .scan f.tables (scanCosts f) := by
  have hscans : f.tables.mapIdx (fun k table =>
      Node.scan table (scanCost (100 + added (standing f)) k f.hasJoin)) =
        List.zipWith .scan f.tables (scanCosts f) := by
    refine List.ext_getElem (by simp [length_scanCosts]) fun k hk hk' => ?_
    simp [scanCosts]
  rw [ofFeatures, stack_eq, map_charged_operators, ← hscans]
  rfl

theorem mem_scanCosts {f : Features} {c : Nat} (h : c ∈ scanCosts f) :
    ∃ k < f.tables.length, c = scanCost (100 + added (standing f)) k f.hasJoin := by
  obtain ⟨k, hk, rfl⟩ := List.mem_map.mp h
  exact ⟨k, List.mem_range.mp hk, rfl⟩

theorem length_standing_le (f : Features) : (standing f).length ≤ 4 := by
  have hpart (present : Bool) (o : Kind × String × Nat) :
      (if present then [o] else []).length ≤ 1 := by
    cases present <;> simp
  unfold standing
  simp only [List.length_append]
  have := hpart f.hasJoin (.hashJoin, f.joinConditionText, 300)
  have := hpart f.hasWhere (.filter, f.whereText, 200)
  have := hpart f.hasGroupBy (.groupBy, "Group by " ++ f.groupByText, 200)
  have := hpart f.hasOrderBy (.sort, "Sort by " ++ f.orderByText, 150)
  omega

section Costs

variable {f : Features} (h : f.tables.length < 2 ^ 50)

include h

/-- No step of a plan costs more than the total that has run up. -/
theorem cost_le {c : Nat} (hc : c ∈ operatorCosts 100 (standing f) ++ scanCosts f) : c ≤ 950 := by
  obtain ⟨m, htotal, hlow, hhigh⟩ := exists_total_eq f
  rcases List.mem_append.mp hc with hc | hc
  · have := mem_operatorCosts_le hc
    omega
  · obtain ⟨k, hk, rfl⟩ := mem_scanCosts hc
    have hm : 0 < m ∧ m < 2 ^ 50 := by omega
    have := scanCost_le hm.1 hm.2 (hk.trans h) f.hasJoin
    rw [htotal]
    omega

theorem sum_costs_lt : (operatorCosts 100 (standing f) ++ scanCosts f).sum < 2 ^ 64 := by
  have hsum := List.sum_le_card_nsmul _ 950 fun c hc => cost_le h hc
  rw [List.length_append, length_operatorCosts, length_scanCosts, smul_eq_mul] at hsum
  have := length_standing_le f
  omega

theorem pairwise_scanCosts : (scanCosts f).Pairwise (· ≥ ·) := by
  obtain ⟨m, htotal, hlow, hhigh⟩ := exists_total_eq f
  have hm : 0 < m ∧ m < 2 ^ 50 := by omega
  rw [scanCosts, htotal, List.pairwise_map]
  refine List.pairwise_lt_range.imp_of_mem fun _ hk hlt => ?_
  exact scanCost_antitone hm.1 hm.2 hlt.le ((List.mem_range.mp hk).trans h) f.hasJoin

/-- What a scan costs is told by where it stands. -/
theorem scanCost_of_getElem? {k cost : Nat} (hcost : (scanCosts f)[k]? = some cost) :
    if f.hasJoin then |(cost : ℚ) - (100 + added (standing f) : Nat) / (k + 3 / 2)| < 1 / 2
    else (cost : ℚ) = (100 + added (standing f) : Nat) / 2 := by
  obtain ⟨m, htotal, hlow, hhigh⟩ := exists_total_eq f
  obtain ⟨hk, rfl⟩ := List.getElem?_eq_some_iff.mp hcost
  have hscan : (scanCosts f)[k] = scanCost (2 * m) k f.hasJoin := by
    simp only [scanCosts, List.getElem_map, List.getElem_range, htotal]
  rw [length_scanCosts] at hk
  rw [hscan, htotal]
  cases f.hasJoin with
  | false =>
      have hhalf : ((2 * m : Nat) : ℚ) / 2 = m := by
        push_cast
        ring
      rw [scanCost_two_mul (by omega), if_neg Bool.false_ne_true, hhalf]
  | true => exact abs_scanCost_sub_lt (by omega) (by omega) (hk.trans h)

end Costs

/-- **The plan of a statement and its costs.** The operators stand in the order join, filter,
grouping, sort, and each costs 100 and what those behind it add. One scan for each table follows, in
the order of the tables: without a join it costs half of the total, with one the natural number that
is nearest to the total over the position and a half more than one, and then no number is as near.
Scans cost no more than those before them, every cost reads back as the number it was written from,
and the total cost is the sum of them all. -/
theorem exists_scans_of_features (f : Features) (h : f.tables.length < 2 ^ 50) :
    let total := 100 + added (standing f)
    let costs := operatorCosts 100 (standing f)
    ∃ scans : List Nat,
      ofFeatures f = List.zipWith step (standing f) costs ++ List.zipWith .scan f.tables scans ∧
      costs.length = (standing f).length ∧ scans.length = f.tables.length ∧
      (∀ (k cost : Nat), scans[k]? = some cost →
        if f.hasJoin then |(cost : ℚ) - total / (k + 3 / 2)| < 1 / 2 else (cost : ℚ) = total / 2) ∧
      scans.Pairwise (· ≥ ·) ∧
      (ofFeatures f).map Node.costValue? = (costs ++ scans).map some ∧
      totalCost (ofFeatures f) = (costs ++ scans).sum := by
  intro total costs
  have hvalues : (ofFeatures f).map Node.costValue? = (costs ++ scanCosts f).map some := by
    have hlt : ∀ c ∈ costs ++ scanCosts f, c < 2 ^ 64 := fun c hc => by
      have := cost_le h hc
      omega
    rw [ofFeatures_eq, List.map_append, List.map_append,
      map_costValue?_zipWith (fun _ _ => rfl) (length_operatorCosts 100 (standing f))
        fun c hc => hlt c (List.mem_append_left _ hc),
      map_costValue?_zipWith (fun _ _ => rfl) (length_scanCosts f)
        fun c hc => hlt c (List.mem_append_right _ hc)]
  refine ⟨scanCosts f, ofFeatures_eq f, length_operatorCosts 100 (standing f), length_scanCosts f,
    fun _ _ => scanCost_of_getElem? h, pairwise_scanCosts h, hvalues,
    totalCost_eq_sum hvalues (sum_costs_lt h)⟩

/-- Three tables of a statement with a join, a condition and an ordering. -/
theorem exists_scans_of_three_tables :
    let f := features "SELECT * FROM a, b, c JOIN d ON a.x = d.y WHERE a.z = 1 ORDER BY a.w"
    (standing f).map Prod.fst = [.hashJoin, .filter, .sort] ∧
      ofFeatures f = List.zipWith step (standing f) [450, 250, 100] ++
        List.zipWith .scan ["a", "b", "c"] [500, 300, 214] ∧
      |(214 : ℚ) - 750 / (2 + 3 / 2)| < 1 / 2 ∧ totalCost (ofFeatures f) = 1814 := by
  intro f
  obtain ⟨scans, hplan, -, -, hscan, -, hvalues, htotal⟩ :=
    exists_scans_of_features f (by decide +kernel)
  have htables : f.tables = ["a", "b", "c"] := by decide +kernel
  have hcosts : operatorCosts 100 (standing f) = [450, 250, 100] := by decide +kernel
  have hread : (ofFeatures f).map Node.costValue? =
      ([450, 250, 100] ++ [500, 300, 214]).map some := by decide +kernel
  rw [hread, hcosts] at hvalues
  obtain rfl : [500, 300, 214] = scans :=
    List.append_cancel_left (List.map_injective_iff.mpr (Option.some_injective Nat) hvalues)
  have hthird := hscan 2 214 rfl
  have hjoin : f.hasJoin = true := by decide +kernel
  have hsum : 100 + added (standing f) = 750 := by decide +kernel
  rw [hjoin, hsum, if_pos rfl] at hthird
  rw [hcosts] at htotal
  rw [htables, hcosts] at hplan
  exact ⟨by decide +kernel, hplan, mod_cast hthird, htotal⟩

end IndexAdvisor.Plan
