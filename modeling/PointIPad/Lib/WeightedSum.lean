import Mathlib.Algebra.BigOperators.Ring.Finset
import Mathlib.Algebra.BigOperators.Ring.List
import Mathlib.Algebra.Order.BigOperators.Group.List

/-!
Sums of values by how often each is counted.

A line is something together with a number of units of it. `weightedSum` counts a
value for every unit (`sum_map_units`). While no two lines are about the same
thing, the sum is determined by how many units there are of each
(`weightedSum_eq_sum`), so the order of the lines does not matter
(`weightedSum_congr`).
-/

namespace WeightedSum

variable {α R : Type*}

section Semiring

variable [Semiring R] {lines : List (α × ℕ)} {f g : α → R}

def weightedSum (lines : List (α × ℕ)) (f : α → R) : R := (lines.map fun l => l.2 * f l.1).sum

@[simp] theorem weightedSum_nil : weightedSum [] f = 0 := rfl

@[simp] theorem weightedSum_cons (a : α) (n : ℕ) :
    weightedSum ((a, n) :: lines) f = n * f a + weightedSum lines f := by
  simp [weightedSum]

/-- The things of the lines, each as often as it has units. -/
def units (lines : List (α × ℕ)) : List α := lines.flatMap fun l => List.replicate l.2 l.1

theorem units_cons (a : α) (n : ℕ) : units ((a, n) :: lines) = List.replicate n a ++ units lines :=
  rfl

theorem sum_map_units : ((units lines).map f).sum = weightedSum lines f := by
  induction lines with
  | nil => rfl
  | cons l lines ih =>
    rw [weightedSum_cons, ← ih, units_cons, List.map_append, List.sum_append, List.map_replicate,
      List.sum_replicate, nsmul_eq_mul]

theorem weightedSum_add :
    weightedSum lines (fun a => f a + g a) = weightedSum lines f + weightedSum lines g := by
  simp only [weightedSum, mul_add, List.sum_map_add]

theorem weightedSum_mul_right (c : R) :
    weightedSum lines (fun a => f a * c) = weightedSum lines f * c := by
  simp only [weightedSum, ← mul_assoc, List.sum_map_mul_right]

end Semiring

/-! ### Sums of nothing negative -/

section Ordered

theorem sum_map_eq_zero_iff [AddCommMonoid R] [PartialOrder R] [IsOrderedAddMonoid R]
    {xs : List α} {f : α → R} (nonneg : ∀ x ∈ xs, 0 ≤ f x) :
    (xs.map f).sum = 0 ↔ ∀ x ∈ xs, f x = 0 := by
  constructor
  · intro zero x hx
    refine List.all_zero_of_le_zero_le_of_sum_eq_zero ?_ zero (List.mem_map_of_mem hx)
    intro y hy
    obtain ⟨z, hz, rfl⟩ := List.mem_map.mp hy
    exact nonneg z hz
  · intro zeros
    refine List.sum_eq_zero fun y hy => ?_
    obtain ⟨z, hz, rfl⟩ := List.mem_map.mp hy
    exact zeros z hz

end Ordered

/-! ### Units of one thing -/

section Units

variable [DecidableEq α] {lines lines' : List (α × ℕ)} {a : α}

/-- The units of the first line about something; 0 if there is none. -/
def unitsOf (lines : List (α × ℕ)) (a : α) : ℕ := (lines.lookup a).getD 0

theorem unitsOf_of_not_mem (absent : a ∉ lines.map Prod.fst) : unitsOf lines a = 0 := by
  have none : lines.lookup a = none := by
    rw [List.lookup_eq_none_iff]
    intro l hl
    rw [bne_iff_ne]
    rintro rfl
    exact absent (List.mem_map_of_mem hl)
  rw [unitsOf, none, Option.getD_none]

theorem unitsOf_cons (b : α) (n : ℕ) :
    unitsOf ((b, n) :: lines) a = if a = b then n else unitsOf lines a := by
  by_cases same : a = b
  · rw [unitsOf, same, List.lookup_cons_self, if_pos rfl, Option.getD_some]
  · rw [unitsOf, unitsOf, List.lookup_cons, beq_false_of_ne same, if_neg same]

theorem unitsOf_of_mem (nodup : (lines.map Prod.fst).Nodup) {n : ℕ} (mem : (a, n) ∈ lines) :
    unitsOf lines a = n := by
  induction lines with
  | nil => cases mem
  | cons l lines ih =>
    obtain ⟨b, m⟩ := l
    obtain ⟨fresh, nodup⟩ := List.nodup_cons.mp nodup
    rw [unitsOf_cons]
    rcases List.mem_cons.mp mem with first | mem
    · cases first
      rw [if_pos rfl]
    · have ne : a ≠ b := by
        intro same
        have known : a ∈ lines.map Prod.fst := List.mem_map_of_mem mem
        rw [same] at known
        exact fresh known
      rw [if_neg ne, ih nodup mem]

/-- There are units if and only if there are some of something. -/
theorem units_ne_nil_iff (nodup : (lines.map Prod.fst).Nodup) :
    units lines ≠ [] ↔ ∃ a, unitsOf lines a ≠ 0 := by
  have iff_line : units lines ≠ [] ↔ ∃ l ∈ lines, l.2 ≠ 0 := by
    simp [units, List.flatMap_eq_nil_iff]
  rw [iff_line]
  constructor
  · rintro ⟨l, hl, some⟩
    exact ⟨l.1, by rwa [unitsOf_of_mem nodup hl]⟩
  · rintro ⟨a, some⟩
    by_cases mem : a ∈ lines.map Prod.fst
    · obtain ⟨l, hl, rfl⟩ := List.mem_map.mp mem
      rw [unitsOf_of_mem nodup hl] at some
      exact ⟨l, hl, some⟩
    · exact absurd (unitsOf_of_not_mem mem) some

theorem weightedSum_eq_sum [Semiring R] (nodup : (lines.map Prod.fst).Nodup) {s : Finset α}
    (covers : ∀ l ∈ lines, l.1 ∈ s) (f : α → R) :
    weightedSum lines f = ∑ a ∈ s, unitsOf lines a * f a := by
  induction lines with
  | nil => simp [unitsOf]
  | cons l lines ih =>
    obtain ⟨b, n⟩ := l
    obtain ⟨fresh, nodup⟩ := List.nodup_cons.mp nodup
    -- the first line is the only one about `b`
    have split : ∀ a, (unitsOf ((b, n) :: lines) a : R) * f a =
        (if a = b then (n : R) * f a else 0) + unitsOf lines a * f a := by
      intro a
      rw [unitsOf_cons]
      split
      · rename_i same
        rw [same, unitsOf_of_not_mem fresh, Nat.cast_zero, zero_mul, add_zero]
      · rw [zero_add]
    rw [weightedSum_cons, ih nodup fun l hl => covers l (List.mem_cons_of_mem _ hl)]
    simp only [split, Finset.sum_add_distrib, Finset.sum_ite_eq']
    rw [if_pos (covers (b, n) List.mem_cons_self)]

/-- Lines with the same units of everything have the same sum. -/
theorem weightedSum_congr [Semiring R] (nodup : (lines.map Prod.fst).Nodup)
    (nodup' : (lines'.map Prod.fst).Nodup) (same : ∀ a, unitsOf lines a = unitsOf lines' a)
    (f : α → R) : weightedSum lines f = weightedSum lines' f := by
  have covers : ∀ l ∈ lines, l.1 ∈ ((lines ++ lines').map Prod.fst).toFinset := by
    intro l hl
    rw [List.mem_toFinset]
    exact List.mem_map_of_mem (List.mem_append_left _ hl)
  have covers' : ∀ l ∈ lines', l.1 ∈ ((lines ++ lines').map Prod.fst).toFinset := by
    intro l hl
    rw [List.mem_toFinset]
    exact List.mem_map_of_mem (List.mem_append_right _ hl)
  rw [weightedSum_eq_sum nodup covers, weightedSum_eq_sum nodup' covers']
  simp only [same]

end Units

end WeightedSum
