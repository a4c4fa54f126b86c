import Mathlib.Data.List.Nodup
import Mathlib.Logic.Function.Iterate

/-!
Going round a list.

`next` leads from an element of a list to the one after it, from the last to the
first, and from anything else to the first. So a list without repetitions is gone
round from wherever one starts: every step leads into the list (`next_mem`), and the
steps after the first follow it (`iterate_next`).
-/

namespace Cyclic

variable {α : Type*} [DecidableEq α]

/-- The index of the element that the next step leads to. -/
def start (cycle : List α) (a : α) : ℕ := if a ∈ cycle then cycle.idxOf a + 1 else 0

/-- The element after `a`, going round; the first one if `a` is not there. -/
def next (cycle : List α) (first : α) (a : α) : α :=
  (cycle[start cycle a % cycle.length]?).getD first

variable {cycle : List α} {first : α}

theorem next_of_not_mem {a : α} (h : a ∉ cycle) : next cycle first a = cycle.head?.getD first := by
  rw [next, start, if_neg h, Nat.zero_mod, List.head?_eq_getElem?]

theorem next_mem (nonempty : 0 < cycle.length) (a : α) : next cycle first a ∈ cycle := by
  have hlt : start cycle a % cycle.length < cycle.length := Nat.mod_lt _ nonempty
  rw [next, List.getElem?_eq_getElem hlt, Option.getD_some]
  exact List.getElem_mem hlt

theorem start_getElem (nodup : cycle.Nodup) {i : ℕ} (hi : i < cycle.length) :
    start cycle cycle[i] = i + 1 := by
  rw [start, if_pos (List.getElem_mem hi), nodup.idxOf_getElem]

/-- **The steps after the first follow the list.** -/
theorem iterate_next (nodup : cycle.Nodup) (nonempty : 0 < cycle.length) (a : α) (n : ℕ) :
    cycle[(start cycle a + n) % cycle.length]? = some ((next cycle first)^[n + 1] a) := by
  induction n with
  | zero =>
    have hlt : start cycle a % cycle.length < cycle.length := Nat.mod_lt _ nonempty
    rw [Function.iterate_one, next, Nat.add_zero, List.getElem?_eq_getElem hlt, Option.getD_some]
  | succ n ih =>
    have hlt : (start cycle a + n) % cycle.length < cycle.length := Nat.mod_lt _ nonempty
    rw [List.getElem?_eq_getElem hlt, Option.some.injEq] at ih
    have hnext : (start cycle a + (n + 1)) % cycle.length < cycle.length := Nat.mod_lt _ nonempty
    rw [Function.iterate_succ_apply', ← ih, next, start_getElem nodup hlt, Nat.mod_add_mod,
      Nat.add_assoc, List.getElem?_eq_getElem hnext, Option.getD_some]

end Cyclic
