import Mathlib.Logic.Function.Basic

/-!
A heap of objects of one type.

Objects are read and written at their addresses, so that two holders of one
address see each other's changes. Addresses are given out in order and stay in
use; the cells from `next` on hold a default.
-/

/-- The address of an object. -/
abbrev Addr := Nat

structure Heap (α : Type*) where
  next : Addr
  cell : Addr → α

namespace Heap

variable {α : Type*}

/-- No object yet. -/
def empty (default : α) : Heap α := ⟨0, fun _ => default⟩

def get (h : Heap α) (p : Addr) : α := h.cell p

def set (h : Heap α) (p : Addr) (a : α) : Heap α := { h with cell := Function.update h.cell p a }

/-- A new object, at the address `h.next`. -/
def alloc (h : Heap α) (a : α) : Heap α := ⟨h.next + 1, Function.update h.cell h.next a⟩

variable {h : Heap α} {p q : Addr} {a : α}

@[simp] theorem next_set : (h.set p a).next = h.next := rfl

@[simp] theorem next_alloc : (h.alloc a).next = h.next + 1 := rfl

@[simp] theorem get_set_self : (h.set p a).get p = a := by simp [get, set]

theorem get_set_of_ne (ne : q ≠ p) : (h.set p a).get q = h.get q := by
  simp [get, set, Function.update_of_ne ne]

@[simp] theorem get_alloc_self : (h.alloc a).get h.next = a := by
  simp [get, alloc]

/-- The objects in use keep their contents when another is made. -/
theorem get_alloc_of_lt (used : q < h.next) : (h.alloc a).get q = h.get q := by
  simp [get, alloc, Function.update_of_ne (Nat.ne_of_lt used)]

/-- Several new objects, one after the other. -/
def allocList (h : Heap α) (as : List α) : Heap α := as.foldl alloc h

@[simp] theorem next_allocList (h : Heap α) (as : List α) :
    (h.allocList as).next = h.next + as.length := by
  induction as generalizing h with
  | nil => rfl
  | cons a as ih =>
    rw [allocList, List.foldl_cons, List.length_cons]
    rw [← Nat.succ_add_eq_add_succ]
    exact ih (h.alloc a)

theorem get_allocList_of_lt (as : List α) (used : q < h.next) :
    (h.allocList as).get q = h.get q := by
  induction as generalizing h with
  | nil => rfl
  | cons a as ih =>
    rw [allocList, List.foldl_cons]
    exact (ih (h := h.alloc a) (Nat.lt_succ_of_lt used)).trans (get_alloc_of_lt used)

/-- A new object is one of those made. -/
theorem get_allocList_mem (as : List α) (new : h.next ≤ p) (made : p < h.next + as.length) :
    (h.allocList as).get p ∈ as := by
  induction as generalizing h with
  | nil => exact absurd made (Nat.not_lt_of_ge new)
  | cons a as ih =>
    rw [allocList, List.foldl_cons]
    rcases Nat.lt_or_eq_of_le new with later | first
    · apply List.mem_cons_of_mem
      apply ih (h := h.alloc a) later
      rw [next_alloc, Nat.succ_add_eq_add_succ]
      exact made
    · have hget : ((h.alloc a).allocList as).get p = a := by
        rw [← first]
        exact (get_allocList_of_lt as (Nat.lt_succ_self h.next)).trans get_alloc_self
      exact hget.symm ▸ List.mem_cons_self

end Heap
