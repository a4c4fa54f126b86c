import Mathlib.Algebra.Order.Group.Nat
import Mathlib.Data.List.Basic

/-!
Readers of a stream that may not have arrived yet.

A reader takes a value off the front of the stream, or finds that there is not
enough. A piece of a stream says a value if the reader takes it off, whatever
follows, and gives the value (`Says`). What is read one piece after another is said
by the pieces together (`Says.bind`, `says_times`).

Numbers are written in base 256, the high digit first (`bigEndian`).
-/

namespace Reading

universe u

variable {σ α β : Type u}

abbrev Reader (σ α : Type u) := StateT (List σ) Option α

def Says (r : Reader σ α) (piece : List σ) (a : α) : Prop :=
  ∀ rest, r (piece ++ rest) = some (a, rest)

theorem says_pure (a : α) : Says (pure a : Reader σ α) [] a := fun _ => rfl

theorem bind_apply (r : Reader σ α) (f : α → Reader σ β) (stream : List σ) :
    (r >>= f) stream = (r stream).bind fun p => f p.1 p.2 := by
  cases h : r stream with
  | none =>
    show (r stream).bind _ = none
    rw [h]
    rfl
  | some p =>
    show (r stream).bind _ = _
    rw [h]

theorem map_apply (r : Reader σ α) (f : α → β) (stream : List σ) :
    (do let x ← r; pure (f x) : Reader σ β) stream = (r stream).map fun p => (f p.1, p.2) := by
  rw [bind_apply]
  cases r stream with
  | none => rfl
  | some p => rfl

/-- One piece after another. -/
theorem Says.bind {r : Reader σ α} {f : α → Reader σ β} {piece piece' : List σ} {a : α} {b : β}
    (h : Says r piece a) (h' : Says (f a) piece' b) : Says (r >>= f) (piece ++ piece') b := by
  intro rest
  rw [bind_apply, List.append_assoc, h, Option.bind_some]
  exact h' rest

/-- The last piece. -/
theorem Says.map {r : Reader σ α} {f : α → β} {piece : List σ} {a : α} (h : Says r piece a) :
    Says (do let x ← r; pure (f x)) piece (f a) := by
  intro rest
  rw [map_apply, h, Option.map_some]

/-- So many values, one after another. -/
def times : ℕ → Reader σ α → Reader σ (List α)
  | 0, _ => pure []
  | n + 1, r => do
    let a ← r
    let as ← times n r
    pure (a :: as)

theorem says_times_map {r : Reader σ β} {write : α → List σ} {value : α → β} {as : List α}
    (h : ∀ a ∈ as, Says r (write a) (value a)) :
    Says (times as.length r) (as.flatMap write) (as.map value) := by
  induction as with
  | nil => exact says_pure []
  | cons a as ih =>
    rw [List.flatMap_cons]
    exact (h a List.mem_cons_self).bind (ih fun b hb => h b (List.mem_cons_of_mem a hb)).map

theorem says_times {r : Reader σ α} {write : α → List σ} {as : List α}
    (h : ∀ a ∈ as, Says r (write a) a) : Says (times as.length r) (as.flatMap write) as := by
  have values := says_times_map h
  rwa [List.map_id'] at values

/-! ### Numbers -/

def bigEndian : ℕ → ℕ → List UInt8
  | 0, _ => []
  | k + 1, n => bigEndian k (n / 256) ++ [UInt8.ofNat n]

def ofBigEndian (digits : List UInt8) : ℕ :=
  digits.foldl (fun n digit => n * 256 + digit.toNat) 0

theorem length_bigEndian (k n : ℕ) : (bigEndian k n).length = k := by
  induction k generalizing n with
  | zero => rfl
  | succ k ih => rw [bigEndian, List.length_append, ih, List.length_singleton]

theorem ofBigEndian_append_singleton (digits : List UInt8) (digit : UInt8) :
    ofBigEndian (digits ++ [digit]) = ofBigEndian digits * 256 + digit.toNat := by
  rw [ofBigEndian, List.foldl_append]
  rfl

/-- Digits that do not fit are lost. -/
theorem ofBigEndian_bigEndian (k n : ℕ) : ofBigEndian (bigEndian k n) = n % 256 ^ k := by
  induction k generalizing n with
  | zero =>
    rw [pow_zero, Nat.mod_one]
    rfl
  | succ k ih =>
    have last : n % 256 ^ (k + 1) = n % 256 + 256 * (n / 256 % 256 ^ k) := by
      rw [pow_succ', Nat.mod_mul]
    rw [bigEndian, ofBigEndian_append_singleton, ih, UInt8.toNat_ofNat', last]
    omega

end Reading
