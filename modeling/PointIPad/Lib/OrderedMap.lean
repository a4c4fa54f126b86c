import Mathlib.Algebra.BigOperators.Group.List.Basic
import Mathlib.Data.List.InsertIdx
import Mathlib.Data.List.Nodup

/-!
Insertion-ordered maps.

An `OrderedMap κ υ` is a list of key-value entries with distinct keys: a finite
map that also remembers in which order its keys came. The keys keep their
position under every operation but `eraseRow`, which closes the gap; a new key
goes to the end. `get?` reads a value by its key, and an entry is determined by
its key (`get?_eq_some_iff`), so each operation is described by its `keys` lemma
and its two `get?` lemmas, one for the key it is about and one for the others.
-/

/-- A list of entries with distinct keys. -/
structure OrderedMap (κ υ : Type*) where
  entries : List (κ × υ)
  nodup : (entries.map Prod.fst).Nodup

namespace OrderedMap

variable {κ υ : Type*}

@[ext] theorem ext {m n : OrderedMap κ υ} (h : m.entries = n.entries) : m = n := by
  cases m; cases n; simp_all

/-- The map with no entry. -/
def empty : OrderedMap κ υ := ⟨[], List.nodup_nil⟩

/-- The keys, in order. -/
def keys (m : OrderedMap κ υ) : List κ := m.entries.map Prod.fst

/-- The values, in the order of their keys. -/
def values (m : OrderedMap κ υ) : List υ := m.entries.map Prod.snd

theorem keys_nodup (m : OrderedMap κ υ) : m.keys.Nodup := m.nodup

theorem length_values (m : OrderedMap κ υ) : m.values.length = m.keys.length := by
  simp [values, keys]

@[simp] theorem values_empty : (empty : OrderedMap κ υ).values = [] := rfl

@[simp] theorem keys_empty : (empty : OrderedMap κ υ).keys = [] := rfl

/-- The entry whose row is given drops out; the rows after it move up. -/
def eraseRow (m : OrderedMap κ υ) (row : Nat) : OrderedMap κ υ :=
  ⟨m.entries.eraseIdx row,
    m.nodup.sublist ((List.eraseIdx_sublist m.entries row).map Prod.fst)⟩

@[simp] theorem keys_eraseRow (m : OrderedMap κ υ) (row : Nat) :
    (m.eraseRow row).keys = m.keys.eraseIdx row := by
  simp [keys, eraseRow, List.eraseIdx_map]

@[simp] theorem values_eraseRow (m : OrderedMap κ υ) (row : Nat) :
    (m.eraseRow row).values = m.values.eraseIdx row := by
  simp [values, eraseRow, List.eraseIdx_map]

variable [DecidableEq κ]

/-- The value of a key. -/
def get? (m : OrderedMap κ υ) (k : κ) : Option υ :=
  (m.entries.find? fun e => e.1 = k).map Prod.snd

/-- Apply `f` to the value of a key; no other entry and no key changes. -/
def modify (m : OrderedMap κ υ) (k : κ) (f : υ → υ) : OrderedMap κ υ :=
  ⟨m.entries.map fun e => if e.1 = k then (e.1, f e.2) else e, by
    have hkeys : ((m.entries.map fun e => if e.1 = k then (e.1, f e.2) else e).map Prod.fst)
        = m.entries.map Prod.fst := by
      rw [List.map_map]
      refine List.map_congr_left fun e _ => ?_
      simp only [Function.comp_apply]
      split <;> rfl
    rw [hkeys]
    exact m.nodup⟩

/-- Apply `f` to the value of the key in a row. -/
def modifyRow (m : OrderedMap κ υ) (row : Nat) (f : υ → υ) : OrderedMap κ υ :=
  match m.keys[row]? with
  | some k => m.modify k f
  | none => m

/-- Apply `f` to the value of a key, or give a new key the value `v` at the end. -/
def upsert (m : OrderedMap κ υ) (k : κ) (v : υ) (f : υ → υ) : OrderedMap κ υ :=
  if h : k ∈ m.keys then m.modify k f
  else ⟨m.entries ++ [(k, v)], by
    rw [List.map_append, List.nodup_append]
    refine ⟨m.nodup, by simp, ?_⟩
    rintro a ha b hb rfl
    simp only [List.map_cons, List.map_nil, List.mem_singleton] at hb
    exact h (hb ▸ ha)⟩

/-! ### Reading by key -/

section Get

variable {m : OrderedMap κ υ} {k : κ} {v : υ}

omit [DecidableEq κ] in
theorem mem_keys_iff : k ∈ m.keys ↔ ∃ v, (k, v) ∈ m.entries := by
  simp [keys]

/-- An entry is determined by its key. -/
theorem get?_eq_some_iff : m.get? k = some v ↔ (k, v) ∈ m.entries := by
  rw [get?, Option.map_eq_some_iff]
  constructor
  · rintro ⟨e, hfind, rfl⟩
    have hk : e.1 = k := by simpa using List.find?_some hfind
    rw [← hk]
    exact List.mem_of_find?_eq_some hfind
  · intro hmem
    cases hfind : m.entries.find? fun e => e.1 = k with
    | none =>
      have := List.find?_eq_none.mp hfind (k, v) hmem
      simp at this
    | some e =>
      have hk : e.1 = k := by simpa using List.find?_some hfind
      refine ⟨e, rfl, ?_⟩
      have heq := List.inj_on_of_nodup_map m.nodup (List.mem_of_find?_eq_some hfind) hmem hk
      rw [heq]

theorem get?_eq_none_iff : m.get? k = none ↔ k ∉ m.keys := by
  constructor
  · intro hnone hmem
    obtain ⟨v, hv⟩ := mem_keys_iff.mp hmem
    rw [get?_eq_some_iff.mpr hv] at hnone
    cases hnone
  · intro hnot
    cases hget : m.get? k with
    | none => rfl
    | some v => exact absurd (mem_keys_iff.mpr ⟨v, get?_eq_some_iff.mp hget⟩) hnot

theorem isSome_get?_iff : (m.get? k).isSome ↔ k ∈ m.keys := by
  rw [← not_iff_not, ← get?_eq_none_iff]
  simp

/-- The value in a row is the value of the key in that row. -/
theorem get?_of_row {row : Nat} (hk : m.keys[row]? = some k) (hv : m.values[row]? = some v) :
    m.get? k = some v := by
  rw [get?_eq_some_iff]
  rw [keys, List.getElem?_map, Option.map_eq_some_iff] at hk
  rw [values, List.getElem?_map, Option.map_eq_some_iff] at hv
  obtain ⟨e, he, rfl⟩ := hk
  obtain ⟨e', he', rfl⟩ := hv
  obtain rfl : e = e' := by rw [he] at he'; exact Option.some.inj he'
  exact List.mem_of_getElem? he

end Get

/-! ### The operations, by key -/

section Operations

variable (m : OrderedMap κ υ) {k k' : κ} {v : υ} {f : υ → υ}

@[simp] theorem get?_empty (k : κ) : (empty : OrderedMap κ υ).get? k = none := rfl

@[simp] theorem keys_modify : (m.modify k f).keys = m.keys := by
  simp only [keys, modify, List.map_map]
  refine List.map_congr_left fun e _ => ?_
  simp only [Function.comp_apply]
  split <;> rfl

theorem mem_entries_modify {e : κ × υ} :
    e ∈ (m.modify k f).entries ↔
      if e.1 = k then ∃ v, (k, v) ∈ m.entries ∧ e.2 = f v else e ∈ m.entries := by
  simp only [modify, List.mem_map]
  constructor
  · rintro ⟨d, hd, rfl⟩
    by_cases hk : d.1 = k
    · rw [if_pos hk, if_pos hk]
      exact ⟨d.2, hk ▸ hd, rfl⟩
    · rw [if_neg hk, if_neg hk]
      exact hd
  · intro h
    split at h
    · rename_i hk
      obtain ⟨v, hv, he⟩ := h
      exact ⟨(k, v), hv, by rw [if_pos rfl, ← he, ← hk]⟩
    · rename_i hk
      exact ⟨e, h, if_neg hk⟩

theorem get?_modify_self : (m.modify k f).get? k = (m.get? k).map f := by
  cases hget : m.get? k with
  | none =>
    rw [Option.map_none, get?_eq_none_iff, keys_modify]
    exact get?_eq_none_iff.mp hget
  | some v =>
    rw [Option.map_some, get?_eq_some_iff, mem_entries_modify]
    simp only [if_pos]
    exact ⟨v, get?_eq_some_iff.mp hget, rfl⟩

theorem get?_modify_of_ne (hne : k' ≠ k) : (m.modify k f).get? k' = m.get? k' := by
  apply Option.ext
  intro v
  rw [get?_eq_some_iff, get?_eq_some_iff, mem_entries_modify]
  rw [if_neg hne]

/-- The row of the key is the only one whose value changes. -/
theorem values_modify {row : Nat} (hk : m.keys[row]? = some k) :
    (m.modify k f).values = m.values.modify row f := by
  refine List.ext_getElem? fun i => ?_
  rw [values, modify, List.map_map, List.getElem?_map, List.getElem?_modify, values,
    List.getElem?_map]
  cases hentry : m.entries[i]? with
  | none => simp
  | some e =>
    have hkey : m.keys[i]? = some e.1 := by rw [keys, List.getElem?_map, hentry, Option.map_some]
    by_cases same : e.1 = k
    · have hrow : row = i := by
        obtain ⟨hlt, -⟩ := List.getElem?_eq_some_iff.mp hk
        exact (List.getElem?_inj hlt m.keys_nodup).mp (by rw [hk, hkey, same])
      simp [same, hrow]
    · have hrow : row ≠ i := by
        rintro rfl
        exact same (Option.some.inj (hkey.symm.trans hk))
      simp [same, hrow]

theorem modifyRow_of_row {row : Nat} (hk : m.keys[row]? = some k) :
    m.modifyRow row f = m.modify k f := by
  rw [modifyRow, hk]

@[simp] theorem keys_modifyRow (row : Nat) : (m.modifyRow row f).keys = m.keys := by
  unfold modifyRow
  split
  · exact keys_modify m
  · rfl

/-- A row that is erased need not have been changed before. -/
theorem eraseRow_modifyRow (row : Nat) : (m.modifyRow row f).eraseRow row = m.eraseRow row := by
  cases hk : m.keys[row]? with
  | none => rw [modifyRow, hk]
  | some k =>
    rw [modifyRow_of_row m hk]
    refine OrderedMap.ext ?_
    show (m.entries.map _).eraseIdx row = m.entries.eraseIdx row
    rw [List.eraseIdx_map]
    refine (List.map_congr_left fun e mem => if_neg ?_).trans (List.map_id _)
    rintro rfl
    obtain ⟨i, hne, hi⟩ := List.mem_eraseIdx_iff_getElem?.mp mem
    have hkey : m.keys[i]? = some e.1 := by rw [keys, List.getElem?_map, hi, Option.map_some]
    obtain ⟨hlt, -⟩ := List.getElem?_eq_some_iff.mp hkey
    exact hne ((List.getElem?_inj hlt m.keys_nodup).mp (hkey.trans hk.symm))

theorem keys_upsert_of_mem (h : k ∈ m.keys) : (m.upsert k v f).keys = m.keys := by
  rw [upsert, dif_pos h, keys_modify]

theorem keys_upsert_of_not_mem (h : k ∉ m.keys) : (m.upsert k v f).keys = m.keys ++ [k] := by
  rw [upsert, dif_neg h]
  simp [keys]

theorem values_upsert_of_not_mem (h : k ∉ m.keys) :
    (m.upsert k v f).values = m.values ++ [v] := by
  rw [upsert, dif_neg h]
  simp [values]

theorem get?_upsert_self : (m.upsert k v f).get? k = some ((m.get? k).elim v f) := by
  by_cases h : k ∈ m.keys
  · rw [upsert, dif_pos h, get?_modify_self]
    obtain ⟨w, hw⟩ := Option.isSome_iff_exists.mp (isSome_get?_iff.mpr h)
    simp [hw]
  · have hnone : m.get? k = none := get?_eq_none_iff.mpr h
    rw [hnone, get?_eq_some_iff, upsert, dif_neg h]
    simp

theorem get?_upsert_of_ne (hne : k' ≠ k) : (m.upsert k v f).get? k' = m.get? k' := by
  by_cases h : k ∈ m.keys
  · rw [upsert, dif_pos h, get?_modify_of_ne m hne]
  · apply Option.ext
    intro w
    rw [get?_eq_some_iff, get?_eq_some_iff, upsert, dif_neg h]
    simp [hne]

/-- The erased row's key is gone. -/
theorem get?_eraseRow_self {row : Nat} (hk : m.keys[row]? = some k) :
    (m.eraseRow row).get? k = none := by
  rw [get?_eq_none_iff, keys_eraseRow]
  obtain ⟨hrow, rfl⟩ := List.getElem?_eq_some_iff.mp hk
  rw [← m.keys_nodup.erase_getElem row hrow]
  exact m.keys_nodup.not_mem_erase

/-- Every other key keeps its value. -/
theorem get?_eraseRow_of_ne {row : Nat} (hk : m.keys[row]? = some k) (hne : k' ≠ k) :
    (m.eraseRow row).get? k' = m.get? k' := by
  apply Option.ext
  intro w
  rw [get?_eq_some_iff, get?_eq_some_iff, eraseRow]
  rw [keys, List.getElem?_map, Option.map_eq_some_iff] at hk
  obtain ⟨e, he, rfl⟩ := hk
  constructor
  · exact fun hmem => List.mem_of_mem_eraseIdx hmem
  · intro hmem
    obtain ⟨i, hi⟩ := List.mem_iff_getElem?.mp hmem
    refine List.mem_eraseIdx_iff_getElem?.mpr ⟨i, ?_, hi⟩
    rintro rfl
    rw [hi] at he
    cases he
    exact hne rfl

end Operations

/-! ### Sums over the entries -/

section Sum

variable {R : Type*} [AddCommGroup R] (m : OrderedMap κ υ) {k : κ} {v : υ} (f : κ → υ → R)

/-- The sum of a value of every entry. -/
def sumOver (m : OrderedMap κ υ) (f : κ → υ → R) : R := (m.entries.map fun e => f e.1 e.2).sum

omit [DecidableEq κ] in
@[simp] theorem sumOver_empty : (empty : OrderedMap κ υ).sumOver f = 0 := rfl

theorem sumOver_upsert_of_not_mem {g : υ → υ} (h : k ∉ m.keys) :
    (m.upsert k v g).sumOver f = m.sumOver f + f k v := by
  rw [upsert, dif_neg h, sumOver, List.map_append, List.sum_append]
  simp [sumOver]

omit [DecidableEq κ] in
theorem sumOver_eraseRow {row : Nat} (hrow : m.entries[row]? = some (k, v)) :
    (m.eraseRow row).sumOver f = m.sumOver f - f k v := by
  rw [sumOver, sumOver, eraseRow, eq_sub_iff_add_eq]
  obtain ⟨hlt, hget⟩ := List.getElem?_eq_some_iff.mp hrow
  have perm : m.entries.Perm ((k, v) :: m.entries.eraseIdx row) := by
    rw [← hget]
    exact (List.getElem_cons_eraseIdx_perm hlt).symm
  rw [(perm.map _).sum_eq, List.map_cons, List.sum_cons, add_comm]

theorem sumOver_modify {g : υ → υ} (hk : m.get? k = some v) :
    (m.modify k g).sumOver f = m.sumOver f + (f k (g v) - f k v) := by
  obtain ⟨row, hrow⟩ := List.mem_iff_getElem?.mp (get?_eq_some_iff.mp hk)
  obtain ⟨hlt, hget⟩ := List.getElem?_eq_some_iff.mp hrow
  have hkey : m.keys[row]? = some k := by rw [keys, List.getElem?_map, hrow, Option.map_some]
  have hchanged : (m.modify k g).entries[row]? = some (k, g v) := by
    rw [modify, List.getElem?_map, hrow, Option.map_some, if_pos rfl]
  -- without its row the map is the same before and after
  have hrest : (m.modify k g).eraseRow row = m.eraseRow row := by
    rw [← modifyRow_of_row m hkey, eraseRow_modifyRow]
  have hbefore := sumOver_eraseRow m f hrow
  have hafter := sumOver_eraseRow (m.modify k g) f hchanged
  rw [hrest, hbefore, sub_eq_sub_iff_add_eq_add] at hafter
  rw [eq_comm, add_sub_assoc', sub_eq_iff_eq_add]
  exact hafter

end Sum

end OrderedMap
