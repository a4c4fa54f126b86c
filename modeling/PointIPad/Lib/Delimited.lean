import Mathlib.Data.List.Basic
import Mathlib.Data.String.Basic

/-!
Text cut at a delimiter character.

`components sep s` cuts a text at every occurrence of `sep`, and `joined sep`
puts the pieces back with `sep` between them. The two are inverse to each other
on pieces that do not contain the delimiter: `joined_components` for every text,
`components_joined` for every nonempty list of such pieces. A record of fields
written with a delimiter can therefore be read back, field by field, as long as
no field contains it.
-/

namespace Delimited

/-- The text does not contain the character. -/
def Free (sep : Char) (s : String) : Prop := sep ∉ s.toList

instance (sep : Char) (s : String) : Decidable (Free sep s) :=
  inferInstanceAs (Decidable (sep ∉ s.toList))

/-- The pieces of a text between the occurrences of the delimiter. -/
def components (sep : Char) (s : String) : List String :=
  (s.toList.splitOn sep).map String.ofList

/-- The pieces put together with the delimiter between them. -/
def joined (sep : Char) (parts : List String) : String :=
  String.ofList ([sep].intercalate (parts.map String.toList))

variable {sep : Char}

theorem joined_components (s : String) : joined sep (components sep s) = s := by
  have hmap : (components sep s).map String.toList = s.toList.splitOn sep := by
    simp [components, List.map_map, Function.comp_def]
  rw [joined, hmap, List.intercalate_splitOn, String.ofList_toList]

/-- Pieces that are free of the delimiter are read back as they were. -/
theorem components_joined {parts : List String} (hfree : ∀ p ∈ parts, Free sep p)
    (hne : parts ≠ []) : components sep (joined sep parts) = parts := by
  have hsplit : ([sep].intercalate (parts.map String.toList)).splitOn sep
      = parts.map String.toList := by
    refine List.splitOn_intercalate sep ?_ (by simpa using hne)
    intro l hl
    obtain ⟨p, hp, rfl⟩ := List.mem_map.mp hl
    exact hfree p hp
  rw [components, joined, String.toList_ofList, hsplit]
  simp [List.map_map, Function.comp_def]

/-- Cutting at a delimiter leaves it in no piece. -/
theorem not_mem_of_mem_splitOn {α : Type*} [BEq α] [LawfulBEq α] {a : α} {xs l : List α}
    (hl : l ∈ xs.splitOn a) : a ∉ l := by
  induction xs generalizing l with
  | nil =>
    rw [List.splitOn_nil] at hl
    simp only [List.mem_singleton] at hl
    simp [hl]
  | cons x xs ih =>
    rw [List.splitOn_cons_eq_if_modifyHead] at hl
    split at hl
    · rcases List.mem_cons.mp hl with rfl | hl
      · simp
      · exact ih hl
    · rename_i hx
      obtain ⟨hd, tl, hsplit⟩ := List.exists_cons_of_ne_nil (List.splitOn_ne_nil a xs)
      rw [hsplit, List.modifyHead_cons] at hl
      rcases List.mem_cons.mp hl with rfl | hl
      · have hhd : a ∉ hd := ih (by simp [hsplit])
        have hne : x ≠ a := by simpa using hx
        simp [hhd, Ne.symm hne]
      · exact ih (by simp [hsplit, hl])

/-- Text without the delimiter belongs to the first piece. -/
theorem splitOn_append_of_not_mem {α : Type*} [BEq α] [LawfulBEq α] {a : α} {xs : List α}
    (hxs : a ∉ xs) (ys : List α) :
    (xs ++ ys).splitOn a = (ys.splitOn a).modifyHead (xs ++ ·) := by
  obtain ⟨first, rest, hys⟩ := List.exists_cons_of_ne_nil (List.splitOn_ne_nil a ys)
  induction xs with
  | nil => rw [List.nil_append, hys, List.modifyHead_cons, List.nil_append]
  | cons x xs ih =>
    rw [List.mem_cons, not_or] at hxs
    have hne : (x == a) = false := beq_false_of_ne (Ne.symm hxs.1)
    rw [List.cons_append, List.splitOn_cons_eq_if_modifyHead, hne, ih hxs.2, hys]
    rfl

/-- A translation that keeps the delimiter, and makes no other, translates the pieces. -/
theorem splitOn_flatMap {α : Type*} [BEq α] [LawfulBEq α] {a : α} {f : α → List α}
    (keeps : f a = [a]) (makes : ∀ x, x ≠ a → a ∉ f x) (xs : List α) :
    (xs.flatMap f).splitOn a = (xs.splitOn a).map (·.flatMap f) := by
  induction xs with
  | nil => simp
  | cons x xs ih =>
    obtain ⟨first, rest, hxs⟩ := List.exists_cons_of_ne_nil (List.splitOn_ne_nil a xs)
    rw [List.flatMap_cons, List.splitOn_cons_eq_if_modifyHead]
    by_cases hx : x = a
    · rw [hx, keeps, List.singleton_append, List.splitOn_cons_eq_if_modifyHead, ih]
      simp
    · have hne : (x == a) = false := beq_false_of_ne hx
      rw [splitOn_append_of_not_mem (makes x hx), ih, hne, hxs]
      simp

/-- The pieces have no characters of their own. -/
theorem mem_of_mem_splitOn {α : Type*} [BEq α] [LawfulBEq α] {a x : α} {xs l : List α}
    (hl : l ∈ xs.splitOn a) (hx : x ∈ l) : x ∈ xs := by
  induction xs generalizing l with
  | nil =>
    rw [List.splitOn_nil, List.mem_singleton] at hl
    exact absurd (hl ▸ hx) List.not_mem_nil
  | cons y ys ih =>
    rw [List.splitOn_cons_eq_if_modifyHead] at hl
    split at hl
    · rcases List.mem_cons.mp hl with rfl | hl
      · exact absurd hx List.not_mem_nil
      · exact List.mem_cons_of_mem y (ih hl hx)
    · obtain ⟨first, rest, hys⟩ := List.exists_cons_of_ne_nil (List.splitOn_ne_nil a ys)
      rw [hys, List.modifyHead_cons] at hl
      rcases List.mem_cons.mp hl with rfl | hl
      · rcases List.mem_cons.mp hx with rfl | hx
        · exact List.mem_cons_self
        · exact List.mem_cons_of_mem y (ih (hys ▸ List.mem_cons_self) hx)
      · exact List.mem_cons_of_mem y (ih (hys ▸ List.mem_cons_of_mem first hl) hx)

/-- No piece contains the delimiter. -/
theorem free_of_mem_components {s p : String} (hp : p ∈ components sep s) : Free sep p := by
  obtain ⟨l, hl, rfl⟩ := List.mem_map.mp hp
  rw [Free, String.toList_ofList]
  exact not_mem_of_mem_splitOn hl

theorem mem_of_mem_components {s p : String} {c : Char} (hp : p ∈ components sep s)
    (hc : c ∈ p.toList) : c ∈ s.toList := by
  obtain ⟨l, hl, rfl⟩ := List.mem_map.mp hp
  rw [String.toList_ofList] at hc
  exact mem_of_mem_splitOn hl hc

theorem components_ne_nil (s : String) : components sep s ≠ [] := by
  simp [components, List.splitOn_ne_nil]

/-- A text without the delimiter is its only piece. -/
theorem components_of_free {s : String} (hs : Free sep s) : components sep s = [s] := by
  have hjoin : s = joined sep [s] := by
    apply String.toList_injective
    simp [joined, List.intercalate]
  conv_lhs => rw [hjoin]
  exact components_joined (by simpa using hs) (by simp)

theorem joined_three (a b c : String) :
    joined sep [a, b, c] = a ++ String.singleton sep ++ b ++ String.singleton sep ++ c := by
  apply String.toList_injective
  simp [joined, List.intercalate, List.intersperse]

/-- Three fields and two delimiters. -/
theorem components_three {a b c : String} (ha : Free sep a) (hb : Free sep b)
    (hc : Free sep c) :
    components sep (a ++ String.singleton sep ++ b ++ String.singleton sep ++ c) = [a, b, c] := by
  rw [← joined_three]
  refine components_joined ?_ (by simp)
  intro p hp
  simp only [List.mem_cons, List.not_mem_nil, or_false] at hp
  rcases hp with rfl | rfl | rfl
  · exact ha
  · exact hb
  · exact hc

end Delimited
