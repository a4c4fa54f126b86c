import Mathlib.Data.List.Basic

/-!
Readers that take a text piece by piece.

A piece stands for something if the reader, in front of any text, takes it off and
does that to what it reads behind it (`ReadsOff`). Pieces compose, so what a whole
text reads as follows from the pieces it is written of (`readsOff_flatMap`).
-/

namespace Coding

variable {σ γ α : Type*} {read : List σ → Option γ}

/-- What `add` does to the reading of the rest is what `piece` stands for. -/
def ReadsOff (read : List σ → Option γ) (piece : List σ) (add : γ → γ) : Prop :=
  ∀ rest, read (piece ++ rest) = (read rest).map add

theorem readsOff_nil : ReadsOff read [] id := fun rest => by
  rw [List.nil_append, Option.map_id_fun, id]

theorem ReadsOff.append {piece piece' : List σ} {add add' : γ → γ} (h : ReadsOff read piece add)
    (h' : ReadsOff read piece' add') : ReadsOff read (piece ++ piece') (add ∘ add') := by
  intro rest
  rw [List.append_assoc, h, h', Option.map_map]

theorem readsOff_flatMap {piece : α → List σ} {add : α → γ → γ} (as : List α)
    (h : ∀ a ∈ as, ReadsOff read (piece a) (add a)) :
    ReadsOff read (as.flatMap piece) (fun r => as.foldr add r) := by
  induction as with
  | nil => exact readsOff_nil
  | cons a as ih =>
    rw [List.flatMap_cons]
    exact (h a List.mem_cons_self).append (ih fun b hb => h b (List.mem_cons_of_mem a hb))

/-- A text of pieces up to the end. -/
theorem ReadsOff.read_eq {piece : List σ} {add : γ → γ} {r : γ} (h : ReadsOff read piece add)
    (done : read [] = some r) : read piece = some (add r) := by
  have htext := h []
  rwa [List.append_nil, done, Option.map_some] at htext

end Coding
