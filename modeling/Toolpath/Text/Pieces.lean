/-! # Pieces of a text

A text cut at every occurrence of a character. There is always one more piece than there are cuts.
-/
namespace Toolpath

def pieces (sep : Char) (text : List Char) : List (List Char) :=
  text.foldr (fun c rest =>
    if c = sep then [] :: rest
    else match rest with
      | [] => [[c]]
      | piece :: more => (c :: piece) :: more) [[]]

@[simp] theorem pieces_nil (sep : Char) : pieces sep [] = [[]] := rfl

theorem pieces_cons (sep c : Char) (rest : List Char) : pieces sep (c :: rest) =
    if c = sep then [] :: pieces sep rest
    else match pieces sep rest with
      | [] => [[c]]
      | piece :: more => (c :: piece) :: more := rfl

theorem pieces_ne_nil (sep : Char) (text : List Char) : pieces sep text ≠ [] := by
  cases text with
  | nil => simp
  | cons c rest =>
    rw [pieces_cons]
    split
    · simp
    · split <;> simp

/-- A cut parts the pieces before it from those behind. -/
theorem pieces_append (sep : Char) (before rest : List Char) :
    pieces sep (before ++ sep :: rest) = pieces sep before ++ pieces sep rest := by
  induction before with
  | nil => simp [pieces_cons]
  | cons c before ih =>
    rw [List.cons_append, pieces_cons, pieces_cons, ih]
    cases hb : pieces sep before with
    | nil => exact absurd hb (pieces_ne_nil sep before)
    | cons piece more => by_cases h : c = sep <;> simp [h]

end Toolpath
