import Toolpath.Text.Pieces

/-! # Lines

A line feed ends a line, and a carriage return just before it belongs to the line's end. What
follows the last line feed is a line of its own unless it is empty.
-/
namespace Toolpath

def dropReturn (line : List Char) : List Char :=
  if line.getLast? = some '\r' then line.dropLast else line

def lines (text : List Char) : List (List Char) :=
  let all := pieces '\n' text
  let ended := all.dropLast.map dropReturn
  match all.getLast? with
  | none | some [] => ended
  | some rest => ended ++ [rest]

@[simp] theorem lines_nil : lines [] = [] := rfl

theorem lines_append_feed (before rest : List Char) :
    lines (before ++ '\n' :: rest) = (pieces '\n' before).map dropReturn ++ lines rest := by
  have hne := pieces_ne_nil '\n' rest
  have hlast : (pieces '\n' before ++ pieces '\n' rest).getLast? = (pieces '\n' rest).getLast? := by
    simp [List.getLast?_append, Option.or_of_isSome, hne]
  simp only [lines, pieces_append, List.dropLast_append_of_ne_nil hne, hlast, List.map_append]
  split <;> simp

/-- Behind a line feed, or the empty text, the lines of what follows are added. -/
theorem lines_append {before : List Char} (h : before = [] ∨ before.getLast? = some '\n')
    (rest : List Char) : lines (before ++ rest) = lines before ++ lines rest := by
  rcases h with rfl | h
  · simp
  · obtain ⟨before, rfl⟩ := List.getLast?_eq_some_iff.mp h
    rw [List.append_assoc, List.singleton_append, lines_append_feed, lines_append_feed]
    simp

end Toolpath
