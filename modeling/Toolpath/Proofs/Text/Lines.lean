import Mathlib.Data.List.Forall2
import Toolpath.Text.Lines

/-! # Lines and pieces

The lines of a text are its pieces, without the carriage returns at their ends and without an empty
last one. No line has a line feed in it, and texts without line feeds can be joined by them to be
the pieces of one text.
-/
namespace Toolpath

section
variable {sep : Char} {text : List Char}

theorem pieces_eq_splitOn : pieces sep text = text.splitOn sep := by
  induction text with
  | nil => rfl
  | cons c rest ih =>
    rw [pieces_cons, ih, List.splitOn, List.splitOn, List.splitOnP_cons_eq_if_modifyHead]
    by_cases hc : c = sep
    · simp [hc]
    · obtain ⟨piece, more, hpieces⟩ :=
        List.exists_cons_of_ne_nil (List.splitOnP_ne_nil (· == sep) rest)
      simp [hc, hpieces]

theorem not_mem_of_mem_pieces {piece : List Char} (h : piece ∈ pieces sep text) : sep ∉ piece := by
  induction text generalizing piece with
  | nil =>
    obtain rfl := List.mem_singleton.mp h
    exact List.not_mem_nil
  | cons c rest ih =>
    rw [pieces_cons] at h
    split at h
    next =>
      rcases List.mem_cons.mp h with rfl | h
      · exact List.not_mem_nil
      · exact ih h
    next hc =>
      obtain ⟨first, more, hpieces⟩ := List.exists_cons_of_ne_nil (pieces_ne_nil sep rest)
      rw [hpieces] at h ih
      rcases List.mem_cons.mp h with rfl | h
      · rw [List.mem_cons, not_or]
        exact ⟨Ne.symm hc, ih List.mem_cons_self⟩
      · exact ih (List.mem_cons_of_mem _ h)

end

theorem lines_of_pieces {text : List Char} {ended : List (List Char)} {last : List Char}
    (h : pieces '\n' text = ended ++ [last]) :
    lines text = ended.map dropReturn ++ if last = [] then [] else [last] := by
  simp only [lines, h, List.dropLast_concat, List.getLast?_concat]
  cases last <;> simp

theorem not_mem_of_mem_lines {text line : List Char} (h : line ∈ lines text) : '\n' ∉ line := by
  obtain ⟨ended, last, hpieces⟩ := (List.eq_nil_or_concat' _).resolve_left (pieces_ne_nil '\n' text)
  have hpiece (piece : List Char) (hp : piece ∈ ended ++ [last]) : '\n' ∉ piece :=
    not_mem_of_mem_pieces (hpieces ▸ hp)
  rw [lines_of_pieces hpieces, List.mem_append] at h
  rcases h with h | h
  · obtain ⟨piece, hmem, rfl⟩ := List.mem_map.mp h
    have hnot := hpiece piece (List.mem_append_left _ hmem)
    unfold dropReturn
    split
    · exact fun hline => hnot ((List.dropLast_sublist piece).subset hline)
    · exact hnot
  · split at h
    · contradiction
    · obtain rfl := List.mem_singleton.mp h
      exact hpiece _ (List.mem_append_right _ List.mem_cons_self)

def withReturns (text : List Char) : List Char :=
  text.flatMap fun c => if c = '\n' then ['\r', '\n'] else [c]

/-- With returns before the line feeds, a piece of a text is as before or has a return behind it. -/
theorem pieces_withReturns (text : List Char) :
    List.Forall₂ (fun piece piece' => piece' = piece ∨ piece' = piece ++ ['\r'])
      (pieces '\n' text) (pieces '\n' (withReturns text)) := by
  -- A character goes to the front of the first piece, whether that ends in a return or not.
  induction text with
  | nil => exact .cons (.inl rfl) .nil
  | cons c rest ih =>
    by_cases hc : c = '\n'
    · subst hc
      have hreturns : withReturns ('\n' :: rest) = ['\r'] ++ '\n' :: withReturns rest := rfl
      rw [hreturns, pieces_append, pieces_cons, if_pos rfl]
      exact .cons (.inr rfl) ih
    · have hreturns : withReturns (c :: rest) = c :: withReturns rest := by simp [withReturns, hc]
      rw [hreturns, pieces_cons, pieces_cons, if_neg hc, if_neg hc]
      generalize pieces '\n' rest = old at ih
      generalize pieces '\n' (withReturns rest) = new at ih
      cases ih with
      | nil => exact .cons (.inl rfl) .nil
      | cons hpiece hmore =>
        refine .cons ?_ hmore
        rcases hpiece with rfl | rfl
        · exact .inl rfl
        · exact .inr rfl

end Toolpath
