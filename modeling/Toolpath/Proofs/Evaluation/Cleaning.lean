import Toolpath.Proofs.Evaluation.Lines

/-! # Cleaning a program beforehand

A program may be cleaned before it is evaluated. What the pipeline makes of a line is not always
what it makes of its own result, since a second line number can come to the front; but it says the
same, and a line that is dropped says nothing.
-/
namespace Toolpath

def cleanedProgram (program : String) : String :=
  .ofList (['\n'].intercalate ((lines program.toList).map cleaned))

/-- The cleaned program is evaluated as the program is, to the numbers of the lines in its
advisories, though the pipeline might change it once more. -/
theorem evaluate_cleanedProgram (E : Elementary Float) (s : Settings) (program : String) :
    evaluate E s (cleanedProgram program) = evaluate E s program ∧
    ∀ line text, Pipeline.standard.run line = some text → IsClean text := by
  refine ⟨?_, fun line text => isClean_of_run⟩
  rw [evaluate_pieces, cleanedProgram, String.toList_ofList, pieces_eq_splitOn]
  change _ = evaluateLines E s (lines program.toList)
  have hsame : ((lines program.toList).map cleaned).map lineSays =
      (lines program.toList).map lineSays := by
    rw [List.map_map]
    exact List.map_congr_left fun line _ => lineSays_cleaned line
  rcases hempty : lines program.toList with _ | ⟨line, rest⟩
  · exact evaluateLines_silent E s [] lineSays_nil
  · rw [← hempty, List.splitOn_intercalate, evaluateLines_congr E s hsame]
    · rw [List.forall_mem_map]
      exact fun line hline => feed_not_mem_cleaned (not_mem_of_mem_lines hline)
    · simp [hempty]

/-- A second line number is left in front by the pipeline, which would take it off now. -/
theorem evaluate_cleanedProgram_numbered :
    cleanedProgram "n1 N2 (a) x1 ;b\n;c\nG2 Y2" = "N2   X1\n\nG2 Y2" ∧
    cleanedProgram "N2   X1\n\nG2 Y2" = "X1\n\nG2 Y2" ∧
    evaluate .onAxes {} "N2   X1\n\nG2 Y2" = evaluate .onAxes {} "n1 N2 (a) x1 ;b\n;c\nG2 Y2" ∧
    IsClean "N2   X1".toList := by
  have honce : cleanedProgram "n1 N2 (a) x1 ;b\n;c\nG2 Y2" = "N2   X1\n\nG2 Y2" := by
    decide +kernel
  obtain ⟨hevaluate, hclean⟩ :=
    evaluate_cleanedProgram .onAxes {} "n1 N2 (a) x1 ;b\n;c\nG2 Y2"
  rw [honce] at hevaluate
  exact ⟨honce, by decide +kernel, hevaluate,
    hclean "n1 N2 (a) x1 ;b".toList "N2   X1".toList (by decide +kernel)⟩

end Toolpath
