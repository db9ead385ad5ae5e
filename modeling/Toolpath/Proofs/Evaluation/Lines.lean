import Toolpath.Proofs.Evaluation.Growth
import Toolpath.Proofs.Machine.Sayings
import Toolpath.Proofs.Text.Lines

/-! # What the lines of a program say

A program is evaluated by what its lines say, and a last line that says nothing may be there or not.
So the pieces between the line feeds serve as well as the lines: with a carriage return at the end
of a piece nothing more is said, and nothing behind the last line feed.
-/
namespace Toolpath

section
variable (E : Elementary Float) (s : Sampling Float)

theorem Run.step_congr (r : Run) {line line' : List Char} (h : lineSays line = lineSays line') :
    r.step E s line = r.step E s line' := by
  unfold step
  rw [Machine.step_spoken, Machine.step_spoken, h]

theorem Run.through_congr (r : Run) {before after : List (List Char)}
    (h : before.map lineSays = after.map lineSays) :
    r.through E s before = r.through E s after := by
  induction before generalizing r after with
  | nil =>
    rw [List.map_nil, eq_comm, List.map_eq_nil_iff] at h
    rw [h]
  | cons line before ih =>
    obtain ⟨line', after, rfl, hline, hrest⟩ := List.map_eq_cons_iff.mp h.symm
    change (r.step E s line).through E s before = (r.step E s line').through E s after
    rw [Run.step_congr E s r hline.symm, ih _ hrest.symm]

/-- A line that says nothing does nothing. -/
theorem Machine.step_silent (m : Machine) {line : List Char} (h : lineSays line = []) :
    m.step E s line = { machine := m } := by
  rw [step_spoken, h]
  rfl

theorem Evaluation.ofRun_step_silent (r : Run) {line : List Char} (h : lineSays line = []) :
    ofRun (r.step E s line) = ofRun r := by
  unfold Run.step
  rw [Machine.step_silent E s _ h]
  simp [ofRun, points, records, notes, List.zipIdx_append]

theorem lineSays_nil : lineSays [] = [] := rfl

theorem lineSays_return (line : List Char) : lineSays (line ++ ['\r']) = lineSays line := by
  have hreturn : AllBlank ['\r'] := List.forall_mem_singleton.mpr rfl
  have hpad := lineSays_padded line allBlank_nil hreturn
  rwa [List.nil_append] at hpad

theorem lineSays_dropReturn (line : List Char) : lineSays (dropReturn line) = lineSays line := by
  unfold dropReturn
  split
  next h =>
    obtain ⟨before, rfl⟩ := List.getLast?_eq_some_iff.mp h
    rw [List.dropLast_concat, lineSays_return]
  next => rfl

end

section
variable (E : Elementary Float) (s : Settings)

def evaluateLines (lines : List (List Char)) : Evaluation :=
  .ofRun (Run.through E s.sampling { machine := s.initialMachine } lines)

theorem evaluateLines_congr {before after : List (List Char)}
    (h : before.map lineSays = after.map lineSays) :
    evaluateLines E s before = evaluateLines E s after := by
  unfold evaluateLines
  rw [Run.through_congr E s.sampling _ h]

/-- A last line that says nothing adds nothing. -/
theorem evaluateLines_silent (before : List (List Char)) {line : List Char}
    (h : lineSays line = []) : evaluateLines E s (before ++ [line]) = evaluateLines E s before := by
  unfold evaluateLines Run.through
  rw [List.foldl_append, List.foldl_cons, List.foldl_nil, Evaluation.ofRun_step_silent E _ _ h]

theorem evaluate_pieces (program : String) :
    evaluate E s program = evaluateLines E s (pieces '\n' program.toList) := by
  obtain ⟨ended, last, hpieces⟩ :=
    (List.eq_nil_or_concat' _).resolve_left (pieces_ne_nil '\n' program.toList)
  have hreturns : (ended.map dropReturn).map lineSays = ended.map lineSays := by
    rw [List.map_map]
    exact List.map_congr_left fun line _ => lineSays_dropReturn line
  change evaluateLines E s (lines program.toList) = _
  rw [lines_of_pieces hpieces, hpieces]
  -- Only an empty last piece is no line.
  by_cases hlast : last = []
  · subst hlast
    rw [if_pos rfl, List.append_nil, evaluateLines_silent E s _ lineSays_nil,
      evaluateLines_congr E s hreturns]
  · rw [if_neg hlast]
    apply evaluateLines_congr
    rw [List.map_append, List.map_append, hreturns]

end
end Toolpath
