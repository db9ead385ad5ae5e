import Toolpath.Proofs.Machine.Coordinates

/-! # Programs in absolute and in incremental coordinates

A program in millimeters can be written without the incremental mode, with each incremental number
replaced by its sum with the position that the program has reached. The two evaluations are the same
to the last bit.
-/
namespace Toolpath

/-- A program in millimeters and the same without the incremental mode. That it can be written so
says that all the sums are finite, for no word has any other number. -/
structure RestatesAbsolutely (E : Elementary Float) (s : Settings) (p q : String) : Prop where
  millimeters : ∀ line ∈ lines p.toList, ∀ w ∈ lineWords line, w.command? ≠ some (.units .inches)
  lines : Machine.Along E s.sampling Machine.Absolutes s.initialMachine (lines p.toList)
    (lines q.toList)

/-- What differs in the end is the mode in force, and nothing else. -/
theorem evaluate_restatesAbsolutely (E : Elementary Float) (s : Settings) {p q : String}
    (h : RestatesAbsolutely E s p q) :
    evaluate E s q = { evaluate E s p with modal.distance := .absolute } := by
  obtain ⟨houtcomes, hafter⟩ := (h.lines.and_left h.millimeters).outcomes_mapModal E s.sampling
    (f := Modal.absolute) (I := fun m => m.modal.units = .millimeters)
    (fun _ _ _ hm hline => Machine.step_absolutes E s.sampling hm hline.1 hline.2) rfl
  -- every program starts in absolute mode
  have hinitial : s.initialMachine.mapModal Modal.absolute = s.initialMachine := rfl
  rw [hinitial] at houtcomes hafter
  exact evaluate_mapModal houtcomes hafter

/-- A cut, a quarter of a circle, two lifts, and a move whose mode is selected behind its number. -/
theorem evaluate_restatesAbsolutely_quarter :
    RestatesAbsolutely .onAxes {} "G91 X1\nG3 X-1 Y1 I-1\nG1 Z0.1\nZ0.2\nG90 X2\nX1 G91"
      "X1\nG3 X0 Y1 I-1\nG1 Z0.1\nZ0.30000000000000004\nG90 X2\nX3" ∧
    evaluate .onAxes {} "X1\nG3 X0 Y1 I-1\nG1 Z0.1\nZ0.30000000000000004\nG90 X2\nX3" =
      { evaluate .onAxes {} "G91 X1\nG3 X-1 Y1 I-1\nG1 Z0.1\nZ0.2\nG90 X2\nX1 G91" with
        modal.distance := .absolute } := by
  have h : RestatesAbsolutely .onAxes {}
      "G91 X1\nG3 X-1 Y1 I-1\nG1 Z0.1\nZ0.2\nG90 X2\nX1 G91"
      "X1\nG3 X0 Y1 I-1\nG1 Z0.1\nZ0.30000000000000004\nG90 X2\nX3" :=
    ⟨by decide +kernel, by decide +kernel⟩
  exact ⟨h, evaluate_restatesAbsolutely .onAxes {} h⟩

end Toolpath
