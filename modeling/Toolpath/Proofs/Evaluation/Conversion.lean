import Toolpath.Proofs.Machine.Conversion

/-! # Programs in inches and in millimeters

A program in inches without rapid moves can be written in millimeters, with every length and feed
multiplied by 25.4. The two evaluations are the same to the last bit, for the machine does just that
multiplication, and one by one behind it changes nothing.
-/
namespace Toolpath

/-- A program in inches and the same in millimeters: the first line selects the units. -/
structure Restates (p q : String) : Prop where
  lines : ∃ first rest first' rest', lines p.toList = first :: rest ∧
    lines q.toList = first' :: rest' ∧ Selects first first' ∧ List.Forall₂ Converts rest rest'

/-- What differs in the end are the units in force, to which the rapid feed is scaled, and nothing
else. -/
theorem evaluate_restates (E : Elementary Float) (s : Settings) {p q : String}
    (h : Restates p q) : evaluate E s q =
      { evaluate E s p with modal := (evaluate E s p).modal.selectUnits .millimeters } := by
  obtain ⟨first, rest, first', rest', hp, hq, hfirst, hrest⟩ := h.lines
  obtain ⟨hstep, hunits⟩ := Machine.step_selects E s.sampling (m := s.initialMachine) hfirst
  obtain ⟨houtcomes, hafter⟩ :=
    Machine.outcomes_mapModal E s.sampling (I := fun m => m.modal.units = .inches)
      (fun _ _ _ hm hline => Machine.step_converts E s.sampling hm hline) hrest hunits
  -- every program starts in millimeters
  have hinitial : s.initialMachine.mapModal Modal.metric = s.initialMachine := rfl
  rw [hinitial] at hstep
  refine evaluate_mapModal (f := Modal.metric) ?_ ?_
  · unfold programOutcomes
    rw [hp, hq, Machine.outcomes, Machine.outcomes, hstep, List.map_cons, ← houtcomes]
    rfl
  · rw [hp, hq, Machine.after_cons, Machine.after_cons, hstep, ← hafter]
    rfl

theorem evaluate_restates_arc :
    Restates "G20\nG1 X1 F10\n(half a turn)\nG91 G2 X2 I1"
      "G21\nG1 X25.4 F254\n(half a turn)\nG91 G2 X50.8 I25.4" ∧
    evaluate .native {} "G21\nG1 X25.4 F254\n(half a turn)\nG91 G2 X50.8 I25.4" =
      { evaluate .native {} "G20\nG1 X1 F10\n(half a turn)\nG91 G2 X2 I1" with
        modal := (evaluate .native {} "G20\nG1 X1 F10\n(half a turn)\nG91 G2 X2 I1").modal.selectUnits
          .millimeters } := by
  have hselects : Selects "G20".toList "G21".toList :=
    ⟨⟨'G', ['2', '0']⟩, [], ⟨'G', ['2', '1']⟩, [], by decide +kernel, by decide +kernel, rfl,
      by decide +kernel, rfl, by decide +kernel, .nil⟩
  have h : Restates "G20\nG1 X1 F10\n(half a turn)\nG91 G2 X2 I1"
      "G21\nG1 X25.4 F254\n(half a turn)\nG91 G2 X50.8 I25.4" :=
    ⟨"G20".toList, _, "G21".toList, _, rfl, rfl, hselects, by decide +kernel⟩
  exact ⟨h, evaluate_restates .native {} h⟩

end Toolpath
