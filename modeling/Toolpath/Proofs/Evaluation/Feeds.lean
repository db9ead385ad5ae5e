import Toolpath.Proofs.Evaluation.Lockstep
import Toolpath.Proofs.Evaluation.Growth
import Toolpath.Proofs.Machine.Feeds

/-! # What feeds tell of a program

Two programs that differ in their feed words, under settings that differ in their feeds, take the
machine along one path. They can part only where a time is out of range and a move is not made.
-/
namespace Toolpath

namespace Evaluation

/-- The evaluation without times, feeds, and what is said of feeds. -/
def untimed (e : Evaluation) : Evaluation where
  path := e.path
  moves := e.moves.map Move.untimed
  modal := e.modal.untimed
  position := e.position
  advisories := e.advisories.filter (!·.finding.isOfFeed)

theorem exists_mem_notes (first : Nat) {outcomes : List Outcome} {o : Outcome} {f : Finding}
    (ho : o ∈ outcomes) (hf : f ∈ o.findings) : ∃ a ∈ notes first outcomes, a.finding = f := by
  induction outcomes generalizing first with
  | nil => cases ho
  | cons o' rest ih =>
    rw [notes_cons]
    rcases List.mem_cons.mp ho with rfl | hrest
    · exact ⟨⟨first, f⟩, List.mem_append_left _ (List.mem_map_of_mem hf), rfl⟩
    · obtain ⟨a, ha, hfinding⟩ := ih (first + 1) hrest
      exact ⟨a, List.mem_append_right _ ha, hfinding⟩

theorem points_untimed (outcomes : List Outcome) :
    points (outcomes.map Outcome.untimed) = points outcomes := by
  simp [points, List.flatMap_map, Outcome.untimed, Travel.untimed, Function.comp_def]

theorem records_untimed (outcomes : List Outcome) :
    records (outcomes.map Outcome.untimed) = (records outcomes).map Move.untimed := by
  simp [records, List.filterMap_map, List.map_filterMap, Outcome.untimed, Travel.untimed,
    Function.comp_def]

theorem notes_untimed (first : Nat) (outcomes : List Outcome) :
    notes first (outcomes.map Outcome.untimed) =
      (notes first outcomes).filter (!·.finding.isOfFeed) := by
  induction outcomes generalizing first with
  | nil => rfl
  | cons o rest ih => simp [ih, Outcome.untimed, List.filter_map, Function.comp_def]

end Evaluation

/-- Two programs whose lines have the same words, but for the values of F words. -/
def SameButFeeds (p q : String) : Prop :=
  List.Forall₂ (fun line line' => List.Forall₂ Word.SameButFeed (lineWords line) (lineWords line'))
    (lines p.toList) (lines q.toList)

instance (p q : String) : Decidable (SameButFeeds p q) :=
  inferInstanceAs (Decidable (List.Forall₂ _ (lines p.toList) (lines q.toList)))

def Evaluation.InRange (e : Evaluation) : Prop :=
  ∀ a ∈ e.advisories, a.finding ≠ .refused .coordinateOverflow

instance (e : Evaluation) : Decidable e.InRange :=
  inferInstanceAs (Decidable (∀ a ∈ e.advisories, a.finding ≠ .refused .coordinateOverflow))

section
variable {E : Elementary Float} {s t : Settings} {p q : String}

theorem inRange_programOutcomes (h : (evaluate E s p).InRange) :
    ∀ o ∈ programOutcomes E s p, o.InRange := by
  intro o ho hfinding
  obtain ⟨a, ha, hoverflow⟩ := Evaluation.exists_mem_notes 1 ho hfinding
  refine h a ?_ hoverflow
  rw [evaluate_eq]
  exact ha

theorem evaluate_untimed (E : Elementary Float) (s : Settings) (p : String) :
    (evaluate E s p).untimed =
      { path := .origin :: Evaluation.points ((programOutcomes E s p).map Outcome.untimed)
        moves := Evaluation.records ((programOutcomes E s p).map Outcome.untimed)
        modal := (s.initialMachine.after E s.sampling (lines p.toList)).untimed.modal
        position := (s.initialMachine.after E s.sampling (lines p.toList)).untimed.position
        advisories := Evaluation.notes 1 ((programOutcomes E s p).map Outcome.untimed) } := by
  rw [evaluate_eq, Evaluation.points_untimed, Evaluation.records_untimed, Evaluation.notes_untimed]
  rfl

/-- Feeds tell on times and recorded feeds only. As long as every move is in range, programs that
differ in their feed words, under settings that differ in their feeds, agree in path, position,
kinds and distances of moves, frame, and in all advisories that are not about a feed. -/
theorem evaluate_sameButFeeds (E : Elementary Float)
    (hdegrees : t.degreesPerSample = s.degreesPerSample) (hsamples : t.minSamples = s.minSamples)
    (htolerance : t.endpointTolerance = s.endpointTolerance) (hwords : SameButFeeds p q)
    (hp : (evaluate E s p).InRange) (hq : (evaluate E t q).InRange) :
    (evaluate E t q).untimed = (evaluate E s p).untimed := by
  have hsampling : t.sampling = s.sampling := by
    simp [Settings.sampling, hdegrees, hsamples, htolerance]
  obtain ⟨houtcomes, hafter⟩ :=
    (Machine.Along.of_forall₂ (E := E) (s := s.sampling) hwords s.initialMachine).outcomes
      (t := t.sampling) (n := t.initialMachine) (G := Outcome.InRange)
      (R := fun m m' => m'.untimed = m.untimed) (S := fun o o' => o.untimed = o'.untimed)
      (by
        intro m m' line line' hm hline h h'
        rw [hsampling] at h' ⊢
        have hstep := Machine.step_untimed E s.sampling hm hline h h'
        exact ⟨hstep.symm, congrArg Outcome.machine hstep⟩)
      rfl (inRange_programOutcomes hp) (inRange_programOutcomes hq)
  have hsame : (programOutcomes E t q).map Outcome.untimed =
      (programOutcomes E s p).map Outcome.untimed := by
    rw [← List.forall₂_eq_eq_eq, List.forall₂_map_left_iff, List.forall₂_map_right_iff]
    exact houtcomes.flip.imp fun _ _ => Eq.symm
  rw [evaluate_untimed, evaluate_untimed, hsame, hafter]

end

/-- The second program takes back its feed, and an advisory says so; the first one does not. -/
theorem evaluate_sameButFeeds_negative :
    SameButFeeds "F100 X1\nG3 X0 Y1 I-1 F50\nG0 Z1" "F-5 X1\nG3 X0 Y1 I-1 F\nG0 Z1" ∧
    (evaluate .onAxes {} "F100 X1\nG3 X0 Y1 I-1 F50\nG0 Z1").InRange ∧
    (evaluate .onAxes { defaultFeed := 600, rapidFeed := 30 }
      "F-5 X1\nG3 X0 Y1 I-1 F\nG0 Z1").InRange ∧
    (evaluate .onAxes { defaultFeed := 600, rapidFeed := 30 }
      "F-5 X1\nG3 X0 Y1 I-1 F\nG0 Z1").untimed =
        (evaluate .onAxes {} "F100 X1\nG3 X0 Y1 I-1 F50\nG0 Z1").untimed := by
  have hwords : SameButFeeds "F100 X1\nG3 X0 Y1 I-1 F50\nG0 Z1"
      "F-5 X1\nG3 X0 Y1 I-1 F\nG0 Z1" := by decide +kernel
  have hp : (evaluate .onAxes {} "F100 X1\nG3 X0 Y1 I-1 F50\nG0 Z1").InRange := by
    decide +kernel
  have hq : (evaluate .onAxes { defaultFeed := 600, rapidFeed := 30 }
      "F-5 X1\nG3 X0 Y1 I-1 F\nG0 Z1").InRange := by decide +kernel
  exact ⟨hwords, hp, hq, evaluate_sameButFeeds .onAxes rfl rfl rfl hwords hp hq⟩

end Toolpath
