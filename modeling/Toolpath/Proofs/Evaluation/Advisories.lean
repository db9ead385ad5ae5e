import Toolpath.Proofs.Arc.Elementary
import Toolpath.Proofs.Evaluation.Growth
import Toolpath.Proofs.Machine.Findings

/-! # The advisories of a program

Advisories stand in the order of their lines, and those of one line are its findings. `Tells` says
what a line can tell of what it adds: nothing of a line without a motion, and of a motion a report
that fits what became of it.
-/
namespace Toolpath

namespace Evaluation

/-- What one more line, of the given number, adds to an evaluation and tells of it. -/
inductive Tells (line : Nat) (e : Evaluation) : Evaluation → Prop where
  | silent (modal : Modal) : Tells line e { e with modal }
  | motion (modal : Modal) (t : Travel) (findings : List Finding)
      (report : Report (modal.feedOf t.move.kind) findings)
      (refused : Refuses findings → t.move.distance = 0 ∧ t.move.time = 0 ∧
        t.arrival = e.position ∧ t.points = [e.position])
      (made : ¬ Refuses findings → (.nonPositiveFeed (modal.feedOf t.move.kind) ∈ findings ↔
        modal.feedOf t.move.kind ≤ 0)) :
      Tells line e
        { path := e.path ++ t.points
          moves := e.moves ++ [t.move]
          modal
          position := t.arrival
          advisories := e.advisories ++ findings.map (Advisory.mk line) }

theorem step_tells (E : Elementary Float) (s : Sampling Float) (r : Run) (line : List Char) :
    Tells (r.outcomes.size + 1) (ofRun r) (ofRun (r.step E s line)) := by
  rw [ofRun_step]
  rcases Machine.step_cases E s r.machine line with
    ⟨-, modal, h⟩ | ⟨b, kind, t, findings, -, -, hmakes, h⟩
  · rw [h]
    simpa [add, Outcome.points, ofRun] using Tells.silent (e := ofRun r) modal
  · have hkind := hmakes.kind_eq
    have hreport := hmakes.report
    have hmade := hmakes.feed_iff
    have hstays := hmakes.stays
    dsimp only at hreport hmade hstays
    rw [← hkind] at hreport hmade
    rw [h]
    refine Tells.motion b.modal t findings hreport ?_ hmade
    intro hrefused
    rw [hstays hrefused]
    exact ⟨rfl, moveTime_zero_distance _, rfl, rfl⟩

theorem line_of_mem_notes {first : Nat} {outcomes : List Outcome} {a : Advisory}
    (h : a ∈ notes first outcomes) : first ≤ a.line ∧ a.line < first + outcomes.length := by
  induction outcomes generalizing first with
  | nil => simp at h
  | cons o rest ih =>
    rw [notes_cons, List.mem_append] at h
    rcases h with h | h
    · obtain ⟨f, -, rfl⟩ := List.mem_map.mp h
      simp
    · have := ih h
      rw [List.length_cons]
      omega

theorem notes_sorted (first : Nat) (outcomes : List Outcome) :
    (notes first outcomes).Pairwise (·.line ≤ ·.line) := by
  induction outcomes generalizing first with
  | nil => simp
  | cons o rest ih =>
    rw [notes_cons, List.pairwise_append]
    refine ⟨?_, ih (first + 1), ?_⟩
    · rw [List.pairwise_map]
      exact List.pairwise_of_forall fun _ _ => Nat.le_refl first
    · intro a ha b hb
      obtain ⟨f, -, rfl⟩ := List.mem_map.mp ha
      exact Nat.le_of_succ_le (line_of_mem_notes hb).1

/-- The advisories of one line are its findings. -/
theorem filter_notes (first : Nat) (outcomes : List Outcome) (n : Nat) :
    (notes first outcomes).filter (·.line = first + n) =
      ((outcomes[n]?.map Outcome.findings).getD []).map (Advisory.mk (first + n)) := by
  induction outcomes generalizing first n with
  | nil => simp
  | cons o rest ih =>
    rw [notes_cons, List.filter_append]
    cases n with
    | zero =>
      have hrest : (notes (first + 1) rest).filter (·.line = first + 0) = [] := by
        rw [List.filter_eq_nil_iff]
        intro a ha
        have := line_of_mem_notes ha
        simp only [decide_eq_true_eq]
        omega
      rw [hrest]
      simp [List.filter_eq_self]
    | succ n =>
      have hhead : (o.findings.map (Advisory.mk first)).filter (·.line = first + (n + 1)) = [] := by
        simp [List.filter_eq_nil_iff]
      have hline : first + (n + 1) = first + 1 + n := by omega
      rw [hhead, List.nil_append, hline]
      exact ih (first + 1) n

end Evaluation

/-- Whatever came before, a line tells of what it adds as it should. Over a program the advisories
come in the order of the lines, and each line has just those that it tells when it is read. -/
theorem evaluate_advisories (E : Elementary Float) (s : Settings) :
    (∀ (r : Run) (line : List Char), Evaluation.Tells (r.outcomes.size + 1) (.ofRun r)
      (.ofRun (r.step E s.sampling line))) ∧
    ∀ program, (evaluate E s program).advisories.Pairwise (·.line ≤ ·.line) ∧
      (∀ a ∈ (evaluate E s program).advisories,
        1 ≤ a.line ∧ a.line ≤ (lines program.toList).length) ∧
      ∀ n line, (lines program.toList)[n]? = some line →
        (evaluate E s program).advisories.filter (·.line = n + 1) =
          ((runAfter E s program n).machine.step E s.sampling line).findings.map
            (Advisory.mk (n + 1)) := by
  refine ⟨Evaluation.step_tells E s.sampling, ?_⟩
  intro program
  rw [evaluate_eq]
  refine ⟨Evaluation.notes_sorted _ _, ?_, ?_⟩
  · intro a ha
    have hlength : (programOutcomes E s program).length = (lines program.toList).length := by
      simp [programOutcomes]
    have := Evaluation.line_of_mem_notes ha
    omega
  · intro n line hline
    have hnote := Evaluation.filter_notes 1 (programOutcomes E s program) n
    have hget : (programOutcomes E s program)[n]? =
        some ((runAfter E s program n).machine.step E s.sampling line) := by
      rw [programOutcomes, Machine.getElem?_outcomes, hline, runAfter_machine]
      rfl
    rw [Nat.add_comm 1, hget] at hnote
    exact hnote

/-- A cut without a feed and an arc without a centre, each told of in its own line. -/
theorem evaluate_advisories_twoLines :
    (lines "G1 X1 F0\nG2 X2".toList)[1]? = some "G2 X2".toList ∧
    (evaluate .onAxes {} "G1 X1 F0\nG2 X2").advisories.filter (·.line = 2) =
      [⟨2, .refused .missingArcCenter⟩] := by
  have hline : (lines "G1 X1 F0\nG2 X2".toList)[1]? = some "G2 X2".toList := by decide
  obtain ⟨-, -, hfilter⟩ := (evaluate_advisories .onAxes {}).2 "G1 X1 F0\nG2 X2"
  have hfindings : ((runAfter .onAxes {} "G1 X1 F0\nG2 X2" 1).machine.step .onAxes
      (Settings.sampling {}) "G2 X2".toList).findings = [.refused .missingArcCenter] := by
    decide +kernel
  refine ⟨hline, ?_⟩
  rw [hfilter 1 _ hline, hfindings]
  rfl

end Toolpath
