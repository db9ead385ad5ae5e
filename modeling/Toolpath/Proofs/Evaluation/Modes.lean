import Toolpath.Proofs.Machine.Modes

/-! # The modal state of a program

Where the lines of a program end does not matter to the modal state, nor do its motions: the state
in the end is that behind the words of all lines, read as one line from the initial state.
-/
namespace Toolpath

def programWords (program : String) : List Word := (lines program.toList).flatMap lineWords

namespace Settings

/-- The modal state behind words. Each mode is as its last code selects, the feed is the last one
commanded, the rapid feed is scaled by the last units, and whatever is not said is as the settings
have it. -/
def modalBehind (s : Settings) (words : List Word) : Modal where
  units := unitsBehind words
  distance := (lastSelected DistanceMode.ofCode? words).getD .absolute
  plane := (lastSelected Plane.ofCode? words).getD .xy
  feed := (commandedFeeds words).getLast?.getD s.defaultFeed
  rapidSource := s.rapidFeed
  rapidFeed := s.rapidFeed * (unitsBehind words).factor

theorem foldl_modal (s : Settings) (words : List Word) :
    words.foldl Modal.read s.initialModal = s.modalBehind words := by
  have hunits := Modal.units_foldl s.initialModal words
  have hdistance := Modal.distance_foldl s.initialModal words
  have hplane := Modal.plane_foldl s.initialModal words
  have hfeed := Modal.feed_foldl (m := s.initialModal) rfl words
  have hsource := Modal.rapidSource_foldl s.initialModal words
  have hrapid := (Modal.rescaled_initial s.defaultFeed s.rapidFeed).foldl_read words
  change (words.foldl Modal.read s.initialModal).Rescaled at hrapid
  generalize words.foldl Modal.read s.initialModal = m at *
  obtain ⟨⟨units, distance, plane⟩, feed, rapidSource, rapidFeed⟩ := m
  dsimp only [Modal.Rescaled] at hunits hdistance hplane hfeed hsource hrapid
  subst hrapid hunits hdistance hplane hfeed hsource
  rfl

end Settings

section
variable (E : Elementary Float) (s : Settings) (program : String)

/-- Behind any number of lines the modal state is that behind the words of these lines. -/
theorem runAfter_modal (n : Nat) : (runAfter E s program n).machine.modal =
    s.modalBehind (((lines program.toList).take n).flatMap lineWords) := by
  rw [runAfter_machine, Machine.after_modal]
  exact s.foldl_modal _

theorem runAfter_rescaled (n : Nat) : (runAfter E s program n).machine.modal.Rescaled := by
  rw [runAfter_machine]
  exact Machine.after_rescaled E s.sampling (m := s.initialMachine) (Modal.rescaled_initial _ _) _

/-- The modal state in the end is told by the words of the program in their order, whatever its line
breaks and motions. The rapid feed is the one of the settings in the last units, however often the
units have changed, and it was in the units in force behind every line. -/
theorem evaluate_modal :
    (evaluate E s program).modal = s.modalBehind (programWords program) ∧
    (evaluate E s program).modal.rapidFeed =
      s.rapidFeed * (unitsBehind (programWords program)).factor ∧
    ∀ n, (runAfter E s program n).machine.modal.Rescaled := by
  have hmodal : (evaluate E s program).modal = s.modalBehind (programWords program) := by
    have h := runAfter_modal E s program (lines program.toList).length
    rw [List.take_length] at h
    rw [evaluate_eq_ofRun]
    exact h
  refine ⟨hmodal, ?_, runAfter_rescaled E s program⟩
  rw [hmodal]
  rfl

end

/-- A feed in inches before the change to millimeters, and one that is none. -/
example : (commandedFeeds (programWords "G20 F10 G21\nF5.X1\n(F9)\nF")) = [254, 5] := by
  decide +kernel

end Toolpath
