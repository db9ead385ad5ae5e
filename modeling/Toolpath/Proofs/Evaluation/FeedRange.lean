import Toolpath.Proofs.Double.Nonnegative
import Toolpath.Proofs.Evaluation.Growth
import Toolpath.Proofs.Evaluation.Modes
import Toolpath.Proofs.Machine.Conversion
import Toolpath.Proofs.Settings.Loading

/-! # Feeds in range

A feed word out of range is not obeyed, so the commanded feed is always finite. The rapid feed is
scaled by the units without such a check. It stays above zero, but in inches it is infinite if the
feed of the settings is near the end of the range, and then a rapid move is recorded with it.
-/
namespace Toolpath

open Double

theorem Units.toMm_pos (u : Units) {v : Float} (hv : 0 < v) (hf : v.isFinite = true) :
    0 < u.toMm v := by
  cases u with
  | millimeters =>
    rwa [toMm_millimeters]
  | inches =>
    have hfactor : (25.4 : Float).isFinite = true := by decide +kernel
    have hone : 1 ≤ toReal 25.4 := by
      rw [← toReal_one, ← le_iff_toReal isFinite_one hfactor]
      decide +kernel
    have hpos : 0 < toReal v := by
      rwa [lt_iff_toReal isFinite_zero hf, toReal_zero] at hv
    have hgrows : toReal v ≤ toReal v * toReal 25.4 := le_mul_of_one_le_right hpos.le hone
    exact (isRounded_mul hf hfactor).pos (isGrid_toReal v) hpos hgrows

namespace Settings

/-- Whether the rapid feed is in range also when it is given in inches. -/
def RapidFits (s : Settings) : Prop := (Units.inches.toMm s.rapidFeed).isFinite = true

end Settings

theorem isFinite_of_mem_commandedFeeds {words : List Word} {feed : Float}
    (h : feed ∈ commandedFeeds words) : feed.isFinite = true := by
  obtain ⟨⟨w, n⟩, -, hw⟩ := List.mem_filterMap.mp h
  dsimp only at hw
  unfold Word.feedBehind? at hw
  split at hw
  · exact (Option.filter_eq_some_iff.mp hw).2
  · cases hw

structure Modal.FeedsInRange (s : Settings) (m : Modal) : Prop where
  feed_finite : m.feed.isFinite = true
  rapid_pos : 0 < m.rapidFeed
  rapid_finite : m.rapidFeed.isFinite = true ↔ (m.units = .inches → s.RapidFits)

section
variable {s : Settings} (hs : s.violation? = none)
include hs

theorem Settings.modalBehind_feeds (words : List Word) :
    (s.modalBehind words).FeedsInRange s := by
  have hdefault := violation?_eq_none_iff.mp hs .defaultFeed
  have hrapid := violation?_eq_none_iff.mp hs .rapidFeed
  simp only [Setting.holds, Bool.and_eq_true, decide_eq_true_eq] at hdefault hrapid
  constructor
  · change ((commandedFeeds words).getLast?.getD s.defaultFeed).isFinite = true
    cases hlast : (commandedFeeds words).getLast? with
    | none => exact hdefault.2
    | some feed => exact isFinite_of_mem_commandedFeeds (List.mem_of_getLast? hlast)
  · exact Units.toMm_pos _ hrapid.1 hrapid.2
  · change ((unitsBehind words).toMm s.rapidFeed).isFinite = true ↔
      (unitsBehind words = .inches → s.RapidFits)
    cases unitsBehind words with
    | millimeters => simp [hrapid.2]
    | inches => simp [Settings.RapidFits]

namespace Machine
variable {E : Elementary Float} {t : Sampling Float}

omit hs in
/-- A record has the feed of its motion, or none. -/
theorem Makes.feed_eq {m : Machine} {words : AxisWords Float} {kind : Motion} {travel : Travel}
    {findings : List Finding} (h : Makes E t m words kind travel findings) :
    travel.move.feed = if 0 < m.modal.feedOf kind then m.modal.feedOf kind else 0 := by
  cases h <;> rfl

omit hs in
/-- In a state with its feeds in range, the feed of a record is finite unless it is the rapid feed
and that is not. -/
theorem step_feed {m : Machine} {line : List Char}
    (hm : (m.step E t line).machine.modal.FeedsInRange s) {travel : Travel}
    (htravel : (m.step E t line).travel = some travel) :
    travel.move.feed.isFinite = true ↔ (travel.move.kind = .rapid →
      (m.step E t line).machine.modal.units = .inches → s.RapidFits) := by
  rcases step_cases E t m line with
    ⟨-, modal, h⟩ | ⟨b, kind, travel', findings, -, -, hmakes, h⟩
  · rw [h] at htravel
    cases htravel
  · rw [h] at hm htravel ⊢
    obtain rfl : travel' = travel := Option.some.inj htravel
    have hfeed := hmakes.feed_eq
    have hnone : (0 : Float).isFinite = true := rfl
    rw [hmakes.kind_eq, hfeed]
    change b.modal.FeedsInRange s at hm
    change (if 0 < b.modal.feedOf kind then b.modal.feedOf kind else 0 : Float).isFinite = true ↔
      (kind = .rapid → b.modal.units = .inches → s.RapidFits)
    cases kind with
    | rapid =>
      change (if 0 < b.modal.rapidFeed then b.modal.rapidFeed else 0 : Float).isFinite = true ↔ _
      rw [if_pos hm.rapid_pos, hm.rapid_finite]
      simp
    | linear | arc =>
      change (if 0 < b.modal.feed then b.modal.feed else 0 : Float).isFinite = true ↔ _
      refine iff_of_true ?_ nofun
      split_ifs
      · exact hm.feed_finite
      · exact hnone

end Machine

/-- Behind any number of words, and of lines, the commanded feed is finite and the rapid feed is
positive. The rapid feed is out of range just in inches and where the settings do not fit there, and
a record has a feed out of range just if it is of a rapid move at that feed. -/
theorem evaluate_feeds_in_range (E : Elementary Float) (program : String) :
    (∀ n, (((programWords program).take n).foldl Modal.read s.initialModal).FeedsInRange s) ∧
    (∀ n, (runAfter E s program n).machine.modal.FeedsInRange s) ∧
    (∀ o ∈ programOutcomes E s program, ∀ travel, o.travel = some travel →
      (travel.move.feed.isFinite = true ↔
        (travel.move.kind = .rapid → o.machine.modal.units = .inches → s.RapidFits))) ∧
    (s.RapidFits → ∀ m ∈ (evaluate E s program).moves, m.feed.isFinite = true) := by
  have hrun (n : ℕ) : (runAfter E s program n).machine.modal.FeedsInRange s := by
    rw [runAfter_modal]
    exact s.modalBehind_feeds hs _
  have hrecords : ∀ o ∈ programOutcomes E s program, ∀ travel, o.travel = some travel →
      (travel.move.feed.isFinite = true ↔
        (travel.move.kind = .rapid → o.machine.modal.units = .inches → s.RapidFits)) := by
    rw [forall_programOutcomes]
    intro n line hline travel htravel
    refine Machine.step_feed ?_ htravel
    have hnext := hrun (n + 1)
    rwa [runAfter_succ E s program hline] at hnext
  refine ⟨?_, hrun, hrecords, ?_⟩
  · intro n
    rw [Settings.foldl_modal]
    exact s.modalBehind_feeds hs _
  · intro hfits m hm
    rw [evaluate_moves] at hm
    obtain ⟨o, ho, hmove⟩ := List.mem_filterMap.mp hm
    obtain ⟨travel, htravel, rfl⟩ := Option.map_eq_some_iff.mp hmove
    exact (hrecords o ho travel htravel).mpr fun _ _ => hfits

end

/-- With a rapid feed near the end of the range, a rapid move in inches is recorded at an infinite
feed. -/
theorem evaluate_feeds_in_range_overflow :
    ({ rapidFeed := 1e308 } : Settings).violation? = none ∧
    ¬ ({ rapidFeed := 1e308 } : Settings).RapidFits ∧
    (runAfter .onAxes { rapidFeed := 1e308 } "G20\nG0 X1" 2).machine.modal.FeedsInRange
      { rapidFeed := 1e308 } ∧
    (evaluate .onAxes { rapidFeed := 1e308 } "G20\nG0 X1").moves.map (·.feed.isFinite) =
      [false] := by
  have hvalid : ({ rapidFeed := 1e308 } : Settings).violation? = none := by decide +kernel
  have hfits : ¬ (Units.inches.toMm (1e308 : Float)).isFinite = true := by decide +kernel
  obtain ⟨-, hrun, -⟩ := evaluate_feeds_in_range hvalid .onAxes "G20\nG0 X1"
  exact ⟨hvalid, hfits, hrun 2, by decide +kernel⟩

end Toolpath
