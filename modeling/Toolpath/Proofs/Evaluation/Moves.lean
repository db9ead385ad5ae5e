import Toolpath.Proofs.Arc.Resolution
import Toolpath.Proofs.Double.Identities
import Toolpath.Proofs.Evaluation.Outcomes
import Toolpath.Proofs.Machine.Steps

/-! # Records and positions are in range

A motion is made only if its distance and time are finite, and a position is taken only if it is.
So every record is sound and the machine stands at a finite position behind every line, whatever
the elementary functions give.
-/
namespace Toolpath

open Double

structure Move.Sound (m : Move) : Prop where
  distance_finite : m.distance.isFinite = true
  distance_nonneg : 0 ≤ m.distance
  time_finite : m.time.isFinite = true
  time_nonneg : 0 ≤ m.time
  feed_number : m.feed.isNaN = false
  feed_nonneg : 0 ≤ m.feed
  time_eq : m.time = moveTime m.distance m.feed

theorem zero_le_iff {x : Float} (h : x.isFinite = true) : 0 ≤ x ↔ 0 ≤ toReal x := by
  rw [le_iff_toReal isFinite_zero h, toReal_zero]

theorem moveTime_zero (distance : Float) : moveTime distance 0 = 0 := rfl

theorem moveTime_nonneg {distance feed : Float} (h0 : 0 ≤ toReal distance)
    (h : (moveTime distance feed).isFinite = true) : 0 ≤ toReal (moveTime distance feed) := by
  unfold moveTime at h ⊢
  split_ifs at h ⊢ with hfeed
  · have hq : (distance / feed).isFinite = true := (isFinite_of_mul h).1
    have h60 : 0 ≤ toReal 60 := by
      change (0 : ℝ) ≤ ((8444249301319680 : ℕ) : ℝ) * 2 ^ (-47 : ℤ)
      positivity
    exact toReal_mul_nonneg h (toReal_div_nonneg hq h0 hfeed) h60
  · rw [toReal_zero]

@[simp] theorem moveTime_zero_distance (feed : Float) : moveTime 0 feed = 0 := by
  unfold moveTime
  split_ifs with h
  · rw [zero_div_eq h]
    decide
  · rfl

theorem isRepresentable_zero (feed : Float) : isRepresentable 0 feed = true := by
  simp [isRepresentable]

/-- The feed of a record is the commanded one, or none. -/
theorem recordedFeed (feed : Float) :
    0 < feed ∧ (if 0 < feed then feed else 0) = feed ∨
    ¬ 0 < feed ∧ (if 0 < feed then feed else 0) = 0 := by
  by_cases h : 0 < feed
  · exact .inl ⟨h, if_pos h⟩
  · exact .inr ⟨h, if_neg h⟩

theorem Move.sound_of {kind : Motion} {distance feed : Float} (h0 : 0 ≤ toReal distance)
    (h : isRepresentable distance feed = true) : (Move.of kind distance feed).Sound := by
  obtain ⟨hd, ht⟩ := Bool.and_eq_true_iff.mp h
  have hfeed : (Move.of kind distance feed).feed.isNaN = false ∧
      0 ≤ (Move.of kind distance feed).feed ∧
      moveTime distance feed = moveTime distance (Move.of kind distance feed).feed := by
    change (if 0 < feed then feed else 0 : Float).isNaN = false ∧
      (0 : Float) ≤ (if 0 < feed then feed else 0) ∧ _ = moveTime _ (if 0 < feed then feed else 0)
    rcases recordedFeed feed with ⟨hpos, hf⟩ | ⟨hpos, hf⟩ <;> rw [hf]
    · obtain ⟨hz, hn, hlt⟩ := lt_iff.mp hpos
      exact ⟨hn, le_iff.mpr ⟨hz, hn, hlt.le⟩, rfl⟩
    · refine ⟨rfl, by decide, ?_⟩
      rw [moveTime_zero]
      exact if_neg hpos
  exact {
    distance_finite := hd
    distance_nonneg := (zero_le_iff hd).mpr h0
    time_finite := ht
    time_nonneg := (zero_le_iff ht).mpr (moveTime_nonneg h0 ht)
    feed_number := hfeed.1
    feed_nonneg := hfeed.2.1
    time_eq := hfeed.2.2 }

theorem distanceTo_nonneg {p q : Position Float} (h : (p.distanceTo q).isFinite = true) :
    0 ≤ toReal (p.distanceTo q) :=
  toReal_sqrt_nonneg h

theorem Arc.WellFormed.radius_pos {E : Elementary Float} {a : Arc Float} (h : a.WellFormed E) :
    0 < toReal a.radius := by
  have he : (Center.epsilon : Float).isFinite = true := rfl
  have hlt : toReal Center.epsilon < toReal a.radius :=
    not_le.mp ((le_iff_toReal h.radius_finite he).not.mp h.not_small)
  have hpos : 0 ≤ toReal Center.epsilon := by
    change (0 : ℝ) ≤ ((4951760157141521 : ℕ) : ℝ) * 2 ^ (-92 : ℤ)
    positivity
  exact hpos.trans_lt hlt

theorem Arc.WellFormed.length_nonneg {E : Elementary Float} {a : Arc Float} (h : a.WellFormed E)
    (hl : a.length.isFinite = true) : 0 ≤ toReal a.length :=
  toReal_mul_nonneg hl h.radius_pos.le ((abs_nonneg _).trans_eq (toReal_abs _).symm)

namespace Machine
variable {E : Elementary Float} {s : Sampling Float}

/-- What is made of a motion has a sound record, and arrives at a finite position. -/
theorem Makes.sound {m : Machine} {words : AxisWords Float} {kind : Motion} {travel : Travel}
    {findings : List Finding} (h : Makes E s m words kind travel findings)
    (hm : m.position.isFinite = true) : travel.move.Sound ∧ travel.arrival.isFinite = true := by
  have hstay (kind : Motion) (feed : Float) : (Move.of kind 0 feed).Sound :=
    Move.sound_of toReal_zero.ge (isRepresentable_zero feed)
  cases h with
  | straight straight target_finite fits =>
    have hd := distanceTo_nonneg (Bool.and_eq_true_iff.mp fits).1
    exact ⟨Move.sound_of hd fits, target_finite⟩
  | straightRefused straight too_far => exact ⟨hstay _ _, hm⟩
  | along resolved fits =>
    obtain ⟨hw, -⟩ := Arc.resolve_ok resolved
    have hl := hw.length_nonneg (Bool.and_eq_true_iff.mp fits).1
    exact ⟨Move.sound_of hl fits, hw.target_finite⟩
  | arcRefused unresolved => exact ⟨hstay _ _, hm⟩
  | arcTooLong resolved too_long => exact ⟨hstay _ _, hm⟩

/-- From a finite position a line records a sound move, if any, and arrives at a finite position. -/
theorem step_sound (m : Machine) (line : List Char) (hm : m.position.isFinite = true) :
    (m.step E s line).machine.position.isFinite = true ∧
    ∀ travel, (m.step E s line).travel = some travel → travel.move.Sound := by
  rcases step_cases E s m line with ⟨-, modal, h⟩ | ⟨b, kind, travel, findings, -, -, hmakes, h⟩
  · rw [h]
    refine ⟨hm, ?_⟩
    rintro t ⟨⟩
  · obtain ⟨hmove, harrival⟩ := hmakes.sound hm
    rw [h]
    refine ⟨harrival, ?_⟩
    rintro t ⟨⟩
    exact hmove

end Machine

theorem initialMachine_finite (s : Settings) : s.initialMachine.position.isFinite = true := by
  change (Position.origin : Position Float).isFinite = true
  rfl

theorem runAfter_finite (E : Elementary Float) (s : Settings) (program : String) (n : ℕ) :
    (runAfter E s program n).machine.position.isFinite = true := by
  rw [runAfter_machine]
  exact Machine.after_of_step (fun m line hm => (Machine.step_sound m line hm).1)
    (initialMachine_finite s) _

/-- Every record of a program is sound, and behind every line, so at the end as well, the machine
stands at a finite position. -/
theorem evaluate_sound (E : Elementary Float) (s : Settings) (program : String) :
    (∀ m ∈ (evaluate E s program).moves, m.Sound) ∧
    (∀ n, (runAfter E s program n).machine.position.isFinite = true) ∧
    (evaluate E s program).position.isFinite = true := by
  have hmoves : ∀ o ∈ programOutcomes E s program, ∀ t, o.travel = some t → t.move.Sound := by
    rw [forall_programOutcomes]
    intro n line _
    exact (Machine.step_sound _ line (runAfter_finite E s program n)).2
  refine ⟨?_, runAfter_finite E s program, ?_⟩
  · intro m hm
    rw [evaluate_moves] at hm
    obtain ⟨o, ho, hmove⟩ := List.mem_filterMap.mp hm
    obtain ⟨travel, htravel, rfl⟩ := Option.map_eq_some_iff.mp hmove
    exact hmoves o ho travel htravel
  · rw [evaluate_position]
    exact runAfter_finite E s program _

end Toolpath
