import Toolpath.Proofs.Evaluation.Kinds
import Toolpath.Proofs.Evaluation.Moves

/-! # What is said of a motion

A motion that is refused says why, and a motion that is made says whether its feed was positive; a
radius that was too short is told of first, whatever becomes of the arc. A refusal goes with a
machine that stays where it is.
-/
namespace Toolpath

inductive Report (feed : Float) : List Finding → Prop where
  | silent : Report feed []
  | feed : Report feed [.nonPositiveFeed feed]
  | short (radius halfChord : Float) : Report feed [.radiusTooSmall radius halfChord]
  | shortAndFeed (radius halfChord : Float) :
      Report feed [.radiusTooSmall radius halfChord, .nonPositiveFeed feed]
  | shortAndOverflow (radius halfChord : Float) :
      Report feed [.radiusTooSmall radius halfChord, .refused .coordinateOverflow]
  | refused (why : Refusal) : Report feed [.refused why]

def Refuses (findings : List Finding) : Prop := ∃ why, .refused why ∈ findings

theorem feedFindings_cases (feed : Float) :
    (feed ≤ 0 ∧ feedFindings feed = [.nonPositiveFeed feed]) ∨
    (¬ feed ≤ 0 ∧ feedFindings feed = []) := by
  by_cases h : feed ≤ 0
  · exact .inl ⟨h, if_pos h⟩
  · exact .inr ⟨h, if_neg h⟩

@[simp] theorem nonPositiveFeed_mem_feedFindings (feed : Float) :
    .nonPositiveFeed feed ∈ feedFindings feed ↔ feed ≤ 0 := by
  rcases feedFindings_cases feed with ⟨h, hf⟩ | ⟨h, hf⟩ <;> simp [h, hf]

@[simp] theorem refused_notMem_feedFindings (why : Refusal) (feed : Float) :
    .refused why ∉ feedFindings feed := by
  rcases feedFindings_cases feed with ⟨-, hf⟩ | ⟨-, hf⟩ <;> simp [hf]

namespace Machine
variable {E : Elementary Float} {s : Sampling Float}

theorem clampFindings_cases (fitted : Arc.Fitted Float) : clampFindings fitted = [] ∨
    ∃ radius halfChord, clampFindings fitted = [.radiusTooSmall radius halfChord] := by
  unfold clampFindings
  cases fitted.clamped with
  | none => exact .inl rfl
  | some c => exact .inr ⟨c.radius, c.halfChord, rfl⟩

@[simp] theorem nonPositiveFeed_notMem_clampFindings (feed : Float) (fitted : Arc.Fitted Float) :
    .nonPositiveFeed feed ∉ clampFindings fitted := by
  simp [clampFindings]

@[simp] theorem refused_notMem_clampFindings (why : Refusal) (fitted : Arc.Fitted Float) :
    .refused why ∉ clampFindings fitted := by
  simp [clampFindings]

namespace Makes
variable {m : Machine} {words : AxisWords Float} {kind : Motion} {travel : Travel}
  {findings : List Finding}

theorem report (h : Makes E s m words kind travel findings) :
    Report (m.modal.feedOf kind) findings := by
  cases h with
  | straight =>
    rcases feedFindings_cases (m.modal.feedOf kind) with ⟨-, h⟩ | ⟨-, h⟩ <;> rw [h]
    · exact .feed
    · exact .silent
  | straightRefused => exact .refused _
  | @along turn fitted =>
    have hfeed : m.modal.feedOf (.arc turn) = m.modal.feed := rfl
    rw [hfeed]
    rcases clampFindings_cases fitted with hc | ⟨radius, halfChord, hc⟩ <;>
      rcases feedFindings_cases m.modal.feed with ⟨-, hf⟩ | ⟨-, hf⟩ <;> rw [hc, hf]
    · exact .feed
    · exact .silent
    · exact .shortAndFeed radius halfChord
    · exact .short radius halfChord
  | arcRefused => exact .refused _
  | @arcTooLong turn fitted =>
    rcases clampFindings_cases fitted with hc | ⟨radius, halfChord, hc⟩ <;> rw [hc]
    · exact .refused _
    · exact .shortAndOverflow radius halfChord

/-- A motion that is refused leaves the machine where it is. -/
theorem stays (h : Makes E s m words kind travel findings) (hr : Refuses findings) :
    travel = .stay kind m.position (m.modal.feedOf kind) := by
  obtain ⟨why, hwhy⟩ := hr
  cases h with
  | straight => simp at hwhy
  | along => simp at hwhy
  | straightRefused => rfl
  | arcRefused => rfl
  | arcTooLong => rfl

/-- A motion that is not refused is made, straight to its target or along its arc. -/
theorem made (h : Makes E s m words kind travel findings) (hr : ¬ Refuses findings) :
    (travel = .straight kind m.position (m.modal.target m.position words) (m.modal.feedOf kind) ∧
      findings = feedFindings (m.modal.feedOf kind)) ∨
    ∃ turn fitted, kind = .arc turn ∧
      Arc.resolve E s turn m.position words m.modal.toFrame = .ok fitted ∧
      travel = .along E fitted.arc m.modal.feed ∧
      findings = clampFindings fitted ++ feedFindings m.modal.feed := by
  cases h with
  | straight => exact .inl ⟨rfl, rfl⟩
  | along resolved => exact .inr ⟨_, _, rfl, resolved, rfl, rfl⟩
  | straightRefused => exact absurd ⟨_, List.mem_singleton_self _⟩ hr
  | arcRefused => exact absurd ⟨_, List.mem_singleton_self _⟩ hr
  | arcTooLong => exact absurd ⟨.coordinateOverflow, by simp⟩ hr

/-- A motion that is not refused arrives at the target of its words. -/
theorem arrives (h : Makes E s m words kind travel findings) (hr : ¬ Refuses findings) :
    travel.arrival = m.modal.target m.position words := by
  rcases h.made hr with ⟨rfl, -⟩ | ⟨turn, fitted, -, hresolve, rfl, -⟩
  · rfl
  · obtain ⟨-, -, -, -, htarget, -⟩ := Arc.resolve_ok hresolve
    exact htarget

theorem feed_iff (h : Makes E s m words kind travel findings) (hr : ¬ Refuses findings) :
    .nonPositiveFeed (m.modal.feedOf kind) ∈ findings ↔ m.modal.feedOf kind ≤ 0 := by
  rcases h.made hr with ⟨-, rfl⟩ | ⟨turn, fitted, rfl, -, -, rfl⟩
  · simp
  · have hfeed : m.modal.feedOf (.arc turn) = m.modal.feed := rfl
    simp [hfeed]

end Makes
end Machine
end Toolpath
