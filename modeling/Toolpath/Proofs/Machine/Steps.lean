import Toolpath.Machine

/-! # What one line does

`Makes` lists what a motion can come to, with the guards under which it does: a straight move or an
arc is made, or it is refused and the machine stays. `perform_cases` and `step_cases` say that a
line does nothing else, so that a law about lines is one case for each constructor.
-/
namespace Toolpath

/-- The words of a line; one that is dropped has none. -/
def lineWords (line : List Char) : List Word :=
  ((Pipeline.standard.run line).map Word.split).getD []

namespace Machine
variable (E : Elementary Float) (s : Sampling Float)

def clampFindings (fitted : Arc.Fitted Float) : List Finding :=
  fitted.clamped.toList.map fun c => .radiusTooSmall c.radius c.halfChord

inductive Makes (m : Machine) (words : AxisWords Float) :
    Motion → Travel → List Finding → Prop where
  | straight {kind : Motion} (straight : kind.isArc = false)
      (target_finite : (m.modal.target m.position words).isFinite = true)
      (fits : isRepresentable (m.position.distanceTo (m.modal.target m.position words))
        (m.modal.feedOf kind) = true) :
      Makes m words kind
        (.straight kind m.position (m.modal.target m.position words) (m.modal.feedOf kind))
        (feedFindings (m.modal.feedOf kind))
  | straightRefused {kind : Motion} (straight : kind.isArc = false)
      (too_far : ((m.modal.target m.position words).isFinite &&
        isRepresentable (m.position.distanceTo (m.modal.target m.position words))
          (m.modal.feedOf kind)) = false) :
      Makes m words kind (.stay kind m.position (m.modal.feedOf kind)) [.refused .coordinateOverflow]
  | along {turn : Turn} {fitted : Arc.Fitted Float}
      (resolved : Arc.resolve E s turn m.position words m.modal.toFrame = .ok fitted)
      (fits : isRepresentable fitted.arc.length m.modal.feed = true) :
      Makes m words (.arc turn) (.along E fitted.arc m.modal.feed)
        (clampFindings fitted ++ feedFindings m.modal.feed)
  | arcRefused {turn : Turn} {why : Refusal}
      (unresolved : Arc.resolve E s turn m.position words m.modal.toFrame = .error why) :
      Makes m words (.arc turn) (.stay (.arc turn) m.position m.modal.feed) [.refused why]
  | arcTooLong {turn : Turn} {fitted : Arc.Fitted Float}
      (resolved : Arc.resolve E s turn m.position words m.modal.toFrame = .ok fitted)
      (too_long : isRepresentable fitted.arc.length m.modal.feed = false) :
      Makes m words (.arc turn) (.stay (.arc turn) m.position m.modal.feed)
        (clampFindings fitted ++ [.refused .coordinateOverflow])

theorem moveStraight_makes (m : Machine) (kind : Motion) (words : AxisWords Float)
    (hk : kind.isArc = false) : ∃ travel findings,
      Makes E s m words kind travel findings ∧
      m.moveStraight kind words = m.travelled travel findings := by
  unfold moveStraight
  by_cases h : ((m.modal.target m.position words).isFinite &&
      isRepresentable (m.position.distanceTo (m.modal.target m.position words))
        (m.modal.feedOf kind)) = true
  · obtain ⟨hfinite, hfits⟩ := Bool.and_eq_true_iff.mp h
    exact ⟨_, _, .straight hk hfinite hfits, if_pos h⟩
  · exact ⟨_, _, .straightRefused hk (Bool.eq_false_iff.mpr h), if_neg h⟩

theorem moveArc_makes (m : Machine) (turn : Turn) (words : AxisWords Float) :
    ∃ travel findings, Makes E s m words (.arc turn) travel findings ∧
      m.moveArc E s turn words = m.travelled travel findings := by
  unfold moveArc
  cases hr : Arc.resolve E s turn m.position words m.modal.toFrame with
  | error why => exact ⟨_, _, .arcRefused hr, rfl⟩
  | ok fitted =>
    by_cases h : isRepresentable fitted.arc.length m.modal.feed = true
    · exact ⟨_, _, .along hr h, if_pos h⟩
    · exact ⟨_, _, .arcTooLong hr (Bool.eq_false_iff.mpr h), if_neg h⟩

/-- A block that asks for no motion changes the modal state only; any other makes its motion. -/
theorem perform_cases (m : Machine) (b : Block) :
    (b.performs = none ∧ m.perform E s b = { machine := { m with modal := b.modal } }) ∨
    ∃ kind travel findings, b.performs = some kind ∧
      Makes E s { m with modal := b.modal } b.words kind travel findings ∧
      m.perform E s b = { m with modal := b.modal }.travelled travel findings := by
  unfold perform
  cases hb : b.performs with
  | none => exact .inl ⟨rfl, rfl⟩
  | some kind =>
    right
    cases kind with
    | rapid =>
      obtain ⟨t, f, h⟩ := moveStraight_makes E s { m with modal := b.modal } .rapid b.words rfl
      exact ⟨_, t, f, rfl, h⟩
    | linear =>
      obtain ⟨t, f, h⟩ := moveStraight_makes E s { m with modal := b.modal } .linear b.words rfl
      exact ⟨_, t, f, rfl, h⟩
    | arc turn =>
      obtain ⟨t, f, h⟩ := moveArc_makes E s { m with modal := b.modal } turn b.words
      exact ⟨_, t, f, rfl, h⟩

theorem perform_modal (m : Machine) (b : Block) : (m.perform E s b).machine.modal = b.modal := by
  rcases perform_cases E s m b with ⟨-, h⟩ | ⟨kind, travel, findings, -, -, h⟩ <;>
    simp [h, travelled]

def blockOf? (m : Machine) (line : List Char) : Option Block :=
  (Pipeline.standard.run line).map fun text => Block.scan m.modal (Word.split text)

theorem step_eq (m : Machine) (line : List Char) :
    m.step E s line = match m.blockOf? line with
      | none => { machine := m }
      | some b => m.perform E s b := by
  unfold step blockOf?
  cases Pipeline.standard.run line <;> rfl

theorem step_words (m : Machine) (line : List Char) :
    m.step E s line = m.perform E s (Block.scan m.modal (lineWords line)) := by
  unfold step lineWords
  cases Pipeline.standard.run line <;> rfl

/-- A line either moves nothing, or makes the motion of its block. -/
theorem step_cases (m : Machine) (line : List Char) :
    (((m.blockOf? line).bind Block.performs = none) ∧
      ∃ modal, m.step E s line = { machine := { m with modal } }) ∨
    ∃ b kind travel findings, m.blockOf? line = some b ∧ b.performs = some kind ∧
      Makes E s { m with modal := b.modal } b.words kind travel findings ∧
      m.step E s line = { m with modal := b.modal }.travelled travel findings := by
  rw [step_eq]
  cases hb : m.blockOf? line with
  | none => exact .inl ⟨rfl, m.modal, rfl⟩
  | some b =>
    rcases perform_cases E s m b with ⟨hnone, hp⟩ | ⟨kind, travel, findings, hsome, hmakes, hp⟩
    · exact .inl ⟨hnone, b.modal, hp⟩
    · exact .inr ⟨b, kind, travel, findings, rfl, hsome, hmakes, hp⟩

end Machine
end Toolpath
