import Toolpath.Proofs.Machine.Findings
import Toolpath.Proofs.Machine.Words

/-! # What feeds have no say in

Feeds tell how long a move takes, and they are recorded. `untimed` leaves out what they tell, and
nothing of the rest depends on them: a machine without its feeds reads a line without its feed words
to the same end. Only a move whose time is out of range is not made.
-/
namespace Toolpath

def Modal.untimed (m : Modal) : Modal :=
  { toFrame := m.toFrame, feed := 0, rapidSource := 0, rapidFeed := 0 }

/-- A command tells no feed: in any units, the rapid feed left out is none. -/
theorem Modal.untimed_apply (m : Modal) (c : Command) :
    (m.apply c).untimed = m.untimed.apply c := by
  cases c with
  | units u =>
    have hzero : 0 * u.factor = (0 : Float) := u.toMm_zero
    simp [apply, selectUnits, untimed, hzero]
  | motion | plane | distance => rfl

def Machine.untimed (m : Machine) : Machine := { m with modal := m.modal.untimed }

def Move.untimed (m : Move) : Move := { m with time := 0, feed := 0 }

namespace Travel

def untimed (t : Travel) : Travel := { t with move := t.move.untimed }

@[simp] theorem untimed_straight (kind : Motion) (start target : Position Float) (feed : Float) :
    (straight kind start target feed).untimed =
      ⟨⟨kind, start.distanceTo target, 0, 0⟩, [target], target⟩ := rfl

@[simp] theorem untimed_along (E : Elementary Float) (a : Arc Float) (feed : Float) :
    (along E a feed).untimed = ⟨⟨.arc a.turn, a.length, 0, 0⟩, a.samples.toList E, a.target⟩ := rfl

@[simp] theorem untimed_stay (kind : Motion) (position : Position Float) (feed : Float) :
    (stay kind position feed).untimed = ⟨⟨kind, 0, 0, 0⟩, [position], position⟩ := rfl

end Travel

def Finding.isOfFeed : Finding → Bool
  | nonPositiveFeed _ => true
  | _ => false

def Outcome.untimed (o : Outcome) : Outcome where
  machine := o.machine.untimed
  travel := o.travel.map Travel.untimed
  findings := o.findings.filter (!·.isOfFeed)

/-- Two words that are the same, unless they give a feed. -/
structure Word.SameButFeed (w w' : Word) : Prop where
  letter : w'.letter = w.letter
  same : w.letter ≠ 'F' → w' = w

instance (w w' : Word) : Decidable (w.SameButFeed w') :=
  decidable_of_iff (w'.letter = w.letter ∧ (w.letter ≠ 'F' → w' = w))
    ⟨fun ⟨letter, same⟩ => ⟨letter, same⟩, fun ⟨letter, same⟩ => ⟨letter, same⟩⟩

theorem filter_sameButFeed {words words' : List Word}
    (h : List.Forall₂ Word.SameButFeed words words') :
    words'.filter (fun w => !(w.letter == 'F')) = words.filter (fun w => !(w.letter == 'F')) := by
  induction h with
  | nil => rfl
  | @cons w w' _ _ head _ ih =>
    by_cases hw : w.letter = 'F'
    · simpa [hw, head.letter] using ih
    · rw [head.same hw]
      simp [hw, ih]

namespace Block

def untimed (b : Block) : Block := { b with modal := b.modal.untimed }

theorem untimed_read (b : Block) (w : Word) :
    (b.read w).untimed = if w.letter == 'F' then b.untimed else b.untimed.read w := by
  obtain ⟨letter, value⟩ := w
  by_cases hg : letter = 'G'
  · subst hg
    rw [read_command? b rfl, read_command? b.untimed rfl]
    cases Word.command? ⟨'G', value⟩ with
    | none => rfl
    | some c => exact congrArg (Block.mk · _ _) (b.modal.untimed_apply c)
  · unfold read
    dsimp only
    split
    case h_1 => contradiction
    case h_2 =>
      cases Word.number? ⟨'F', value⟩ with
      | none => rfl
      | some v =>
        have hfeed : (b.modal.setFeed v).untimed = b.modal.untimed := by
          rw [Modal.setFeed_eq]
          rfl
        simp [untimed, hfeed]
    case h_10 hf _ _ _ _ _ _ _ =>
      rw [if_neg (by simpa using hf)]
    all_goals rfl

theorem scan_untimed {m m' : Modal} (hm : m'.untimed = m.untimed) {words words' : List Word}
    (h : List.Forall₂ Word.SameButFeed words words') :
    (scan m' words').untimed = (scan m words).untimed := by
  unfold scan
  rw [foldl_erase untimed_read, foldl_erase untimed_read, filter_sameButFeed h]
  congr 1
  simp [untimed, hm]

end Block

@[simp] theorem filter_feedFindings (feed : Float) :
    (feedFindings feed).filter (!·.isOfFeed) = [] := by
  rcases feedFindings_cases feed with ⟨-, h⟩ | ⟨-, h⟩ <;> simp [h, Finding.isOfFeed]

def Outcome.InRange (o : Outcome) : Prop := .refused .coordinateOverflow ∉ o.findings

namespace Machine
variable {m m' : Machine}

theorem untimed_eq (hm : m'.untimed = m.untimed) :
    m'.position = m.position ∧ m'.modal.toFrame = m.modal.toFrame :=
  ⟨(congrArg Machine.position hm :), (congrArg (Modal.toFrame ∘ Machine.modal) hm :)⟩

theorem travelled_untimed (hm : m'.untimed = m.untimed) {t t' : Travel}
    {findings findings' : List Finding} (ht : t'.untimed = t.untimed)
    (hfindings : findings'.filter (!·.isOfFeed) = findings.filter (!·.isOfFeed)) :
    (m'.travelled t' findings').untimed = (m.travelled t findings).untimed := by
  have harrival : t'.arrival = t.arrival := (congrArg Travel.arrival ht :)
  have hmodal : m'.modal.untimed = m.modal.untimed := congrArg Machine.modal hm
  simp [Outcome.untimed, travelled, Machine.untimed, ht, hfindings, harrival, hmodal]

theorem moveStraight_inRange {kind : Motion} {words : AxisWords Float}
    (h : (m.moveStraight kind words).InRange) : m.moveStraight kind words =
      m.travelled (.straight kind m.position (m.modal.target m.position words)
        (m.modal.feedOf kind)) (feedFindings (m.modal.feedOf kind)) := by
  unfold moveStraight at h ⊢
  dsimp only at h ⊢
  split at h
  next hfits => exact if_pos hfits
  next => simp [Outcome.InRange, refuse, travelled] at h

theorem moveStraight_untimed (hm : m'.untimed = m.untimed) {kind : Motion}
    {words : AxisWords Float} (h : (m.moveStraight kind words).InRange)
    (h' : (m'.moveStraight kind words).InRange) :
    (m'.moveStraight kind words).untimed = (m.moveStraight kind words).untimed := by
  obtain ⟨hposition, hframe⟩ := untimed_eq hm
  rw [moveStraight_inRange h, moveStraight_inRange h', hposition, hframe]
  refine travelled_untimed hm ?_ ?_
  · rw [Travel.untimed_straight, Travel.untimed_straight]
  · rw [filter_feedFindings, filter_feedFindings]

variable (E : Elementary Float) (s : Sampling Float)

theorem moveArc_inRange {turn : Turn} {words : AxisWords Float} {fitted : Arc.Fitted Float}
    (hresolve : Arc.resolve E s turn m.position words m.modal.toFrame = .ok fitted)
    (h : (m.moveArc E s turn words).InRange) : m.moveArc E s turn words =
      m.travelled (.along E fitted.arc m.modal.feed)
        (clampFindings fitted ++ feedFindings m.modal.feed) := by
  unfold moveArc at h ⊢
  rw [hresolve] at h ⊢
  dsimp only at h ⊢
  split at h
  next hfits => exact if_pos hfits
  next => simp [Outcome.InRange, refuse, travelled] at h

theorem moveArc_untimed (hm : m'.untimed = m.untimed) {turn : Turn}
    {words : AxisWords Float} (h : (m.moveArc E s turn words).InRange)
    (h' : (m'.moveArc E s turn words).InRange) :
    (m'.moveArc E s turn words).untimed = (m.moveArc E s turn words).untimed := by
  obtain ⟨hposition, hframe⟩ := untimed_eq hm
  have hresolve : Arc.resolve E s turn m'.position words m'.modal.toFrame =
      Arc.resolve E s turn m.position words m.modal.toFrame := by
    rw [hposition, hframe]
  cases hr : Arc.resolve E s turn m.position words m.modal.toFrame with
  | error why =>
    rw [hr] at hresolve
    unfold moveArc
    rw [hr, hresolve]
    refine travelled_untimed hm ?_ rfl
    rw [Travel.untimed_stay, Travel.untimed_stay, hposition]
  | ok fitted =>
    rw [hr] at hresolve
    rw [moveArc_inRange E s hr h, moveArc_inRange E s hresolve h']
    refine travelled_untimed hm ?_ ?_
    · rw [Travel.untimed_along, Travel.untimed_along]
    · rw [List.filter_append, List.filter_append, filter_feedFindings, filter_feedFindings]

/-- A line whose moves are in range does the same but for its times, whatever the feeds. -/
theorem step_untimed (hm : m'.untimed = m.untimed) {line line' : List Char}
    (hline : List.Forall₂ Word.SameButFeed (lineWords line) (lineWords line'))
    (h : (m.step E s line).InRange) (h' : (m'.step E s line').InRange) :
    (m'.step E s line').untimed = (m.step E s line).untimed := by
  have hmodal : m'.modal.untimed = m.modal.untimed := congrArg Machine.modal hm
  have hscan := Block.scan_untimed hmodal hline
  rw [step_words] at h h' ⊢
  rw [step_words]
  generalize Block.scan m.modal (lineWords line) = b at *
  generalize Block.scan m'.modal (lineWords line') = b' at *
  have hwords : b'.words = b.words := (congrArg Block.words hscan :)
  have hperforms : b'.performs = b.performs := (congrArg Block.performs hscan :)
  have hb : ({ m' with modal := b'.modal } : Machine).untimed =
      { m with modal := b.modal }.untimed := by
    have hposition := (untimed_eq hm).1
    have hblock : b'.modal.untimed = b.modal.untimed := (congrArg Block.modal hscan :)
    simp [untimed, hposition, hblock]
  unfold perform at h h' ⊢
  rw [hwords, hperforms] at h' ⊢
  cases hk : b.performs with
  | none => simp only [Outcome.untimed, hb]
  | some kind =>
    rw [hk] at h h'
    cases kind with
    | arc turn => exact moveArc_untimed E s hb h h'
    | rapid => exact moveStraight_untimed hb h h'
    | linear => exact moveStraight_untimed hb h h'

end Machine
end Toolpath
