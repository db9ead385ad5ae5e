import Mathlib.Data.List.Basic
import Mathlib.Data.List.Induction
import Toolpath.Proofs.Evaluation.Outcomes
import Toolpath.Proofs.Machine.Words

/-! # Modal groups

What a line leaves in force is set by its words alone, one after the other, so lines in turn leave
what their words do without the line breaks. Of each modal group the last word decides. A feed is
taken in the units that are in force where it stands, so it needs the words before it as well. The
rapid feed is rescaled by every change of units, and is always that of the units in force.
-/
namespace Toolpath

namespace Block

theorem modal_foldl (b : Block) (words : List Word) :
    (words.foldl read b).modal = words.foldl Modal.read b.modal := by
  induction words generalizing b with
  | nil => rfl
  | cons w rest ih => rw [List.foldl_cons, List.foldl_cons, ih, modal_read]

end Block

namespace Machine
variable (E : Elementary Float) (s : Sampling Float)

theorem step_modal (m : Machine) (line : List Char) :
    (m.step E s line).machine.modal = (lineWords line).foldl Modal.read m.modal := by
  rw [step_words, perform_modal]
  exact Block.modal_foldl _ _

theorem after_modal (m : Machine) (lines : List (List Char)) :
    (m.after E s lines).modal = (lines.flatMap lineWords).foldl Modal.read m.modal := by
  induction lines generalizing m with
  | nil => rfl
  | cons line rest ih =>
    rw [after_cons, ih, step_modal, List.flatMap_cons, List.foldl_append]

end Machine

def Units.ofCode? : Nat → Option Units
  | 20 => some .inches
  | 21 => some .millimeters
  | _ => none

def DistanceMode.ofCode? : Nat → Option DistanceMode
  | 90 => some .absolute
  | 91 => some .incremental
  | _ => none

def Plane.ofCode? : Nat → Option Plane
  | 17 => some .xy
  | 18 => some .xz
  | 19 => some .yz
  | _ => none

def Word.gCode? (w : Word) : Option Nat := if w.letter = 'G' then w.code? else none

/-- What the last word of a modal group selects, the group being given by its codes. -/
def lastSelected {β : Type} (ofCode? : Nat → Option β) (words : List Word) : Option β :=
  (words.filterMap fun w => w.gCode?.bind ofCode?).getLast?

def unitsBehind (words : List Word) : Units := (lastSelected Units.ofCode? words).getD .millimeters

/-- The feed in millimeters that a word commands behind other words, unless it is out of range. -/
def Word.feedBehind? (before : List Word) (w : Word) : Option Float :=
  if w.letter = 'F' then (w.number?.map (unitsBehind before).toMm).filter Float.isFinite else none

/-- The feeds that words command, each in the units selected by the words before it. -/
def commandedFeeds (words : List Word) : List Float :=
  words.zipIdx.filterMap fun (w, n) => w.feedBehind? (words.take n)

theorem lastSelected_append {β : Type} (ofCode? : Nat → Option β) (words : List Word) (w : Word) :
    lastSelected ofCode? (words ++ [w]) =
      (w.gCode?.bind ofCode?).or (lastSelected ofCode? words) := by
  unfold lastSelected
  rw [List.filterMap_append, List.getLast?_append]
  cases h : w.gCode?.bind ofCode? <;> simp [h]

theorem commandedFeeds_append (words : List Word) (w : Word) :
    commandedFeeds (words ++ [w]) = commandedFeeds words ++ (w.feedBehind? words).toList := by
  have hbefore : words.zipIdx.filterMap (fun (w', n) => w'.feedBehind? ((words ++ [w]).take n)) =
      commandedFeeds words := by
    apply List.filterMap_congr
    rintro ⟨w', n⟩ hmem
    have hn : n < 0 + words.length := List.snd_lt_add_of_mem_zipIdx hmem
    dsimp only
    rw [List.take_append_of_le_length (by omega)]
  unfold commandedFeeds at hbefore ⊢
  rw [List.zipIdx_append, List.filterMap_append, hbefore]
  cases h : w.feedBehind? words <;> simp [h]

namespace Modal

/-- Feed words apart, a word does what its code asks for. -/
theorem read_gCode (m : Modal) (w : Word) :
    (m.read w).toFrame = ((w.gCode?.bind Command.ofCode?).elim m m.apply).toFrame ∧
    (m.read w).rapidSource = m.rapidSource := by
  unfold read Word.command? Word.gCode?
  by_cases hf : w.letter = 'F'
  · have hg : w.letter ≠ 'G' := by simp [hf]
    rw [if_pos hf, if_neg hg]
    cases w.number? with
    | none => exact ⟨rfl, rfl⟩
    | some v =>
      change (m.setFeed v).toFrame = m.toFrame ∧ (m.setFeed v).rapidSource = m.rapidSource
      rw [setFeed_eq]
      exact ⟨rfl, rfl⟩
  · rw [if_neg hf]
    by_cases hg : w.letter = 'G'
    · rw [if_pos hg, if_pos hg]
      refine ⟨rfl, ?_⟩
      rcases w.code?.bind Command.ofCode? with _ | (_ | _ | _ | _) <;> rfl
    · rw [if_neg hg, if_neg hg]
      exact ⟨rfl, rfl⟩

/-- A mode that the codes of its group select, and all others leave alone, is as selected last. -/
theorem foldl_lastSelected {β : Type} (get : Frame → β) (ofCode? : Nat → Option β)
    (hcode : ∀ (m : Modal) (code : Nat),
      get ((Command.ofCode? code).elim m m.apply).toFrame = (ofCode? code).getD (get m.toFrame))
    (m : Modal) (words : List Word) :
    get (words.foldl read m).toFrame = (lastSelected ofCode? words).getD (get m.toFrame) := by
  induction words using List.reverseRecOn with
  | nil => rfl
  | append_singleton words w ih =>
    rw [List.foldl_append, List.foldl_cons, List.foldl_nil, (read_gCode _ w).1,
      lastSelected_append, Option.getD_or, ← ih]
    cases w.gCode? with
    | none => rfl
    | some code => exact hcode _ code

section
variable (m : Modal) (words : List Word)

theorem units_foldl :
    (words.foldl read m).units = (lastSelected Units.ofCode? words).getD m.units := by
  refine foldl_lastSelected Frame.units Units.ofCode? ?_ m words
  intro m code
  unfold Command.ofCode? Units.ofCode?
  split <;> first | rfl | (split <;> first | rfl | contradiction)

theorem distance_foldl :
    (words.foldl read m).distance = (lastSelected DistanceMode.ofCode? words).getD m.distance := by
  refine foldl_lastSelected Frame.distance DistanceMode.ofCode? ?_ m words
  intro m code
  unfold Command.ofCode? DistanceMode.ofCode?
  split <;> first | rfl | (split <;> first | rfl | contradiction)

theorem plane_foldl :
    (words.foldl read m).plane = (lastSelected Plane.ofCode? words).getD m.plane := by
  refine foldl_lastSelected Frame.plane Plane.ofCode? ?_ m words
  intro m code
  unfold Command.ofCode? Plane.ofCode?
  split <;> first | rfl | (split <;> first | rfl | contradiction)

theorem rapidSource_foldl : (words.foldl read m).rapidSource = m.rapidSource := by
  induction words generalizing m with
  | nil => rfl
  | cons w rest ih => exact (ih _).trans (m.read_gCode w).2

end

/-! ## The rapid feed -/

/-- The rapid feed is the one given in program units, scaled by the units in force. -/
def Rescaled (m : Modal) : Prop := m.rapidFeed = m.units.toMm m.rapidSource

theorem rescaled_initial (feed rapidSource : Float) : (initial feed rapidSource).Rescaled := rfl

theorem rescaled_selectUnits (m : Modal) (u : Units) : (m.selectUnits u).Rescaled := rfl

section
variable {m : Modal} (h : m.Rescaled)
include h

theorem Rescaled.setFeed (raw : Float) : (m.setFeed raw).Rescaled := by
  rw [Modal.setFeed_eq]
  exact h

theorem Rescaled.apply (c : Command) : (m.apply c).Rescaled := by
  cases c with
  | units u => exact m.rescaled_selectUnits u
  | motion | plane | distance => exact h

theorem Rescaled.read (w : Word) : (m.read w).Rescaled := by
  unfold Modal.read
  split
  · cases w.number? with
    | none => exact h
    | some v => exact h.setFeed v
  · cases w.command? with
    | none => exact h
    | some c => exact h.apply c

theorem Rescaled.foldl_read (words : List Word) : (words.foldl Modal.read m).Rescaled := by
  induction words generalizing m with
  | nil => exact h
  | cons w rest ih => exact ih (h.read w)

end

/-! ## The commanded feed -/

theorem feed_read (m : Modal) (w : Word) : (m.read w).feed =
    (if w.letter = 'F' then (w.number?.map m.units.toMm).filter Float.isFinite else none).getD
      m.feed := by
  unfold read
  by_cases hf : w.letter = 'F'
  · rw [if_pos hf, if_pos hf]
    cases w.number? with
    | none => rfl
    | some v =>
      change (m.setFeed v).feed = ((some (m.units.toMm v)).filter Float.isFinite).getD m.feed
      unfold setFeed
      rw [Option.filter_some]
      dsimp only
      split <;> rfl
  · rw [if_neg hf, if_neg hf]
    rcases w.command? with _ | (_ | _ | _ | _) <;> rfl

theorem feed_foldl {m : Modal} (hm : m.units = .millimeters) (words : List Word) :
    (words.foldl read m).feed = (commandedFeeds words).getLast?.getD m.feed := by
  induction words using List.reverseRecOn with
  | nil => rfl
  | append_singleton words w ih =>
    have hunits : (words.foldl read m).units = unitsBehind words := by
      rw [units_foldl, hm]
      rfl
    rw [List.foldl_append, List.foldl_cons, List.foldl_nil, feed_read, hunits, ih,
      commandedFeeds_append, List.getLast?_append]
    change (w.feedBehind? words).getD _ = _
    cases w.feedBehind? words <;> rfl

end Modal

namespace Machine
variable (E : Elementary Float) (s : Sampling Float) {m : Machine} (h : m.modal.Rescaled)
include h

theorem step_rescaled (line : List Char) : (m.step E s line).machine.modal.Rescaled := by
  rw [step_modal]
  exact h.foldl_read _

/-- However often the units change, the rapid feed does not drift. -/
theorem after_rescaled (lines : List (List Char)) : (m.after E s lines).modal.Rescaled := by
  induction lines generalizing m with
  | nil => exact h
  | cons line rest ih =>
    rw [after_cons]
    exact ih (step_rescaled E s h line)

end Machine
end Toolpath
