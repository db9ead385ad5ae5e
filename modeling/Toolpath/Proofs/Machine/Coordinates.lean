import Toolpath.Proofs.Machine.Conversion
import Toolpath.Proofs.Machine.Words

/-! # Coordinates given in one mode and in the other

A block in incremental mode leads where one in absolute mode does that names the sums. Which way a
line leads is told by its words for the axes and by the selection of a mode, and neither touches
what the other words say.
-/
namespace Toolpath

theorem Units.ne_inches {u : Units} : u ≠ .inches ↔ u = .millimeters := by
  cases u <;> simp

theorem DistanceMode.ne_incremental {mode : DistanceMode} :
    mode ≠ .incremental ↔ mode = .absolute := by
  cases mode <;> simp

/-- Whether a word tells where its line leads: by a coordinate, or by the incremental mode. -/
def Word.places (w : Word) : Bool :=
  ['X', 'Y', 'Z'].contains w.letter || w.command? == some (.distance .incremental)

def Modal.absolute (m : Modal) : Modal := { m with distance := .absolute }

/-- The coordinate that absolute mode needs for a number in the given mode. -/
def DistanceMode.sum (mode : DistanceMode) (current number : Float) : Float :=
  match mode with
  | .absolute => number
  | .incremental => current + number

theorem Frame.coordinate_sum {f f' : Frame} (hunits : f.units = .millimeters)
    (hunits' : f'.units = .millimeters) (habsolute : f'.distance = .absolute) (current : Float)
    (number : Option Float) :
    f'.coordinate current (number.map (f.distance.sum current)) = f.coordinate current number := by
  cases number with
  | none => rfl
  | some v =>
    cases hd : f.distance <;>
      simp [coordinate, hunits, hunits', habsolute, hd, DistanceMode.sum]

namespace Block

def unplaced (b : Block) : Block where
  modal := b.modal.absolute
  motion := b.motion
  words := { b.words with x := none, y := none, z := none }

/-- A word that does not tell where its line leads is read alike whatever does. -/
theorem unplaced_read (b : Block) (w : Word) :
    (b.read w).unplaced = if w.places then b.unplaced else b.unplaced.read w := by
  obtain ⟨letter, value⟩ := w
  by_cases hg : letter = 'G'
  · subst hg
    rw [read_command? b rfl, read_command? b.unplaced rfl]
    cases hc : Word.command? ⟨'G', value⟩ with
    | none => simp [Word.places, hc]
    | some c =>
      have hplaces : Word.places ⟨'G', value⟩ = decide (c = .distance .incremental) := by
        simp [Word.places, hc, Bool.beq_eq_decide_eq]
      rw [hplaces]
      rcases c with kind | plane | units | (_ | _) <;> rfl
  · have hc : Word.command? ⟨letter, value⟩ = none := if_neg hg
    unfold Word.places
    rw [hc]
    unfold read
    dsimp only
    split
    case h_1 => contradiction
    case h_2 =>
      cases Word.number? ⟨'F', value⟩ with
      | none => rfl
      | some v =>
        have hfeed : (b.modal.setFeed v).absolute = b.modal.absolute.setFeed v := by
          unfold Modal.setFeed
          dsimp only [Modal.absolute]
          split <;> rfl
        simp [unplaced, hfeed]
    case h_10 hx hy hz _ _ _ _ =>
      have hletter : ['X', 'Y', 'Z'].contains letter = false := by
        simpa using ⟨hx, hy, hz⟩
      rw [hletter]
      rfl
    all_goals rfl

/-- Two blocks that differ in how they lead to one position, by sums or by what is added. -/
structure Places (position : Position Float) (b b' : Block) : Prop where
  unplaced : b'.unplaced = b.unplaced
  units : b.modal.units = .millimeters
  absolute : b'.modal.distance = .absolute
  x : b'.words.x = b.words.x.map (b.modal.distance.sum position.x)
  y : b'.words.y = b.words.y.map (b.modal.distance.sum position.y)
  z : b'.words.z = b.words.z.map (b.modal.distance.sum position.z)

namespace Places
variable {position : Position Float} {b b' : Block}

theorem modal (h : Places position b b') : b'.modal = b.modal.absolute := by
  rw [← show b'.unplaced.modal = b.modal.absolute from congrArg Block.modal h.unplaced]
  change b'.modal = { b'.modal with distance := .absolute }
  rw [← h.absolute]

theorem agrees (E : Elementary Float) (h : Places position b b') : b.Agrees E position b' := by
  have hmotion : b'.motion = b.motion := (congrArg Block.motion h.unplaced :)
  have hwords := congrArg Block.words h.unplaced
  simp only [Block.unplaced, AxisWords.mk.injEq, true_and] at hwords
  obtain ⟨hi, hj, hk, hr⟩ := hwords
  have hunits : b'.modal.units = b.modal.units := by rw [h.modal]; rfl
  constructor
  case performs => simp [Block.performs, AxisWords.hasAxis, hmotion, h.x, h.y, h.z]
  case plane => rw [h.modal]; rfl
  case target =>
    have hunits' := hunits.trans h.units
    simp only [Frame.target, h.x, h.y, h.z, Frame.coordinate_sum h.units hunits' h.absolute]
  case center =>
    intro turn first last
    have hplane : b'.modal.plane = b.modal.plane := by rw [h.modal]; rfl
    have hoffsets : b.modal.plane.offsets b'.words = b.modal.plane.offsets b.words := by
      cases b.modal.plane <;> simp [Plane.offsets, hi, hj, hk]
    simp only [Arc.centerOf, hplane, hoffsets, hr, hunits]
  case feed =>
    intro kind _
    rw [h.modal]
    cases kind <;> rfl

end Places
end Block

namespace Machine

/-- The mode in which a machine takes the coordinates of a line, which is that behind all words. -/
def modeOf (m : Machine) (line : List Char) : DistanceMode :=
  (Block.scan m.modal (lineWords line)).modal.distance

/-- A line and how it is written without the incremental mode, as seen from the machine before it.
All words stay that do not tell where the line leads, and each axis is given the sum of position and
number where the number was incremental. -/
structure Absolutes (m : Machine) (line line' : List Char) : Prop where
  absolute : ∀ w ∈ lineWords line', w.command? ≠ some (.distance .incremental)
  others : (lineWords line').filter (!·.places) = (lineWords line).filter (!·.places)
  x : lastNumber 'X' (lineWords line') =
    (lastNumber 'X' (lineWords line)).map ((m.modeOf line).sum m.position.x)
  y : lastNumber 'Y' (lineWords line') =
    (lastNumber 'Y' (lineWords line)).map ((m.modeOf line).sum m.position.y)
  z : lastNumber 'Z' (lineWords line') =
    (lastNumber 'Z' (lineWords line)).map ((m.modeOf line).sum m.position.z)

variable {m : Machine} {line line' : List Char}

instance : Decidable (m.Absolutes line line') :=
  decidable_of_iff
    ((∀ w ∈ lineWords line', w.command? ≠ some (.distance .incremental)) ∧
      (lineWords line').filter (!·.places) = (lineWords line).filter (!·.places) ∧
      lastNumber 'X' (lineWords line') =
        (lastNumber 'X' (lineWords line)).map ((m.modeOf line).sum m.position.x) ∧
      lastNumber 'Y' (lineWords line') =
        (lastNumber 'Y' (lineWords line)).map ((m.modeOf line).sum m.position.y) ∧
      lastNumber 'Z' (lineWords line') =
        (lastNumber 'Z' (lineWords line)).map ((m.modeOf line).sum m.position.z))
    ⟨fun ⟨absolute, others, x, y, z⟩ => ⟨absolute, others, x, y, z⟩,
      fun ⟨absolute, others, x, y, z⟩ => ⟨absolute, others, x, y, z⟩⟩

theorem places_absolutes (hm : m.modal.units = .millimeters)
    (hline : ∀ w ∈ lineWords line, w.command? ≠ some (.units .inches))
    (h : m.Absolutes line line') :
    Block.Places m.position (Block.scan m.modal (lineWords line))
      (Block.scan m.modal.absolute (lineWords line')) := by
  obtain ⟨hx, hy, hz⟩ := Block.scan_axes m.modal (lineWords line)
  obtain ⟨hx', hy', hz'⟩ := Block.scan_axes m.modal.absolute (lineWords line')
  constructor
  case unplaced =>
    unfold Block.scan
    rw [Block.foldl_erase Block.unplaced_read, Block.foldl_erase Block.unplaced_read, h.others]
    rfl
  case units =>
    rw [← Units.ne_inches] at hm ⊢
    exact Block.scan_units_ne hm hline
  case absolute =>
    rw [← DistanceMode.ne_incremental]
    exact Block.scan_distance_ne DistanceMode.noConfusion h.absolute
  case x => rw [hx, hx', h.x, modeOf]
  case y => rw [hy, hy', h.y, modeOf]
  case z => rw [hz, hz', h.z, modeOf]

/-- A line without inches does what it does when written in absolute coordinates. -/
theorem step_absolutes (E : Elementary Float) (s : Sampling Float)
    (hm : m.modal.units = .millimeters)
    (hline : ∀ w ∈ lineWords line, w.command? ≠ some (.units .inches))
    (h : m.Absolutes line line') :
    (m.mapModal Modal.absolute).step E s line' = (m.step E s line).mapModal Modal.absolute ∧
    (m.step E s line).machine.modal.units = .millimeters := by
  have hplaces := places_absolutes hm hline h
  rw [step_words, step_words, perform_modal]
  exact ⟨perform_mapModal E s hplaces.modal (hplaces.agrees E), hplaces.units⟩

end Machine
end Toolpath
