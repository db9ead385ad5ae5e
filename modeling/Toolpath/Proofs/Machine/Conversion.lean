import Toolpath.Proofs.Double.Identities
import Toolpath.Proofs.Evaluation.Agreement

/-! # Numbers in millimeters

A block in inches asks for the same when its numbers are taken to millimeters beforehand. What the
machine keeps is in millimeters in any case, so only the rapid feed, which is rescaled with the
units, would tell them. `Converts` relates the words in which two lines say the same.
-/
namespace Toolpath

open Double

namespace Units

theorem toMm_inches (v : Float) : inches.toMm v = v * 25.4 := rfl

@[simp] theorem toMm_millimeters (v : Float) : millimeters.toMm v = v := mul_one_eq v

end Units

section
variable {α β : Type} (g : α → β)

def AxisWords.map (w : AxisWords α) : AxisWords β :=
  ⟨w.x.map g, w.y.map g, w.z.map g, w.i.map g, w.j.map g, w.k.map g, w.r.map g⟩

@[simp] theorem AxisWords.hasAxis_map (w : AxisWords α) : (w.map g).hasAxis = w.hasAxis := by
  simp [hasAxis, map]

theorem Plane.offsets_map (p : Plane) (w : AxisWords α) :
    p.offsets (w.map g) = ((p.offsets w).1.map g, (p.offsets w).2.map g) := by
  cases p <;> rfl

end

namespace Frame

def metric (f : Frame) : Frame := { f with units := .millimeters }

theorem coordinate_metric (f : Frame) (current : Float) (o : Option Float) :
    f.metric.coordinate current (o.map f.units.toMm) = f.coordinate current o := by
  cases o <;> simp [coordinate, metric]

theorem target_metric (f : Frame) (current : Position Float) (w : AxisWords Float) :
    f.metric.target current (w.map f.units.toMm) = f.target current w := by
  simp [target, AxisWords.map, coordinate_metric]

end Frame

theorem Arc.centerOf_metric (E : Elementary Float) (turn : Turn) (first last : Float × Float)
    (w : AxisWords Float) (f : Frame) :
    centerOf E turn first last (w.map f.units.toMm) f.metric = centerOf E turn first last w f := by
  unfold centerOf
  rw [Frame.metric, Plane.offsets_map]
  generalize f.plane.offsets w = offsets
  obtain ⟨i, j⟩ := offsets
  cases i with
  | some i => cases j <;> simp [Units.toMm_zero]
  | none =>
    cases j with
    | some j => simp [Units.toMm_zero]
    | none => cases hr : w.r <;> simp [AxisWords.map, hr]

namespace Modal

def metric (m : Modal) : Modal := m.selectUnits .millimeters

theorem setFeed_metric (m : Modal) (v : Float) :
    m.metric.setFeed (m.units.toMm v) = (m.setFeed v).metric := by
  have hmm : m.metric.units.toMm (m.units.toMm v) = m.units.toMm v := Units.toMm_millimeters _
  unfold setFeed
  rw [hmm]
  dsimp only
  split <;> rfl

theorem units_setFeed (m : Modal) (v : Float) : (m.setFeed v).units = m.units := by
  rw [setFeed_eq]

end Modal

theorem Command.ofCode?_units {code : Nat} {u : Units} (h : ofCode? code = some (.units u)) :
    code = 20 ∨ code = 21 := by
  unfold ofCode? at h
  split at h <;> simp_all

namespace Block

def metric (b : Block) : Block where
  modal := b.modal.metric
  motion := b.motion
  words := b.words.map b.modal.units.toMm

theorem performs_metric (b : Block) : b.metric.performs = b.performs := by
  simp [performs, metric]

/-- Rapid moves apart, a block asks for the same in millimeters. -/
theorem agrees_metric (E : Elementary Float) (position : Position Float) {b : Block}
    (h : b.performs ≠ some .rapid) : b.Agrees E position b.metric where
  performs := b.performs_metric
  plane := rfl
  target := b.modal.target_metric position b.words
  center turn first last := Arc.centerOf_metric E turn first last b.words b.modal.toFrame
  feed kind hkind := by
    cases kind with
    | rapid => exact absurd hkind h
    | _ => rfl

theorem command_metric (b : Block) {c : Command} (h : ∀ u, c ≠ .units u) :
    b.metric.command c = (b.command c).metric ∧
    (b.command c).modal.units = b.modal.units := by
  cases c with
  | units u => exact absurd rfl (h u)
  | _ => exact ⟨rfl, rfl⟩

theorem read_units (b : Block) {w : Word} {code : Nat} {u : Units} (hletter : w.letter = 'G')
    (hcode : w.code? = some code) (hu : Command.ofCode? code = some (.units u)) :
    b.read w = { b with modal := b.modal.selectUnits u } := by
  simp [read, hletter, hcode, hu, command, Modal.apply, Command.motion?]

end Block

def isMeasure (letter : Char) : Bool := ['X', 'Y', 'Z', 'I', 'J', 'K', 'R', 'F'].contains letter

namespace Word

/-- A word in inches and the same in millimeters, which neither select units nor ask for a rapid
move. -/
structure Converts (w w' : Word) : Prop where
  letter : w'.letter = w.letter
  code : w.letter = 'G' → w'.code? = w.code? ∧ w.code? ∉ [some 0, some 20, some 21]
  number : isMeasure w.letter = true → w'.number? = w.number?.map (· * 25.4)

instance (w w' : Word) : Decidable (w.Converts w') :=
  decidable_of_iff (w'.letter = w.letter ∧
      (w.letter = 'G' → w'.code? = w.code? ∧ w.code? ∉ [some 0, some 20, some 21]) ∧
      (isMeasure w.letter = true → w'.number? = w.number?.map (· * 25.4)))
    ⟨fun ⟨letter, code, number⟩ => ⟨letter, code, number⟩,
      fun ⟨letter, code, number⟩ => ⟨letter, code, number⟩⟩

theorem Converts.directive {w w' : Word} (h : w.Converts w') : w.directive? ≠ some .rapid := by
  intro hrapid
  unfold directive? at hrapid
  split at hrapid
  next hletter =>
    obtain ⟨code, hcode, hof⟩ := Option.bind_eq_some_iff.mp hrapid
    have hzero : code = 0 := by
      unfold motionOfCode? at hof
      split at hof <;> simp_all
    simpa [hcode, hzero] using (h.code hletter).2
  next => cases hrapid

end Word

theorem directives_ne_rapid {words words' : List Word}
    (h : List.Forall₂ Word.Converts words words') : ∀ w ∈ words, w.directive? ≠ some .rapid :=
  ((List.forall₂_and_left _ _).mp (h.imp fun _ _ hw => ⟨hw.directive, hw⟩)).1

theorem motionOf_ne_rapid {words : List Word} (h : ∀ w ∈ words, w.directive? ≠ some .rapid) :
    motionOf words ≠ some .rapid := by
  intro hrapid
  have hlast : lastDirective words = some .rapid := by
    unfold motionOf at hrapid
    cases hl : lastDirective words <;> simp_all
  obtain ⟨w, hw, hdirective⟩ := List.mem_filterMap.mp (List.mem_of_getLast? hlast)
  exact h w hw hdirective

namespace Block

theorem read_metric {b : Block} (hb : b.modal.units = .inches) {w w' : Word}
    (h : w.Converts w') :
    b.metric.read w' = (b.read w).metric ∧ (b.read w).modal.units = .inches := by
  obtain ⟨letter, value⟩ := w
  obtain ⟨letter', value'⟩ := w'
  obtain ⟨hletter, hcode, hnumber⟩ := h
  have hfactor : (fun v : Float => v * 25.4) = Units.inches.toMm := by
    funext v
    exact (Units.toMm_inches v).symm
  rw [hfactor] at hnumber
  dsimp only at hletter hcode hnumber
  subst hletter
  unfold read
  dsimp only
  split
  case h_1 =>
    obtain ⟨hcode, hnot⟩ := hcode rfl
    rw [hcode]
    cases hc : (Word.code? ⟨'G', value⟩).bind Command.ofCode? with
    | none => exact ⟨rfl, hb⟩
    | some c =>
      have hunits : ∀ u, c ≠ .units u := by
        rintro u rfl
        obtain ⟨code, hcode, hof⟩ := Option.bind_eq_some_iff.mp hc
        have := Command.ofCode?_units hof
        simp [hcode] at hnot
        omega
      obtain ⟨hcommand, hkept⟩ := b.command_metric hunits
      exact ⟨hcommand, hkept.trans hb⟩
  case h_2 =>
    rw [hnumber rfl]
    cases Word.number? ⟨'F', value⟩ with
    | none => exact ⟨rfl, hb⟩
    | some v =>
      have hfeed := b.modal.setFeed_metric v
      have hkept := b.modal.units_setFeed v
      rw [hb] at hfeed hkept
      simp [metric, hb, hfeed, hkept]
  case h_10 => exact ⟨rfl, hb⟩
  all_goals
    rw [hnumber rfl]
    exact ⟨by simp [metric, hb, AxisWords.map, Option.map_or], hb⟩

theorem foldl_metric {words words' : List Word} (h : List.Forall₂ Word.Converts words words')
    {b : Block} (hb : b.modal.units = .inches) :
    words'.foldl read b.metric = (words.foldl read b).metric ∧
    (words.foldl read b).modal.units = .inches := by
  induction h generalizing b with
  | nil => exact ⟨rfl, hb⟩
  | cons hw _ ih =>
    obtain ⟨hread, hunits⟩ := read_metric hb hw
    rw [List.foldl_cons, List.foldl_cons, hread]
    exact ih hunits

end Block

def Converts (line line' : List Char) : Prop :=
  List.Forall₂ Word.Converts (lineWords line) (lineWords line')

instance (line line' : List Char) : Decidable (Converts line line') :=
  inferInstanceAs (Decidable (List.Forall₂ Word.Converts (lineWords line) (lineWords line')))

/-- A line that selects inches, and one that selects millimeters and goes on with the same. -/
structure Selects (line line' : List Char) : Prop where
  words : ∃ g words g' words', lineWords line = g :: words ∧ lineWords line' = g' :: words' ∧
    g.letter = 'G' ∧ g.code? = some 20 ∧ g'.letter = 'G' ∧ g'.code? = some 21 ∧
    List.Forall₂ Word.Converts words words'

namespace Machine
variable (E : Elementary Float) (s : Sampling Float) {m : Machine} {line line' : List Char}

theorem step_metric
    (hscan : Block.scan m.modal.metric (lineWords line') =
      (Block.scan m.modal (lineWords line)).metric)
    (hrapid : ∀ w ∈ lineWords line, w.directive? ≠ some .rapid) :
    (m.mapModal Modal.metric).step E s line' = (m.step E s line).mapModal Modal.metric := by
  have hperforms : (Block.scan m.modal (lineWords line)).performs ≠ some .rapid := by
    rw [Block.scan_performs]
    exact motionOf_ne_rapid hrapid
  rw [step_words, step_words]
  change (m.mapModal Modal.metric).perform E s (Block.scan m.modal.metric (lineWords line')) = _
  rw [hscan]
  exact perform_mapModal E s rfl (Block.agrees_metric E m.position hperforms)

/-- In inches a line does what the converted one does in millimeters, and leaves it at that. -/
theorem step_converts (hm : m.modal.units = .inches) (h : Converts line line') :
    (m.mapModal Modal.metric).step E s line' = (m.step E s line).mapModal Modal.metric ∧
    (m.step E s line).machine.modal.units = .inches := by
  obtain ⟨hscan, hunits⟩ := Block.foldl_metric h (b := { modal := m.modal }) hm
  refine ⟨step_metric E s hscan (directives_ne_rapid h), ?_⟩
  rw [step_words, perform_modal]
  exact hunits

theorem step_selects (h : Selects line line') :
    (m.mapModal Modal.metric).step E s line' = (m.step E s line).mapModal Modal.metric ∧
    (m.step E s line).machine.modal.units = .inches := by
  obtain ⟨g, words, g', words', hline, hline', hg, hcode, hg', hcode', hwords⟩ := h.words
  have hread := Block.read_units { modal := m.modal } hg hcode rfl
  have hread' := Block.read_units { modal := m.modal.metric } hg' hcode' rfl
  have hmetric : ({ modal := m.modal.metric } : Block).read g' =
      (({ modal := m.modal } : Block).read g).metric := by
    rw [hread, hread']
    rfl
  have hinches : (({ modal := m.modal } : Block).read g).modal.units = .inches := by
    rw [hread]
    rfl
  obtain ⟨hscan, hunits⟩ := Block.foldl_metric hwords hinches
  rw [← hmetric] at hscan
  refine ⟨step_metric E s ?_ ?_, ?_⟩
  · rw [hline, hline']
    exact hscan
  · rw [hline, List.forall_mem_cons]
    refine ⟨?_, directives_ne_rapid hwords⟩
    simp [Word.directive?, hg, hcode, motionOfCode?]
  · rw [step_words, perform_modal, hline]
    exact hunits

end Machine
end Toolpath
