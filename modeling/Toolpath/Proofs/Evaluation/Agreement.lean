import Toolpath.Proofs.Evaluation.Growth
import Toolpath.Proofs.Evaluation.Lockstep

/-! # Programs that come to the same

Of a block the machine needs no more than where it leads from its position, about which centre and
at which feed. So two ways to write a program come to the same as long as these agree: their
machines differ in the modal state alone, and nothing else is in path, records and advisories.
-/
namespace Toolpath

theorem Arc.resolve_congr {α : Type} [Scalar α] (E : Elementary α) (s : Sampling α) {turn : Turn}
    {start : Position α} {words words' : AxisWords α} {frame frame' : Frame}
    (hplane : frame'.plane = frame.plane)
    (htarget : frame'.target start words' = frame.target start words)
    (hcenter : ∀ first last, centerOf E turn first last words' frame' =
      centerOf E turn first last words frame) :
    resolve E s turn start words' frame' = resolve E s turn start words frame := by
  unfold resolve
  simp only [hplane, htarget, hcenter]

def Machine.mapModal (f : Modal → Modal) (m : Machine) : Machine := { m with modal := f m.modal }

def Outcome.mapModal (f : Modal → Modal) (o : Outcome) : Outcome :=
  { o with machine := o.machine.mapModal f }

/-- Two blocks that ask for the same at a position. -/
structure Block.Agrees (E : Elementary Float) (position : Position Float) (b b' : Block) :
    Prop where
  performs : b'.performs = b.performs
  plane : b'.modal.plane = b.modal.plane
  target : b'.modal.target position b'.words = b.modal.target position b.words
  center : ∀ turn first last, Arc.centerOf E turn first last b'.words b'.modal.toFrame =
    Arc.centerOf E turn first last b.words b.modal.toFrame
  feed : ∀ kind, b.performs = some kind → b'.modal.feedOf kind = b.modal.feedOf kind

namespace Machine
variable (E : Elementary Float) (s : Sampling Float) {f : Modal → Modal}

theorem moveStraight_congr {m m' : Machine} {kind : Motion} {words words' : AxisWords Float}
    (hm : m' = m.mapModal f)
    (htarget : m'.modal.target m.position words' = m.modal.target m.position words)
    (hfeed : m'.modal.feedOf kind = m.modal.feedOf kind) :
    m'.moveStraight kind words' = (m.moveStraight kind words).mapModal f := by
  subst hm
  simp only [mapModal] at htarget hfeed
  simp only [moveStraight, mapModal, htarget, hfeed]
  split <;> rfl

theorem moveArc_congr {m m' : Machine} {turn : Turn} {words words' : AxisWords Float}
    (hm : m' = m.mapModal f)
    (hresolve : Arc.resolve E s turn m.position words' m'.modal.toFrame =
      Arc.resolve E s turn m.position words m.modal.toFrame)
    (hfeed : m'.modal.feed = m.modal.feed) :
    m'.moveArc E s turn words' = (m.moveArc E s turn words).mapModal f := by
  subst hm
  simp only [mapModal] at hresolve hfeed
  simp only [moveArc, mapModal, hresolve, hfeed]
  split
  · rfl
  · split <;> rfl

theorem perform_mapModal {m : Machine} {b b' : Block} (hmodal : b'.modal = f b.modal)
    (h : b.Agrees E m.position b') :
    (m.mapModal f).perform E s b' = (m.perform E s b).mapModal f := by
  have hm : { m.mapModal f with modal := b'.modal } =
      ({ m with modal := b.modal } : Machine).mapModal f := by
    simp [mapModal, hmodal]
  unfold perform
  rw [h.performs]
  cases hb : b.performs with
  | none => simp [Outcome.mapModal, hm]
  | some kind =>
    have hfeed := h.feed kind hb
    cases kind with
    | arc turn =>
      exact moveArc_congr E s hm (Arc.resolve_congr E s h.plane h.target (h.center turn)) hfeed
    | rapid => exact moveStraight_congr hm h.target hfeed
    | linear => exact moveStraight_congr hm h.target hfeed

/-- What every pair of lines keeps, in step with the change of the modal state, holds of lines in
turn. -/
theorem Along.outcomes_mapModal {I : Machine → Prop} {L : Machine → List Char → List Char → Prop}
    (hstep : ∀ m line line', I m → L m line line' →
      (m.mapModal f).step E s line' = (m.step E s line).mapModal f ∧ I (m.step E s line).machine)
    {m : Machine} {lines lines' : List (List Char)} (h : Along E s L m lines lines') (hm : I m) :
    (m.mapModal f).outcomes E s lines' = (m.outcomes E s lines).map (Outcome.mapModal f) ∧
    (m.mapModal f).after E s lines' = (m.after E s lines).mapModal f := by
  obtain ⟨houtcomes, hafter, -⟩ := h.outcomes (t := s) (n := m.mapModal f) (G := fun _ => True)
    (R := fun m m' => m' = m.mapModal f ∧ I m) (S := fun o o' => o.mapModal f = o')
    (by
      rintro m _ line line' ⟨rfl, hm⟩ hline - -
      obtain ⟨hs, hI⟩ := hstep m line line' hm hline
      exact ⟨hs.symm, congrArg Outcome.machine hs, hI⟩)
    ⟨rfl, hm⟩ (fun _ _ => trivial) (fun _ _ => trivial)
  refine ⟨?_, hafter⟩
  rw [← List.forall₂_map_left_iff, List.forall₂_eq_eq_eq] at houtcomes
  exact houtcomes.symm

theorem outcomes_mapModal {I : Machine → Prop} {L : List Char → List Char → Prop}
    (hstep : ∀ m line line', I m → L line line' →
      (m.mapModal f).step E s line' = (m.step E s line).mapModal f ∧ I (m.step E s line).machine)
    {lines lines' : List (List Char)} (h : List.Forall₂ L lines lines') {m : Machine} (hm : I m) :
    (m.mapModal f).outcomes E s lines' = (m.outcomes E s lines).map (Outcome.mapModal f) ∧
    (m.mapModal f).after E s lines' = (m.after E s lines).mapModal f :=
  (Along.of_forall₂ h m).outcomes_mapModal E s hstep hm

end Machine

namespace Evaluation
variable (f : Modal → Modal) (outcomes : List Outcome)

@[simp] theorem points_mapModal : points (outcomes.map (Outcome.mapModal f)) = points outcomes := by
  simp [points, List.flatMap_map, Outcome.mapModal]

@[simp] theorem records_mapModal :
    records (outcomes.map (Outcome.mapModal f)) = records outcomes := by
  simp [records, List.filterMap_map, Outcome.mapModal, Function.comp_def]

@[simp] theorem notes_mapModal (first : Nat) :
    notes first (outcomes.map (Outcome.mapModal f)) = notes first outcomes := by
  induction outcomes generalizing first with
  | nil => rfl
  | cons o rest ih => simp [ih, Outcome.mapModal]

end Evaluation

theorem evaluate_mapModal {E : Elementary Float} {s : Settings} {f : Modal → Modal} {p q : String}
    (houtcomes : programOutcomes E s q = (programOutcomes E s p).map (Outcome.mapModal f))
    (hafter : s.initialMachine.after E s.sampling (lines q.toList) =
      (s.initialMachine.after E s.sampling (lines p.toList)).mapModal f) :
    evaluate E s q = { evaluate E s p with modal := f (evaluate E s p).modal } := by
  simp [evaluate_eq, houtcomes, hafter, Machine.mapModal]

end Toolpath
