import Toolpath.Proofs.Arc.Points
import Toolpath.Proofs.Evaluation.Moves

/-! # Paths in range

A path shows where straight moves and moves that are not made arrive, and the samples of arcs. All
but the samples are positions of the machine and finite. So a path is finite just if none of the
sums in the samples of its arcs overflows, and what overflows is still a number.
-/
namespace Toolpath

open Double

namespace Arc

def Fits (E : Elementary Float) (a : Arc Float) : Prop :=
  ∀ i < a.samples.size, i < a.count → a.FitsAt E (fraction i a.count)

theorem size_samples_le {α : Type} (a : Arc α) : a.samples.size ≤ a.count + 1 := by
  apply (Nat.mod_le _ _).trans
  change a.count + (if a.closes then 1 else 0) ≤ _
  split <;> omega

theorem forall_samples (E : Elementary Float) (a : Arc Float) {P : Position Float → Prop} :
    (∀ p ∈ a.samples.toList E, P p) ↔
      (∀ i < a.samples.size, i < a.count → P (a.pointAt E (fraction i a.count))) ∧
      (a.count < a.samples.size → P a.target) := by
  have hsample {i : ℕ} (hi : i < a.count) :
      a.samples.point E i = a.pointAt E (fraction i a.count) := if_pos hi
  have htarget : a.samples.point E a.count = a.target := if_neg (lt_irrefl _)
  have hmem : (∀ p ∈ a.samples.toList E, P p) ↔
      ∀ i < a.samples.size, P (a.samples.point E i) := by
    unfold Samples.toList
    simp [Arc.samples, Samples.remaining]
  rw [hmem]
  constructor
  · intro h
    exact ⟨fun i hi hlt => hsample hlt ▸ h i hi, fun hlt => htarget ▸ h a.count hlt⟩
  · intro h i hi
    by_cases hlt : i < a.count
    · rw [hsample hlt]
      exact h.1 i hi hlt
    · have hle := size_samples_le a
      obtain rfl : i = a.count := by omega
      rw [htarget]
      exact h.2 hi

/-- The samples of a well-formed arc of at most `2 ^ 64` samples are numbers, and all finite just
if the arc fits. -/
theorem WellFormed.samples {E : Elementary Float} (hE : E.Lawful) {a : Arc Float}
    (hw : a.WellFormed E) (hs : a.start.isFinite = true) (hcount : a.count ≤ 2 ^ 64) :
    (∀ p ∈ a.samples.toList E, p.IsNumber) ∧
    ((∀ p ∈ a.samples.toList E, p.isFinite = true) ↔ a.Fits E) := by
  have hpoint {i : ℕ} (hi : i < a.count) :
      (a.pointAt E (fraction i a.count)).IsNumber ∧
      ((a.pointAt E (fraction i a.count)).isFinite = true ↔ a.FitsAt E (fraction i a.count)) := by
    obtain ⟨ht, ht0, ht1⟩ := fraction_range hi hcount
    exact ⟨pointAt_isNumber hE hw hs ht ht0 ht1, pointAt_isFinite_iff hE hw hs ht ht0 ht1⟩
  rw [forall_samples, forall_samples]
  refine ⟨⟨fun i _ hlt => (hpoint hlt).1, fun _ => Position.isNumber_of_isFinite hw.target_finite⟩, ?_⟩
  constructor
  · intro h i hi hlt
    exact (hpoint hlt).2.mp (h.1 i hi hlt)
  · intro h
    exact ⟨fun i hi hlt => (hpoint hlt).2.mpr (h i hi hlt), fun _ => hw.target_finite⟩

end Arc

def Outcome.points (o : Outcome) : List (Position Float) := (o.travel.map Travel.points).getD []

namespace Machine
variable (E : Elementary Float) (s : Sampling Float)

def arcOf? (m : Machine) (b : Block) : Option (Arc Float) :=
  match b.performs with
  | some (.arc turn) => match Arc.resolve E s turn m.position b.words b.modal.toFrame with
    | .ok fitted => if isRepresentable fitted.arc.length b.modal.feed then some fitted.arc else none
    | .error _ => none
  | _ => none

def arc? (m : Machine) (line : List Char) : Option (Arc Float) :=
  (m.blockOf? line).bind (m.arcOf? E s)

variable {E s}

theorem arcOf?_wellFormed {m : Machine} {b : Block} {a : Arc Float}
    (h : m.arcOf? E s b = some a) :
    a.WellFormed E ∧ a.start = m.position ∧ a.count = s.count a.sweep := by
  unfold arcOf? at h
  split at h
  next turn _ =>
    split at h
    next fitted hfitted =>
      split_ifs at h
      cases h
      obtain ⟨hw, -, -, hstart, -, hcount⟩ := Arc.resolve_ok hfitted
      exact ⟨hw, hstart, hcount⟩
    next => cases h
  next => cases h

/-- A motion either follows the arc of its block, or has none and shows no more than its arrival. -/
theorem Makes.arcOf?_cases {m : Machine} {b : Block} {kind : Motion} {travel : Travel}
    {findings : List Finding} (hb : b.performs = some kind)
    (h : Makes E s { m with modal := b.modal } b.words kind travel findings) :
    (m.arcOf? E s b = none ∧ travel.points = [travel.arrival] ∧
      (kind.isArc = true → travel.move.distance = 0)) ∨
    ∃ turn fitted, m.arcOf? E s b = some fitted.arc ∧
      Arc.resolve E s turn m.position b.words b.modal.toFrame = .ok fitted ∧
      travel = .along E fitted.arc b.modal.feed := by
  unfold arcOf?
  rw [hb]
  cases h with
  | straight straight =>
    left
    cases kind with
    | arc turn => cases straight
    | _ => exact ⟨rfl, rfl, nofun⟩
  | straightRefused straight =>
    left
    cases kind with
    | arc turn => cases straight
    | _ => exact ⟨rfl, rfl, nofun⟩
  | along resolved fits =>
    right
    dsimp only at resolved fits ⊢
    rw [resolved]
    exact ⟨_, _, if_pos fits, resolved, rfl⟩
  | arcRefused unresolved =>
    left
    dsimp only at unresolved ⊢
    rw [unresolved]
    exact ⟨rfl, rfl, fun _ => rfl⟩
  | arcTooLong resolved too_long =>
    left
    dsimp only at resolved too_long ⊢
    rw [resolved]
    exact ⟨if_neg (Bool.eq_false_iff.mp too_long), rfl, fun _ => rfl⟩

/-- What a motion shows: the samples of the arc if it is one, and otherwise the arrival. -/
theorem Makes.points_eq {m : Machine} {b : Block} {kind : Motion} {travel : Travel}
    {findings : List Finding} (hb : b.performs = some kind)
    (h : Makes E s { m with modal := b.modal } b.words kind travel findings) :
    travel.points = match m.arcOf? E s b with
      | some a => a.samples.toList E
      | none => [travel.arrival] := by
  rcases h.arcOf?_cases hb with ⟨harc, hpoints, -⟩ | ⟨turn, fitted, harc, -, rfl⟩
  · rw [harc]
    exact hpoints
  · rw [harc]
    rfl

theorem arc?_of_block {m : Machine} {line : List Char} {b : Block}
    (h : m.blockOf? line = some b) : m.arc? E s line = m.arcOf? E s b := by
  simp [arc?, h]

theorem arc?_idle {m : Machine} {line : List Char}
    (h : (m.blockOf? line).bind Block.performs = none) : m.arc? E s line = none := by
  cases hb : m.blockOf? line with
  | none => simp [arc?, hb]
  | some b =>
    have hperforms : b.performs = none := by simpa [hb] using h
    simp [arc?_of_block hb, arcOf?, hperforms]

/-- What a line shows: the samples of its arc if it makes one, and otherwise nothing but the
position behind it. -/
theorem step_points (m : Machine) (line : List Char) :
    (∃ a, m.arc? E s line = some a ∧ (m.step E s line).points = a.samples.toList E) ∨
    (m.arc? E s line = none ∧
      ∀ p ∈ (m.step E s line).points, p = (m.step E s line).machine.position) := by
  rcases step_cases E s m line with
    ⟨hidle, modal, h⟩ | ⟨b, kind, travel, findings, hblock, hperforms, hmakes, h⟩
  · right
    rw [h]
    exact ⟨arc?_idle hidle, nofun⟩
  · have hpoints := hmakes.points_eq hperforms
    rw [h, arc?_of_block hblock]
    change (∃ a, m.arcOf? E s b = some a ∧ travel.points = _) ∨
      (m.arcOf? E s b = none ∧ ∀ p ∈ travel.points, p = travel.arrival)
    rw [hpoints]
    cases m.arcOf? E s b with
    | some a => exact .inl ⟨a, rfl, rfl⟩
    | none => exact .inr ⟨rfl, fun p hp => List.mem_singleton.mp hp⟩

theorem step_path (hE : E.Lawful) (hmin : s.minimum ≤ 2 ^ 64) (m : Machine) (line : List Char)
    (hm : m.position.isFinite = true) :
    (∀ p ∈ (m.step E s line).points, p.IsNumber) ∧
    ((∀ p ∈ (m.step E s line).points, p.isFinite = true) ↔
      ∀ a, m.arc? E s line = some a → a.Fits E) := by
  rcases step_points m line (E := E) (s := s) with ⟨a, harc, hpoints⟩ | ⟨hnone, hpoints⟩
  · obtain ⟨b, -, hb⟩ := Option.bind_eq_some_iff.mp harc
    obtain ⟨hw, hstart, hcount⟩ := arcOf?_wellFormed hb
    have hle : a.count ≤ 2 ^ 64 := hcount ▸ (s.count_range hmin a.sweep).2
    obtain ⟨hnumber, hfinite⟩ := hw.samples hE (hstart ▸ hm) hle
    rw [hpoints, harc]
    refine ⟨hnumber, hfinite.trans ?_⟩
    constructor
    · rintro h a' ⟨⟩
      exact h
    · intro h
      exact h a rfl
  · have hposition := (step_sound (E := E) (s := s) m line hm).1
    have hall : ∀ p ∈ (m.step E s line).points, p.isFinite = true := by
      intro p hp
      rw [hpoints p hp]
      exact hposition
    refine ⟨fun p hp => Position.isNumber_of_isFinite (hall p hp), iff_of_true hall ?_⟩
    rw [hnone]
    exact nofun

end Machine

theorem minimum_sampling_le (s : Settings) : s.sampling.minimum ≤ 2 ^ 64 := by
  have h := s.minSamples.toNat_lt
  change max s.minSamples.toNat 1 ≤ 2 ^ 64
  omega

theorem forall_points {outcomes : List Outcome} {P : Position Float → Prop} :
    (∀ p ∈ Evaluation.points outcomes, P p) ↔ ∀ o ∈ outcomes, ∀ p ∈ o.points, P p := by
  change (∀ p ∈ outcomes.flatMap Outcome.points, P p) ↔ _
  simp only [List.mem_flatMap]
  constructor
  · intro h o ho p hp
    exact h p ⟨o, ho, hp⟩
  · rintro h p ⟨o, ho, hp⟩
    exact h o ho p hp

/-- All points of a path are numbers. They are finite just if no sum overflows in the samples of
the arcs along which the lines of the program make the machine travel. -/
theorem evaluate_path_finite_iff {E : Elementary Float} (hE : E.Lawful) (s : Settings)
    (program : String) :
    (∀ p ∈ (evaluate E s program).path, p.IsNumber) ∧
    ((∀ p ∈ (evaluate E s program).path, p.isFinite = true) ↔
      ∀ n line a, (lines program.toList)[n]? = some line →
        (runAfter E s program n).machine.arc? E s.sampling line = some a → a.Fits E) := by
  have horigin : (Position.origin : Position Float).isFinite = true := rfl
  have hstep (n : ℕ) (line : List Char) := Machine.step_path hE (minimum_sampling_le s)
    (runAfter E s program n).machine line (runAfter_finite E s program n)
  rw [evaluate_path, List.forall_mem_cons, List.forall_mem_cons, forall_points, forall_points,
    forall_programOutcomes, forall_programOutcomes]
  refine ⟨⟨Position.isNumber_of_isFinite horigin, fun n line _ => (hstep n line).1⟩, ?_⟩
  rw [and_iff_right horigin]
  constructor
  · intro h n line a hline ha
    exact (hstep n line).2.mp (h n line hline) a ha
  · intro h n line hline
    apply (hstep n line).2.mpr
    intro a ha
    exact h n line a hline ha

/-- The arcs of a circle shown by its quarters fit, for its path is finite. -/
theorem evaluate_path_finite_iff_circle : Elementary.onAxes.Lawful ∧
    ∀ n line a, (lines "G2 X0 I1".toList)[n]? = some line →
      (runAfter .onAxes { degreesPerSample := 90, minSamples := 4 } "G2 X0 I1" n).machine.arc?
        .onAxes (Settings.sampling { degreesPerSample := 90, minSamples := 4 }) line = some a →
      a.Fits .onAxes := by
  have hpath : (evaluate .onAxes { degreesPerSample := 90, minSamples := 4 } "G2 X0 I1").path.all
      Position.isFinite = true := by decide +kernel
  have hlawful := Elementary.onAxes_lawful.toLawful
  exact ⟨hlawful, (evaluate_path_finite_iff hlawful _ _).2.mp (List.all_eq_true.mp hpath)⟩

end Toolpath
