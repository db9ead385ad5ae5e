import Toolpath.Proofs.Evaluation.Growth

/-! # How densely arcs are shown

The samples of an arc are read off the arc, and nothing is read off the samples. So two samplings
show the same arcs, by other points, and agree in all else: where the machine stands, what is
recorded and what is said of it, and the points that no arc contributes.
-/
namespace Toolpath

namespace Arc
variable {α : Type} [Scalar α] (E : Elementary α) (s s' : Sampling α)

def resample (a : Arc α) : Arc α := close E s { a with count := s.count a.sweep }

@[simp] theorem turn_resample (a : Arc α) : (a.resample E s).turn = a.turn := rfl

@[simp] theorem target_resample (a : Arc α) : (a.resample E s).target = a.target := rfl

@[simp] theorem length_resample (a : Arc α) : (a.resample E s).length = a.length := rfl

def Fitted.resample (f : Fitted α) : Fitted α := { f with arc := f.arc.resample E s }

theorem fit_resample (turn : Turn) (plane : Plane) (start target : Position α) (c : Center α) :
    fit E s' turn plane start target c =
      (fit E s turn plane start target c).map (Fitted.resample E s') := by
  unfold fit
  dsimp only
  split
  · rfl
  · split <;> rfl

theorem resolve_resample (turn : Turn) (start : Position α) (words : AxisWords α) (frame : Frame) :
    resolve E s' turn start words frame =
      (resolve E s turn start words frame).map (Fitted.resample E s') := by
  rw [resolve_eq_bind, resolve_eq_bind]
  cases centerOf E turn (frame.plane.planar start)
      (frame.plane.planar (frame.target start words)) words frame with
  | error why => rfl
  | ok c => exact fit_resample E s s' turn frame.plane start _ c

end Arc

def Outcome.unshown (o : Outcome) : Outcome :=
  { o with travel := o.travel.map fun t => { t with points := [] } }

@[simp] theorem Outcome.machine_unshown (o : Outcome) : o.unshown.machine = o.machine := rfl

namespace Machine
variable (E : Elementary Float) (s s' : Sampling Float)

theorem arcOf?_resample (m : Machine) (b : Block) :
    m.arcOf? E s' b = (m.arcOf? E s b).map (Arc.resample E s') := by
  unfold arcOf?
  split
  next turn _ =>
    rw [Arc.resolve_resample E s s']
    cases Arc.resolve E s turn m.position b.words b.modal.toFrame with
    | error why => rfl
    | ok fitted =>
      dsimp only [Except.map, Arc.Fitted.resample]
      rw [Arc.length_resample]
      split_ifs <;> rfl
  next => rfl

theorem arc?_resample (m : Machine) (line : List Char) :
    m.arc? E s' line = (m.arc? E s line).map (Arc.resample E s') := by
  unfold arc?
  cases m.blockOf? line with
  | none => rfl
  | some b => exact m.arcOf?_resample E s s' b

theorem moveArc_resample (m : Machine) (turn : Turn) (words : AxisWords Float) :
    (m.moveArc E s' turn words).unshown = (m.moveArc E s turn words).unshown := by
  unfold moveArc
  dsimp only
  rw [Arc.resolve_resample E s s']
  cases Arc.resolve E s turn m.position words m.modal.toFrame with
  | error why => rfl
  | ok fitted =>
    dsimp only [Except.map, Arc.Fitted.resample]
    rw [Arc.length_resample]
    split_ifs <;> simp [Outcome.unshown, travelled, Travel.along]

/-- A line does the same, but for the points shown of an arc. -/
theorem step_resample (m : Machine) (line : List Char) :
    (m.step E s' line).unshown = (m.step E s line).unshown := by
  rw [step_words, step_words]
  unfold perform
  split
  · rfl
  · exact moveArc_resample ..
  · rfl

/-- A line shows the samples of its arc, or where it arrives if it travels along none. -/
theorem step_points_eq (m : Machine) (line : List Char) : (m.step E s line).points =
    match m.arc? E s line with
    | some a => a.samples.toList E
    | none => ((m.step E s line).unshown.travel.map fun t => [t.arrival]).getD [] := by
  rcases step_cases E s m line with
    ⟨hidle, modal, h⟩ | ⟨b, kind, travel, findings, hblock, hperforms, hmakes, h⟩
  · rw [arc?_idle hidle, h]
    rfl
  · rw [arc?_of_block hblock, h]
    exact hmakes.points_eq hperforms

/-- A stretch of a path, with the arc that it shows if it does, under another sampling. -/
inductive ShownAlike (E : Elementary Float) (s : Sampling Float) :
    Option (Arc Float) × List (Position Float) →
      Option (Arc Float) × List (Position Float) → Prop where
  | straight (points : List (Position Float)) : ShownAlike E s (none, points) (none, points)
  | arc (a : Arc Float) : ShownAlike E s (some a, a.samples.toList E)
      (some (a.resample E s), (a.resample E s).samples.toList E)

theorem step_shownAlike (m : Machine) (line : List Char) :
    ShownAlike E s' (m.arc? E s line, (m.step E s line).points)
      (m.arc? E s' line, (m.step E s' line).points) := by
  rw [step_points_eq, step_points_eq, step_resample E s s', arc?_resample E s s']
  cases m.arc? E s line with
  | none => exact .straight _
  | some a => exact .arc a

def stretches (m : Machine) : List (List Char) → List (Option (Arc Float) × List (Position Float))
  | [] => []
  | line :: rest =>
    (m.arc? E s line, (m.step E s line).points) :: (m.step E s line).machine.stretches rest

theorem flatMap_stretches (m : Machine) (lines : List (List Char)) :
    (m.stretches E s lines).flatMap Prod.snd = Evaluation.points (m.outcomes E s lines) := by
  induction lines generalizing m with
  | nil => rfl
  | cons line rest ih =>
    rw [stretches, outcomes, List.flatMap_cons, ih]
    rfl

/-- Line by line two samplings come to the same, and show it in stretches that fit together. -/
theorem outcomes_resample (m : Machine) (lines : List (List Char)) :
    (m.outcomes E s' lines).map Outcome.unshown = (m.outcomes E s lines).map Outcome.unshown ∧
    m.after E s' lines = m.after E s lines ∧
    List.Forall₂ (ShownAlike E s') (m.stretches E s lines) (m.stretches E s' lines) := by
  induction lines generalizing m with
  | nil =>
    rw [after_nil, after_nil]
    exact ⟨rfl, rfl, .nil⟩
  | cons line rest ih =>
    have hstep := m.step_resample E s s' line
    have hmachine : (m.step E s' line).machine = (m.step E s line).machine := by
      rw [← Outcome.machine_unshown, hstep, Outcome.machine_unshown]
    obtain ⟨houtcomes, hafter, hstretches⟩ := ih (m.step E s line).machine
    refine ⟨?_, ?_, ?_⟩
    · rw [outcomes, outcomes, List.map_cons, List.map_cons, hmachine, hstep, houtcomes]
    · rw [after_cons, after_cons, hmachine, hafter]
    · rw [stretches, stretches, hmachine]
      exact .cons (m.step_shownAlike E s s' line) hstretches

end Machine

namespace Evaluation

@[simp] theorem records_unshown (outcomes : List Outcome) :
    records (outcomes.map Outcome.unshown) = records outcomes := by
  simp [records, List.filterMap_map, Outcome.unshown, Function.comp_def]

@[simp] theorem notes_unshown (first : Nat) (outcomes : List Outcome) :
    notes first (outcomes.map Outcome.unshown) = notes first outcomes := by
  induction outcomes generalizing first with
  | nil => rfl
  | cons o rest ih => simp [ih, Outcome.unshown]

end Evaluation

def straightPoints (stretches : List (Option (Arc Float) × List (Position Float))) :
    List (Position Float) :=
  (stretches.filter fun stretch => stretch.1.isNone).flatMap Prod.snd

theorem straightPoints_of_shownAlike {E : Elementary Float} {s : Sampling Float}
    {stretches stretches' : List (Option (Arc Float) × List (Position Float))}
    (h : List.Forall₂ (Machine.ShownAlike E s) stretches stretches') :
    straightPoints stretches' = straightPoints stretches := by
  induction h with
  | nil => rfl
  | cons head _ ih =>
    unfold straightPoints at ih ⊢
    cases head with
    | straight points => simpa using ih
    | arc a => simpa using ih

def pathStretches (E : Elementary Float) (s : Settings) (program : String) :
    List (Option (Arc Float) × List (Position Float)) :=
  s.initialMachine.stretches E s.sampling (lines program.toList)

theorem evaluate_path_stretches (E : Elementary Float) (s : Settings) (program : String) :
    (evaluate E s program).path =
      .origin :: (pathStretches E s program).flatMap Prod.snd := by
  rw [evaluate_path, pathStretches, Machine.flatMap_stretches]
  rfl

/-- Settings that agree on the feeds evaluate a program alike, however densely they show its arcs:
all but the path is the same, and of the path all that no arc contributes. -/
theorem evaluate_density (E : Elementary Float) {s t : Settings}
    (hfeed : t.defaultFeed = s.defaultFeed) (hrapid : t.rapidFeed = s.rapidFeed)
    (program : String) :
    evaluate E t program = { evaluate E s program with path := (evaluate E t program).path } ∧
    (evaluate E t program).statistics = (evaluate E s program).statistics ∧
    ((evaluate E s program).path = .origin :: (pathStretches E s program).flatMap Prod.snd ∧
      (evaluate E t program).path = .origin :: (pathStretches E t program).flatMap Prod.snd) ∧
    List.Forall₂ (Machine.ShownAlike E t.sampling) (pathStretches E s program)
      (pathStretches E t program) ∧
    straightPoints (pathStretches E t program) = straightPoints (pathStretches E s program) := by
  have hinitial : t.initialMachine = s.initialMachine := by
    simp [Settings.initialMachine, Settings.initialModal, hfeed, hrapid]
  obtain ⟨houtcomes, hafter, hstretches⟩ := Machine.outcomes_resample E s.sampling t.sampling
    s.initialMachine (lines program.toList)
  have hrecords := congrArg Evaluation.records houtcomes
  have hnotes := congrArg (Evaluation.notes 1) houtcomes
  rw [Evaluation.records_unshown, Evaluation.records_unshown] at hrecords
  rw [Evaluation.notes_unshown, Evaluation.notes_unshown] at hnotes
  have hall : evaluate E t program =
      { evaluate E s program with path := (evaluate E t program).path } := by
    simp only [evaluate_eq, programOutcomes, hinitial, hafter, hrecords, hnotes]
  have halike : List.Forall₂ (Machine.ShownAlike E t.sampling) (pathStretches E s program)
      (pathStretches E t program) := by
    unfold pathStretches
    rw [hinitial]
    exact hstretches
  refine ⟨hall, ?_, ⟨evaluate_path_stretches E s program, evaluate_path_stretches E t program⟩,
    halike, straightPoints_of_shownAlike halike⟩
  unfold Evaluation.statistics
  rw [hall]

/-- A quarter of a circle behind a cut, shown by one point or by two. -/
theorem evaluate_density_quarter :
    (evaluate .onAxes { degreesPerSample := 90, minSamples := 1 } "G1 X1\nG3 X0 Y1 I-1").moves =
      (evaluate .onAxes { degreesPerSample := 45, minSamples := 1 } "G1 X1\nG3 X0 Y1 I-1").moves ∧
    (evaluate .onAxes { degreesPerSample := 90, minSamples := 1 }
        "G1 X1\nG3 X0 Y1 I-1").path.length <
      (evaluate .onAxes { degreesPerSample := 45, minSamples := 1 }
        "G1 X1\nG3 X0 Y1 I-1").path.length := by
  obtain ⟨hall, -⟩ := evaluate_density .onAxes
    (s := { degreesPerSample := 45, minSamples := 1 })
    (t := { degreesPerSample := 90, minSamples := 1 }) rfl rfl "G1 X1\nG3 X0 Y1 I-1"
  constructor
  · rw [hall]
  · decide +kernel

end Toolpath
