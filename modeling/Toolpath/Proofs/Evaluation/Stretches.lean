import Toolpath.Proofs.Arc.Ending
import Toolpath.Proofs.Evaluation.Growth

/-! # The stretches of a path

Behind the origin a path falls into stretches, one for each record of the log: the arrival of a move
that is straight or not made, and the samples of an arc. Each stretch ends where the machine then
stands, or near it, and so does the path behind every line.
-/
namespace Toolpath

/-- What is shown of a move that brings the machine to a position, along an arc or not. -/
inductive Shows (E : Elementary Float) (tolerance : Float) (arrival : Position Float) :
    Option (Arc Float) → Move → List (Position Float) → Prop where
  | point (m : Move) (still : m.kind.isArc = true → m.distance = 0) :
      Shows E tolerance arrival none m [arrival]
  | arc (a : Arc Float) (feed : Float) (arrives : a.target = arrival)
      (counted : (a.samples.toList E).length = a.samples.total ∧
        a.samples.total ≤ Sampling.maxCount)
      (reaches : Reaches tolerance (a.samples.toList E) arrival) :
      Shows E tolerance arrival (some a) (.of (.arc a.turn) a.length feed) (a.samples.toList E)

namespace Shows
variable {E : Elementary Float} {tolerance : Float} {arrival : Position Float}
  {arc? : Option (Arc Float)} {m : Move} {points : List (Position Float)}

theorem reaches_arrival (h : Shows E tolerance arrival arc? m points) :
    Reaches tolerance points arrival := by
  cases h with
  | point => exact .singleton
  | arc a feed arrives counted reaches => exact reaches

theorem ne_nil (h : Shows E tolerance arrival arc? m points) : points ≠ [] :=
  h.reaches_arrival.ne_nil

end Shows

namespace Evaluation
variable (E : Elementary Float) (tolerance : Float)

/-- What one more line adds to an evaluation: nothing, or one record and what is shown of it. The
line makes the machine travel along the given arc, if there is one. -/
inductive Grows (arc? : Option (Arc Float)) (e e' : Evaluation) : Prop where
  | idle (arcless : arc? = none) (path : e'.path = e.path) (moves : e'.moves = e.moves)
      (position : e'.position = e.position)
  | motion (m : Move) (points : List (Position Float))
      (shown : Shows E tolerance e'.position arc? m points)
      (path : e'.path = e.path ++ points) (moves : e'.moves = e.moves ++ [m])

/-- The path is the origin and a stretch for each record, and ends where the machine stands or near
it. -/
structure Stretched (e : Evaluation) : Prop where
  stretches : ∃ stretches, e.path = .origin :: stretches.flatten ∧
    List.Forall₂ (fun m points => ∃ arrival arc?, Shows E tolerance arrival arc? m points)
      e.moves stretches
  reaches : Reaches tolerance e.path e.position

variable {E tolerance} {e e' : Evaluation}

theorem Stretched.length_lt (h : Stretched E tolerance e) : e.moves.length + 1 ≤ e.path.length := by
  obtain ⟨stretches, hpath, hall⟩ := h.stretches
  have hle : e.moves.length ≤ stretches.flatten.length := by
    clear hpath
    generalize e.moves = moves at hall ⊢
    induction hall with
    | nil => simp
    | cons hshows _ ih =>
      obtain ⟨arrival, arc?, hshows⟩ := hshows
      have := List.length_pos_of_ne_nil hshows.ne_nil
      simp only [List.length_cons, List.flatten_cons, List.length_append]
      omega
  simpa [hpath] using hle

theorem Grows.stretched {arc? : Option (Arc Float)} (hg : Grows E tolerance arc? e e')
    (h : Stretched E tolerance e) : Stretched E tolerance e' := by
  obtain ⟨stretches, hpath, hall⟩ := h.stretches
  cases hg with
  | idle _ path moves position =>
    refine ⟨⟨stretches, path.trans hpath, moves ▸ hall⟩, ?_⟩
    rw [path, position]
    exact h.reaches
  | motion m points shown path moves =>
    refine ⟨⟨stretches ++ [points], ?_, ?_⟩, ?_⟩
    · simp [path, hpath]
    · rw [moves]
      exact List.rel_append hall (.cons ⟨_, _, shown⟩ .nil)
    · rw [path]
      exact shown.reaches_arrival.append

end Evaluation

section
variable {E : Elementary Float} {s : Sampling Float}

theorem Arc.samples_counted {a : Arc Float} (h : a.count < Sampling.maxCount) :
    (a.samples.toList E).length = a.samples.total ∧ a.samples.total ≤ Sampling.maxCount := by
  have hlength : (a.samples.toList E).length = a.samples.total := by
    rw [Samples.length_toList]
    exact size_samples h.le (not_wraps_of_lt h)
  refine ⟨hlength, ?_⟩
  change a.count + (if a.closes then 1 else 0) ≤ _
  split <;> omega

/-- A line of a run grows its evaluation. -/
theorem Evaluation.step_grows (hE : E.Lawful) (hmin : s.minimum ≤ 2 ^ 64) (htol : 0 ≤ s.tolerance)
    {r : Run} (hr : r.machine.position.isFinite = true) {line : List Char}
    (hcount : ∀ a, r.machine.arc? E s line = some a → a.count < Sampling.maxCount) :
    Grows E s.tolerance (r.machine.arc? E s line) (ofRun r) (ofRun (r.step E s line)) := by
  rw [ofRun_step]
  rcases Machine.step_cases E s r.machine line with
    ⟨hidle, modal, h⟩ | ⟨b, kind, t, findings, hblock, hperforms, hmakes, h⟩
  · rw [h, Machine.arc?_idle hidle]
    exact .idle rfl (by simp [add, Outcome.points]) (by simp [add]) rfl
  · rw [Machine.arc?_of_block hblock] at hcount ⊢
    rw [h]
    refine .motion t.move t.points ?_ rfl rfl
    have hkind := hmakes.kind_eq
    rcases hmakes.arcOf?_cases hperforms with
      ⟨hnone, hpoints, hstill⟩ | ⟨turn, fitted, hsome, hresolve, rfl⟩
    · rw [hnone, hpoints]
      exact .point t.move (hkind ▸ hstill)
    · rw [hsome]
      exact .arc fitted.arc b.modal.feed rfl (Arc.samples_counted (hcount _ hsome))
        (Arc.resolve_reaches hE hr hmin htol hresolve (hcount _ hsome))

end

/-- Behind each line the path of a program is the origin and a stretch for each record, and it ends
within the tolerance of where the machine stands. That a sweep has fewer points than can be counted
leaves room for the target behind them. -/
theorem evaluate_stretches {E : Elementary Float} (hE : E.Lawful) {s : Settings}
    (hs : s.violation? = none) {program : String}
    (hcount : ∀ n line a, (lines program.toList)[n]? = some line →
      (runAfter E s program n).machine.arc? E s.sampling line = some a →
      a.count < Sampling.maxCount) :
    (∀ n line, (lines program.toList)[n]? = some line →
      Evaluation.Grows E s.endpointTolerance
        ((runAfter E s program n).machine.arc? E s.sampling line)
        (.ofRun (runAfter E s program n)) (.ofRun (runAfter E s program (n + 1)))) ∧
    (∀ n, (Evaluation.ofRun (runAfter E s program n)).Stretched E s.endpointTolerance ∧
      (Evaluation.ofRun (runAfter E s program n)).moves.length + 1 ≤
        (Evaluation.ofRun (runAfter E s program n)).path.length) ∧
    (evaluate E s program).Stretched E s.endpointTolerance ∧
    (evaluate E s program).moves.length + 1 ≤ (evaluate E s program).path.length := by
  have htol : 0 ≤ s.endpointTolerance := by
    have h := List.find?_eq_none.mp hs .endpointTolerance (by decide)
    simpa [Setting.holds] using h
  have hgrows (n : ℕ) (line : List Char) (hline : (lines program.toList)[n]? = some line) :
      Evaluation.Grows E s.endpointTolerance
        ((runAfter E s program n).machine.arc? E s.sampling line)
        (.ofRun (runAfter E s program n)) (.ofRun (runAfter E s program (n + 1))) := by
    rw [runAfter_succ E s program hline]
    exact Evaluation.step_grows hE (minimum_sampling_le s) htol (runAfter_finite E s program n)
      (fun a => hcount n line a hline)
  have hstretched (n : ℕ) :
      (Evaluation.ofRun (runAfter E s program n)).Stretched E s.endpointTolerance := by
    refine runAfter_induction E s program
      (P := fun r => (Evaluation.ofRun r).Stretched E s.endpointTolerance)
      ⟨⟨[], rfl, .nil⟩, .singleton⟩ ?_ n
    intro n line hline ih
    rw [← runAfter_succ E s program hline]
    exact (hgrows n line hline).stretched ih
  have hlength (n : ℕ) := (hstretched n).length_lt
  rw [evaluate_eq_ofRun]
  exact ⟨hgrows, fun n => ⟨hstretched n, hlength n⟩, hstretched _, hlength _⟩

/-- Two lines, the second of them a circle shown by its quarters. -/
theorem evaluate_stretches_circle :
    Elementary.onAxes.Lawful ∧
    Settings.violation? { degreesPerSample := 90, minSamples := 4 } = none ∧
    (∀ n line a, (lines "G1 X1\nG3 X1 I-1".toList)[n]? = some line →
      (runAfter .onAxes { degreesPerSample := 90, minSamples := 4 }
        "G1 X1\nG3 X1 I-1" n).machine.arc? .onAxes
        (Settings.sampling { degreesPerSample := 90, minSamples := 4 }) line = some a →
      a.count < Sampling.maxCount) ∧
    (evaluate .onAxes { degreesPerSample := 90, minSamples := 4 } "G1 X1\nG3 X1 I-1").Stretched
      .onAxes 1e-9 := by
  have hlawful := Elementary.onAxes_lawful.toLawful
  have hcount : ∀ n line a, (lines "G1 X1\nG3 X1 I-1".toList)[n]? = some line →
      (runAfter .onAxes { degreesPerSample := 90, minSamples := 4 }
        "G1 X1\nG3 X1 I-1" n).machine.arc? .onAxes
        (Settings.sampling { degreesPerSample := 90, minSamples := 4 }) line = some a →
      a.count < Sampling.maxCount := by
    have hall : ∀ n < 2, ((lines "G1 X1\nG3 X1 I-1".toList)[n]?.bind
        ((runAfter .onAxes { degreesPerSample := 90, minSamples := 4 }
          "G1 X1\nG3 X1 I-1" n).machine.arc? .onAxes
          (Settings.sampling { degreesPerSample := 90, minSamples := 4 }))).all
        (·.count < Sampling.maxCount) = true := by decide +kernel
    intro n line a hline ha
    have hn : n < 2 := (List.getElem?_eq_some_iff.mp hline).1
    have h := hall n hn
    rw [hline, Option.bind_some, ha] at h
    simpa using h
  have h := evaluate_stretches hlawful (by decide +kernel) hcount
  exact ⟨hlawful, by decide +kernel, hcount, h.2.2.1⟩

end Toolpath
