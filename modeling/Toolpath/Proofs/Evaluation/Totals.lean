import Toolpath.Proofs.Double.Sums
import Toolpath.Proofs.Evaluation.Moves
import Toolpath.Statistics

/-! # Statistics of a log

Whatever the log, its moves are counted by their kinds. Where distances and times are finite and not
negative, as in every evaluation, the totals are numbers and the cutting distance stays within the
whole distance: every move is added to both sums or to the larger one only.
-/
namespace Toolpath
open Double

namespace Statistics

structure Counts (s : Statistics) (moves : List Move) : Prop where
  all : s.moves = moves.length
  kinds : s.rapid + s.linear + s.clockwise + s.counterclockwise = moves.length
  count_eq : ∀ kind, s.count kind = moves.countP (·.kind = kind)

/-- The totals of a log are numbers, and what was cut is within the whole distance. -/
structure Totals (s : Statistics) (moves : List Move) : Prop where
  distance_number : s.distance.isNaN = false
  time_number : s.time.isNaN = false
  time_nonneg : 0 ≤ s.time
  cutting_number : s.cutting.isNaN = false
  cutting_nonneg : 0 ≤ s.cutting
  cutting_le : s.cutting ≤ s.distance
  cutting_eq : (∀ m ∈ moves, m.kind ≠ .rapid) → s.cutting = s.distance

section
variable (s : Statistics) (m : Move)

@[simp] theorem moves_add : (s.add m).moves = s.moves + 1 := by
  unfold add
  rcases m.kind with _ | _ | (_ | _) <;> rfl

@[simp] theorem distance_add : (s.add m).distance = s.distance + m.distance := by
  unfold add
  rcases m.kind with _ | _ | (_ | _) <;> rfl

@[simp] theorem time_add : (s.add m).time = s.time + m.time := by
  unfold add
  rcases m.kind with _ | _ | (_ | _) <;> rfl

theorem cutting_add : (s.add m).cutting =
    if m.kind = .rapid then s.cutting else s.cutting + m.distance := by
  unfold add
  rcases m.kind with _ | _ | (_ | _) <;> rfl

theorem count_add (kind : Motion) :
    (s.add m).count kind = s.count kind + if m.kind = kind then 1 else 0 := by
  unfold add
  rcases m.kind with _ | _ | (_ | _) <;> rcases kind with _ | _ | (_ | _) <;> rfl

theorem kinds_eq : s.rapid + s.linear + s.clockwise + s.counterclockwise =
    s.count .rapid + s.count .linear + s.count (.arc .clockwise) +
      s.count (.arc .counterclockwise) := rfl

end

theorem ofMoves_concat (moves : List Move) (m : Move) :
    ofMoves (moves ++ [m]) = (ofMoves moves).add m := by
  simp [ofMoves]

theorem Counts.add {s : Statistics} {moves : List Move} (h : s.Counts moves) (m : Move) :
    (s.add m).Counts (moves ++ [m]) where
  all := by simp [h.all]
  kinds := by
    have hkinds := h.kinds
    rw [kinds_eq] at hkinds ⊢
    simp only [count_add, List.length_append, List.length_singleton, ← hkinds]
    rcases m.kind with _ | _ | (_ | _) <;> simp <;> omega
  count_eq kind := by
    rw [count_add, h.count_eq, List.countP_append, List.countP_singleton]
    simp

theorem ofMoves_counts (moves : List Move) : (ofMoves moves).Counts moves := by
  induction moves using List.reverseRecOn with
  | nil => exact ⟨rfl, rfl, fun kind => by rcases kind with _ | _ | (_ | _) <;> rfl⟩
  | append_singleton moves m ih =>
    rw [ofMoves_concat]
    exact ih.add m

end Statistics

structure Move.Measured (m : Move) : Prop where
  distance_finite : m.distance.isFinite = true
  distance_nonneg : 0 ≤ m.distance
  time_finite : m.time.isFinite = true
  time_nonneg : 0 ≤ m.time

theorem Move.Sound.measured {m : Move} (h : m.Sound) : m.Measured :=
  ⟨h.distance_finite, h.distance_nonneg, h.time_finite, h.time_nonneg⟩

namespace Statistics

theorem Totals.of {s : Statistics} {moves : List Move} (time : 0 ≤ s.time) (cutting : 0 ≤ s.cutting)
    (cutting_le : s.cutting ≤ s.distance)
    (cutting_eq : (∀ m ∈ moves, m.kind ≠ .rapid) → s.cutting = s.distance) : s.Totals moves where
  distance_number := (le_iff.mp cutting_le).2.1
  time_number := (le_iff.mp time).2.1
  time_nonneg := time
  cutting_number := (le_iff.mp cutting).2.1
  cutting_nonneg := cutting
  cutting_le := cutting_le
  cutting_eq := cutting_eq

theorem Totals.add {s : Statistics} {moves : List Move} (h : s.Totals moves) {m : Move}
    (hm : m.Measured) : (s.add m).Totals (moves ++ [m]) := by
  have htime : 0 ≤ (s.add m).time := by
    rw [time_add]
    exact zero_le_add h.time_nonneg hm.time_nonneg
  by_cases hrapid : m.kind = .rapid
  · have hadd : (s.add m).cutting = s.cutting := by rw [cutting_add, if_pos hrapid]
    have hdistance := trans_le h.cutting_nonneg h.cutting_le
    refine .of htime (hadd ▸ h.cutting_nonneg) ?_ ?_
    · rw [hadd, distance_add]
      exact trans_le h.cutting_le
        (le_add_of_finite hdistance hm.distance_finite hm.distance_nonneg)
    · intro hcuts
      exact absurd hrapid (hcuts m (by simp))
  · have hadd : (s.add m).cutting = s.cutting + m.distance := by rw [cutting_add, if_neg hrapid]
    refine .of htime ?_ ?_ ?_ <;> rw [hadd]
    · exact zero_le_add h.cutting_nonneg hm.distance_nonneg
    · rw [distance_add]
      exact add_le_add_of_finite h.cutting_nonneg hm.distance_finite hm.distance_nonneg h.cutting_le
    · intro hcuts
      rw [h.cutting_eq fun other hother => hcuts other (by simp [hother]), distance_add]

theorem ofMoves_totals {moves : List Move} (h : ∀ m ∈ moves, m.Measured) :
    (ofMoves moves).Totals moves := by
  induction moves using List.reverseRecOn with
  | nil => exact .of (by decide) (by decide) (by decide) fun _ => rfl
  | append_singleton moves m ih =>
    rw [List.forall_mem_append, List.forall_mem_singleton] at h
    rw [ofMoves_concat]
    exact (ih h.1).add h.2

end Statistics

theorem sound_of_mem_moves {E : Elementary Float} {s : Settings} {program : String} {m : Move}
    (h : m ∈ (evaluate E s program).moves) : m.Sound := by
  rw [evaluate_moves] at h
  obtain ⟨o, ho, hmove⟩ := List.mem_filterMap.mp h
  obtain ⟨travel, htravel, rfl⟩ := Option.map_eq_some_iff.mp hmove
  have hall : ∀ o ∈ programOutcomes E s program, ∀ t, o.travel = some t → t.move.Sound := by
    rw [forall_programOutcomes]
    intro n line _
    exact (Machine.step_sound _ line (runAfter_finite E s program n)).2
  exact hall o ho travel htravel

/-- The statistics of a log count its moves, and those of two logs in turn add the counts up. Their
totals are in order if all that is added up is finite and not negative, so for every program. -/
theorem Statistics.ofMoves_spec :
    (∀ moves, (ofMoves moves).Counts moves) ∧
    (∀ moves, (∀ m ∈ moves, m.Measured) → (ofMoves moves).Totals moves) ∧
    (∀ before behind,
      (ofMoves (before ++ behind)).moves = (ofMoves before).moves + (ofMoves behind).moves ∧
      ∀ kind, (ofMoves (before ++ behind)).count kind =
        (ofMoves before).count kind + (ofMoves behind).count kind) ∧
    ∀ E s program, (evaluate E s program).statistics.Counts (evaluate E s program).moves ∧
      (evaluate E s program).statistics.Totals (evaluate E s program).moves := by
  refine ⟨ofMoves_counts, fun moves => ofMoves_totals, ?_, ?_⟩
  · intro before behind
    constructor
    · rw [(ofMoves_counts _).all, (ofMoves_counts _).all, (ofMoves_counts _).all,
        List.length_append]
    · intro kind
      rw [(ofMoves_counts _).count_eq, (ofMoves_counts _).count_eq, (ofMoves_counts _).count_eq,
        List.countP_append]
  · intro E s program
    exact ⟨ofMoves_counts _, ofMoves_totals fun m hm => (sound_of_mem_moves hm).measured⟩

/-- A way to the work and a cut, each in range: the whole distance is infinite, what was cut is not.
-/
theorem Statistics.ofMoves_spec_overflow :
    (∀ m ∈ [Move.of .rapid 1e308 0, Move.of .linear 1e308 1e308], m.Measured) ∧
    (ofMoves [.of .rapid 1e308 0, .of .linear 1e308 1e308]).distance.isFinite = false ∧
    (ofMoves [.of .rapid 1e308 0, .of .linear 1e308 1e308]).cutting = 1e308 ∧
    (ofMoves [.of .rapid 1e308 0, .of .linear 1e308 1e308]).Totals
      [.of .rapid 1e308 0, .of .linear 1e308 1e308] := by
  have hmeasured : ∀ m ∈ [Move.of .rapid 1e308 0, Move.of .linear 1e308 1e308], m.Measured := by
    simp only [List.forall_mem_cons]
    refine ⟨⟨?_, ?_, ?_, ?_⟩, ⟨?_, ?_, ?_, ?_⟩, fun _ h => absurd h List.not_mem_nil⟩ <;>
      decide +kernel
  exact ⟨hmeasured, by decide +kernel, by decide +kernel, ofMoves_spec.2.1 _ hmeasured⟩

end Toolpath
