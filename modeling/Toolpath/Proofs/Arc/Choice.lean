import Toolpath.Arc.Center

/-! # The choice between two centres

A radius gives two centres, of which one is taken. The two depend on the magnitude of the radius, its
sign and the direction of turning only decide between them. If the shorter arcs about the two turn to
different sides, the direction takes the one whose shorter arc it turns along, and the opposite
direction takes the other.
-/
namespace Toolpath.Center
variable {α : Type} [Scalar α] (E : Elementary α)

def place (c : Center α) : α × α := (c.first, c.second)

def chord (start target : α × α) : α := E.hypot (target.1 - start.1) (target.2 - start.2)

def discriminant (start target : α × α) (r : α) : α :=
  Scalar.abs r * Scalar.abs r - chord E start target / 2 * (chord E start target / 2)

def choices (start target : α × α) (r : α) : (α × α) × (α × α) :=
  candidates start target (chord E start target) <| Scalar.sqrt
    (if 0 < discriminant E start target r then discriminant E start target r else 0)

def shortRadius? (start target : α × α) (r : α) : Option (ShortRadius α) :=
  if discriminant E start target r < 0 then some ⟨Scalar.abs r, chord E start target / 2⟩ else none

def fits (turn : Turn) (start target center : α × α) : Bool :=
  shorterIsClockwise E start target center == (turn == .clockwise)

/-- Whether the first of two centres is the one for a positive radius. -/
def prefersFirst (turn : Turn) (start target : α × α) (centers : (α × α) × (α × α)) : Bool :=
  fits E turn start target centers.1 || !fits E turn start target centers.2

def takesFirst (turn : Turn) (start target : α × α) (r : α) : Bool :=
  prefersFirst E turn start target (choices E start target r) != decide (r < 0)

/-- The shorter arcs about two centres turn to different sides. -/
def Opposed (start target : α × α) (centers : (α × α) × (α × α)) : Prop :=
  shorterIsClockwise E start target centers.1 ≠ shorterIsClockwise E start target centers.2

instance (start target : α × α) (centers : (α × α) × (α × α)) :
    Decidable (Opposed E start target centers) := inferInstanceAs (Decidable (_ ≠ _))

def pick (centers : (α × α) × (α × α)) (first : Bool) : α × α :=
  if first then centers.1 else centers.2

theorem pick_cases {α : Type} (centers : (α × α) × (α × α)) (first : Bool) :
    pick centers first = centers.1 ∨ pick centers first = centers.2 := by
  cases first
  · exact .inr rfl
  · exact .inl rfl

theorem ofRadius_eq (turn : Turn) (start target : α × α) (r : α) :
    ofRadius E turn start target r =
      if epsilon < chord E start target then
        let center := pick (choices E start target r) (takesFirst E turn start target r)
        .ok ⟨center.1, center.2, shortRadius? E start target r⟩
      else .error .zeroLengthChord := rfl

variable {E} {turn : Turn} {start target : α × α} {r : α}

theorem ofRadius_eq_ok_iff {c : Center α} : ofRadius E turn start target r = .ok c ↔
    epsilon < chord E start target ∧
    c.place = pick (choices E start target r) (takesFirst E turn start target r) ∧
    c.clamped = shortRadius? E start target r := by
  rw [ofRadius_eq]
  split
  next h =>
    refine ⟨fun hok => ?_, fun ⟨_, hplace, hclamped⟩ => ?_⟩
    · cases hok
      exact ⟨h, rfl, rfl⟩
    · rw [← hplace, ← hclamped]
      rfl
  next h => exact iff_of_false (by simp) fun hok => h hok.1

theorem epsilon_lt_of_ne (h : ofRadius E turn start target r ≠ .error .zeroLengthChord) :
    epsilon < chord E start target := by
  refine Classical.byContradiction fun hshort => h ?_
  rw [ofRadius_eq, if_neg hshort]

section
variable {centers : (α × α) × (α × α)} (h : Opposed E start target centers)
include h

theorem shorterIsClockwise_of_opposed : shorterIsClockwise E start target
    (pick centers (prefersFirst E turn start target centers)) = (turn == .clockwise) := by
  unfold Opposed at h
  unfold pick prefersFirst fits
  cases hfirst : shorterIsClockwise E start target centers.1 <;>
    cases hsecond : shorterIsClockwise E start target centers.2 <;>
    rw [hfirst, hsecond] at h <;> cases turn <;> simp_all

theorem prefersFirst_opposite : prefersFirst E turn.opposite start target centers =
    !prefersFirst E turn start target centers := by
  unfold Opposed at h
  unfold prefersFirst fits
  cases hfirst : shorterIsClockwise E start target centers.1 <;>
    cases hsecond : shorterIsClockwise E start target centers.2 <;>
    rw [hfirst, hsecond] at h <;> cases turn <;> simp_all [Turn.opposite]

end

/-- Of two centres that turn to different sides the one is taken whose shorter arc turns with the
direction, and for a negative radius the other. -/
theorem shorterIsClockwise_of_ofRadius (h : Opposed E start target (choices E start target r))
    {c : Center α} (hc : ofRadius E turn start target r = .ok c) :
    shorterIsClockwise E start target c.place = ((turn == .clockwise) != decide (r < 0)) := by
  obtain ⟨-, hplace, -⟩ := ofRadius_eq_ok_iff.mp hc
  rw [hplace, takesFirst]
  cases decide (r < 0) with
  | false =>
    rw [Bool.bne_false, Bool.bne_false]
    exact shorterIsClockwise_of_opposed h
  | true =>
    have hturn : (turn.opposite == .clockwise) = !(turn == .clockwise) := by cases turn <;> rfl
    rw [Bool.bne_true, Bool.bne_true, ← prefersFirst_opposite h, ← hturn]
    exact shorterIsClockwise_of_opposed h

end Toolpath.Center
