import Toolpath.Position

/-! # Arc planes

Arcs lie in one of the three coordinate planes; the axis across it runs along. Its axes are taken
in cyclic order, first and second in the plane and the linear one last, so that clockwise means the
same in all of them.
-/
namespace Toolpath

inductive Plane where
  | xy
  | xz
  | yz
  deriving DecidableEq, Repr

/-- The numbers given for axes and arcs on one line, in program units. -/
structure AxisWords (α : Type) where
  x : Option α := none
  y : Option α := none
  z : Option α := none
  i : Option α := none
  j : Option α := none
  k : Option α := none
  r : Option α := none
  deriving DecidableEq, Repr

def AxisWords.hasAxis {α : Type} (w : AxisWords α) : Bool :=
  w.x.isSome || w.y.isSome || w.z.isSome

namespace Plane
variable {α : Type}

def project (p : Plane) (q : Position α) : α × α × α :=
  match p with
  | xy => (q.x, q.y, q.z)
  | xz => (q.z, q.x, q.y)
  | yz => (q.y, q.z, q.x)

def unproject (p : Plane) (first second linear : α) : Position α :=
  match p with
  | xy => ⟨first, second, linear⟩
  | xz => ⟨second, linear, first⟩
  | yz => ⟨linear, first, second⟩

def offsets (p : Plane) (w : AxisWords α) : Option α × Option α :=
  match p with
  | xy => (w.i, w.j)
  | xz => (w.k, w.i)
  | yz => (w.j, w.k)

@[simp] theorem unproject_project (p : Plane) (q : Position α) :
    p.unproject (p.project q).1 (p.project q).2.1 (p.project q).2.2 = q := by
  cases p <;> rfl

@[simp] theorem project_unproject (p : Plane) (a b l : α) :
    p.project (p.unproject a b l) = (a, b, l) := by
  cases p <;> rfl

def name : Plane → String
  | xy => "XY"
  | xz => "XZ"
  | yz => "YZ"

def code : Plane → String
  | xy => "G17"
  | xz => "G18"
  | yz => "G19"

def text (p : Plane) : String := p.name ++ " plane (" ++ p.code ++ ")"

end Plane
end Toolpath
