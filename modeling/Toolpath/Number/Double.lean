import Toolpath.Number.Binary
import Toolpath.Number.Scalar

/-! # Doubles as scalars

The arithmetic of IEEE binary64, and the elementary functions of the machine.
-/
namespace Toolpath

instance : Scalar Float where
  decLt := inferInstance
  decLe := inferInstance
  ofNat := Float.ofNat
  decimal digits places := Float.ofScientific digits true places
  pi := 3.141592653589793
  tau := 6.283185307179586
  degreesPerRadian := 57.29577951308232
  abs := Float.abs
  sqrt := Float.sqrt
  isFinite := Float.isFinite
  ceil x := (Binary.ofFloat x).ceil

def Elementary.native : Elementary Float where
  hypot := Binary.hypot
  sin := Float.sin
  cos := Float.cos
  atan2 := Float.atan2

end Toolpath
