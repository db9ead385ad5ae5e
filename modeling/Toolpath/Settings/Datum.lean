import Toolpath.Number.Literal

/-! # What a settings file can hold

A file gives data under keys. Only numbers matter here. Whole numbers of a machine word are kept as
they are; any other number is the double that its format makes of it. Anything else has been read
over.
-/
namespace Toolpath

inductive Datum where
  /-- Written without a point and without an exponent, and of no more than 64 bits. -/
  | integer (negative : Bool) (size : UInt64)
  /-- Any other number, unless it is out of the range of its format. -/
  | number (x : Option Float)
  | other

namespace Datum

/-- The datum as a double. Whole numbers will do. -/
def float? : Datum → Option Float
  | integer negative size => some (Literal.toFloat ⟨negative, size.toNat, 0⟩)
  | number x => x
  | other => none

/-- The datum as a count. Only a whole number without a sign will do. -/
def count? : Datum → Option UInt64
  | integer false size => some size
  | _ => none

end Datum
end Toolpath
