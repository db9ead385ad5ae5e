import Toolpath.Number.Double
import Toolpath.Number.Fixed

/-! # Units

A program is written in millimeters or in inches; everything that is kept is in millimeters.
-/
namespace Toolpath

inductive Units where
  | millimeters
  | inches
  deriving DecidableEq, Repr

namespace Units

section
variable {α : Type} [Scalar α]

/-- Millimeters per program unit. -/
def factor : Units → α
  | millimeters => 1
  | inches => Scalar.decimal 254 1

def toMm (u : Units) (value : α) : α := value * u.factor

def ofMm (u : Units) (millimeters : α) : α := millimeters / u.factor

end

theorem toMm_zero (u : Units) : u.toMm (0 : Float) = 0 := by
  cases u <;> decide +kernel

def label : Units → String
  | millimeters => "mm"
  | inches => "in"

def name : Units → String
  | millimeters => "millimeters"
  | inches => "inches"

def code : Units → String
  | millimeters => "G21"
  | inches => "G20"

/-- Units by one of their names, in any case. The letters of these names have no upper-case form
outside ASCII, so lowering the ASCII letters decides the match. -/
def ofText? (text : String) : Option Units :=
  match text.map Char.toLower with
  | "mm" | "metric" | "g21" => some millimeters
  | "in" | "inch" | "imperial" | "g20" => some inches
  | _ => none

def unknownMessage (text : String) : String := "Unknown unit system: " ++ text

def formatLength (u : Units) (millimeters : Float) : String :=
  Fixed.text 3 (u.ofMm millimeters) ++ " " ++ u.label

end Units
end Toolpath
