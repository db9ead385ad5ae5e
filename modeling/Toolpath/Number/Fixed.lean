import Toolpath.Number.Binary

/-! # A fixed number of decimal places

The text shows the exact binary value, rounded to the nearest multiple of the last place, a half to
the even one. All digits before the point are written, and the sign is kept also where every digit
is zero.
-/
namespace Toolpath.Fixed

def layout (places units : Nat) : String :=
  let one := Nat.pow 10 places
  let whole := toString (units / one)
  if places = 0 then whole
  else
    let fraction := toString (units % one)
    whole ++ "." ++ "".pushn '0' (places - fraction.length) ++ fraction

def text (places : Nat) (x : Float) : String :=
  match Binary.ofFloat x with
  | .nan => "NaN"
  | .infinity negative => if negative then "-inf" else "inf"
  | .finite negative m e =>
    let r := Binary.ratio m e
    let shown := layout places (Binary.roundHalfEven (r.1 * Nat.pow 10 places) r.2)
    if negative then "-" ++ shown else shown

end Toolpath.Fixed
