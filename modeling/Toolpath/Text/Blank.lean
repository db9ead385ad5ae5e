/-! # Blanks

The characters with the Unicode property White_Space, and the text between the outermost blanks.
-/
namespace Toolpath

/-- White_Space: the ASCII controls from tab to return, space, next line, no-break space and the
spaces and separators of the upper planes. -/
def isBlank (c : Char) : Bool :=
  let n := c.toNat
  (0x9 ≤ n && n ≤ 0xD) || n == 0x20 || n == 0x85 || n == 0xA0 || n == 0x1680 ||
  (0x2000 ≤ n && n ≤ 0x200A) || n == 0x2028 || n == 0x2029 || n == 0x202F || n == 0x205F ||
  n == 0x3000

def trim (text : List Char) : List Char :=
  ((text.dropWhile isBlank).reverse.dropWhile isBlank).reverse

def trim? (text : List Char) : Option (List Char) :=
  match trim text with
  | [] => none
  | c :: rest => some (c :: rest)

end Toolpath
