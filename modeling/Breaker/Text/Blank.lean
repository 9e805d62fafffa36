/-!
# Blank text

The characters with the Unicode property `White_Space`, and the texts that
hold no other.
-/

namespace Breaker.Text

/-- Has the character the Unicode property `White_Space`? -/
def isSpace (c : Char) : Bool :=
  let n := c.toNat
  (9 ≤ n && n ≤ 13) || n == 0x20 || n == 0x85 || n == 0xA0 || n == 0x1680 ||
    (0x2000 ≤ n && n ≤ 0x200A) || n == 0x2028 || n == 0x2029 || n == 0x202F ||
    n == 0x205F || n == 0x3000

/-- Is there nothing but white space in the text? -/
def isBlank (s : String) : Bool := s.toList.all isSpace

end Breaker.Text
