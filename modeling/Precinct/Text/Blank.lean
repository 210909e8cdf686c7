/-!
# Blank text

* `isBlankChar`  white space in the sense of Unicode;
* `isBlank`      a text of white space only, the empty one included.
-/

namespace Precinct.Text

/-- white space in the sense of Unicode -/
def isBlankChar (c : Char) : Bool :=
  let n := c.toNat
  (0x9 ≤ n && n ≤ 0xD) || n == 0x20 || n == 0x85 || n == 0xA0 || n == 0x1680 ||
    (0x2000 ≤ n && n ≤ 0x200A) || n == 0x2028 || n == 0x2029 || n == 0x202F || n == 0x205F ||
    n == 0x3000

/-- a text without any character that is not white space -/
def isBlank (s : String) : Bool := s.toList.all isBlankChar

end Precinct.Text
