import Phrasebook.Text.Ranges

/-!
The two character classes that pattern languages reserve: syntax characters and white space.
Both are frozen, so a name that avoids them stays a name.
-/
namespace Phrasebook.Text

/-- Characters with the property Pattern_Syntax. -/
def patternSyntaxRanges : Ranges := [
  (0x21, 0x2F), (0x3A, 0x40), (0x5B, 0x5E), (0x60, 0x60), (0x7B, 0x7E), (0xA1, 0xA7),
  (0xA9, 0xA9), (0xAB, 0xAC), (0xAE, 0xAE), (0xB0, 0xB1), (0xB6, 0xB6), (0xBB, 0xBB),
  (0xBF, 0xBF), (0xD7, 0xD7), (0xF7, 0xF7), (0x2010, 0x2027), (0x2030, 0x203E),
  (0x2041, 0x2053), (0x2055, 0x205E), (0x2190, 0x245F), (0x2500, 0x2775), (0x2794, 0x2BFF),
  (0x2E00, 0x2E7F), (0x3001, 0x3003), (0x3008, 0x3020), (0x3030, 0x3030), (0xFD3E, 0xFD3F),
  (0xFE45, 0xFE46)]

def isPatternSyntax (c : Char) : Bool :=
  patternSyntaxRanges.has c

def isPatternBlank (c : Char) : Bool :=
  let n := c.toNat
  (0x9 ≤ n && n ≤ 0xD) || n == 0x20 || n == 0x85 || n == 0x200E || n == 0x200F ||
    n == 0x2028 || n == 0x2029

end Phrasebook.Text
