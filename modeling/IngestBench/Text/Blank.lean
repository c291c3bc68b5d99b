import IngestBench.Text.Split

/-! Blank characters and trimming. Blank is the Unicode property `White_Space`, so a no-break space or
    an ideographic space is trimmed too, while NUL and the zero width space are kept. -/

namespace IngestBench
namespace Text

/-- The characters of the Unicode property `White_Space`. -/
def isBlank (c : Char) : Bool :=
  let n := c.toNat
  (0x09 ≤ n && n ≤ 0x0D) || n == 0x20 || n == 0x85 || n == 0xA0 || n == 0x1680 ||
    (0x2000 ≤ n && n ≤ 0x200A) || n == 0x2028 || n == 0x2029 || n == 0x202F || n == 0x205F || n == 0x3000

/-- The text without blanks at either end. -/
def trimChars (cs : List Char) : List Char := dropEnd isBlank (dropStart isBlank cs)

/-- The text without blanks at either end. -/
def trim (s : String) : String := String.ofList (trimChars s.toList)

end Text
end IngestBench
