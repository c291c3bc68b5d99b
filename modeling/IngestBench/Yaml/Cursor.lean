import IngestBench.Text.Integer

/-! A place in the text of a document. Lines and columns matter: the depth of a value is its column, and a key
    must stand on one line. -/

namespace IngestBench
namespace Yaml

/-- The characters that end a line. -/
def isBreak (c : Char) : Bool :=
  c == '\n' || c == '\r' || c == '\u0085' || c == '\u2028' || c == '\u2029'

/-- The characters between words of a line. -/
def isSpace (c : Char) : Bool := c == ' ' || c == '\t'

/-- Whether a document may hold the character at all. A byte order mark may only come first. -/
def isAllowed (c : Char) : Bool :=
  let n := c.toNat
  n == 0x09 || n == 0x0A || n == 0x0D || (0x20 ≤ n && n ≤ 0x7E) || n == 0x85 ||
    (0xA0 ≤ n && n ≤ 0xD7FF) || (0xE000 ≤ n && n ≤ 0xFFFD && n != 0xFEFF) || 0x10000 ≤ n

/-- The characters of anchors and of names of directives. -/
def isWord (c : Char) : Bool := c.isAlphanum || c == '_' || c == '-'

/-- A place in a text, and what comes after it. -/
structure Cursor where
  rest : List Char
  line : Nat
  column : Nat
  index : Nat

namespace Cursor

def ofChars (cs : List Char) : Cursor := ⟨cs, 0, 0, 0⟩

/-- The character `n` places ahead. -/
def peek (c : Cursor) (n : Nat) : Option Char := c.rest[n]?

/-- Whether the character `n` places ahead belongs to a class; the end of the text belongs to none. -/
def sees (c : Cursor) (n : Nat) (p : Char → Bool) : Bool := (c.peek n).any p

/-- Whether a word ends `n` places ahead: at a space, a break or the end of the text. -/
def endsAt (c : Cursor) (n : Nat) : Bool := (c.peek n).all fun ch => isSpace ch || isBreak ch

/-- Whether the line ends here. -/
def atLineEnd (c : Cursor) : Bool := (c.peek 0).all isBreak

/-- The place `n` characters later on the same line. -/
def skip (c : Cursor) (n : Nat) : Cursor :=
  { c with rest := c.rest.drop n, column := c.column + n, index := c.index + n }

/-- The place after the characters of a class, and these characters. -/
def span (c : Cursor) (p : Char → Bool) : List Char × Cursor :=
  let run := c.rest.takeWhile p
  (run, c.skip run.length)

/-- The place after a line break, and what the break stands for in a value: a line feed, unless it is a
    separator of lines or paragraphs. Anywhere else nothing is passed over. -/
def lineBreak (c : Cursor) : List Char × Cursor :=
  match c.rest with
  | '\r' :: '\n' :: rest => (['\n'], ⟨rest, c.line + 1, 0, c.index + 2⟩)
  | ch :: rest =>
    if !isBreak ch then ([], c)
    else
      let kept := if ch = '\u2028' ∨ ch = '\u2029' then ch else '\n'
      ([kept], ⟨rest, c.line + 1, 0, c.index + 1⟩)
  | [] => ([], c)

/-- Whether a line of three marks, which starts or ends a document, begins here. -/
def atFence (c : Cursor) (mark : Char) : Bool :=
  c.column == 0 && c.sees 0 (· == mark) && c.sees 1 (· == mark) && c.sees 2 (· == mark) && c.endsAt 3

/-- Whether a document starts or ends here. -/
def atBoundary (c : Cursor) : Bool := c.atFence '-' || c.atFence '.'

end Cursor
end Yaml
end IngestBench
