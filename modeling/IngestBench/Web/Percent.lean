import IngestBench.Text.Integer

/-! Percent-encoding of the parts of a web address: bytes that have a meaning of their own in a part, and all
    bytes beyond ASCII, are written as `%` and two hexadecimal digits. -/

namespace IngestBench
namespace Web

/-- The parts of an address, each with its own set of encoded characters. -/
inductive Part
  | opaqueText | fragment | path | userInfo | query | specialQuery
  deriving Repr, DecidableEq

/-- Whether an ASCII character is encoded in a part. -/
def Part.encodes (p : Part) (c : Char) : Bool :=
  let control := c.toNat < 0x20 || c.toNat == 0x7F
  let inFragment := control || " \"<>\x60".toList.contains c
  let inPath := inFragment || "#?\x7b\x7d".toList.contains c
  let inQuery := control || " \"#<>".toList.contains c
  match p with
  | .opaqueText => control
  | .fragment => inFragment
  | .path => inPath
  | .userInfo => inPath || "/:;=@[\\]^|".toList.contains c
  | .query => inQuery
  | .specialQuery => inQuery || c == '\x27'

/-- An upper-case hexadecimal digit. -/
def hexUpper (n : Nat) : Char :=
  if n < 10 then Char.ofNat ('0'.toNat + n) else Char.ofNat ('A'.toNat + (n - 10))

/-- A byte as `%` and two digits. -/
def escapeByte (b : UInt8) : List Char :=
  ['%', hexUpper (b.toNat / 16), hexUpper (b.toNat % 16)]

/-- A character in UTF-8, every byte escaped. -/
def escapeChar (c : Char) : List Char :=
  (String.singleton c).toUTF8.toList.flatMap escapeByte

/-- A text as it stands in a part. -/
def Part.encode (p : Part) (cs : List Char) : List Char :=
  cs.flatMap fun c => if c.toNat ≥ 0x80 || p.encodes c then escapeChar c else [c]

/-- The bytes of a text with its escapes undone; a `%` without two digits stands for itself. -/
def unescape : List Char → List UInt8
  | [] => []
  | '%' :: a :: b :: cs =>
    match Text.hexDigit? a, Text.hexDigit? b with
    | some x, some y => UInt8.ofNat (16 * x + y) :: unescape cs
    | _, _ => '%'.toUInt8 :: unescape (a :: b :: cs)
  | c :: cs => (String.singleton c).toUTF8.toList ++ unescape cs

/-- A name or a value of a form: letters, digits and `*-._` stay, a blank becomes a plus sign. -/
def formText (s : String) : String :=
  String.ofList <| s.toList.flatMap fun c =>
    if c.isAlphanum || "*-._".toList.contains c then [c]
    else if c = ' ' then ['+']
    else escapeChar c

/-- The pairs of a form. -/
def formPairs (pairs : List (String × String)) : String :=
  "&".intercalate (pairs.map fun (name, value) => formText name ++ "=" ++ formText value)

end Web
end IngestBench
