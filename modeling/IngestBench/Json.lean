import IngestBench.Text.Integer

/-! JSON values as texts give them. Objects keep their entries in order, also those of one name. -/

namespace IngestBench

inductive Json
  | null
  | bool (value : Bool)
  /-- A number as it is written. -/
  | number (text : String)
  | string (value : String)
  | array (items : List Json)
  | object (entries : List (String × Json))
  deriving Repr, Inhabited

namespace Json

/-- The blanks between the parts of a value. -/
def isSpace (c : Char) : Bool := c == ' ' || c == '\n' || c == '\t' || c == '\r'

def skipSpace (cs : List Char) : List Char := cs.dropWhile isSpace

/-- The code of four hexadecimal digits. -/
def code? : List Char → Option (Nat × List Char)
  | a :: b :: c :: d :: rest => do
    return (4096 * (← Text.hexDigit? a) + 256 * (← Text.hexDigit? b) + 16 * (← Text.hexDigit? c) + (← Text.hexDigit? d), rest)
  | _ => none

/-- The character of an escape and the text after it. A code beyond 16 bits is written as a pair. -/
def escape? : List Char → Option (Char × List Char)
  | '"' :: rest => some ('"', rest)
  | '\\' :: rest => some ('\\', rest)
  | '/' :: rest => some ('/', rest)
  | 'b' :: rest => some ('\x08', rest)
  | 'f' :: rest => some ('\x0c', rest)
  | 'n' :: rest => some ('\n', rest)
  | 'r' :: rest => some ('\r', rest)
  | 't' :: rest => some ('\t', rest)
  | 'u' :: rest => do
    let (high, rest) ← code? rest
    if 0xD800 ≤ high ∧ high ≤ 0xDBFF then
      match rest with
      | '\\' :: 'u' :: rest =>
        let (low, rest) ← code? rest
        if 0xDC00 ≤ low ∧ low ≤ 0xDFFF then
          return (Char.ofNat (0x10000 + (high - 0xD800) * 0x400 + (low - 0xDC00)), rest)
        else failure
      | _ => failure
    else if 0xDC00 ≤ high ∧ high ≤ 0xDFFF then failure
    else return (Char.ofNat high, rest)
  | _ => none

/-- A string from behind its first quote; `found` is its start in reverse. -/
def readString : Nat → List Char → List Char → Option (String × List Char)
  | 0, _, _ => none
  | fuel + 1, cs, found =>
    match cs with
    | [] => none
    | '"' :: rest => some (String.ofList found.reverse, rest)
    | '\\' :: rest => do
      let (c, rest) ← escape? rest
      readString fuel rest (c :: found)
    | c :: rest => if c.toNat < 0x20 then none else readString fuel rest (c :: found)

/-- A run of digits, at least one. -/
def readDigits (cs : List Char) : Option (List Char × List Char) :=
  let run := cs.takeWhile Char.isDigit
  if run.isEmpty then none else some (run, cs.drop run.length)

/-- A number: a sign, digits without a leading zero, a fraction, an exponent. -/
def readNumber (cs : List Char) : Option (String × List Char) := do
  let (sign, rest) := match cs with
    | '-' :: rest => (['-'], rest)
    | _ => ([], cs)
  let (whole, rest) ← readDigits rest
  if whole.head? = some '0' ∧ 1 < whole.length then failure
  let (fraction, rest) ← match rest with
    | '.' :: rest => do
      let (run, rest) ← readDigits rest
      pure ('.' :: run, rest)
    | _ => pure ([], rest)
  let (exponent, rest) ← match rest with
    | e :: rest' =>
      if e = 'e' ∨ e = 'E' then do
        let (sign, digits) := match rest' with
          | '+' :: ds => (['+'], ds)
          | '-' :: ds => (['-'], ds)
          | _ => ([], rest')
        let (run, rest) ← readDigits digits
        pure (e :: sign ++ run, rest)
      else pure ([], rest)
    | [] => pure ([], rest)
  return (String.ofList (sign ++ whole ++ fraction ++ exponent), rest)

/-- The deepest nesting of arrays and objects. -/
def deepest : Nat := 127

mutual

/-- A value and the text after it; `depth` collections may still be opened. -/
def readValue : Nat → Nat → List Char → Option (Json × List Char)
  | 0, _, _ => none
  | fuel + 1, depth, cs =>
    match skipSpace cs with
    | 'n' :: 'u' :: 'l' :: 'l' :: rest => some (.null, rest)
    | 't' :: 'r' :: 'u' :: 'e' :: rest => some (.bool true, rest)
    | 'f' :: 'a' :: 'l' :: 's' :: 'e' :: rest => some (.bool false, rest)
    | '"' :: rest => (readString (rest.length + 1) rest []).map fun (s, rest) => (.string s, rest)
    | '[' :: rest =>
      match depth with
      | 0 => none
      | depth + 1 =>
        match skipSpace rest with
        | ']' :: rest => some (.array [], rest)
        | rest => (readItems fuel depth rest).map fun (items, rest) => (.array items, rest)
    | '\x7b' :: rest =>
      match depth with
      | 0 => none
      | depth + 1 =>
        match skipSpace rest with
        | '\x7d' :: rest => some (.object [], rest)
        | rest => (readEntries fuel depth rest).map fun (entries, rest) => (.object entries, rest)
    | rest => (readNumber rest).map fun (text, rest) => (.number text, rest)

/-- The items of an array up to its bracket. -/
def readItems : Nat → Nat → List Char → Option (List Json × List Char)
  | 0, _, _ => none
  | fuel + 1, depth, cs => do
    let (item, rest) ← readValue fuel depth cs
    match skipSpace rest with
    | ']' :: rest => return ([item], rest)
    | ',' :: rest =>
      let (items, rest) ← readItems fuel depth rest
      return (item :: items, rest)
    | _ => failure

/-- The entries of an object up to its brace. -/
def readEntries : Nat → Nat → List Char → Option (List (String × Json) × List Char)
  | 0, _, _ => none
  | fuel + 1, depth, cs =>
    match skipSpace cs with
    | '"' :: rest => do
      let (name, rest) ← readString (rest.length + 1) rest []
      let ':' :: rest := skipSpace rest | failure
      let (value, rest) ← readValue fuel depth rest
      match skipSpace rest with
      | '\x7d' :: rest => return ([(name, value)], rest)
      | ',' :: rest =>
        let (entries, rest) ← readEntries fuel depth rest
        return ((name, value) :: entries, rest)
      | _ => failure
    | _ => none

end

/-- The value of a text that holds nothing else. -/
def read (text : String) : Option Json := do
  let cs := text.toList
  let (value, rest) ← readValue (cs.length + 1) deepest cs
  if (skipSpace rest).isEmpty then return value else failure

end Json
end IngestBench
