import IngestBench.Failure

/-! Text input, read line by line. A line that is not valid UTF-8 is read as a fault; reading goes on
    after it. -/

namespace IngestBench

/-- A line as it stands in the input, with its end. -/
inductive RawLine
  | text (content : String)
  | malformed
  deriving Repr, DecidableEq

/-- The lines that are still to be read. -/
abbrev Input := List RawLine

namespace Input

/-- Cuts a text after each line feed; the last line may lack it. -/
def cutLines : List Char → List (List Char)
  | [] => []
  | c :: cs =>
    if c = '\n' then [c] :: cutLines cs
    else match cutLines cs with
      | [] => [[c]]
      | line :: rest => (c :: line) :: rest

/-- The input that holds a text. -/
def ofText (text : String) : Input :=
  (cutLines text.toList).map fun line => .text (String.ofList line)

/-- Cuts bytes after each line feed. -/
def cutBytes : List UInt8 → List (List UInt8)
  | [] => []
  | b :: bs =>
    if b = 10 then [b] :: cutBytes bs
    else match cutBytes bs with
      | [] => [[b]]
      | line :: rest => (b :: line) :: rest

/-- The input that holds bytes. -/
def ofBytes (bytes : List UInt8) : Input :=
  (cutBytes bytes).map fun line =>
    match String.fromUTF8? (ByteArray.mk line.toArray) with
    | some content => .text content
    | none => .malformed

/-- A line without line feeds and carriage returns at its end. -/
def dropLineEnd (line : String) : String :=
  String.ofList (Text.dropEnd (fun c => c = '\n' || c = '\r') line.toList)

/-- Reads a line; nothing at the end of the input. The rest never keeps what was read. -/
def readLine : Input → Except ParseFault (Option String) × Input
  | [] => (.ok none, [])
  | .text content :: rest => (.ok (some (dropLineEnd content)), rest)
  | .malformed :: rest => (.error .notUtf8, rest)

/-- Reads the first line that is not empty. -/
def readFilled : Input → Except ParseFault (Option String) × Input
  | [] => (.ok none, [])
  | .malformed :: rest => (.error .notUtf8, rest)
  | .text content :: rest =>
    let line := dropLineEnd content
    if line.isEmpty then readFilled rest else (.ok (some line), rest)

/-- The text that is still to be read; a malformed line shows as one replacement character. -/
def unread (input : Input) : String :=
  String.join (input.map fun
    | .text content => content
    | .malformed => "\ufffd")

end Input
end IngestBench
