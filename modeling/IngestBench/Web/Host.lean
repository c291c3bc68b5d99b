import IngestBench.Text.Integer
import IngestBench.Web.Label
import IngestBench.Web.Percent

/-! Hosts of web addresses: domain names, addresses of both internet protocols, and the free text of schemes
    that have no such notion. Each host has one written form. -/

namespace IngestBench
namespace Web

/-- Why a text is no web address. -/
inductive Fault
  | relative
  | emptyHost
  | port
  | addressV4
  | addressV6
  | domain
  | domainCharacter
  deriving Repr, DecidableEq

/-- The wording of the fault. -/
def Fault.message : Fault → String
  | .relative => "relative URL without a base"
  | .emptyHost => "empty host"
  | .port => "invalid port number"
  | .addressV4 => "invalid IPv4 address"
  | .addressV6 => "invalid IPv6 address"
  | .domain => "invalid international domain name"
  | .domainCharacter => "invalid domain character"

/-- A host. -/
inductive Host
  | domain (name : String)
  | v4 (value : Nat)
  | v6 (pieces : List Nat)
  | freeText (text : String)
  deriving Repr, DecidableEq

/-! ### Domain names -/

/-- Characters that no domain name holds. -/
def forbiddenInDomain (c : Char) : Bool :=
  c.toNat ≤ 0x20 || c.toNat == 0x7F || "#%/:<>?@[\\]^|".toList.contains c

/-- Characters that no free text host holds. -/
def forbiddenInHost (c : Char) : Bool :=
  "\x00\t\n\r #/:<>?@[\\]^|".toList.contains c

/-! ### Numeric addresses -/

/-- A number in decimal, octal after `0`, or hexadecimal after `0x`. -/
def readRadix (cs : List Char) : Option Nat :=
  let value (radix : Nat) (ds : List Char) : Option Nat :=
    ds.foldlM (fun n c => do
      let d ← Text.hexDigit? c
      if d < radix then some (radix * n + d) else none) 0
  match cs with
  | [] => none
  | '0' :: x :: rest =>
    if x = 'x' ∨ x = 'X' then value 16 rest else value 8 (x :: rest)
  | _ => value 10 cs

/-- The labels of a name without the empty label after a final point. -/
def labels (name : List Char) : List (List Char) :=
  let parts := Text.splitChars '.' name
  if 1 < parts.length && parts.getLast? == some [] then parts.dropLast else parts

/-- Whether the last label is a number, so that the name must be an address. -/
def endsInNumber (name : List Char) : Bool :=
  match (labels name).getLast? with
  | none => false
  | some [] => false
  | some last =>
    last.all Char.isDigit ||
      match last with
      | '0' :: x :: rest => (x = 'x' || x = 'X') && rest.all fun c => (Text.hexDigit? c).isSome
      | _ => false

/-- An address of one to four numbers; the last one fills the remaining bytes. -/
def readV4 (name : List Char) : Except Fault Host :=
  let parts := labels name
  match parts.mapM readRadix with
  | none => .error .addressV4
  | some numbers =>
    let count := numbers.length
    if 4 < count then .error .addressV4
    else
      match numbers.getLast? with
      | none => .error .addressV4
      | some last =>
        if numbers.dropLast.any (255 < ·) || Nat.pow 256 (5 - count) ≤ last then .error .addressV4
        else .ok (.v4 (numbers.dropLast.zipIdx.foldl (fun sum (n, i) => sum + n * Nat.pow 256 (3 - i)) last))

/-- The decimal form of an address of four bytes. -/
def writeV4 (value : Nat) : String :=
  let bytes := [value / Nat.pow 256 3, value / Nat.pow 256 2 % 256, value / 256 % 256, value % 256]
  ".".intercalate (bytes.map Nat.repr)

/-- Four decimal numbers below 256 without leading zeros, as two pieces. -/
def readTail (cs : List Char) : Option (List Nat) := do
  let parts := Text.splitChars '.' cs
  if parts.length ≠ 4 then none
  let numbers ← parts.mapM fun p =>
    if p.isEmpty || !p.all Char.isDigit || (1 < p.length && p.head? == some '0') || 3 < p.length then none
    else
      let n := p.foldl (fun n c => 10 * n + (c.toNat - '0'.toNat)) 0
      if n < 256 then some n else none
  match numbers with
  | [a, b, c, d] => some [256 * a + b, 256 * c + d]
  | _ => none

/-- The pieces of one side of an address of eight pieces. -/
def readPieces (cs : List Char) : Option (List Nat) :=
  if cs.isEmpty then some []
  else
    let parts := Text.splitChars ':' cs
    let piece (p : List Char) : Option Nat :=
      if p.isEmpty || 4 < p.length then none
      else p.foldlM (fun n c => (Text.hexDigit? c).map (16 * n + ·)) 0
    match parts.getLast? with
    | none => none
    | some last =>
      if last.contains '.' then do
        let front ← parts.dropLast.mapM piece
        let tail ← readTail last
        some (front ++ tail)
      else parts.mapM piece

/-- The text before the first `::` and the text after it. -/
def splitGap : List Char → Option (List Char × List Char)
  | ':' :: ':' :: cs => some ([], cs)
  | c :: cs => (splitGap cs).map fun (before, after) => (c :: before, after)
  | [] => none

/-- An address of eight pieces; one gap stands for a run of zeros. -/
def readV6 (cs : List Char) : Except Fault Host :=
  let pieces : Option (List Nat) :=
    match splitGap cs with
    | none => do
      let ps ← readPieces cs
      if ps.length = 8 then some ps else none
    | some (front, back) => do
      if back.head? == some ':' then none
      if front.contains '.' then none
      let a ← readPieces front
      let b ← readPieces back
      if a.length + b.length < 8 then some (a ++ List.replicate (8 - a.length - b.length) 0 ++ b) else none
  match pieces with
  | some ps => .ok (.v6 ps)
  | none => .error .addressV6

/-- The lengths of the runs of zeros that start at each piece. -/
def zeroRuns : List Nat → List Nat
  | [] => []
  | p :: ps =>
    let rest := zeroRuns ps
    (if p = 0 then 1 + rest.headD 0 else 0) :: rest

/-- Lower-case hexadecimal digits without leading zeros. -/
def hexLower (n : Nat) : String := String.ofList (Nat.toDigits 16 n)

/-- The written form of an address of eight pieces: the first longest run of two or more zeros becomes a
    gap. -/
def writeV6 (pieces : List Nat) : String :=
  let runs := zeroRuns pieces
  let longest := runs.foldl max 0
  let write (ps : List Nat) : String := ":".intercalate (ps.map hexLower)
  if longest < 2 then write pieces
  else
    let start := runs.findIdx (· == longest)
    write (pieces.take start) ++ "::" ++ write (pieces.drop (start + longest))

/-! ### Reading and writing hosts -/

/-- The host of an address whose scheme knows domains. -/
def Host.read (cs : List Char) : Except Fault Host :=
  match cs with
  | '[' :: rest =>
    if rest.getLast? == some ']' then readV6 rest.dropLast else .error .addressV6
  | _ =>
    match String.fromUTF8? (ByteArray.mk (unescape cs).toArray) with
    | none => .error .domain
    | some decoded =>
      match (Text.splitChars '.' (decoded.toList.map lowerLetter)).mapM asciiLabel? with
      | none => .error .domain
      | some labels =>
        let name := ['.'].intercalate labels
        if name.any forbiddenInDomain then .error .domain
        else if name.isEmpty then .error .emptyHost
        else if endsInNumber name then readV4 name
        else .ok (.domain (String.ofList name))

/-- The host of an address with any other scheme. -/
def Host.readFree (cs : List Char) : Except Fault Host :=
  match cs with
  | '[' :: rest =>
    if rest.getLast? == some ']' then readV6 rest.dropLast else .error .addressV6
  | _ =>
    if cs.any forbiddenInHost then .error .domainCharacter
    else .ok (.freeText (String.ofList (Part.opaqueText.encode cs)))

/-- The written form. -/
def Host.write : Host → String
  | .domain name => name
  | .v4 value => writeV4 value
  | .v6 pieces => "[" ++ writeV6 pieces ++ "]"
  | .freeText text => text

/-- Whether nothing is written for the host. -/
def Host.isEmpty (h : Host) : Bool := h.write.isEmpty

end Web
end IngestBench
