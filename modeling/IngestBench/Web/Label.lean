import IngestBench.Text.Split

/-! Labels of domain names. A label with characters beyond ASCII has a second form in letters, digits and hyphens:
    it starts with a mark, the ASCII characters follow, and then the places and values of the others as
    integers of variable length. -/

namespace IngestBench
namespace Web

/-- The lower-case form of a letter of the Latin, Greek and Cyrillic blocks and of the wide forms of ASCII;
    other characters are kept. -/
def lowerLetter (c : Char) : Char :=
  let n := c.toNat
  if n < 0x80 then c.toLower
  else if 0xC0 ≤ n && n ≤ 0xDE && n != 0xD7 then Char.ofNat (n + 32)
  else if 0x100 ≤ n && n ≤ 0x137 && n % 2 == 0 then Char.ofNat (n + 1)
  else if 0x139 ≤ n && n ≤ 0x148 && n % 2 == 1 then Char.ofNat (n + 1)
  else if 0x14A ≤ n && n ≤ 0x177 && n % 2 == 0 then Char.ofNat (n + 1)
  else if 0x391 ≤ n && n ≤ 0x3A9 && n != 0x3A2 then Char.ofNat (n + 32)
  else if 0x410 ≤ n && n ≤ 0x42F then Char.ofNat (n + 32)
  else if 0x400 ≤ n && n ≤ 0x40F then Char.ofNat (n + 80)
  else if 0xFF21 ≤ n && n ≤ 0xFF3A then Char.ofNat (n - 0xFF21 + 'a'.toNat)
  else if 0xFF01 ≤ n && n ≤ 0xFF5E then Char.ofNat (n - 0xFEE0)
  else if n == 0x3002 || n == 0xFF61 then '.'
  else c

/-- The letter for a digit of base 36, letters first. -/
def baseDigit (d : Nat) : Char :=
  if d < 26 then Char.ofNat ('a'.toNat + d) else Char.ofNat ('0'.toNat + (d - 26))

/-- The bias after a step of the variable-length integers. -/
def adaptBias (delta points : Nat) (first : Bool) : Nat :=
  let rec reduce : Nat → Nat → Nat → Nat
    | 0, k, delta => k + 36 * delta / (delta + 38)
    | fuel + 1, k, delta =>
      if 455 < delta then reduce fuel (k + 36) (delta / 35) else k + 36 * delta / (delta + 38)
  let delta := if first then delta / 700 else delta / 2
  reduce 32 0 (delta + delta / points)

/-- Digits below this end an integer of variable length; the bias moves it. -/
def digitThreshold (bias k : Nat) : Nat := if k ≤ bias then 1 else if bias + 26 ≤ k then 26 else k - bias

/-- The digits of an integer of variable length. -/
def variableDigits (bias : Nat) : Nat → Nat → Nat → List Char
  | 0, _, _ => []
  | fuel + 1, k, q =>
    let t := digitThreshold bias k
    if q < t then [baseDigit q]
    else baseDigit (t + (q - t) % (36 - t)) :: variableDigits bias fuel (k + 36) ((q - t) / (36 - t))

/-- Where an encoder of a label stands. -/
structure LabelState where
  delta : Nat
  bias : Nat
  handled : Nat
  out : List Char

/-- Passes over the label once for the code point `n`, writing a distance at each occurrence. -/
def LabelState.pass (basic n : Nat) (label : List Nat) (s : LabelState) : LabelState :=
  label.foldl (fun s c =>
    if c < n then { s with delta := s.delta + 1 }
    else if c = n then
      { delta := 0
        bias := adaptBias s.delta (s.handled + 1) (s.handled == basic)
        handled := s.handled + 1
        out := s.out ++ variableDigits s.bias 64 36 s.delta }
    else s) s

/-- A label in letters, digits and hyphens: the ASCII characters first, then the places and values of the
    others. -/
def asciiLabel (label : List Char) : List Char :=
  if label.all (·.toNat < 0x80) then label
  else
    let points := label.map Char.toNat
    let basic := label.filter (·.toNat < 0x80)
    let others := (points.filter (0x80 ≤ ·)).mergeSort.eraseDups
    let start : LabelState :=
      { delta := 0, bias := 72, handled := basic.length
        out := basic ++ (if basic.isEmpty then [] else ['-']) }
    let (last, _) := others.foldl (fun (s, n) m =>
      let s := { s with delta := s.delta + (m - n) * (s.handled + 1) }
      let s := s.pass basic.length m points
      ({ s with delta := s.delta + 1 }, m + 1)) (start, 0x80)
    "xn--".toList ++ last.out

/-- What a label in the second form starts with. -/
def labelMark : List Char := "xn--".toList

/-- The value of a digit of base 36. -/
def baseValue? (c : Char) : Option Nat :=
  if 'a' ≤ c ∧ c ≤ 'z' then some (c.toNat - 'a'.toNat)
  else if '0' ≤ c ∧ c ≤ '9' then some (26 + (c.toNat - '0'.toNat))
  else none

/-- Reads an integer of variable length, from digits that weigh more and more; gives what is left. -/
def readVariable (bias : Nat) : Nat → Nat → List Char → Option (Nat × List Char)
  | _, _, [] => none
  | k, weight, c :: cs => do
    let d ← baseValue? c
    let t := digitThreshold bias k
    if d < t then return (d * weight, cs)
    let (rest, cs) ← readVariable bias (k + 36) (weight * (36 - t)) cs
    return (d * weight + rest, cs)

/-- Puts characters into a label, one for each integer; `passed` counts the places that were passed over. There are
    at most `fuel` integers. -/
def insertPoints (bias point passed : Nat) (label : List Char) : Nat → List Char → Option (List Char)
  | _, [] => some label
  | 0, _ :: _ => none
  | fuel + 1, c :: cs => do
    let (distance, rest) ← readVariable bias 36 1 (c :: cs)
    let count := label.length + 1
    let place := passed + distance
    let point := point + place / count
    if point.isValidChar then
      insertPoints (adaptBias distance count (passed == 0)) point (place % count + 1)
        (label.insertIdx (place % count) (Char.ofNat point)) fuel rest
    else none

/-- The label of a second form, given without its mark. -/
def readLabel (cs : List Char) : Option (List Char) :=
  match cs.reverse.span (· ≠ '-') with
  | (digits, []) => insertPoints 72 0x80 0 [] cs.length digits.reverse
  | (digits, _ :: basic) =>
    if basic.isEmpty then none else insertPoints 72 0x80 0 basic.reverse cs.length digits.reverse

/-- Characters that steer a terminal, from the block after ASCII. -/
def isSteering (c : Char) : Bool := 0x80 ≤ c.toNat && c.toNat < 0xA0

/-- The ASCII form of a label in lower case. One that is marked must be the second form of a label in lower
    case that needs it. -/
def asciiLabel? (label : List Char) : Option (List Char) :=
  match Text.after? labelMark label with
  | none => if label.any isSteering then none else some (asciiLabel label)
  | some rest => do
    let text ← readLabel rest
    if label.any (0x80 ≤ ·.toNat) || text.all (·.toNat < 0x80) || text.any isSteering then none
    if text.map lowerLetter ≠ text then none
    some (asciiLabel label)

end Web
end IngestBench
