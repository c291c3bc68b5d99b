import IngestBench.Yaml.Cursor

/-! The texts of scalars: plain, quoted and in blocks. A break inside a plain or quoted scalar is folded: one
    break is a blank, and of more than one the first is dropped. -/

namespace IngestBench
namespace Yaml

/-- How a scalar is written. Only plain ones can stand for numbers, switches and nothing. -/
inductive ScalarStyle
  | plain
  | quoted
  | literal
  | folded
  deriving Repr, DecidableEq

/-- The space between two words of a scalar: the blanks of a line, or the breaks after it. -/
structure Gap where
  blanks : List Char
  /-- Whether a break was met; from then on blanks do not count. -/
  broken : Bool
  first : List Char
  further : List Char

namespace Gap

def none : Gap := ⟨[], false, [], []⟩

def isNone (g : Gap) : Bool := g.blanks.isEmpty && !g.broken

/-- What the space stands for in the value. -/
def text (g : Gap) : List Char :=
  if !g.broken then g.blanks
  else if g.first = ['\n'] then (if g.further.isEmpty then [' '] else g.further)
  else g.first ++ g.further

/-- Reads on to the next word. Below the column `margin` a tab after a break is refused. -/
def readFrom (margin : Int) : Nat → Cursor → Gap → Option (Gap × Cursor)
  | 0, c, g => some (g, c)
  | fuel + 1, c, g =>
    match c.peek 0 with
    | some ch =>
      if isSpace ch then
        if g.broken && ch == '\t' && (c.column : Int) < margin then failure
        else readFrom margin fuel (c.skip 1) (if g.broken then g else { g with blanks := g.blanks ++ [ch] })
      else if isBreak ch then
        let (kept, c) := c.lineBreak
        readFrom margin fuel c
          (if g.broken then { g with further := g.further ++ kept } else ⟨[], true, kept, []⟩)
      else some (g, c)
    | .none => some (g, c)

/-- Reads the space that begins at a place. -/
def read (margin : Int) (c : Cursor) (g : Gap) : Option (Gap × Cursor) :=
  readFrom margin c.rest.length c g

end Gap

/-! ### Plain scalars -/

/-- The marks of flow collections. -/
def isFlowMark (c : Char) : Bool := c == ',' || c == '[' || c == ']' || c == '{' || c == '}'

/-- Reads a plain scalar; `gap` is the space before the place and `found` the text so far in reverse. The
    answer also says whether the last space held a break. -/
def plainFrom (inFlow : Bool) (margin : Int) :
    Nat → Cursor → Gap → List Char → Option (String × Bool × Cursor)
  | 0, _, _, _ => none
  | fuel + 1, c, gap, found =>
    let stop := some (String.ofList found.reverse, gap.broken, c)
    match c.peek 0 with
    | none => stop
    | some ch =>
      if gap.broken && !inFlow && (c.column : Int) < margin then stop
      else if c.atBoundary || (ch == '#' && !gap.isNone) then stop
      else if isSpace ch || isBreak ch then do
        let (gap, c) ← gap.read margin c
        plainFrom inFlow margin fuel c gap found
      else if inFlow && ch == ':' && c.sees 1 (fun next => isFlowMark next || next == '?') then none
      else if (ch == ':' && c.endsAt 1) || (inFlow && isFlowMark ch) then stop
      else plainFrom inFlow margin fuel (c.skip 1) Gap.none (ch :: (gap.text.reverse ++ found))

/-- Reads a plain scalar whose further lines must stand at the column `margin` or beyond. -/
def plain (inFlow : Bool) (margin : Int) (c : Cursor) : Option (String × Bool × Cursor) :=
  plainFrom inFlow margin (2 * c.rest.length + 1) c Gap.none []

/-! ### Quoted scalars -/

/-- The character of a code that is written with hexadecimal digits. -/
def charOfHex (digits : List Char) : Option Char := do
  let values ← digits.mapM Text.hexDigit?
  let code := values.foldl (fun n d => 16 * n + d) 0
  if code.isValidChar then some (Char.ofNat code) else none

/-- The character that an escape stands for, given the text after the backslash, and the length of the
    escape. -/
def escaped (cs : List Char) : Option (Char × Nat) :=
  let coded (n : Nat) (rest : List Char) : Option (Char × Nat) :=
    if rest.length < n then none else (charOfHex (rest.take n)).map (·, n + 1)
  match cs with
  | '0' :: _ => some ('\x00', 1)
  | 'a' :: _ => some ('\x07', 1)
  | 'b' :: _ => some ('\x08', 1)
  | 't' :: _ | '\t' :: _ => some ('\t', 1)
  | 'n' :: _ => some ('\n', 1)
  | 'v' :: _ => some ('\x0b', 1)
  | 'f' :: _ => some ('\x0c', 1)
  | 'r' :: _ => some ('\r', 1)
  | 'e' :: _ => some ('\x1b', 1)
  | ' ' :: _ => some (' ', 1)
  | '"' :: _ => some ('"', 1)
  | '/' :: _ => some ('/', 1)
  | '\\' :: _ => some ('\\', 1)
  | 'N' :: _ => some ('\u0085', 1)
  | '_' :: _ => some ('\u00a0', 1)
  | 'L' :: _ => some ('\u2028', 1)
  | 'P' :: _ => some ('\u2029', 1)
  | 'x' :: rest => coded 2 rest
  | 'u' :: rest => coded 4 rest
  | 'U' :: rest => coded 8 rest
  | _ => none

/-- Reads a quoted scalar from within; in double quotes a backslash begins an escape, in single quotes a
    doubled quote stands for one. -/
def quotedFrom (double : Bool) : Nat → Cursor → List Char → Option (String × Cursor)
  | 0, _, _ => none
  | fuel + 1, c, found =>
    if c.atBoundary then none
    else
      match c.rest with
      | [] => none
      | ch :: rest =>
        if isSpace ch || isBreak ch then do
          let (gap, c) ← Gap.none.read 0 c
          quotedFrom double fuel c (gap.text.reverse ++ found)
        else if !double && ch == '\'' && rest.head? == some '\'' then
          quotedFrom double fuel (c.skip 2) ('\'' :: found)
        else if ch == (if double then '"' else '\'') then some (String.ofList found.reverse, c.skip 1)
        else if double && ch == '\\' then
          if rest.head?.any isBreak then do
            let (gap, c) ← Gap.read 0 (c.skip 1).lineBreak.2 ⟨[], true, [], []⟩
            quotedFrom double fuel c (gap.text.reverse ++ found)
          else do
            let (value, length) ← escaped rest
            quotedFrom double fuel (c.skip (length + 1)) (value :: found)
        else quotedFrom double fuel (c.skip 1) (ch :: found)

/-- Reads a quoted scalar that begins here. -/
def quoted (double : Bool) (c : Cursor) : Option (String × Cursor) :=
  quotedFrom double (c.rest.length + 1) (c.skip 1) []

/-! ### Block scalars -/

/-- What becomes of the breaks at the end of a block. -/
inductive Chomping
  | strip
  | clip
  | keep
  deriving Repr, DecidableEq

/-- Reads empty lines and the spaces before a line, up to the column `limit` if there is one. Gives the
    breaks and the greatest column. -/
def blockMarginFrom (limit : Option Nat) :
    Nat → Cursor → List Char → Nat → Option (List Char × Nat × Cursor)
  | 0, _, _, _ => none
  | fuel + 1, c, breaks, greatest =>
    let width := (c.rest.takeWhile (· == ' ')).length
    let c := c.skip (match limit with
      | some n => Nat.min width (n - c.column)
      | none => width)
    let greatest := Nat.max greatest c.column
    if c.sees 0 (· == '\t') && limit.all (c.column < ·) then none
    else if c.sees 0 isBreak then
      let (kept, c) := c.lineBreak
      blockMarginFrom limit fuel c (breaks ++ kept) greatest
    else some (breaks, greatest, c)

/-- Reads the lines of a block that stand at the column `margin`. `last` is the break of the line before,
    `empty` the empty lines since, and `indented` whether that line began with a space. -/
def blockLinesFrom (folding : Bool) (margin : Nat) :
    Nat → Cursor → List Char → List Char → Bool → List Char → Option (List Char × List Char × List Char × Cursor)
  | 0, _, _, _, _, _ => none
  | fuel + 1, c, last, empty, indented, found =>
    if c.column ≠ margin || c.rest.isEmpty then some (found, last, empty, c)
    else do
      let indentedNow := c.sees 0 isSpace
      let joined :=
        if folding && last = ['\n'] && !indented && !indentedNow then (if empty.isEmpty then [' '] else [])
        else last
      let (line, c) := c.span (fun ch => !isBreak ch)
      let (last, c) := c.lineBreak
      let (breaks, _, c) ← blockMarginFrom (some margin) (c.rest.length + 1) c [] 0
      blockLinesFrom folding margin fuel c last breaks indentedNow (found ++ joined ++ empty ++ line)

/-- The marks after the sign of a block: how it ends, and how deep it stands. -/
def blockMarks (c : Cursor) : Option (Chomping × Option Nat × Cursor) :=
  let chomping? (ch : Option Char) : Option Chomping :=
    match ch with
    | some '+' => some .keep
    | some '-' => some .strip
    | _ => none
  let depth (c : Cursor) : Option (Option Nat × Cursor) :=
    match c.peek 0 with
    | some ch =>
      if ch == '0' then none
      else if ch.isDigit then some (some (ch.toNat - '0'.toNat), c.skip 1)
      else some (none, c)
    | none => some (none, c)
  match chomping? (c.peek 0) with
  | some chomping => (depth (c.skip 1)).map fun (d, c) => (chomping, d, c)
  | none => do
    let (d, c) ← depth c
    match d, chomping? (c.peek 0) with
    | some n, some chomping => return (chomping, some n, c.skip 1)
    | d, _ => return (.clip, d, c)

/-- Reads a block scalar that begins here, inside a collection at the column `outer`. -/
def block (folding : Bool) (outer : Int) (c : Cursor) : Option (String × Cursor) := do
  let (chomping, depth, c) ← blockMarks (c.skip 1)
  let (_, c) := c.span isSpace
  let c := if c.sees 0 (· == '#') then (c.span (fun ch => !isBreak ch)).2 else c
  if !c.atLineEnd then failure
  let (_, c) := c.lineBreak
  let given := depth.map fun n => (max outer 0).toNat + n
  let (breaks, greatest, c) ← blockMarginFrom given (c.rest.length + 1) c [] 0
  let margin := given.getD (max (greatest : Int) (max (outer + 1) 1)).toNat
  let (found, last, empty, c) ← blockLinesFrom folding margin (c.rest.length + 1) c [] breaks false []
  let ending := match chomping with
    | .strip => []
    | .clip => last
    | .keep => last ++ empty
  return (String.ofList (found ++ ending), c)

end Yaml
end IngestBench
