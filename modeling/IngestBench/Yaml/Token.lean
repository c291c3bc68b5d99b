import IngestBench.Yaml.Scalar

/-! The tokens of a document. The depth of lines shows itself as tokens that open and close collections, so that
    all later reading is free of columns. A key is known only when its colon is met: the tokens that announce it
    are put in front of those that spell it. -/

namespace IngestBench
namespace Yaml

inductive Token
  | version (major minor : Nat)
  /-- A short name for the start of tags. -/
  | shorthand (handle start : String)
  | documentStart
  | documentEnd
  | blockSequence
  | blockMapping
  /-- The end of a collection that is shown by depth. -/
  | blockEnd
  | flowSequence
  | flowSequenceEnd
  | flowMapping
  | flowMappingEnd
  /-- The dash of an item. -/
  | item
  | comma
  | key
  | value
  | alias (name : String)
  | anchor (name : String)
  | tag (handle rest : String)
  | scalar (text : String) (style : ScalarStyle)
  deriving Repr, DecidableEq

/-- A place where a key may have begun. -/
structure KeyPlace where
  /-- The count of tokens before it. -/
  position : Nat
  /-- Whether only a key may stand there. -/
  required : Bool
  line : Nat
  column : Nat
  index : Nat

/-- What is known while the tokens of a text are found. -/
structure Scanner where
  cursor : Cursor
  found : Array Token
  /-- The column of the innermost collection shown by depth; before the first one, -1. -/
  indent : Int
  /-- The columns of the collections around it. -/
  outerIndents : List Int
  keyAllowed : Bool
  keyPlace : Option KeyPlace
  /-- The places in the text around the open brackets, one for each. -/
  outerPlaces : List (Option KeyPlace)

namespace Scanner

def ofCursor (c : Cursor) : Scanner := ⟨c, #[], -1, [], true, none, []⟩

/-- Whether brackets are open; depth means nothing between them. -/
def inFlow (s : Scanner) : Bool := !s.outerPlaces.isEmpty

def push (s : Scanner) (t : Token) : Scanner := { s with found := s.found.push t }

def moveTo (s : Scanner) (c : Cursor) : Scanner := { s with cursor := c }

/-- Puts a token in front of those after a position. -/
def insertAt (s : Scanner) (position : Nat) (t : Token) : Scanner :=
  { s with found := (s.found.toList.insertIdx position t).toArray }

/-! ### Spaces, comments and lines -/

/-- Passes over spaces, comments and breaks before a token. A tab may not stand where depth counts; after a
    break, outside of brackets, a key may begin. -/
def toTokenFrom : Nat → Scanner → Scanner
  | 0, s => s
  | fuel + 1, s =>
    match s.cursor.peek 0 with
    | none => s
    | some ch =>
      if ch == ' ' || (ch == '\t' && (s.inFlow || !s.keyAllowed)) then
        toTokenFrom fuel (s.moveTo (s.cursor.skip 1))
      else if ch == '#' then toTokenFrom fuel (s.moveTo (s.cursor.span (fun c => !isBreak c)).2)
      else if isBreak ch then
        toTokenFrom fuel { s with cursor := s.cursor.lineBreak.2, keyAllowed := s.keyAllowed || !s.inFlow }
      else s

def toToken (s : Scanner) : Scanner := toTokenFrom s.cursor.rest.length s

/-! ### Depth -/

/-- Closes the collections that stand deeper than a column. -/
def closeTo (column : Int) : List Int → Scanner → Scanner
  | outer :: rest, s =>
    if column < s.indent then
      closeTo column rest { s.push .blockEnd with indent := outer, outerIndents := rest }
    else s
  | [], s => s

/-- Outside of brackets, closes the collections that stand deeper than a column. -/
def unroll (s : Scanner) (column : Int) : Scanner :=
  if s.inFlow then s else closeTo column s.outerIndents s

/-- Outside of brackets, opens a collection at a column unless it is open; its token is put at a position. -/
def roll (s : Scanner) (column position : Nat) (t : Token) : Scanner :=
  if s.inFlow || (column : Int) ≤ s.indent then s
  else { s.insertAt position t with indent := column, outerIndents := s.indent :: s.outerIndents }

/-- Opens a collection here. -/
def rollHere (s : Scanner) (t : Token) : Scanner := s.roll s.cursor.column s.found.size t

/-! ### Places of keys -/

/-- Forgets where a key may have begun; a place that only a key may take is an error. -/
def dropPlace (s : Scanner) : Option Scanner :=
  if s.keyPlace.any (·.required) then none else some { s with keyPlace := none }

/-- Remembers that a key may begin here. -/
def savePlace (s : Scanner) : Option Scanner :=
  if !s.keyAllowed then some s
  else do
    let s ← s.dropPlace
    let c := s.cursor
    return { s with keyPlace := some {
      position := s.found.size
      required := !s.inFlow && s.indent == c.column
      line := c.line, column := c.column, index := c.index } }

/-- A key stands on one line and has at most 1024 characters. -/
def isStale (c : Cursor) (place : KeyPlace) : Bool :=
  place.line < c.line || place.index + 1024 < c.index

/-- Forgets the places that are too far behind. -/
def dropStale (s : Scanner) : Option Scanner :=
  let places := s.keyPlace :: s.outerPlaces
  if places.any fun p => p.any fun place => place.required && isStale s.cursor place then none
  else
    let keep (p : Option KeyPlace) := p.filter fun place => !isStale s.cursor place
    some { s with keyPlace := keep s.keyPlace, outerPlaces := s.outerPlaces.map keep }

/-! ### Names, tags and directives -/

/-- The name of an anchor or an alias. -/
def name (c : Cursor) : Option (String × Cursor) :=
  let (run, c) := (c.skip 1).span isWord
  let ends := c.endsAt 0 || c.sees 0 fun ch =>
    ['?', ':', ',', ']', '\x7d', '%', '@', '\x60'].contains ch
  if run.isEmpty || !ends then none else some (String.ofList run, c)

/-- The characters of a tag; brackets and commas only where `verbatim`. -/
def isTagChar (verbatim : Bool) (c : Char) : Bool :=
  isWord c || [';', '/', '?', ':', '@', '&', '=', '+', '$', '.', '!', '~', '*', '\'', '(', ')', '%'].contains c ||
    (verbatim && [',', '[', ']'].contains c)

/-- The bytes that a run of percent escapes stands for. -/
def unescapeFrom : List Char → Option (List UInt8)
  | '%' :: a :: b :: rest => do
    let hi ← Text.hexDigit? a
    let lo ← Text.hexDigit? b
    return (16 * hi + lo).toUInt8 :: (← unescapeFrom rest)
  | '%' :: _ => none
  | c :: rest => do return c.toNat.toUInt8 :: (← unescapeFrom rest)
  | [] => some []

/-- The text of a tag without percent escapes. -/
def unescape (cs : List Char) : Option String := do
  String.fromUTF8? ⟨(← unescapeFrom cs).toArray⟩

/-- The handle and the rest of a tag. Between brackets a comma may end it. -/
def tag (inFlow : Bool) (c : Cursor) : Option (String × String × Cursor) := do
  let (handle, rest, c) ←
    if c.sees 1 (· == '<') then do
      let (run, c) := (c.skip 2).span (isTagChar true)
      if run.isEmpty || !c.sees 0 (· == '>') then failure
      pure ("", ← unescape run, c.skip 1)
    else do
      let (word, after) := (c.skip 1).span isWord
      if after.sees 0 (· == '!') then
        let (run, c) := (after.skip 1).span (isTagChar false)
        if run.isEmpty then failure
        pure (String.ofList ('!' :: word ++ ['!']), ← unescape run, c)
      else
        let (run, c) := (c.skip 1).span (isTagChar false)
        if run.isEmpty then pure ("", "!", c) else pure ("!", ← unescape run, c)
  if c.endsAt 0 || (inFlow && c.sees 0 (· == ',')) then return (handle, rest, c) else failure

/-- The rest of a line that holds nothing but spaces and a comment. -/
def blankLine (c : Cursor) : Option Cursor :=
  let (_, c) := c.span isSpace
  let c := if c.sees 0 (· == '#') then (c.span (fun ch => !isBreak ch)).2 else c
  if c.atLineEnd then some c.lineBreak.2 else none

/-- A part of a version. -/
def versionPart (c : Cursor) : Option (Nat × Cursor) :=
  let (run, c) := c.span Char.isDigit
  if run.isEmpty || 9 < run.length then none
  else some (run.foldl (fun n ch => 10 * n + (ch.toNat - '0'.toNat)) 0, c)

/-- A line that says how the document is to be read. -/
def directive (c : Cursor) : Option (Token × Cursor) := do
  let (word, c) := (c.skip 1).span isWord
  if word.isEmpty || !c.endsAt 0 then failure
  let (_, c) := c.span isSpace
  match String.ofList word with
  | "YAML" =>
    let (major, c) ← versionPart c
    if !c.sees 0 (· == '.') then failure
    let (minor, c) ← versionPart (c.skip 1)
    return (.version major minor, ← blankLine c)
  | "TAG" =>
    if !c.sees 0 (· == '!') then failure
    let (word, after) := (c.skip 1).span isWord
    let closed := after.sees 0 (· == '!')
    if !closed && !word.isEmpty then failure
    let c := if closed then after.skip 1 else after
    if !c.sees 0 isSpace then failure
    let (run, c) := (c.span isSpace).2.span (isTagChar true)
    if run.isEmpty || !c.endsAt 0 then failure
    let handle := '!' :: word ++ (if closed then ['!'] else [])
    return (.shorthand (String.ofList handle) (← unescape run), ← blankLine c)
  | _ => failure

/-! ### Tokens -/

/-- A token of one character after which no key may begin at once. -/
def closing (s : Scanner) (t : Token) : Option Scanner := do
  let s ← s.dropPlace
  match s.outerPlaces with
  | [] => return { (s.moveTo (s.cursor.skip 1)).push t with keyAllowed := false }
  | place :: rest =>
    return { (s.moveTo (s.cursor.skip 1)).push t with
      keyAllowed := false, keyPlace := place, outerPlaces := rest }

/-- A bracket that opens a collection. -/
def opening (s : Scanner) (t : Token) : Option Scanner := do
  let s ← s.savePlace
  return { (s.moveTo (s.cursor.skip 1)).push t with
    keyAllowed := true, keyPlace := none, outerPlaces := s.keyPlace :: s.outerPlaces }

/-- A line that starts or ends a document. -/
def boundary (s : Scanner) (t : Token) : Option Scanner := do
  let s ← (s.unroll (-1)).dropPlace
  return { (s.moveTo (s.cursor.skip 3)).push t with keyAllowed := false }

/-- A dash before an item, or a question mark before a key. -/
def indicator (s : Scanner) (collection t : Token) (keyAfter : Bool) : Option Scanner := do
  if !s.inFlow && !s.keyAllowed then failure
  let s ← (s.rollHere collection).dropPlace
  return { (s.moveTo (s.cursor.skip 1)).push t with keyAllowed := keyAfter }

/-- A colon. If a key may have begun before it, the tokens since then are that key. -/
def colon (s : Scanner) : Option Scanner :=
  match s.keyPlace with
  | some place =>
    let s := s.insertAt place.position .key
    let s := s.roll place.column place.position .blockMapping
    some { (s.moveTo (s.cursor.skip 1)).push .value with keyPlace := none, keyAllowed := false }
  | none =>
    if !s.inFlow && !s.keyAllowed then none
    else
      let s := s.rollHere .blockMapping
      some { (s.moveTo (s.cursor.skip 1)).push .value with keyAllowed := !s.inFlow }

/-- A token that may itself be a key. -/
def content (s : Scanner) (t : Token) (c : Cursor) (keyAfter : Bool) : Option Scanner := do
  let s ← s.savePlace
  return { (s.moveTo c).push t with keyAllowed := keyAfter }

/-- The signs with which no plain scalar begins. -/
def isIndicator (c : Char) : Bool :=
  ['-', '?', ':', ',', '[', ']', '\x7b', '\x7d', '#', '&', '*', '!', '|', '>', '\'', '"', '%', '@', '\x60'].contains c

/-- Whether a plain scalar begins here. -/
def startsPlain (s : Scanner) : Bool :=
  let c := s.cursor
  (!c.endsAt 0 && !c.sees 0 isIndicator) ||
    (c.sees 0 (· == '-') && !c.sees 1 isSpace) ||
    (!s.inFlow && c.sees 0 (fun ch => ch == '?' || ch == ':') && !c.endsAt 1)

/-- Finds the next token; `none` for a text that is no document. -/
def next (s : Scanner) : Option Scanner := do
  let s := s.unroll s.cursor.column
  let c := s.cursor
  let some ch := c.peek 0 | failure
  if c.column == 0 && ch == '%' then
    let s ← (s.unroll (-1)).dropPlace
    let (t, c) ← directive c
    return { (s.moveTo c).push t with keyAllowed := false }
  if c.atFence '-' then s.boundary .documentStart
  else if c.atFence '.' then s.boundary .documentEnd
  else if ch == '[' then s.opening .flowSequence
  else if ch == '\x7b' then s.opening .flowMapping
  else if ch == ']' then s.closing .flowSequenceEnd
  else if ch == '\x7d' then s.closing .flowMappingEnd
  else if ch == ',' then
    let s ← s.dropPlace
    return { (s.moveTo (c.skip 1)).push .comma with keyAllowed := true }
  else if ch == '-' && c.endsAt 1 then s.indicator .blockSequence .item true
  else if ch == '?' && (s.inFlow || c.endsAt 1) then s.indicator .blockMapping .key (!s.inFlow)
  else if ch == ':' && (s.inFlow || c.endsAt 1) then s.colon
  else if ch == '*' then
    let (word, after) ← name c
    s.content (.alias word) after false
  else if ch == '&' then
    let (word, after) ← name c
    s.content (.anchor word) after false
  else if ch == '!' then
    let (handle, rest, after) ← tag s.inFlow c
    s.content (.tag handle rest) after false
  else if (ch == '|' || ch == '>') && !s.inFlow then
    let s ← s.dropPlace
    let (text, after) ← block (ch == '>') s.indent c
    return { (s.moveTo after).push (.scalar text (if ch == '>' then .folded else .literal)) with
      keyAllowed := true }
  else if ch == '\'' || ch == '"' then
    let (text, after) ← quoted (ch == '"') c
    s.content (.scalar text .quoted) after false
  else if s.startsPlain then
    let (text, broken, after) ← plain s.inFlow (s.indent + 1) c
    s.content (.scalar text .plain) after broken
  else failure

/-- Finds all tokens up to the end of the text. -/
def scanFrom : Nat → Scanner → Option (List Token)
  | 0, _ => none
  | fuel + 1, s => do
    let s ← s.toToken.dropStale
    if s.cursor.rest.isEmpty then
      let s ← (s.unroll (-1)).dropPlace
      return s.found.toList
    else scanFrom fuel (← s.next)

end Scanner

/-- The tokens of a text. -/
def Token.scan (text : String) : Option (List Token) :=
  let cs := text.toList
  let cs := match cs with
    | '\ufeff' :: rest => rest
    | _ => cs
  if cs.all isAllowed then Scanner.scanFrom (cs.length + 1) (.ofCursor (.ofChars cs)) else none

end Yaml
end IngestBench
