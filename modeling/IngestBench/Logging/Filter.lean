import IngestBench.Decimal.Reader
import IngestBench.Decimal.Shortest
import IngestBench.Logging
import IngestBench.Text.Blank

/-! Filters of log entries: a list of directives, each with a threshold, and optionally with a target, a span and
    names of fields and the values that they must have. More specific directives come first. -/

namespace IngestBench
namespace LogFilter

/-- The least important entries that pass; none pass at `off`. -/
inductive Threshold
  | off
  | upTo (level : LogLevel)
  deriving Repr, DecidableEq

def Threshold.name : Threshold → String
  | .off => "off"
  | .upTo level => level.name

/-- A threshold by number, by name in any case, or empty for errors alone. -/
def Threshold.ofText? (text : String) : Option Threshold :=
  let named : Option Threshold :=
    let word := lowered text
    if word = "" then some (.upTo .error)
    else if word = "off" then some .off
    else (LogLevel.all.find? (·.name == word)).map .upTo
  match Text.readNat Text.maxWord64 text.toList with
  | .ok n => match n with
    | 0 => some .off
    | n + 1 => (LogLevel.all[n]?).map .upTo
  | .error _ => named

/-- A field that an entry must have, and its value, if that matters. -/
structure FieldTest where
  name : String
  value : Option String
  deriving Repr, DecidableEq

namespace FieldTest

/-- A wanted value in its plain spelling: a number without what can be left out, anything else as it is. -/
def plainValue (text : String) : String :=
  match Text.readNat Text.maxWord64 text.toList with
  | .ok n => toString n
  | .error _ => match Text.readInt Text.maxInt64 text.toList with
    | .ok n => Text.int n
    | .error _ => match Decimal.readFloat text.toList with
      | .ok x => Decimal.plain x
      | .error _ => text

/-- A name, or a name and a value after an equals sign; what follows a second one does not count. -/
def ofText (text : String) : FieldTest :=
  match Text.split '=' text with
  | name :: value :: _ => ⟨name, some (plainValue value)⟩
  | _ => ⟨text, none⟩

def write (t : FieldTest) : String :=
  match t.value with
  | none => t.name
  | some value => t.name ++ "=" ++ value

/-- Whether one test comes before another: those of a name alone before those of a value. -/
def before (a b : FieldTest) : Bool :=
  match a.value, b.value with
  | none, some _ => true
  | some _, none => false
  | none, none => a.name < b.name
  | some v, some w => if a.name = b.name then v < w else a.name < b.name

/-- The order of lists of tests: the first place where they differ decides, and a shorter list comes first. -/
def listBefore : List FieldTest → List FieldTest → Bool
  | _, [] => false
  | [], _ :: _ => true
  | a :: as, b :: bs => if a = b then listBefore as bs else a.before b

end FieldTest

/-- A rule for the entries of a target, inside a span, with given fields. -/
structure Directive where
  threshold : Threshold
  target : Option String
  span : Option String
  fields : List FieldTest
  deriving Repr, DecidableEq

namespace Directive

/-- The parts of a directive while it is read, each with the place where it starts. -/
inductive Part
  | start
  | name (start : Nat)
  | span (start : Nat)
  | field (start : Nat)
  | fieldsEnd
  | bracketEnd
  | level (start : Nat)

/-- The characters of `cs` from one place to another. -/
def slice (cs : List Char) (start stop : Nat) : String := String.ofList ((cs.take stop).drop start)

/-- Letters and digits; every letter beyond ASCII counts. -/
def beginsName (c : Char) : Bool :=
  c.isAlphanum || c == '-' || c == ':' || c == '_' || (0x80 ≤ c.toNat && !Text.isBlank c)

/-- A directive that is a threshold or a target alone. -/
def ofWord (d : Directive) (word : String) : Directive :=
  if word.isEmpty then d
  else match Threshold.ofText? word with
    | some t => { d with threshold := t }
    | none => { d with target := some word }

/-- The directive with the threshold of its last part. -/
def withThreshold (d : Directive) (word : String) : Option Directive :=
  if word.isEmpty then some d else (Threshold.ofText? word).map fun t => { d with threshold := t }

/-- Reads on in a directive; `whole` is its text and `i` the place of the next character. -/
def readFrom (whole : List Char) : List Char → Nat → Part → Directive → Option Directive
  | [], _, part, d =>
    match part with
    | .name start => some (d.ofWord (slice whole start whole.length))
    | .level start => d.withThreshold (slice whole start whole.length)
    | .bracketEnd => some d
    | _ => none
  | c :: rest, i, part, d =>
    let next := readFrom whole rest (i + 1)
    let withField (start : Nat) : Option Directive :=
      let field := slice whole start i
      if field.isEmpty then none else some { d with fields := d.fields ++ [.ofText field] }
    match part with
    | .start =>
      if c == '[' then next (.span (i + 1)) d
      else if beginsName c then next (.name i) d
      else none
    | .name start =>
      if c == '=' then next (.level (i + 1)) { d with target := some (slice whole start i) }
      else if c == '[' then next (.span (i + 1)) { d with target := some (slice whole start i) }
      else next part d
    | .span start =>
      if c == ']' then next .bracketEnd { d with span := some (slice whole start i) }
      else if c == '\x7b' then
        let span := slice whole start i
        next (.field (i + 1)) { d with span := if span.isEmpty then none else some span }
      else next part d
    | .field start =>
      if c == '\x7d' then withField start >>= next .fieldsEnd
      else next part d
    | .fieldsEnd => if c == ']' then next .bracketEnd d else none
    | .bracketEnd => if c == '=' then next (.level (i + 1)) d else none
    | .level _ => next part d

/-- The directive of a text. Without a threshold everything passes. Blanks around it are passed over when its
    parts are found, but places count in the text as it is. -/
def read (text : String) : Option Directive :=
  readFrom text.toList (Text.trimChars text.toList) 0 .start ⟨.upTo .trace, none, none, []⟩

/-- Whether the directive can be applied without a look at spans. -/
def isStatic (d : Directive) : Bool := d.span.isNone && d.fields.all (·.value.isNone)

/-- Whether the directive needs a look at spans or fields. -/
def isDynamic (d : Directive) : Bool := d.span.isSome || !d.fields.isEmpty

/-- What a directive is about, without its threshold. -/
def subject (d : Directive) : Option String × Option String × List FieldTest := (d.target, d.span, d.fields)

/-- Whether one text comes before another, or is missing where the other is not. -/
def textBefore : Option String → Option String → Bool
  | none, some _ => true
  | some a, some b => a < b
  | _, none => false

/-- Whether a directive is more specific than another: the longer target, then a span, then more fields, then
    the later text. -/
def moreSpecific (a b : Directive) : Bool :=
  let size (d : Directive) : Nat := (d.target.map (·.utf8ByteSize + 1)).getD 0
  let spans (d : Directive) : Nat := if d.span.isSome then 1 else 0
  if size a ≠ size b then size b < size a
  else if spans a ≠ spans b then spans b < spans a
  else if a.fields.length ≠ b.fields.length then b.fields.length < a.fields.length
  else if a.target ≠ b.target then textBefore b.target a.target
  else if a.span ≠ b.span then textBefore b.span a.span
  else FieldTest.listBefore b.fields a.fields

/-- Puts a directive in its place among more and less specific ones; one about the same is replaced. -/
def insert (d : Directive) : List Directive → List Directive
  | [] => [d]
  | e :: rest =>
    if e.subject = d.subject then d :: rest
    else if d.moreSpecific e then d :: e :: rest
    else e :: insert d rest

/-- The text of a directive. -/
def write (d : Directive) : String :=
  let fields := ",".intercalate (d.fields.map FieldTest.write)
  let brackets :=
    if d.isDynamic then
      "[" ++ d.span.getD "" ++ (if d.fields.isEmpty then "" else "\x7b" ++ fields ++ "\x7d") ++ "]"
    else ""
  let front := d.target.getD "" ++ brackets
  if d.target.isSome || d.isDynamic then front ++ "=" ++ d.threshold.name else d.threshold.name

end Directive

/-- The directives of a text between commas; all must be readable. -/
def read (text : String) : Option (List Directive) :=
  ((Text.split ',' text).filter (!·.isEmpty)).mapM Directive.read

/-- The text of a filter: first the directives that need no look at spans. -/
def write (directives : List Directive) : String :=
  let statics := (directives.filter fun d => !d.isDynamic) ++
    directives.filter fun d => d.isDynamic && d.isStatic
  let static := statics.foldl (fun found d => Directive.insert d found) []
  let dynamic := (directives.filter Directive.isDynamic).foldl (fun found d => Directive.insert d found) []
  ",".intercalate ((static ++ dynamic).map Directive.write)

/-- The filter of a text; one that cannot be read lets everything up to `info` pass. -/
def ofText (text : String) : List Directive :=
  (read text).getD [⟨.upTo .info, none, none, []⟩]

end LogFilter
end IngestBench
