import IngestBench.Yaml.Token

/-! Documents as trees. -/

namespace IngestBench
namespace Yaml

/-- A value in a document. -/
inductive Node
  | scalar (text : String) (style : ScalarStyle) (tag : Option String)
  | sequence (tag : Option String) (items : List Node)
  | mapping (tag : Option String) (entries : List (Node × Node))
  /-- A value that is part of itself; it can be passed over but not read. -/
  | cycle
  deriving Repr, Inhabited

namespace Node

/-- The value of an omitted node. -/
def omitted (tag : Option String) : Node := .scalar "" .plain tag

/-- What is known while a document is built from its tokens. -/
structure Progress where
  left : List Token
  /-- The named nodes, the latest first; a node that is not complete has no value yet. -/
  named : List (String × Option Node)
  /-- The short names of the starts of tags. -/
  shorthands : List (String × String)

abbrev Builder := StateT Progress Option

def peek : Builder (Option Token) := do return (← get).left.head?

def advance : Builder Unit := modify fun p => { p with left := p.left.tail }

/-- Whether the next token is one of the given ones. -/
def nextIs (ts : List Token) : Builder Bool := do return (← peek).any ts.contains

def nameNode (name : String) (value : Option Node) : Builder Unit :=
  modify fun p => { p with named := (name, value) :: p.named }

/-- The node of a name; one that is not complete contains the place of the alias. -/
def named (name : String) : Builder Node := do
  let some (_, value) := (← get).named.find? (·.1 == name) | failure
  return value.getD .cycle

/-- The text of a tag. -/
def tagOf (handle rest : String) : Builder String := do
  if handle.isEmpty then return rest
  match (← get).shorthands.find? (·.1 == handle) with
  | some (_, start) => return start ++ rest
  | none => failure

/-- An anchor and a tag, in any order, each at most once. -/
def properties : Builder (Option String × Option String) := do
  match ← peek with
  | some (.anchor name) =>
    advance
    match ← peek with
    | some (.tag handle rest) => advance; return (some name, some (← tagOf handle rest))
    | _ => return (some name, none)
  | some (.tag handle rest) =>
    advance
    match ← peek with
    | some (.anchor name) => advance; return (some name, some (← tagOf handle rest))
    | _ => return (none, some (← tagOf handle rest))
  | _ => return (none, none)

mutual

/-- A node. `inBlock` allows collections that are shown by depth, `unindented` also items without depth of
    their own. -/
def node : Nat → Bool → Bool → Builder Node
  | 0, _, _ => failure
  | fuel + 1, inBlock, unindented => do
    if let some (.alias name) ← peek then
      advance
      return ← named name
    let (anchor, tag) ← properties
    if let some name := anchor then nameNode name none
    let bare := anchor.isNone && tag.isNone
    let result ← match ← peek with
      | some (.scalar text style) => do advance; pure (.scalar text style tag)
      | some .flowSequence => do advance; pure (.sequence tag (← flowItems fuel true))
      | some .flowMapping => do advance; pure (.mapping tag (← flowEntries fuel true))
      | some .item => do
        if unindented then pure (.sequence tag (← items fuel false))
        else if bare then failure
        else pure (omitted tag)
      | some .blockSequence => do
        if inBlock then advance; pure (.sequence tag (← items fuel true))
        else if bare then failure
        else pure (omitted tag)
      | some .blockMapping => do
        if inBlock then advance; pure (.mapping tag (← entries fuel))
        else if bare then failure
        else pure (omitted tag)
      | _ => if bare then failure else pure (omitted tag)
    if let some name := anchor then nameNode name (some result)
    return result

/-- A node, or an omitted one before the given tokens. -/
def nodeOr : Nat → Bool → Bool → List Token → Builder Node
  | 0, _, _, _ => failure
  | fuel + 1, inBlock, unindented, ends => do
    if ← nextIs ends then return omitted none else node fuel inBlock unindented

/-- The items of a sequence that is shown by depth, or by dashes alone. -/
def items : Nat → Bool → Builder (List Node)
  | 0, _ => failure
  | fuel + 1, indented => do
    if ← nextIs [.item] then
      advance
      let ends := if indented then [.item, .blockEnd] else [.item, .key, .value, .blockEnd]
      let first ← nodeOr fuel true false ends
      return first :: (← items fuel indented)
    else if !indented then return []
    else if ← nextIs [.blockEnd] then do advance; return []
    else failure

/-- The entries of a mapping that is shown by depth. -/
def entries : Nat → Builder (List (Node × Node))
  | 0 => failure
  | fuel + 1 => do
    if ← nextIs [.key] then
      advance
      let key ← nodeOr fuel true true [.key, .value, .blockEnd]
      let value ← entryValue fuel true [.key, .value, .blockEnd]
      return (key, value) :: (← entries fuel)
    else if ← nextIs [.value] then
      let value ← entryValue fuel true [.key, .value, .blockEnd]
      return (omitted none, value) :: (← entries fuel)
    else if ← nextIs [.blockEnd] then do advance; return []
    else failure

/-- The value after a colon; without one it is omitted. -/
def entryValue : Nat → Bool → List Token → Builder Node
  | 0, _, _ => failure
  | fuel + 1, inBlock, ends => do
    if ← nextIs [.value] then
      advance
      nodeOr fuel inBlock inBlock ends
    else return omitted none

/-- The items of a sequence in brackets; an entry among them is a mapping of its own. -/
def flowItems : Nat → Bool → Builder (List Node)
  | 0, _ => failure
  | fuel + 1, first => do
    if ← nextIs [.flowSequenceEnd] then advance; return []
    if !first then
      if ← nextIs [.comma] then advance else failure
    if ← nextIs [.key] then
      advance
      let ends := [.value, .comma, .flowSequenceEnd]
      let key ← nodeOr fuel false false ends
      let value ← entryValue fuel false [.comma, .flowSequenceEnd]
      return .mapping none [(key, value)] :: (← flowItems fuel false)
    else if ← nextIs [.flowSequenceEnd] then advance; return []
    else
      let item ← node fuel false false
      return item :: (← flowItems fuel false)

/-- The entries of a mapping in braces. -/
def flowEntries : Nat → Bool → Builder (List (Node × Node))
  | 0, _ => failure
  | fuel + 1, first => do
    if ← nextIs [.flowMappingEnd] then advance; return []
    if !first then
      if ← nextIs [.comma] then advance else failure
    if ← nextIs [.key] then
      advance
      let key ← nodeOr fuel false false [.value, .comma, .flowMappingEnd]
      let value ← entryValue fuel false [.comma, .flowMappingEnd]
      return (key, value) :: (← flowEntries fuel false)
    else if ← nextIs [.flowMappingEnd] then advance; return []
    else
      let key ← node fuel false false
      return (key, omitted none) :: (← flowEntries fuel false)

end

/-- The directives before a document: at most one version, which must be known, and each short name once. -/
def directives : Nat → Bool → Builder Bool
  | 0, _ => failure
  | fuel + 1, versioned => do
    match ← peek with
    | some (.version major minor) =>
      if versioned || major != 1 || (minor != 1 && minor != 2) then failure
      advance
      let _ ← directives fuel true
      return true
    | some (.shorthand handle start) =>
      let p ← get
      if p.shorthands.any (·.1 == handle) then failure
      advance
      modify fun p => { p with shorthands := (handle, start) :: p.shorthands }
      let _ ← directives fuel versioned
      return true
    | _ => return false

/-- The short names that every document knows. -/
def standardShorthands : List (String × String) := [("!", "!"), ("!!", "tag:yaml.org,2002:")]

/-- Adds the standard short names that the document does not name itself. -/
def withStandardShorthands : Builder Unit :=
  modify fun p => { p with
    shorthands := p.shorthands ++ standardShorthands.filter fun s => !p.shorthands.any (·.1 == s.1) }

/-- The one document of a text. A text without a document has an omitted node. -/
def document (fuel : Nat) : Builder Node := do
  if (← peek).isNone then return omitted none
  let directed ← directives fuel false
  withStandardShorthands
  let result ←
    if ← nextIs [.documentStart] then
      advance
      match ← peek with
      | none | some .documentStart | some .documentEnd | some (.version _ _) | some (.shorthand _ _) =>
        pure (omitted none)
      | _ => node fuel true false
    else if directed then failure
    else node fuel true false
  let rest := (← get).left.dropWhile (· == .documentEnd)
  if rest.isEmpty then return result else failure

/-- The tree of a list of tokens. -/
def ofTokens? (ts : List Token) : Option Node :=
  let fuel := 4 * ts.length + 4
  (document fuel |>.run ⟨ts, [], []⟩).map (·.1)

/-- The tree of a text; `none` if the text is not exactly one document. -/
def ofText? (text : String) : Option Node := do ofTokens? (← Token.scan text)

end Node
end Yaml
end IngestBench
