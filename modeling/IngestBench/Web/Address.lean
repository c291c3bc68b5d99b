import IngestBench.Web.Host

/-! Web addresses. Reading brings an address to its normal form: blanks around it go, scheme and host are
    lower case, a default port is dropped, dot segments are resolved, and what a part cannot hold is
    escaped. -/

namespace IngestBench
namespace Web

/-- What follows scheme and authority. -/
inductive Route
  /-- The segments of a hierarchical path, each after a slash. -/
  | segments (parts : List String)
  /-- The text of a path that no other path can be joined to. -/
  | freeText (text : String)
  deriving Repr, DecidableEq

/-- Who is asked: credentials, host and port. -/
structure Authority where
  user : String
  password : String
  host : Host
  port : Option Nat
  deriving Repr, DecidableEq

/-- A web address in normal form. -/
structure Address where
  scheme : String
  authority : Option Authority
  route : Route
  query : Option String
  fragment : Option String
  deriving Repr, DecidableEq

/-! ### Schemes -/

/-- The port that an address of the scheme means when it names none. -/
def defaultPort? : String → Option Nat
  | "http" | "ws" => some 80
  | "https" | "wss" => some 443
  | "ftp" => some 21
  | _ => none

/-- Schemes whose hosts are domains and whose separators may be backslashes. -/
def isSpecial (scheme : String) : Bool := (defaultPort? scheme).isSome || scheme == "file"

/-- The scheme in lower case and the text after its colon. -/
def readScheme (cs : List Char) : Option (String × List Char) :=
  match cs with
  | c :: rest =>
    if c.isAlpha then
      let (name, tail) := rest.span fun c => c.isAlphanum || c == '+' || c == '-' || c == '.'
      match tail with
      | ':' :: after => some (String.ofList ((c :: name).map Char.toLower), after)
      | _ => none
    else none
  | [] => none

/-! ### Paths -/

/-- The segment that stands for the current level. -/
def isSingleDot (segment : String) : Bool :=
  [".", "%2e"].contains (String.ofList (segment.toList.map Char.toLower))

/-- The segment that stands for the level above. -/
def isDoubleDot (segment : String) : Bool :=
  ["..", ".%2e", "%2e.", "%2e%2e"].contains (String.ofList (segment.toList.map Char.toLower))

/-- Resolves dot segments; `done` holds the segments so far in reverse. -/
def resolveDots (done : List String) : List String → List String
  | [] => done.reverse
  | [last] =>
    if isDoubleDot last then (done.drop 1).reverse ++ [""]
    else if isSingleDot last then done.reverse ++ [""]
    else done.reverse ++ [last]
  | segment :: rest =>
    if isDoubleDot segment then resolveDots (done.drop 1) rest
    else if isSingleDot segment then resolveDots done rest
    else resolveDots (segment :: done) rest

/-- The segments of a path. The text is what follows the authority, up to the query. -/
def readSegments (special : Bool) (cs : List Char) : List String :=
  let cs := if special then cs.map (fun c => if c = '\\' then '/' else c) else cs
  let body := match cs with
    | '/' :: rest => rest
    | _ => cs
  resolveDots [] ((Text.splitChars '/' body).map fun s => String.ofList (Part.path.encode s))

/-- The text of a hierarchical path. -/
def Route.write : Route → String
  | .segments parts => String.join (parts.map fun p => "/" ++ p)
  | .freeText text => text

/-! ### Authorities -/

/-- The text before the last `@` and the text after it. -/
def splitLastAt (cs : List Char) : Option (List Char × List Char) :=
  let (after, before) := cs.reverse.span (· != '@')
  match before with
  | _ :: rest => some (rest.reverse, after.reverse)
  | [] => none

/-- The text up to the colon of the port, which does not stand in brackets, and the text after it. -/
def splitPort (inside : Bool) : List Char → List Char × Option (List Char)
  | [] => ([], none)
  | c :: cs =>
    if c = ':' ∧ inside = false then ([], some cs)
    else
      let (host, port) := splitPort (if c = '[' then true else if c = ']' then false else inside) cs
      (c :: host, port)

/-- The port of an address; none if it is the default one or not given. -/
def readPort (scheme : String) (cs : List Char) : Except Fault (Option Nat) :=
  if cs.isEmpty then .ok none
  else if !cs.all Char.isDigit then .error .port
  else
    let n := cs.foldl (fun n c => min 65536 (10 * n + (c.toNat - '0'.toNat))) 0
    if 65535 < n then .error .port
    else .ok (if defaultPort? scheme == some n then none else some n)

/-- The authority of an address. -/
def readAuthority (scheme : String) (cs : List Char) : Except Fault Authority := do
  let special := isSpecial scheme
  let (info, rest) := match splitLastAt cs with
    | some (info, rest) => (some info, rest)
    | none => (none, cs)
  if info.isSome && rest.isEmpty then throw .emptyHost
  let (hostText, portText) := splitPort false rest
  if special && hostText.isEmpty then throw .emptyHost
  let host ← if special then Host.read hostText else Host.readFree hostText
  if host.isEmpty && (portText.isSome || special) then throw .emptyHost
  let port ← match portText with
    | some text => readPort scheme text
    | none => pure none
  let (user, password) := match info with
    | none => ([], [])
    | some info => (Text.splitOnceChars ':' info).getD (info, [])
  return {
    user := String.ofList (Part.userInfo.encode user)
    password := String.ofList (Part.userInfo.encode password)
    host, port }

/-- The written form of credentials, host and port. -/
def Authority.write (a : Authority) : String :=
  let credentials :=
    if a.user.isEmpty && a.password.isEmpty then ""
    else if a.password.isEmpty then a.user ++ "@"
    else a.user ++ ":" ++ a.password ++ "@"
  let port := match a.port with
    | some n => ":" ++ Nat.repr n
    | none => ""
  credentials ++ a.host.write ++ port

/-! ### Addresses -/

/-- A text in three parts: before the query, the query, the fragment. -/
def splitTail (cs : List Char) : List Char × Option (List Char) × Option (List Char) :=
  let (front, fragment) := match Text.splitOnceChars '#' cs with
    | some (front, fragment) => (front, some fragment)
    | none => (cs, none)
  match Text.splitOnceChars '?' front with
  | some (path, query) => (path, some query, fragment)
  | none => (front, none, fragment)

/-- Whether a text is a letter and a colon or bar: the name of a drive. -/
def isDrive (cs : List Char) : Bool :=
  match cs with
  | [c, d] => c.isAlpha && (d == ':' || d == '|')
  | _ => false

/-- Host and path of an address of a file. -/
def readFileParts (cs : List Char) : Except Fault (Authority × Route) := do
  let isSlash (c : Char) : Bool := c = '/' || c = '\\'
  let nowhere : Authority := ⟨"", "", .freeText "", none⟩
  let path (cs : List Char) : Route :=
    match readSegments true cs with
    | first :: rest =>
      if isDrive first.toList then .segments (String.ofList (first.toList.take 1 ++ [':']) :: rest)
      else .segments (first :: rest)
    | [] => .segments [""]
  match cs with
  | a :: b :: rest =>
    if isSlash a && isSlash b then
      let (name, tail) := rest.span (!isSlash ·)
      if isDrive name then return (nowhere, path rest)
      else if name.isEmpty then return (nowhere, path tail)
      else
        let host ← Host.read name
        let host := if host = .domain "localhost" then .freeText "" else host
        return ({ nowhere with host }, path tail)
    else return (nowhere, path cs)
  | _ => return (nowhere, path cs)

/-- The text without control characters and blanks around it, and without tabs and line ends. -/
def tidy (cs : List Char) : List Char :=
  let outer (c : Char) : Bool := c.toNat ≤ 0x20
  (Text.dropEnd outer (Text.dropStart outer cs)).filter fun c => c ≠ '\t' ∧ c ≠ '\n' ∧ c ≠ '\r'

/-- The address that a text names. -/
def Address.read (text : String) : Except Fault Address := do
  let some (scheme, rest) := readScheme (tidy text.toList) | throw .relative
  let special := isSpecial scheme
  let (front, query, fragment) := splitTail rest
  let queryPart : Part := if special then .specialQuery else .query
  let query := query.map fun q => String.ofList (queryPart.encode q)
  let fragment := fragment.map fun f => String.ofList (Part.fragment.encode f)
  if scheme = "file" then
    let (authority, route) ← readFileParts front
    return { scheme, authority := some authority, route, query, fragment }
  else if special then
    let body := front.dropWhile fun c => c = '/' || c = '\\'
    let (authority, path) := body.span fun c => c ≠ '/' && c ≠ '\\'
    let authority ← readAuthority scheme authority
    return { scheme, authority := some authority, route := .segments (readSegments true path), query, fragment }
  else
    match front with
    | '/' :: '/' :: body =>
      let (authority, path) := body.span (· ≠ '/')
      let authority ← readAuthority scheme authority
      let route := if path.isEmpty then .segments [] else .segments (readSegments false path)
      return { scheme, authority := some authority, route, query, fragment }
    | '/' :: _ =>
      return { scheme, authority := none, route := .segments (readSegments false front), query, fragment }
    | _ =>
      return { scheme, authority := none, query, fragment
               route := .freeText (String.ofList (Part.opaqueText.encode front)) }

/-- The written form of an address. -/
def Address.write (a : Address) : String :=
  let authority := match a.authority with
    | some authority => "//" ++ authority.write
    | none => ""
  let route := match a.authority, a.route with
    | none, .segments ("" :: second :: rest) => "/." ++ (Route.segments ("" :: second :: rest)).write
    | _, route => route.write
  let query := match a.query with
    | some q => "?" ++ q
    | none => ""
  let fragment := match a.fragment with
    | some f => "#" ++ f
    | none => ""
  a.scheme ++ ":" ++ authority ++ route ++ query ++ fragment

/-- The address with more pairs at the end of its query. -/
def Address.withPairs (a : Address) (pairs : List (String × String)) : Address :=
  let more := formPairs pairs
  { a with query := match a.query with
      | some "" | none => some more
      | some q => some (q ++ "&" ++ more) }

/-- The address of `path` below `base`: the two texts are joined by one slash and read as one. -/
def joinText (base path : String) : String :=
  String.ofList (Text.dropEnd (· == '/') base.toList) ++ "/" ++
    String.ofList (Text.dropStart (· == '/') path.toList)

end Web
end IngestBench
