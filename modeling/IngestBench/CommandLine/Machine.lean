import IngestBench.CommandLine.Host

/-! A machine that is held in memory: files, what is typed into it, and what it prints. No one answers on its
    network. -/

namespace IngestBench
namespace CommandLine

/-- The way from the working directory to a file or a directory, name by name. An absolute path begins with a
    name of its own. -/
abbrev Route := List String

def Route.ofPath (path : String) : Route :=
  let names := (Text.split '/' path).filter fun name => name ≠ "" && name ≠ "."
  if path.toList.head? = some '/' then "/" :: names else names

/-- Whether a path can only name a directory. -/
def namesDirectory (path : String) : Bool := path.toList.getLast? == some '/'

/-- The directory that a route leads into, and those above it; the working directory is left out. -/
def Route.above (route : Route) : List Route :=
  (List.range (route.length - 1)).map fun n => route.take (n + 1)

structure Machine where
  files : List (Route × String)
  /-- Directories that were made; those that hold files are there without it. -/
  directories : List Route
  input : String
  printed : String
  deriving Repr, DecidableEq

namespace Machine

/-- A machine with some files, given by their paths. -/
def ofFiles (files : List (String × String)) (input : String) : Machine where
  files := files.map fun (path, text) => (.ofPath path, text)
  directories := []
  input
  printed := ""

def file? (x : Machine) (route : Route) : Option String := (x.files.find? (·.1 == route)).map (·.2)

/-- Whether a route leads to a directory. -/
def isDirectory (x : Machine) (route : Route) : Bool :=
  route.isEmpty || x.directories.contains route || x.files.any fun (file, _) => file.above.contains route

/-- Whether a file stands where a route needs a directory. -/
def isBlocked (x : Machine) (route : Route) : Bool := route.above.any fun r => (x.file? r).isSome

/-- Why there is no file at the end of a route. -/
def absence (x : Machine) (route : Route) : FileFault :=
  if x.isBlocked route then .notDirectory else .missing

def read (x : Machine) (path : String) : Except FileFault String :=
  let route := Route.ofPath path
  match x.file? route with
  | some text => if namesDirectory path then .error .notDirectory else .ok text
  | none => .error (if x.isDirectory route then .directory else x.absence route)

def contains (x : Machine) (path : String) : Bool :=
  let route := Route.ofPath path
  ((x.file? route).isSome && !namesDirectory path) || x.isDirectory route

/-- The machine with a text in a file. -/
def put (x : Machine) (route : Route) (text : String) : Machine :=
  { x with files := (route, text) :: x.files.filter (·.1 ≠ route) }

def write (x : Machine) (path text : String) : Except FileFault Unit × Machine :=
  let route := Route.ofPath path
  if x.isDirectory route then (.error .directory, x)
  else if x.isDirectory route.dropLast then
    if namesDirectory path then (.error .directory, x) else (.ok (), x.put route text)
  else (.error (x.absence route), x)

def makeDirectories (x : Machine) (path : String) : Except FileFault Unit × Machine :=
  let route := Route.ofPath path
  if (x.file? route).isSome then (.error .taken, x)
  else if x.isBlocked route then (.error .notDirectory, x)
  else (.ok (), { x with directories := route :: route.above ++ x.directories })

/-- What a machine offers to commands. -/
def host (processors : Nat) (environment : Config.Environment) : Host (StateM Machine) Unit where
  processors
  environment
  network := Web.noNetwork
  networkState := ()
  text path := fun x => (x.read path, x)
  lines location := fun x => (if location == "-" then .ok (.ofText x.input) else (x.read location).map .ofText, x)
  contains path := fun x => (x.contains path, x)
  write path text := fun x => x.write path text
  makeDirectories path := fun x => x.makeDirectories path
  print text := fun x => ((), { x with printed := x.printed ++ text })

end Machine
end CommandLine
end IngestBench
