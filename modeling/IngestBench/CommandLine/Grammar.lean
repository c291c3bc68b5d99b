import IngestBench.Text.Split

/-! Arguments of a command, taken from the left. A flag that takes a value is held back until the next flag or
    the end: only then is the value read, so that an unknown flag behind it is reported first. -/

namespace IngestBench
namespace CommandLine

/-- Why arguments are not a command, or stop it. -/
inductive UsageFault
  | unknownArgument (text : String)
  | unknownCommand (text : String)
  /-- A flag that was given before, or that another one excludes. -/
  | conflict (flag other : String)
  | valueMissing (flag : String)
  | badValue (flag value : String)
  /-- A value behind a flag that takes none. -/
  | valueNotTaken (flag : String)
  | flagMissing (flag : String)
  | commandMissing
  /-- Neither a command nor a flag, where a command is needed. -/
  | nothingGiven
  | help
  | version
  /-- A value whose sum does not fit; the reader gives up without an answer. -/
  | overflow
  deriving Repr, DecidableEq

/-- The wording of the fault. -/
def UsageFault.message : UsageFault → String
  | .unknownArgument text => s!"unexpected argument '{text}' found"
  | .unknownCommand text => s!"unrecognized subcommand '{text}'"
  | .conflict flag other =>
    if flag = other then s!"the argument '--{flag}' cannot be used multiple times"
    else s!"the argument '--{flag}' cannot be used with '--{other}'"
  | .valueMissing flag => s!"a value is required for '--{flag}' but none was supplied"
  | .badValue flag value => s!"invalid value '{value}' for '--{flag}'"
  | .valueNotTaken flag => s!"unexpected value for '--{flag}' found; no more were expected"
  | .flagMissing flag => s!"the following required arguments were not provided: --{flag}"
  | .commandMissing | .nothingGiven => "a subcommand is required but one was not provided"
  | .help => "help was asked for"
  | .version => "the version was asked for"
  | .overflow => "overflow"

/-- One word for the kind of fault; none for one after which there is no answer. -/
def UsageFault.kind? : UsageFault → Option String
  | .unknownArgument _ => some "UnknownArgument"
  | .unknownCommand _ => some "InvalidSubcommand"
  | .conflict _ _ => some "ArgumentConflict"
  | .valueMissing _ => some "InvalidValue"
  | .badValue _ _ => some "ValueValidation"
  | .valueNotTaken _ => some "TooManyValues"
  | .flagMissing _ => some "MissingRequiredArgument"
  | .commandMissing => some "MissingSubcommand"
  | .nothingGiven => some "DisplayHelpOnMissingArgumentOrSubcommand"
  | .help => some "DisplayHelp"
  | .version => some "DisplayVersion"
  | .overflow => none

/-- Why a text is not a value of a flag. -/
inductive ValueFault
  | empty
  | bad
  | overflow
  deriving Repr, DecidableEq

def ValueFault.ofFlag (flag text : String) : ValueFault → UsageFault
  | .empty => .valueMissing flag
  | .bad => .badValue flag text
  | .overflow => .overflow

/-- What a flag does; `α` is what flags are collected in. -/
inductive FlagAction (α : Type)
  | switch (set : α → α)
  | value (set : String → α → Except ValueFault α) (repeatable : Bool)
  /-- Ends the reading of arguments. -/
  | stop (fault : UsageFault)

structure Flag (α : Type) where
  name : String
  letter : Option Char
  action : FlagAction α

namespace Flag

variable {α β γ : Type}

def switch (name : String) (set : α → α) : Flag α := ⟨name, none, .switch set⟩

/-- A flag with a value that `read` reads. -/
def value (name : String) (read : String → Except ValueFault γ) (set : γ → α → α) : Flag α :=
  ⟨name, none, .value (fun text x => (read text).map fun v => set v x) false⟩

/-- A flag whose values add up if it is given again. -/
def repeatable (name : String) (read : String → Except ValueFault γ) (set : γ → α → α) : Flag α :=
  ⟨name, none, .value (fun text x => (read text).map fun v => set v x) true⟩

def help : Flag α := ⟨"help", some 'h', .stop .help⟩

def version : Flag α := ⟨"version", some 'V', .stop .version⟩

/-- The flag where its `β` is one part of an `α`. -/
def inside (get : α → β) (put : β → α → α) (f : Flag β) : Flag α :=
  ⟨f.name, f.letter, match f.action with
    | .switch set => .switch fun x => put (set (get x)) x
    | .value set repeatable => .value (fun text x => (set text (get x)).map fun y => put y x) repeatable
    | .stop fault => .stop fault⟩

end Flag

/-- A flag that waits for its value, or for the value to be read. -/
structure Pending (α : Type) where
  flag : String
  set : String → α → Except ValueFault α
  repeatable : Bool
  text : Option String

/-- What has been collected from arguments. -/
structure Collected (α : Type) where
  value : α
  /-- The flags that were given. -/
  seen : List String
  pending : Option (Pending α)

namespace Collected

variable {α : Type}

def start (value : α) : Collected α := ⟨value, [], none⟩

/-- Notes a flag; most may be given only once. -/
def note (s : Collected α) (flag : String) (repeatable : Bool) : Except UsageFault (Collected α) :=
  if !repeatable && s.seen.contains flag then .error (.conflict flag flag)
  else .ok { s with seen := flag :: s.seen }

/-- Reads the value of a flag. -/
def supply (s : Collected α) (flag : String) (set : String → α → Except ValueFault α) (repeatable : Bool)
    (text : String) : Except UsageFault (Collected α) := do
  let s ← s.note flag repeatable
  return { s with value := ← (set text s.value).mapError (ValueFault.ofFlag flag text) }

/-- Deals with the flag that was held back. -/
def settle (s : Collected α) : Except UsageFault (Collected α) :=
  match s.pending with
  | none => .ok s
  | some p =>
    match p.text with
    | none => .error (.valueMissing p.flag)
    | some text => { s with pending := none }.supply p.flag p.set p.repeatable text

/-- The flag that waits for its value, if there is one. -/
def waiting? (s : Collected α) : Option (Pending α) := s.pending.filter (·.text.isNone)

/-- Takes a flag, with the value that is attached to it. -/
def take (s : Collected α) (flag : Flag α) (attached : Option String) : Except UsageFault (Collected α) :=
  match flag.action, attached with
  | .value set repeatable, some text => do (← s.settle).supply flag.name set repeatable text
  | .value set repeatable, none => do
    return { ← s.settle with pending := some ⟨flag.name, set, repeatable, none⟩ }
  | _, some _ => .error (.valueNotTaken flag.name)
  | .switch set, none => do
    let s ← (← s.settle).note flag.name false
    return { s with value := set s.value }
  | .stop fault, none => do
    let _ ← s.settle
    throw fault

end Collected

/-- What an argument looks like. -/
inductive Shape
  /-- Two hyphens, after which nothing is a flag. -/
  | separator
  | long (name : String) (attached : Option String)
  | short (letters : List Char)
  | plain

/-- The shape of an argument; a lone hyphen is a plain text. -/
def Shape.of (text : String) : Shape :=
  match text.toList with
  | ['-', '-'] => .separator
  | '-' :: '-' :: rest =>
    match Text.splitOnceChars '=' rest with
    | some (name, attached) => .long (String.ofList name) (some (String.ofList attached))
    | none => .long (String.ofList rest) none
  | '-' :: c :: rest => .short (c :: rest)
  | _ => .plain

/-- What a command understands: its flags and the names of the commands that belong to it. -/
structure Level (α : Type) where
  flags : List (Flag α)
  commands : List String

namespace Level

variable {α : Type}

/-- The fault of a plain argument that has no place. -/
def misplaced (level : Level α) (text : String) : UsageFault :=
  if level.commands.isEmpty then .unknownArgument text else .unknownCommand text

/-- The fault of an argument behind the separator; a command is not taken there. -/
def separated (level : Level α) (text : String) : UsageFault :=
  if level.commands.contains text then .unknownArgument text else level.misplaced text

/-- Takes flags of one letter each. -/
def takeLetters (level : Level α) : List Char → Collected α → Except UsageFault (Collected α)
  | [], s => .ok s
  | c :: letters, s =>
    match level.flags.find? (·.letter == some c) with
    | some flag => do level.takeLetters letters (← s.take flag none)
    | none => .error (.unknownArgument ("-" ++ String.singleton c))

/-- Reads arguments up to the name of a command that belongs to this one, or to the end. -/
def read (level : Level α) :
    List String → Collected α → Except UsageFault (Collected α × Option (String × List String))
  | [], s => .ok (s, none)
  | text :: rest, s =>
    if s.waiting?.isNone && level.commands.contains text then .ok (s, some (text, rest))
    else match Shape.of text with
      | .separator =>
        match rest with
        | [] => .ok (s, none)
        | next :: _ => .error (level.separated next)
      | .long name attached =>
        match level.flags.find? (·.name == name) with
        | some flag => do level.read rest (← s.take flag attached)
        | none => .error (.unknownArgument ("--" ++ name))
      | .short letters => do level.read rest (← level.takeLetters letters s)
      | .plain =>
        match s.waiting? with
        | some p => level.read rest { s with pending := some { p with text := some text } }
        | none => .error (level.misplaced text)

end Level
end CommandLine
end IngestBench
