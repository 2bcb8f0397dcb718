import CodeAtlas.Text.Split

/-!
# Switches of a command line

An argument that begins with a dash is a switch: two dashes and a long name, or one dash and short
names that may be joined.  The value of a switch follows an equals sign or is the next argument; a
value of its own may also follow a short name at once.  After the argument `--` there are no more
switches.  Arguments are read from left to right, and the first one that asks for help or makes no
sense ends the reading.
-/

namespace CodeAtlas.Command

/-- What a switch takes. -/
inductive Arity
  | flag
  | once (accepts : String → Bool)
  | repeated

/-- A switch by its long name, and its short name if it has one. -/
structure Switch where
  long : String
  short : Option Char
  arity : Arity

/-- Why the reading of arguments ends early. -/
inductive Stop
  | help
  | version
  | misuse
deriving DecidableEq, Repr

/-- What has been given: the switches with their values, and the other arguments. -/
structure Given where
  switches : List (String × String)
  positional : List String
deriving DecidableEq, Repr

namespace Given

def empty : Given := ⟨[], []⟩

/-- Whether a switch is given. -/
def has (given : Given) (long : String) : Bool := given.switches.any (·.1 == long)

/-- The value of a switch. -/
def value? (given : Given) (long : String) : Option String := given.switches.lookup long

/-- All values of a switch in their order. -/
def values (given : Given) (long : String) : List String :=
  (given.switches.filter (·.1 == long)).map (·.2)

def addSwitch (given : Given) (long value : String) : Given :=
  { given with switches := given.switches ++ [(long, value)] }

def addPositional (given : Given) (argument : String) : Given :=
  { given with positional := given.positional ++ [argument] }

end Given

/-- Arguments that are being read. -/
structure Reading where
  switches : List Switch
  /-- How many other arguments there may be. -/
  most : Nat
  /-- Whether the version can be asked for. -/
  versioned : Bool
  given : Given
  /-- The switch that waits for its value. -/
  pending : Option Switch
  /-- Whether there are no more switches. -/
  ended : Bool

namespace Reading

/-- The reading of a command's arguments before the first one. -/
def start (switches : List Switch) (most : Nat) (versioned : Bool) : Reading :=
  ⟨switches, most, versioned, .empty, none, false⟩

/-- A switch with its value, which has to be acceptable and, of most switches, the only one. -/
def accept (reading : Reading) (switch : Switch) (value : String) : Except Stop Reading :=
  let taken : Except Stop Reading :=
    .ok { reading with given := reading.given.addSwitch switch.long value, pending := none }
  match switch.arity with
  | .flag => if reading.given.has switch.long then .error .misuse else taken
  | .once accepts =>
      if reading.given.has switch.long || !accepts value then .error .misuse else taken
  | .repeated => taken

/-- A switch with the value written beside its name, if there is one. -/
def enter (reading : Reading) (switch : Switch) (beside : Option String) :
    Except Stop Reading :=
  match switch.arity, beside with
  | .flag, none => reading.accept switch ""
  | .flag, some _ => .error .misuse
  | _, some value => reading.accept switch value
  | _, none => .ok { reading with pending := some switch }

/-- What a name outside of the switches asks for. -/
def stopOf (reading : Reading) (isHelp isVersion : Bool) : Stop :=
  if isHelp then .help else if isVersion && reading.versioned then .version else .misuse

/-- A switch by its long name, with what follows the two dashes. -/
def enterLong (reading : Reading) (text : List Char) : Except Stop Reading :=
  let (name, beside) := match Text.splitOnce? '=' text with
    | some (name, value) => (String.ofList name, some (String.ofList value))
    | none => (String.ofList text, none)
  match reading.switches.find? (·.long == name) with
  | some switch => reading.enter switch beside
  | none =>
      .error (if beside.isSome then .misuse
        else reading.stopOf (name == "help") (name == "version"))

/-- The value that follows a short name at once; an equals sign before it is dropped. -/
def besideShort? : List Char → Option String
  | [] => none
  | '=' :: value => some (String.ofList value)
  | value => some (String.ofList value)

/-- Switches by their short names, with what follows the dash. -/
def enterShorts (reading : Reading) : List Char → Except Stop Reading
  | [] => .ok reading
  | name :: rest =>
      match reading.switches.find? (·.short == some name) with
      | none => .error (reading.stopOf (name == 'h') (name == 'V'))
      | some switch =>
          match switch.arity with
          | .flag => do enterShorts (← reading.enter switch none) rest
          | _ => reading.enter switch (besideShort? rest)

/-- Whether an argument is a switch. -/
def isSwitch (argument : String) : Bool := argument.startsWith "-" && argument != "-"

/-- An argument that is no switch. -/
def enterPositional (reading : Reading) (argument : String) : Except Stop Reading :=
  if reading.given.positional.length < reading.most then
    .ok { reading with given := reading.given.addPositional argument }
  else .error .misuse

/-- Read one argument. -/
def read (reading : Reading) (argument : String) : Except Stop Reading :=
  match reading.pending with
  | some switch => if isSwitch argument then .error .misuse else reading.accept switch argument
  | none =>
      if reading.ended || !isSwitch argument then reading.enterPositional argument
      else match argument.toList with
        | ['-', '-'] => .ok { reading with ended := true }
        | '-' :: '-' :: text => reading.enterLong text
        | _ :: names => reading.enterShorts names
        | [] => .error .misuse

/-- What has been given; no switch may be left without its value. -/
def finish (reading : Reading) : Except Stop Given :=
  if reading.pending.isSome then .error .misuse else .ok reading.given

/-- Read arguments up to the end. -/
def readAll (reading : Reading) (arguments : List String) : Except Stop Given := do
  (← arguments.foldlM read reading).finish

/-- Read arguments up to the first that is no switch; gives it and those after it. -/
def readBefore (reading : Reading) : List String → Except Stop (Given × List String)
  | [] => return (← reading.finish, [])
  | argument :: rest =>
      if reading.pending.isNone && !reading.ended && !isSwitch argument then
        .ok (reading.given, argument :: rest)
      else do readBefore (← reading.read argument) rest

end Reading

end CodeAtlas.Command
