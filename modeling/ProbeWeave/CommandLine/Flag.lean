import ProbeWeave.Number.Whole
import ProbeWeave.Profile.Record

/-!
# Flags of a command

A command takes flags and at most one free argument. Each flag sets a field of a record: to a fixed
value, or to the argument that follows it. All fields are there from the start, with the values that
hold when nothing is said.
-/

namespace ProbeWeave.CommandLine

/-- What an argument is read as. -/
inductive ArgumentKind where
  | text
  | path
  | whole
  deriving DecidableEq, Inhabited, Repr

/-- Reads an argument; `none` if it is not of its kind. -/
def ArgumentKind.read? (kind : ArgumentKind) (s : String) : Option Value :=
  match kind with
  | text => some (.text s)
  | path => some (.ofPath (some (.ofText s)))
  | whole => (Number.readWhole s).toOption.map .int

/-- What a flag does. -/
inductive Effect where
  | help
  | set (value : Value)
  | take (kind : ArgumentKind)
  deriving Inhabited, Repr

/-- A flag. -/
structure Flag where
  /-- All names, dashes included. -/
  names : List String
  field : String
  effect : Effect
  initial : Value
  help : String
  deriving Inhabited, Repr

namespace Flag

/-- The name of a flag in messages. -/
def title (f : Flag) : String :=
  "/".intercalate f.names

/-- A flag that says yes. -/
def yes (names : List String) (field help : String) : Flag :=
  ⟨names, field, .set (.bool true), .bool false, help⟩

/-- A flag that settles a setting of a profile. -/
def settle (names : List String) (field : String) (value : Bool) (help : String) : Flag :=
  ⟨names, field, .set (.bool value), .null, help⟩

/-- A flag with an argument. -/
def taking (kind : ArgumentKind) (names : List String) (field help : String) : Flag :=
  ⟨names, field, .take kind, .null, help⟩

/-- The flag that asks for help. -/
def asksHelp : Flag :=
  ⟨["-h", "--help"], "help", .help, .null, "show this help message and exit"⟩

end Flag

/-- The free argument of a command. -/
structure FreeArgument where
  field : String
  kind : ArgumentKind
  help : String
  deriving Inhabited, Repr

/-- A command. -/
structure Command where
  /-- The name that usage and messages begin with. -/
  program : String
  flags : List Flag
  free : Option FreeArgument
  deriving Inhabited, Repr

namespace Command

/-- All names of flags, each with its flag, in order. -/
def namedFlags (c : Command) : List (String × Flag) :=
  c.flags.flatMap fun f => f.names.map (·, f)

/-- The flag of a name. -/
def flag? (c : Command) (name : String) : Option Flag :=
  c.namedFlags.lookup name

/-- The fields before anything is said. -/
def initial (c : Command) : Record :=
  let flags := c.flags.filterMap fun f =>
    match f.effect with
    | .help => none
    | _ => some (f.field, f.initial)
  .ofList (flags ++ c.free.toList.map fun free => (free.field, .null))

end Command

end ProbeWeave.CommandLine
