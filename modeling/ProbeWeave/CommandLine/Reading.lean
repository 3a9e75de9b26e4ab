import ProbeWeave.CommandLine.Word

/-!
# Reading a command line

The words of a command line are gone through from left to right. A flag with an argument takes the
next word, which has to be one. The free argument is the first word that no flag takes; what is left
over is collected in order. Asking for help ends the reading.
-/

namespace ProbeWeave.CommandLine

/-- Why reading ended early. -/
inductive Halt where
  | help
  | misuse (misuse : Misuse)
  deriving DecidableEq, Repr

/-- What was read so far. -/
structure Progress where
  fields : Record
  leftOver : List String
  /-- The free argument, while it is not given. -/
  free : Option FreeArgument

namespace Progress

/-- Sets a field. -/
def set (p : Progress) (field : String) (value : Value) : Progress :=
  { p with fields := p.fields.put field value }

/-- Does what a flag without an argument does. -/
def raise (p : Progress) (f : Flag) : Except Halt Progress :=
  match f.effect with
  | .help => .error .help
  | .set value => .ok (p.set f.field value)
  | .take _ => .ok p

/-- Gives a flag its argument. A bare separator that is attached to a flag counts as no argument. -/
def give (p : Progress) (f : Flag) (kind : ArgumentKind) (s : String) : Except Halt Progress :=
  if s == "--" then .ok (p.set f.field (.list []))
  else
    match kind.read? s with
    | some value => .ok (p.set f.field value)
    | none => .error (.misuse (.notWhole f.title s))

/-- Leaves a word over. -/
def leave (p : Progress) (s : String) : Progress :=
  { p with leftOver := p.leftOver ++ [s] }

/-- Takes a word as the free argument. -/
def takeFree (p : Progress) (free : FreeArgument) (s : String) : Except Halt Progress :=
  match free.kind.read? s with
  | some value => .ok { p.set free.field value with free := none }
  | none => .error (.misuse (.notWhole free.field s))

end Progress

/--
The flags in a word of short flags: those without an argument, and the last one with the text that
is attached to it.
-/
def cluster (c : Command) (f : Flag) (name : String) :
    List Char → Except Misuse (List Flag × Flag × Option String)
  | [] =>
    match f.effect with
    | .take _ => .ok ([], f, some "")
    | _ => .error (.unwanted f.title "")
  | letter :: rest =>
    match f.effect with
    | .take _ => .ok ([], f, some (String.ofList (letter :: rest)))
    | _ =>
      let next := "-" ++ String.singleton letter
      match name.startsWith "--", c.flag? next with
      | false, some g =>
        if rest.isEmpty then .ok ([f], g, none)
        else do
          let (flags, last) ← cluster c g next rest
          return (f :: flags, last)
      | _, _ => .error (.unwanted f.title (String.ofList (letter :: rest)))

/-- The flags that a word raises: those without an argument, and the last one. -/
def flagsOf (c : Command) (f : Flag) (name : String) :
    Option String → Except Misuse (List Flag × Flag × Option String)
  | none => .ok ([], f, none)
  | some attached => cluster c f name attached.toList

/-- Goes through the words of a command line. -/
def read (c : Command) (p : Progress) : List Word → Except Halt Progress
  | [] => .ok p
  | .unknownFlag s :: rest => read c (p.leave s) rest
  | .argument s :: .separator :: rest =>
    match p.free with
    | none => read c ((p.leave s).leave "--") rest
    | some free => do read c (← p.takeFree free s) rest
  | .argument s :: rest =>
    match p.free with
    | none => read c (p.leave s) rest
    | some free => do read c (← p.takeFree free s) rest
  | .separator :: rest =>
    match p.free, rest with
    | none, rest => read c (p.leave "--") rest
    | some _, [] => .ok p
    | some _, rest => read c p rest
  | .flag f name attached :: .argument s :: rest => do
    let (flags, last, attached) ← (flagsOf c f name attached).mapError .misuse
    let p ← flags.foldlM Progress.raise p
    match last.effect, attached with
    | .take kind, some attached => do read c (← p.give last kind attached) (.argument s :: rest)
    | .take kind, none => do read c (← p.give last kind s) rest
    | _, _ => do read c (← p.raise last) (.argument s :: rest)
  | .flag f name attached :: rest => do
    let (flags, last, attached) ← (flagsOf c f name attached).mapError .misuse
    match last.effect, attached with
    | .take kind, some attached => do
      let p ← flags.foldlM Progress.raise p
      read c (← p.give last kind attached) rest
    | .take _, none => .error (.misuse (.noArgument last.title))
    | _, _ => do
      let p ← flags.foldlM Progress.raise p
      read c (← p.raise last) rest

/-- Reads a command line: its fields and the words left over. -/
def Command.parse (c : Command) (args : List String) : Except Halt (Record × List String) := do
  let words ← (c.words args).mapError .misuse
  let p ← read c ⟨c.initial, [], c.free⟩ words
  return (p.fields, p.leftOver)

/-- Reads a command line that may leave nothing over. -/
def Command.parseAll (c : Command) (args : List String) : Except Halt Record := do
  match ← c.parse args with
  | (fields, []) => return fields
  | (_, words) => throw (.misuse (.leftOver words))

end ProbeWeave.CommandLine
