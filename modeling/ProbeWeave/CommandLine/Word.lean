import ProbeWeave.CommandLine.Flag

/-!
# Words of a command line

Each word is told to be a flag, an argument or something that looks like a flag but is none. A flag
may be given by the front of a long name, if no other long name begins so; a short one may have its
argument, or further short flags, attached. Behind a bare `--` all words are arguments.
-/

namespace ProbeWeave.CommandLine

/-- A word of a command line. -/
inductive Word where
  /-- A flag under one of its names, with the text attached to it. -/
  | flag (flag : Flag) (name : String) (attached : Option String)
  | unknownFlag (s : String)
  | argument (s : String)
  | separator
  deriving Inhabited, Repr

/-- Why a command line is not understood. -/
inductive Misuse where
  | ambiguous (word : String) (names : List String)
  | noArgument (flag : String)
  | unwanted (flag : String) (attached : String)
  | notWhole (flag : String) (s : String)
  | leftOver (words : List String)
  deriving DecidableEq, Repr

/-- What a misuse is reported as. -/
def Misuse.message : Misuse → String
  | ambiguous word names =>
    "ambiguous option: " ++ word ++ " could match " ++ ", ".intercalate names
  | noArgument flag => "argument " ++ flag ++ ": expected one argument"
  | unwanted flag attached =>
    "argument " ++ flag ++ ": ignored explicit argument " ++ Text.quoted attached
  | notWhole flag s => "argument " ++ flag ++ ": invalid int value: " ++ Text.quoted s
  | leftOver words => "unrecognized arguments: " ++ " ".intercalate words

/-- A text before and behind its first equals sign. -/
def splitAtEquals? (s : String) : Option (String × String) :=
  let cs := s.toList
  match cs.dropWhile (· != '=') with
  | _ :: rest => some (String.ofList (cs.takeWhile (· != '=')), String.ofList rest)
  | [] => none

/-- Whether a text is a negative number, with or without a fraction. -/
def isNegativeNumber (s : String) : Bool :=
  match s.toList with
  | '-' :: cs =>
    let cs := if cs.getLast? == some '\n' then cs.dropLast else cs
    match cs.dropWhile Text.isDigit with
    | [] => !cs.isEmpty
    | '.' :: fraction => !fraction.isEmpty && fraction.all Text.isDigit
    | _ => false
  | _ => false

namespace Command

/-- The flags that a word may be short for, under the names that it stands for. -/
def candidates (c : Command) (s : String) : List Word :=
  if s.startsWith "--" then
    let (front, attached) :=
      match splitAtEquals? s with
      | some (front, attached) => (front, some attached)
      | none => (s, none)
    c.namedFlags.filterMap fun (name, f) =>
      if name.startsWith front then some (.flag f name attached) else none
  else
    let short := String.ofList (s.toList.take 2)
    c.namedFlags.filterMap fun (name, f) =>
      if name == short then some (.flag f name (some (String.ofList (s.toList.drop 2))))
      else if name.startsWith s then some (.flag f name none)
      else none

/-- The name that a word stands for. -/
def nameOf : Word → String
  | .flag _ name _ => name
  | _ => ""

/-- Tells what a word is that begins with a dash and is no flag as it stands. -/
def wordOfDash (c : Command) (s : String) : Except Misuse Word :=
  match c.candidates s with
  | [word] => .ok word
  | [] => .ok (if isNegativeNumber s || s.contains ' ' then .argument s else .unknownFlag s)
  | words => .error (.ambiguous s (words.map nameOf))

/-- Tells what a word is. -/
def word (c : Command) (s : String) : Except Misuse Word :=
  if !s.startsWith "-" then .ok (.argument s)
  else
    match c.flag? s with
    | some f => .ok (.flag f s none)
    | none =>
      if s == "-" then .ok (.argument s)
      else
        match splitAtEquals? s with
        | some (front, attached) =>
          match c.flag? front with
          | some f => .ok (.flag f front (some attached))
          | none => c.wordOfDash s
        | none => c.wordOfDash s

/-- Tells what the words of a command line are. -/
def words (c : Command) : List String → Except Misuse (List Word)
  | [] => .ok []
  | s :: rest =>
    if s == "--" then .ok (.separator :: rest.map .argument)
    else do
      let word ← c.word s
      return word :: (← c.words rest)

end Command

end ProbeWeave.CommandLine
