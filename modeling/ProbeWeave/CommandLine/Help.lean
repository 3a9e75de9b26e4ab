import ProbeWeave.CommandLine.Flag
import ProbeWeave.Text.Table
import ProbeWeave.Text.Wrap

/-!
# Help texts

The help of a command shows how it is called and lists its arguments and flags. Explanations stand
in a column of their own; they begin on the line of what they explain if that is short enough.
-/

namespace ProbeWeave.CommandLine

/-- The width that help texts are laid out for. -/
def helpWidth : Nat := 78

/-- The column of the explanations. -/
def helpColumn : Nat := 24

/-- The word that stands for the argument of a flag. -/
def Flag.placeholder (f : Flag) : String :=
  " " ++ f.field.toUpper

/-- How a flag is called under a name. -/
def Flag.form (f : Flag) (name : String) : String :=
  match f.effect with
  | .take _ => name ++ f.placeholder
  | _ => name

/-- How a flag is shown in the usage. -/
def Flag.usage (f : Flag) : String :=
  "[" ++ f.form (f.names.headD "") ++ "]"

/-- Puts words into lines that begin behind some margin, given a line that is begun. -/
def fillLines (width margin : Nat) (line : List String) (used : Nat) :
    List String → List (List String)
  | [] => if line.isEmpty then [] else [line]
  | word :: words =>
    if width < used + 1 + word.length && !line.isEmpty then
      line :: fillLines width margin [word] (margin + 1 + word.length) words
    else fillLines width margin (line ++ [word]) (used + 1 + word.length) words

/-- How a command is called. -/
def Command.usage (c : Command) : String :=
  let lead := "usage: " ++ c.program
  let indent := "\n" ++ Text.Table.blanks (lead.length + 1)
  let lines (words : List String) : List String :=
    (fillLines helpWidth lead.length [] lead.length words).map (" ".intercalate ·)
  lead ++ " " ++
    indent.intercalate (lines (c.flags.map Flag.usage) ++
      lines (c.free.toList.map fun free => "[" ++ free.field ++ "]")) ++ "\n"

/-- What is explained with its explanation. -/
def explained (forms help : String) : String :=
  let lines := Text.wrap (helpWidth - helpColumn) help
  let indent := "\n" ++ Text.Table.blanks helpColumn
  if forms.length + 4 ≤ helpColumn then
    "  " ++ Text.Table.atLeft (helpColumn - 2) forms ++ indent.intercalate lines ++ "\n"
  else "  " ++ forms ++ indent ++ indent.intercalate lines ++ "\n"

/-- The list of the flags. -/
def Command.flagHelp (c : Command) : String :=
  "options:\n" ++
    String.join (c.flags.map fun f => explained (", ".intercalate (f.names.map f.form)) f.help)

/-- The help of a command. -/
def Command.helpText (c : Command) : String :=
  c.usage ++ "\n" ++
    (match c.free with
    | some free => "positional arguments:\n" ++ explained free.field free.help ++ "\n"
    | none => "") ++
    c.flagHelp

end ProbeWeave.CommandLine
