import ProbeWeave.CommandLine.Help
import ProbeWeave.CommandLine.Reading

/-!
# Modes

A command line names any number of modes, each followed by its own flags, and may begin with flags
that all modes share. What a mode does not settle itself is taken from the front.
-/

namespace ProbeWeave.CommandLine

/-- What the program can be asked to do. -/
inductive Mode where
  | profile
  | analyse
  | inject
  | report
  deriving DecidableEq, Inhabited, Repr

namespace Mode

/-- All modes in the order in which they are listed. -/
def all : List Mode :=
  [profile, analyse, inject, report]

/-- How a mode is named. -/
def text : Mode → String
  | profile => "profile"
  | analyse => "analyse"
  | inject => "inject"
  | report => "report"

/-- The mode of a name. -/
def ofText? (s : String) : Option Mode :=
  all.find? fun mode => mode.text == s

/-- What a mode is for. -/
def summary : Mode → String
  | profile => "Profile mode for configuring timetrack-cli settings and profiles"
  | analyse => "Analyse mode for showing the call graph of the entry routine"
  | inject => "Inject mode for instrumenting a project with timing probes"
  | report => "Report mode for reading back the report of an instrumented run"

end Mode

/-- The words before the first mode, and each mode with the words behind it. -/
def splitSections : List String → List String × List (Mode × List String)
  | [] => ([], [])
  | word :: rest =>
    let (front, sections) := splitSections rest
    match Mode.ofText? word with
    | some mode => ([], (mode, front) :: sections)
    | none => (word :: front, sections)

/-- The name of the program. -/
def programName : String := "timetrack-cli"

/-- The flags that all modes share; the help shows the project of the current profile. -/
def sharedFlags (current : Value) : List Flag :=
  [.asksHelp,
    .yes ["-v", "--verbose"] "verbose" "Log every modification as it is made.",
    .taking .path ["--project-dir"] "project_dir"
      ("Project to instrument (overrides profile: " ++ current.shown ++ ").")]

/-- The flags that say what to analyse. -/
def targetFlags : List Flag :=
  [.taking .text ["--class", "-c"] "class_name"
      "Class declaring the entry routine (or a module name for a module level function).",
    .taking .text ["--method", "-m"] "method_name" "Name of the entry routine.",
    .taking .text ["--packages"] "packages"
      "Comma-separated module prefixes owned by the project.",
    .taking .text ["--exclude"] "exclude"
      "Comma-separated fnmatch patterns of routines never timed.",
    .settle ["--no-recursive"] "recursive" false "Only follow the entry routine's direct calls.",
    .settle ["--fallback"] "ambiguous_fallback" true
      "Resolve calls on untyped attributes by a unique method name."]

/-- The flags of instrumenting. -/
def injectFlags : List Flag :=
  [.taking .path ["--output-dir", "-o"] "output_dir"
      "Directory the instrumented project is written to.",
    .settle ["--overwrite"] "overwrite_original" true
      "Overwrite the original modules in place.",
    .taking .text ["--report-variable"] "report_variable"
      "Local variable collecting the report lines.",
    .taking .path ["--report-file"] "report_file"
      "File the instrumented program appends its report to.",
    .settle ["--no-report"] "generate_report" false
      "Do not add the report block to the entry routine.",
    .taking .whole ["--jobs", "-j"] "jobs" "Number of threads used to rewrite modules.",
    .yes ["--dry-run"] "dry_run" "Print the changes as a diff instead of writing them."]

/-- The flags of working on profiles. -/
def profileFlags : List Flag :=
  [.yes ["--init", "-i"] "init"
      "Run the initial configuration to setup the default profile.",
    .yes ["--clear", "-c"] "clear" "Wipe all timetrack-cli profiles.",
    .yes ["--override", "-o"] "override" "Save the current profile as the default profile.",
    .taking .text ["--new", "-n"] "new" "Create a new profile with the given name.",
    .taking .text ["--switch", "-s"] "switch" "Switch to the profile with the given name.",
    .yes ["--show", "-S"] "show" "Display the current profile.",
    .yes ["--list", "-l"] "list" "List all available profiles.",
    .taking .text ["--edit", "-e"] "edit" "Edit a profile."]

namespace Mode

/-- The flags of a mode besides the shared ones. -/
def flags : Mode → List Flag
  | profile => profileFlags
  | analyse => targetFlags
  | inject => targetFlags ++ injectFlags
  | report =>
    [.yes ["--all", "-a"] "all" "Show every report in the file, not only the last one."]

/-- The free argument of a mode. -/
def free? : Mode → Option FreeArgument
  | report =>
    some ⟨"report", .path, "Report file to read (defaults to the profile's report_file)."⟩
  | _ => none

/-- The command of a mode. -/
def command (current : Value) (mode : Mode) : Command :=
  ⟨programName ++ " " ++ mode.text, sharedFlags current ++ mode.flags, mode.free?⟩

end Mode

/-- The command that the words before the first mode belong to. -/
def frontCommand (current : Value) : Command :=
  ⟨programName, sharedFlags current, none⟩

/-- Examples of command lines. -/
def examples : List String :=
  ["timetrack-cli profile --init",
    "timetrack-cli analyse -c OrderService -m run",
    "timetrack-cli inject --dry-run",
    "timetrack-cli inject -o ../timed report timing.log"]

/-- How the program is called. -/
def frontUsage : String :=
  "usage: " ++ programName ++
    " [-v] [--project-dir DIR] <mode> [mode args] [<mode> [mode args]] ...\n"

/-- The help of the program. -/
def frontHelp (current : Value) : String :=
  frontUsage ++ "\n" ++
    "timetrack-cli: Instrument Python projects with timing probes\n\n" ++
    (frontCommand current).flagHelp ++
    "\navailable modes:\n" ++
    String.join (Mode.all.map fun mode =>
      "  " ++ Text.Table.atLeft 15 mode.text ++ " " ++ mode.summary ++ "\n") ++
    "\nexamples:\n" ++ String.join (examples.map fun line => "  " ++ line ++ "\n") ++
    "\nFor mode-specific help: timetrack-cli <mode> --help\n"

/-- A command line that was read. -/
structure Invocation where
  shared : Record
  modes : List (Mode × Record)

/-- Why a command line starts nothing. -/
inductive Stop where
  | unknownArgument (word : String)
  | help (text : String)
  /-- A misuse, with the usage and the name of the command. -/
  | misuse (usage program : String) (misuse : Misuse)
  deriving DecidableEq, Repr

/-- What a stop is reported as: the text of the help, or the last line of the complaint. -/
def Stop.message : Stop → String
  | unknownArgument word =>
    "Unknown argument '" ++ word ++ "'. Expected one of: " ++ ", ".intercalate (Mode.all.map Mode.text)
  | help text => text
  | misuse _ program fault => program ++ ": error: " ++ fault.message

/-- Fields with the shared ones in the place of those that say nothing. -/
def withShared (shared fields : Record) : Record :=
  shared.entries.foldl (fun fields (key, value) =>
    match fields.get? key with
    | some .null | some (.bool false) | none => fields.put key value
    | _ => fields) fields

/-- Reads the words of one mode. -/
def readMode (current : Value) (shared : Record) (mode : Mode) (words : List String) :
    Except Stop (Mode × Record) :=
  let command := mode.command current
  match command.parseAll words with
  | .ok fields => .ok (mode, withShared shared fields)
  | .error .help => .error (.help command.helpText)
  | .error (.misuse misuse) => .error (.misuse command.usage command.program misuse)

/-- Reads a command line, given the project of the current profile. -/
def readInvocation (current : Value) (args : List String) : Except Stop Invocation := do
  let (front, sections) := splitSections args
  match (frontCommand current).parse front with
  | .error .help => throw (.help (frontHelp current))
  | .error (.misuse misuse) => throw (.misuse frontUsage programName misuse)
  | .ok (_, word :: _) => throw (.unknownArgument word)
  | .ok (shared, []) =>
    return ⟨shared, ← sections.mapM fun (mode, words) => readMode current shared mode words⟩

end ProbeWeave.CommandLine
