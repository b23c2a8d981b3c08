import PoolTreasury.CommandLine.Similarity

/-! # Command-line grammars

A program takes options, then one of its commands; a command takes options and
positional arguments. Every option has a long name and may have a one-letter name, and
takes one value; a positional argument takes the next value that is not an option. The
program and every command answer `-h`/`--help`, the program also `-V`/`--version`, and a
`help` command names the command whose help to show.

This module fixes how a grammar is shown: the usage line, the help page, and the error
report of a refused command line. A usage line names the program and command, then
`[OPTIONS]` when optional options exist, then the required options and the positional
arguments, then `<COMMAND>` for the program. A help page is the description, the usage
line, and the sections `Commands`, `Arguments` and `Options`, each a column of names
followed by a column of descriptions two spaces after the longest name.
-/

namespace PoolTreasury

/-- How the text of a value is read. -/
inductive ValueKind where
  /-- An unsigned 64-bit number. -/
  | number
  /-- `true` or `false`. -/
  | truth
  /-- Any text but the empty one. -/
  | path
deriving DecidableEq, Repr

structure ArgSpec where
  id : String
  /-- Options have a long name; positional arguments have none. -/
  long : Option String := none
  short : Option Char := none
  valueName : String
  help : String := ""
  required : Bool := false
  default : Option String := none
  kind : ValueKind
  /-- A positional argument that takes every remaining value. -/
  many : Bool := false
deriving DecidableEq, Repr

namespace ArgSpec

def isPositional (a : ArgSpec) : Bool := a.long.isNone

/-- The values a truth accepts. -/
def possibleValues (a : ArgSpec) : List String :=
  if a.kind == .truth then ["true", "false"] else []

/-- How the argument is named in messages: `--name <VALUE>`, `<VALUE>` or `[VALUE]...`. -/
def display (a : ArgSpec) : String :=
  match a.long with
  | some l => "--" ++ l ++ " <" ++ a.valueName ++ ">"
  | none =>
    (if a.required then "<" ++ a.valueName ++ ">" else "[" ++ a.valueName ++ "]") ++
      (if a.many then "..." else "")

/-- The notes after the description: the default, then the possible values. -/
def notes (a : ArgSpec) : List String :=
  (match a.default with
    | some d => ["[default: " ++ d ++ "]"]
    | none => []) ++
  (if a.possibleValues.isEmpty then [] else ["[possible values: " ++ ", ".intercalate a.possibleValues ++ "]"])

/-- The description column: the help text and the notes. -/
def describe (a : ArgSpec) : String := " ".intercalate ((if a.help.isEmpty then [] else [a.help]) ++ a.notes)

end ArgSpec

structure CommandSpec where
  name : String
  about : String
  args : List ArgSpec
  /-- Whether `-h, --help` is offered. -/
  helpFlag : Bool := true
deriving DecidableEq, Repr

/-- The long names of a command's options, its help flag last. -/
def CommandSpec.longNames (c : CommandSpec) : List String :=
  c.args.filterMap (·.long) ++ (if c.helpFlag then ["help"] else [])

structure ProgramSpec where
  name : String
  version : String
  about : String
  options : List ArgSpec
  commands : List CommandSpec
deriving DecidableEq, Repr

/-- The `help` command every program with commands has. -/
def helpCommand : CommandSpec :=
  let command : ArgSpec :=
    { id := "command", valueName := "COMMAND", help := "Print help for the subcommand(s)",
      kind := .path, many := true }
  { name := "help", about := "Print this message or the help of the given subcommand(s)",
    args := [command], helpFlag := false }

namespace ProgramSpec

/-- The commands, `help` last. -/
def allCommands (p : ProgramSpec) : List CommandSpec := p.commands ++ [helpCommand]

def commandNames (p : ProgramSpec) : List String := p.allCommands.map (·.name)

def find? (p : ProgramSpec) (name : String) : Option CommandSpec :=
  p.allCommands.find? (·.name == name)

end ProgramSpec

/-- Where arguments are parsed: the program itself, or one of its commands. -/
structure Scope where
  /-- How the scope is called: the program name, then the command name. -/
  usageName : String
  args : List ArgSpec
  helpFlag : Bool
  /-- Whether a command must follow. -/
  takesCommand : Bool
deriving DecidableEq, Repr

def ProgramSpec.scope (p : ProgramSpec) : Scope :=
  { usageName := p.name, args := p.options, helpFlag := true, takesCommand := true }

def CommandSpec.scope (program : String) (c : CommandSpec) : Scope :=
  { usageName := program ++ " " ++ c.name, args := c.args, helpFlag := c.helpFlag, takesCommand := false }

namespace Scope

def options (s : Scope) : List ArgSpec := s.args.filter (!·.isPositional)

def positionals (s : Scope) : List ArgSpec := s.args.filter (·.isPositional)

/-- The long names an unknown option may be a misspelling of. -/
def longNames (s : Scope) : List String :=
  s.options.filterMap (·.long) ++ (if s.helpFlag then ["help"] else []) ++
    (if s.takesCommand then ["version"] else [])

/-- The usage line when nothing has been given: `[OPTIONS]` stands for the optional
options. -/
def helpUsage (s : Scope) : String :=
  let tag := if s.options.any (!·.required) then " [OPTIONS]" else ""
  let required := (s.options.filter (·.required)).map (" " ++ ·.display)
  let positionals := s.positionals.map (" " ++ ·.display)
  s.usageName ++ tag ++ String.join required ++ String.join positionals ++
    (if s.takesCommand then " <COMMAND>" else "")

def isRequired (s : Scope) (id : String) : Bool := s.args.any fun a => a.id == id && a.required

/-- How an option is named in a usage line; `help` and `version` name the built-in flags. -/
def optionText (s : Scope) (id : String) : Option String :=
  if id == "help" then some "--help"
  else if id == "version" then some "--version"
  else (s.options.find? (·.id == id)).map (·.display)

/-- The usage line after the arguments `used` were given, named by id in the order given:
the required options, then the other options used in that order, then the positional
arguments that are required or used, in their own order. -/
def usage (s : Scope) (used : List String) : String :=
  if used.isEmpty then s.helpUsage
  else
    let optionIds := ((s.options.filter (·.required)).map (·.id) ++ used).eraseDups
    let positionals := s.positionals.filter fun a => a.required || used.contains a.id
    s.usageName ++ String.join ((optionIds.filterMap s.optionText).map (" " ++ ·)) ++
      String.join (positionals.map (" " ++ ·.display)) ++
      (if s.takesCommand then " <COMMAND>" else "")

/-- What a refusal points to for more information: the help flag, else the `help` command,
else nothing. -/
def tryHelp (s : Scope) : Option String :=
  if s.helpFlag then some "--help" else if s.takesCommand then some "help" else none

end Scope

/-! ## Help pages -/

def spaces (n : Nat) : String := String.ofList (List.replicate n ' ')

/-- Rows of a name column and a description column, the descriptions two spaces after
the longest name. -/
def helpRows (rows : List (String × String × String)) : List String :=
  let longest := (rows.map fun (_, name, _) => name.length).foldl max 0
  rows.map fun (lead, name, text) => "  " ++ lead ++ name ++ spaces (longest + 2 - name.length) ++ text

def optionRow (a : ArgSpec) : String × String × String :=
  let lead := match a.short with
    | some c => "-" ++ String.singleton c ++ ", "
    | none => "    "
  (lead, a.display, a.describe)

def flagRow (short : Char) (long text : String) : String × String × String :=
  ("-" ++ String.singleton short ++ ", ", "--" ++ long, text)

/-- The help page of a scope. -/
def helpPage (about : String) (s : Scope) (commands : List CommandSpec) : String :=
  let commandSection := if commands.isEmpty then [] else
    ["Commands:\n" ++ "\n".intercalate (helpRows (commands.map fun c => ("", c.name, c.about)))]
  let argumentSection := if s.positionals.isEmpty then [] else
    ["Arguments:\n" ++ "\n".intercalate (helpRows (s.positionals.map fun a => ("", a.display, a.describe)))]
  let flags := (if s.helpFlag then [flagRow 'h' "help" "Print help"] else []) ++
    (if s.takesCommand then [flagRow 'V' "version" "Print version"] else [])
  let optionRows := s.options.map optionRow ++ flags
  let optionSection := if optionRows.isEmpty then [] else ["Options:\n" ++ "\n".intercalate (helpRows optionRows)]
  about ++ "\n\nUsage: " ++ s.helpUsage ++ "\n\n" ++
    "\n\n".intercalate (commandSection ++ argumentSection ++ optionSection) ++ "\n"

def ProgramSpec.help (p : ProgramSpec) : String := helpPage p.about p.scope p.allCommands

def CommandSpec.help (program : String) (c : CommandSpec) : String := helpPage c.about (c.scope program) []

/-! ## Refusals -/

/-- Why a command line was refused. -/
inductive ArgError where
  /-- An argument no grammar rule takes, with the tips that go with it. -/
  | unknownArgument (arg : String) (tips : List String) (usage : String)
  | unknownCommand (name : String) (similar : List String) (usage : String)
  /-- A value attached to a flag that takes none. -/
  | unexpectedValue (value arg : String) (usage : String)
  | missingArguments (args : List String) (usage : String)
  | missingCommand (program : String) (commands : List String) (usage : String)
  | invalidChoice (arg value : String) (choices : List String)
  | missingValue (arg : String)
  | invalidNumber (arg value reason : String)
  | repeated (arg : String) (usage : String)
deriving DecidableEq, Repr

namespace ArgError

def tip (text : String) : String := "\n  tip: " ++ text

def quoted (names : List String) : String := ", ".intercalate (names.map fun n => "'" ++ n ++ "'")

/-- The tip for an argument that reads like a value. -/
def passAsValue (arg : String) : String := "to pass '" ++ arg ++ "' as a value, use '-- " ++ arg ++ "'"

/-- The tip for a command's name given after `--`. -/
def needlessEscape (name : String) : String :=
  "subcommand '" ++ name ++ "' exists; to use it, remove the '--' before it"

/-- Names a similar word, or several. -/
def similarText (what : String) (names : List String) : String :=
  match names with
  | [one] => "a similar " ++ what ++ " exists: '" ++ one ++ "'"
  | _ => "some similar " ++ what ++ "s exist: " ++ quoted names

def similarTip (what : String) (names : List String) : String := tip (similarText what names)

/-- The report: the complaint, tips, the usage line when there is one, and the pointer
to `hint`, when there is one. -/
def render (e : ArgError) (hint : Option String) : String :=
  let (complaint, tips, usage) : String × List String × Option String := match e with
    | .unknownArgument arg tips usage =>
      ("unexpected argument '" ++ arg ++ "' found", tips.map tip, some usage)
    | .unknownCommand name similar usage =>
      ("unrecognized subcommand '" ++ name ++ "'", if similar.isEmpty then [] else [similarTip "subcommand" similar],
        some usage)
    | .unexpectedValue value arg usage =>
      ("unexpected value '" ++ value ++ "' for '" ++ arg ++ "' found; no more were expected", [], some usage)
    | .missingArguments args usage =>
      ("the following required arguments were not provided:" ++ String.join (args.map ("\n  " ++ ·)), [], some usage)
    | .missingCommand program commands usage =>
      ("'" ++ program ++ "' requires a subcommand but one was not provided\n  [subcommands: " ++
        ", ".intercalate commands ++ "]", [], some usage)
    | .invalidChoice arg value choices =>
      ("invalid value '" ++ value ++ "' for '" ++ arg ++ "'\n  [possible values: " ++ ", ".intercalate choices ++ "]",
        match (similarWords value choices).getLast? with
          | some s => [similarTip "value" [s]]
          | none => [],
        none)
    | .missingValue arg => ("a value is required for '" ++ arg ++ "' but none was supplied", [], none)
    | .invalidNumber arg value reason => ("invalid value '" ++ value ++ "' for '" ++ arg ++ "': " ++ reason, [], none)
    | .repeated arg usage => ("the argument '" ++ arg ++ "' cannot be used multiple times", [], some usage)
  "error: " ++ complaint ++ (if tips.isEmpty then "" else "\n" ++ String.join tips) ++
    (match usage with
      | some u => "\n\nUsage: " ++ u
      | none => "") ++
    (match hint with
      | some h => "\n\nFor more information, try '" ++ h ++ "'.\n"
      | none => "\n")

end ArgError

end PoolTreasury
