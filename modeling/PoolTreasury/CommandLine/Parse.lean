import PoolTreasury.Prelude
import PoolTreasury.CommandLine.Grammar

/-! # Reading a command line against a grammar

Words are read from left to right. A word that names a command, read where no option
waits for its value, enters that command; `help` instead shows the help of the commands
named by all the words after it. `--` makes every later word a value. A word `--name` or
`--name=value` is a long option, a word `-x...` a cluster of one-letter names whose rest
is the value of an option among them; any other word is a value. An option takes the
value attached to it or, failing that, the next word unless that word is an option. A
value goes to the next positional argument.

An argument is *settled* when the next option, positional argument or the end is reached:
only then is its value read and its repetition checked, so an error in it is found that
late. An unknown word ends the reading with the first thing wrong about it, and an error
in settling what came before it is then passed over. Help and the version end the
reading once what came before is settled. At the end of a command, every required
argument must have been given; the program's own options are settled after its command's
words are read. A program called without any argument shows its help as a refusal.
-/

namespace PoolTreasury

/-- A value as read. -/
inductive ArgValue where
  | number (n : Nat)
  | truth (b : Bool)
  | text (s : String)
deriving DecidableEq, Repr

/-- The values given in one scope, by argument id, in the order given. -/
abbrev Given := List (String × List ArgValue)

namespace Given

def number? (g : Given) (id : String) : Option Nat :=
  match (g.find? (·.1 == id)).bind (·.2.head?) with
  | some (.number n) => some n
  | _ => none

def truth? (g : Given) (id : String) : Option Bool :=
  match (g.find? (·.1 == id)).bind (·.2.head?) with
  | some (.truth b) => some b
  | _ => none

def text? (g : Given) (id : String) : Option String :=
  match (g.find? (·.1 == id)).bind (·.2.head?) with
  | some (.text s) => some s
  | _ => none

def texts (g : Given) (id : String) : List String :=
  (((g.find? (·.1 == id)).map (·.2)).getD []).filterMap fun
    | .text s => some s
    | _ => none

end Given

/-- What a command line comes to. -/
inductive ArgOutcome where
  /-- The program's options, the command named, and the command's arguments. -/
  | invoke (options : Given) (command : String) (args : Given)
  /-- Text for standard output; the program is done. -/
  | inform (text : String)
  /-- Text for standard error; the command line was refused. -/
  | refuse (text : String)
deriving DecidableEq, Repr

/-- An unsigned 64-bit number: an optional `+`, then decimal digits, each checked in turn. -/
def readNumber (text : String) : Except String Nat :=
  let digits := match text.toList with
    | '+' :: rest => rest
    | cs => cs
  if text.isEmpty then .error "cannot parse integer from empty string"
  else if digits.isEmpty then .error "invalid digit found in string"
  else digits.foldlM (fun acc c =>
    if c.isDigit then
      let v := acc * 10 + (c.toNat - 48)
      if v < 2 ^ 64 then .ok v else .error "number too large to fit in target type"
    else .error "invalid digit found in string") 0

def ArgSpec.read (a : ArgSpec) (text : String) : Except ArgError ArgValue :=
  match a.kind with
  | .number => match readNumber text with
    | .ok n => .ok (.number n)
    | .error reason => .error (.invalidNumber a.display text reason)
  | .truth =>
    if text == "true" then .ok (.truth true)
    else if text == "false" then .ok (.truth false)
    else .error (.invalidChoice a.display text a.possibleValues)
  | .path => if text.isEmpty then .error (.missingValue a.display) else .ok (.text text)

/-- A word of a command line. -/
inductive Word where
  | escape
  | long (name : String) (value : Option String)
  | short (letters : List Char)
  | value (text : String)
deriving DecidableEq, Repr

def Word.classify (s : String) : Word :=
  match s.toList with
  | ['-', '-'] => .escape
  | '-' :: '-' :: body =>
    let name := body.takeWhile (· != '=')
    let rest := body.drop name.length
    .long (String.ofList name) (if rest.isEmpty then none else some (String.ofList rest.tail))
  | '-' :: c :: more => .short (c :: more)
  | _ => .value s

/-- An argument whose values are read once it is settled: an option named without a value,
then given the next word, or a positional argument given a word. -/
structure Pending where
  arg : ArgSpec
  values : List String
deriving Repr

structure ScanState where
  /-- Settled arguments, in the order they were settled; one whose value did not read has
  no values. -/
  given : Given := []
  /-- The positional argument the next value goes to. -/
  positional : Nat := 0
  /-- After `--`: every word is a value for a positional argument. -/
  escaped : Bool := false
  pending : Option Pending := none
  /-- Whether the pending option still waits for its value. -/
  awaiting : Bool := false
deriving Repr

def ScanState.ids (st : ScanState) : List String := st.given.map (·.1)

/-- What reading one word leads to. -/
inductive WordStep where
  | next (st : ScanState)
  | enter (command : CommandSpec) (st : ScanState)
  | stop (outcome : ArgOutcome)

/-- Where reading stopped: at the end, at a command's name with the words after it, or
with an outcome. -/
inductive Scan where
  | finished (st : ScanState)
  | entered (command : CommandSpec) (st : ScanState) (rest : List String)
  | stopped (outcome : ArgOutcome)

/-- How the program is described to a reader of a scope. -/
structure Reader where
  program : ProgramSpec
  scope : Scope
  helpText : String

/-- The help asked for by the `help` command: of the program, or of the command named. Every
later word must name a command of the one before, and commands have none. -/
def ProgramSpec.helpFor (p : ProgramSpec) : List String → ArgOutcome
  | [] => .inform p.help
  | name :: more =>
    match p.find? name with
    | none => .refuse ((ArgError.unknownCommand name [] p.scope.helpUsage).render p.scope.tryHelp)
    | some c =>
      let scope := c.scope p.name
      match more with
      | [] => .inform (c.help p.name)
      | other :: _ => .refuse ((ArgError.unknownCommand other [] scope.helpUsage).render scope.tryHelp)

namespace Reader

def refuse (r : Reader) (e : ArgError) : WordStep := .stop (.refuse (e.render r.scope.tryHelp))

/-- Settles the pending argument: checks that it has a value and was not settled before,
then reads the value. A failure comes with the state it leaves, for some refusals go on
from there: an argument given twice is dropped, one whose value does not read stays. -/
def settle (r : Reader) (st : ScanState) : ScanState × Option ArgError :=
  match st.pending with
  | none => (st, none)
  | some p =>
    let st := { st with pending := none, awaiting := false }
    match p.values.head? with
    | none => (st, some (.missingValue p.arg.display))
    | some text =>
      if st.ids.contains p.arg.id then
        ({ st with given := st.given.filter (·.1 != p.arg.id) }, some (.repeated p.arg.display r.scope.helpUsage))
      else match p.arg.read text with
        | .ok v => ({ st with given := st.given ++ [(p.arg.id, [v])] }, none)
        | .error e => ({ st with given := st.given ++ [(p.arg.id, [])] }, some e)

/-- Settles the pending argument and goes on, or refuses with its failure. -/
def settled (r : Reader) (st : ScanState) (k : ScanState → WordStep) : WordStep :=
  match r.settle st with
  | (st, none) => k st
  | (_, some e) => r.refuse e

/-- Shows the help or the version once the pending argument is settled. -/
def inform (r : Reader) (st : ScanState) (text : String) : WordStep :=
  r.settled st fun _ => .stop (.inform text)

def versionText (r : Reader) : String := r.program.name ++ " " ++ r.program.version ++ "\n"

/-- An option named with `value` attached or, without one, waiting for the next word. -/
def option (r : Reader) (st : ScanState) (a : ArgSpec) (value : Option String) : WordStep :=
  r.settled st fun st =>
    match value with
    | some v => r.settled { st with pending := some ⟨a, [v]⟩ } .next
    | none => .next { st with pending := some ⟨a, []⟩, awaiting := true }

/-- A flag that takes no value, given one: the usage names the options settled so far that
are not required, then the flag. -/
def needlessValue (r : Reader) (st : ScanState) (flag value : String) : WordStep :=
  let used := (st.ids.filter fun id => !r.scope.isRequired id) ++ [flag]
  r.refuse (.unexpectedValue value ("--" ++ flag) (r.scope.usage used))

/-- What an unknown long name may have meant: a similar long name of this scope, else one
of a command named later on the line, the command named first winning. -/
def suggestFlag (r : Reader) (name : String) (later : List String) : Option (String × Option String) :=
  match (similarWords name r.scope.longNames).getLast? with
  | some flag => some (flag, none)
  | none =>
    if !r.scope.takesCommand then none else
    let found := r.program.allCommands.filterMap fun c => do
      let flag ← (similarWords name c.longNames).getLast?
      let place ← later.findIdx? (· == c.name)
      pure (place, flag, c.name)
    ((found.mergeSort fun x y => x.1 ≤ y.1).head?).map fun (_, flag, command) => (flag, some command)

/-- The id of the argument of this scope with a long name, `help` and `version` included. -/
def idOfLong (r : Reader) (name : String) : Option String :=
  if (name == "help" && r.scope.helpFlag) || (name == "version" && r.scope.takesCommand) then some name
  else (r.scope.options.find? (·.long == some name)).map (·.id)

/-- An unknown long option. The usage names what was settled, the suggested option of this
scope included; the tip is the suggestion or, with none, how to pass the word as a value. -/
def unknownLong (r : Reader) (st : ScanState) (name : String) (later : List String) : WordStep :=
  let st := (r.settle st).1
  let suggestion := r.suggestFlag name later
  let suggested := match suggestion with
    | some (flag, none) => (r.idOfLong flag).toList
    | _ => []
  let tips := match suggestion with
    | some (flag, none) => [ArgError.similarText "argument" ["--" ++ flag]]
    | some (flag, some command) => ["'" ++ command ++ " --" ++ flag ++ "' exists"]
    | none => if r.scope.positionals.isEmpty then [] else [ArgError.passAsValue ("--" ++ name)]
  r.refuse (.unknownArgument ("--" ++ name) tips (r.scope.usage (st.ids ++ suggested).eraseDups))

def long (r : Reader) (st : ScanState) (name : String) (attached : Option String) (later : List String) :
    WordStep :=
  let flag := (name == "help" && r.scope.helpFlag) || (name == "version" && r.scope.takesCommand)
  if flag then
    match attached with
    | some value => r.needlessValue st name value
    | none => r.inform st (if name == "help" then r.helpText else r.versionText)
  else match r.scope.options.find? (·.long == some name) with
    | some a => r.option st a attached
    | none => r.unknownLong st name later

/-- A cluster of one-letter names: the first is a flag, or an option whose value is the
rest of the cluster after an optional `=`. -/
def short (r : Reader) (st : ScanState) : List Char → WordStep
  | [] => .next st
  | c :: more =>
    if c == 'h' && r.scope.helpFlag then r.inform st r.helpText
    else if c == 'V' && r.scope.takesCommand then r.inform st r.versionText
    else match r.scope.options.find? (·.short == some c) with
      | some a =>
        let value := match more with
          | [] => none
          | '=' :: after => some (String.ofList after)
          | cs => some (String.ofList cs)
        r.option st a value
      | none =>
        let arg := "-" ++ String.singleton c
        r.refuse (.unknownArgument arg
          (if !st.escaped && !r.scope.positionals.isEmpty then [ArgError.passAsValue arg] else []) r.scope.helpUsage)

/-- A value that no positional argument is left for: a command's name after `--`, a word
that is not a command, or a word too many. -/
def strayValue (r : Reader) (st : ScanState) (text : String) : ArgError :=
  if r.scope.takesCommand then
    if st.escaped && (r.program.find? text).isSome then
      .unknownArgument text [ArgError.needlessEscape text] r.scope.helpUsage
    else .unknownCommand text (similarWords text r.program.commandNames) r.scope.helpUsage
  else .unknownArgument text [] r.scope.helpUsage

/-- A value for the next positional argument, which settles the pending one first. -/
def positional (r : Reader) (st : ScanState) (text : String) : WordStep :=
  match r.scope.positionals[st.positional]? with
  | some a => r.settled st fun st => .next { st with pending := some ⟨a, [text]⟩, positional := st.positional + 1 }
  | none => r.refuse (r.strayValue st text)

/-- Reads one word; `later` are the words after it. -/
def step (r : Reader) (st : ScanState) (word : String) (later : List String) : WordStep :=
  if st.escaped then r.positional st word
  else
    let command := if st.awaiting || !r.scope.takesCommand then none else r.program.find? word
    match command with
    | some c => if c.name == "help" then .stop (r.program.helpFor later) else .enter c st
    | none =>
      match Word.classify word with
      | .escape => .next { st with escaped := true }
      | .long name attached => r.long st name attached later
      | .short letters => r.short st letters
      | .value text =>
        match st.awaiting, st.pending with
        | true, some p => .next { st with pending := some { p with values := p.values ++ [text] }, awaiting := false }
        | _, _ => r.positional st text

def scan (r : Reader) : List String → ScanState → Scan
  | [], st => .finished st
  | word :: rest, st =>
    match r.step st word rest with
    | .next st => r.scan rest st
    | .enter c st => .entered c st rest
    | .stop o => .stopped o

/-- The checks at the end of a scope: the pending argument, then the required arguments. -/
def finish (r : Reader) (st : ScanState) : Except ArgError Given :=
  match r.settle st with
  | (_, some e) => .error e
  | (st, none) =>
    let missing := (r.scope.options ++ r.scope.positionals).filter fun a => a.required && !st.ids.contains a.id
    if missing.isEmpty then .ok st.given
    else
      let used := (st.ids.filter fun id => !r.scope.isRequired id) ++ missing.map (·.id)
      .error (.missingArguments (missing.map (·.display)) (r.scope.usage used))

end Reader

namespace ProgramSpec

def reader (p : ProgramSpec) : Reader := { program := p, scope := p.scope, helpText := p.help }

def commandReader (p : ProgramSpec) (c : CommandSpec) : Reader :=
  { program := p, scope := c.scope p.name, helpText := c.help p.name }

/-- Reads a command line, the program's name left out. A command's words are read before
the program's pending option is settled. -/
def parse (p : ProgramSpec) (args : List String) : ArgOutcome :=
  let r := p.reader
  match r.scan args {} with
  | .stopped o => o
  | .finished st =>
    match r.finish st with
    | .error e => .refuse (e.render r.scope.tryHelp)
    | .ok given =>
      if given.isEmpty then .refuse p.help
      else .refuse ((ArgError.missingCommand p.name p.commandNames p.scope.helpUsage).render r.scope.tryHelp)
  | .entered c st rest =>
    let cr := p.commandReader c
    match cr.scan rest {} with
    | .stopped o => o
    | .entered .. => .refuse ""
    | .finished cst =>
      match cr.finish cst with
      | .error e => .refuse (e.render cr.scope.tryHelp)
      | .ok args =>
        match r.finish st with
        | .error e => .refuse (e.render r.scope.tryHelp)
        | .ok options => .invoke options c.name args

end ProgramSpec

end PoolTreasury
