/-! # Terminal text

Colours are ANSI escape sequences: a foreground colour opens with its code and closes
with the default foreground, `ESC[39m`; bold opens with `ESC[1m` and closes with a full
reset, `ESC[0m`.

An error is reported with the errors beneath it: `Error: <message>`, then, when there
are any, a blank line, `Caused by:` and one line per cause, indented by four spaces. Several
causes are numbered from 0, the number right-aligned in five columns; the later lines of a
cause that spans several lines are indented to stand under its text.
-/

namespace PoolTreasury

inductive Colour where
  | green
  | yellow
  | cyan
  | brightBlack
  | brightBlue
deriving DecidableEq, Repr

def Colour.code : Colour → Nat
  | .green => 32
  | .yellow => 33
  | .cyan => 36
  | .brightBlack => 90
  | .brightBlue => 94

def paint (c : Colour) (text : String) : String :=
  "\x1b[" ++ toString c.code ++ "m" ++ text ++ "\x1b[39m"

def bold (text : String) : String := "\x1b[1m" ++ text ++ "\x1b[0m"

/-- An error and the errors beneath it, the nearest first. -/
structure ErrorChain where
  message : String
  causes : List String := []
deriving DecidableEq, Repr

namespace ErrorChain

/-- One cause: its first line after the lead, each further line after `indent`. -/
def cause (lead indent text : String) : String :=
  lead ++ ("\n" ++ indent).intercalate (text.splitOn "\n")

/-- `n` right-aligned in five columns, then a colon. -/
def number (n : Nat) : String :=
  let digits := toString n
  String.ofList (List.replicate (5 - digits.length) ' ') ++ digits ++ ": "

def render (e : ErrorChain) : String :=
  let causes := match e.causes with
    | [] => ""
    | [one] => "\n\nCaused by:\n" ++ cause "    " "    " one
    | many => "\n\nCaused by:" ++ String.join ((List.range many.length).zip many |>.map
        fun (i, c) => "\n" ++ cause (number i) "       " c)
  "Error: " ++ e.message ++ causes ++ "\n"

end ErrorChain

end PoolTreasury
