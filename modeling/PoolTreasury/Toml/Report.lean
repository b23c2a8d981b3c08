/-! # Reporting a place in a TOML text

An error about a TOML text names the stretch of the text it is about, as character
offsets. It is shown as the line and column where that stretch starts, both counted from
1, then the line itself in a gutter with its number, a row of carets under the stretch
(at least one, and none beyond the end of the line), and last the message:

```
TOML parse error at line 1, column 12
  |
1 | not = [toml
  |            ^
unclosed array, expected `]`
```

An offset at or past the end of the text stands on the last line, as far past its last
character as the offset is past the text's last character, so that the end of the text
is shown one column after the last character.
-/

namespace PoolTreasury

/-- A stretch of a text: the characters from `start` up to, not including, `stop`. -/
structure TextSpan where
  start : Nat
  stop : Nat
deriving DecidableEq, Repr

/-- An error about a TOML text and the stretch of the text it is about. -/
structure TomlError where
  message : String
  span : TextSpan
deriving DecidableEq, Repr

namespace TomlError

/-- The line and the column, both from 0, of a character offset. -/
def locate (text : List Char) (offset : Nat) : Nat × Nat :=
  if text.isEmpty then (0, offset)
  else
    let safe := min offset (text.length - 1)
    let before := text.take safe
    let line := before.count '\n'
    let column := (before.reverse.takeWhile (· != '\n')).length + (offset - safe)
    (line, column)

def spaces (n : Nat) : String := String.ofList (List.replicate n ' ')

/-- The report of an error about `text`. -/
def render (text : String) (e : TomlError) : String :=
  let chars := text.toList
  let (line, column) := locate chars e.span.start
  let number := toString (line + 1)
  let gutter := spaces (number.length + 1)
  let content := ((text.splitOn "\n")[line]?).getD ""
  let width := (String.ofList ((chars.drop e.span.start).take (e.span.stop - e.span.start))).utf8ByteSize
  let carets := max 1 (min width (content.utf8ByteSize - column))
  "TOML parse error at line " ++ number ++ ", column " ++ toString (column + 1) ++ "\n" ++
    gutter ++ "|\n" ++
    number ++ " | " ++ content ++ "\n" ++
    gutter ++ "|" ++ spaces (column + 1) ++ String.ofList (List.replicate carets '^') ++ "\n" ++
    e.message ++ "\n"

end TomlError

end PoolTreasury
