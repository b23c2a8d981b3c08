import PoolTreasury.Toml.Value
import PoolTreasury.Toml.Report
import PoolTreasury.Time.Rfc3339

/-! # Reading TOML

A reader for TOML 1.1 documents. The text is read line by line: blank and comment
lines, `key = value` pairs with dotted keys, `[table]` headers and `[[array]]` headers.
Values are basic and literal strings, each also in multi-line form; integers in decimal,
hexadecimal, octal or binary with single underscores between digits; floats, `inf` and
`nan`; booleans; dates and times, whose seconds may be left out; and arrays and inline
tables, which may both span lines, hold comments and end with a comma. Basic strings know
the escapes `\e` and `\xHH` beside those of TOML 1.0. A byte order mark at the start of the
text is skipped.

The document is assembled as it is read, and the rules of redefinition are checked:
a key is written once; a table is defined once, by one header or by the dotted keys that
create it; a header may add tables below ones created by dotted keys; dotted keys may
not add to a table defined by a header; an inline table or array given as a value is
closed. Integers are kept from `-2^63` up to `2^64 - 1`.

Every reading runs on an explicit budget of steps proportional to the length of the
text, so each recursion is on a decreasing number.

Errors come in two kinds. A text whose shape is broken (an unclosed array, a key without
`=`, content after a value) stops the reading at once. A value that does not read, or a
key or table written twice, is noted and the reading goes on, so that a broken shape
further on is what gets reported; when the shape holds, the first such note is. Places
are kept while reading as the number of characters left, and turned into offsets at the
end.
-/

namespace PoolTreasury

namespace Toml

/-- An error while reading, placed by the number of characters left where it starts and
the number of characters it covers. -/
structure Fault where
  message : String
  left : Nat
  width : Nat := 0
deriving DecidableEq, Repr

/-- A reading of a prefix of the text; the state is what remains, and beneath it the first
error noted so far. -/
abbrev Lex := StateT (List Char) (StateT (Option Fault) (Except Fault))

/-- Stops the reading with an error at the current place. -/
def fail {α : Type} (message : String) : Lex α := do
  throw { message, left := (← get).length }

/-- Notes an error unless one was noted before. -/
def note (f : Fault) : Lex Unit :=
  modifyThe (Option Fault) fun noted => match noted with
    | some first => some first
    | none => some f

def peek : Lex (Option Char) := do pure (← get).head?

def skipOne : Lex Unit := modify List.tail

def isBareKeyChar (c : Char) : Bool := c.isAlphanum || c == '_' || c == '-'

/-- Characters not allowed in strings and comments: controls other than tab. -/
def isControl (c : Char) : Bool := (c.toNat < 32 && c != '\t') || c.toNat == 127

def skipSpaces : Lex Unit := modify (·.dropWhile fun c => c == ' ' || c == '\t')

/-- A comment, when one starts here, up to the end of its line. -/
def skipComment : Lex Unit := do
  match (← get) with
  | '#' :: rest =>
    let body := rest.takeWhile fun c => c != '\n' && c != '\r'
    if body.any isControl then fail "invalid comment character"
    set (rest.drop body.length)
  | _ => pure ()

/-- A line break: LF or CR LF. -/
def newline? (s : List Char) : Option (List Char) :=
  match s with
  | '\n' :: rest => some rest
  | '\r' :: '\n' :: rest => some rest
  | _ => none

/-- The end of a line: blanks, an optional comment, then a line break or the end. -/
def endOfLine : Lex Unit := do
  skipSpaces
  skipComment
  let s ← get
  if s.isEmpty then return
  match newline? s with
  | some rest => set rest
  | none => fail "unexpected content, expected newline"

/-- Blanks, comments and line breaks, as allowed between the items of arrays and inline tables. -/
def skipBlankLines : Nat → Lex Unit
  | 0 => pure ()
  | n + 1 => do
    skipSpaces
    skipComment
    match newline? (← get) with
    | some rest => set rest; skipBlankLines n
    | none => pure ()

/-! ## Strings -/

def hexValue (cs : List Char) : Option Nat :=
  cs.foldlM (fun acc c =>
    if c.isDigit then some (acc * 16 + (c.toNat - 48))
    else if 'a' ≤ c ∧ c ≤ 'f' then some (acc * 16 + (c.toNat - 87))
    else if 'A' ≤ c ∧ c ≤ 'F' then some (acc * 16 + (c.toNat - 55))
    else none) 0

/-- A Unicode scalar value: not a surrogate, at most `0x10FFFF`. -/
def scalarOf (n : Nat) : Option Char :=
  if n < 0xD800 ∨ (0xDFFF < n ∧ n ≤ 0x10FFFF) then some (Char.ofNat n) else none

/-- The character an escape after a backslash stands for. -/
def escape (s : List Char) : Except String (Char × List Char) :=
  match s with
  | 'b' :: rest => .ok ('\x08', rest)
  | 't' :: rest => .ok ('\t', rest)
  | 'n' :: rest => .ok ('\n', rest)
  | 'f' :: rest => .ok ('\x0c', rest)
  | 'r' :: rest => .ok ('\r', rest)
  | '"' :: rest => .ok ('"', rest)
  | '\\' :: rest => .ok ('\\', rest)
  | 'e' :: rest => .ok ('\x1b', rest)
  | 'x' :: h1 :: h2 :: rest =>
    match hexValue [h1, h2] with
    | some v => .ok (Char.ofNat v, rest)
    | none => .error "invalid escape"
  | 'u' :: rest =>
    match (hexValue (rest.take 4)).bind scalarOf with
    | some c => if rest.length ≥ 4 then .ok (c, rest.drop 4) else .error "short escape"
    | none => .error "invalid escape"
  | 'U' :: rest =>
    match (hexValue (rest.take 8)).bind scalarOf with
    | some c => if rest.length ≥ 8 then .ok (c, rest.drop 8) else .error "short escape"
    | none => .error "invalid escape"
  | _ => .error "invalid escape"

/-- The rest of a basic string after its opening quote; it must close on its line. -/
def basicString : Nat → List Char → List Char → Except String (String × List Char)
  | 0, _, _ => .error "string too long"
  | _ + 1, [], _ => .error "invalid basic string, expected `\"`"
  | n + 1, c :: rest, acc =>
    if c == '"' then .ok (String.ofList acc.reverse, rest)
    else if c == '\n' || c == '\r' then .error "invalid basic string, expected `\"`"
    else if c == '\\' then do
      let (e, rest) ← escape rest
      basicString n rest (e :: acc)
    else if isControl c then .error "control character in string"
    else basicString n rest (c :: acc)

/-- The rest of a literal string after its opening quote; it must close on its line. -/
def literalString : Nat → List Char → List Char → Except String (String × List Char)
  | 0, _, _ => .error "string too long"
  | _ + 1, [], _ => .error "invalid literal string, expected `'`"
  | n + 1, c :: rest, acc =>
    if c == '\'' then .ok (String.ofList acc.reverse, rest)
    else if c == '\n' || c == '\r' then .error "invalid literal string, expected `'`"
    else if isControl c then .error "control character in string"
    else literalString n rest (c :: acc)

/-- Blanks and line breaks after a line-ending backslash. -/
def trimLineEnding : Nat → List Char → List Char
  | 0, s => s
  | n + 1, s =>
    match s with
    | ' ' :: rest | '\t' :: rest | '\n' :: rest => trimLineEnding n rest
    | '\r' :: '\n' :: rest => trimLineEnding n rest
    | _ => s

/-- Whether only blanks stand before the next line break. -/
def blanksToNewline (s : List Char) : Bool :=
  match newline? (s.dropWhile fun c => c == ' ' || c == '\t') with
  | some _ => true
  | none => false

/-- The rest of a multi-line string after its opening quotes; `basic` allows escapes. A run
of three to five closing quotes ends it, the quotes beyond three belonging to the text. -/
def multilineString (basic : Bool) (quote : Char) : Nat → List Char → List Char →
    Except String (String × List Char)
  | 0, _, _ => .error "string too long"
  | _ + 1, [], _ =>
    .error (if basic then "invalid multi-line basic string, expected `\"\"\"`"
      else "invalid multi-line literal string, expected `'''`")
  | n + 1, c :: rest, acc =>
    if c == quote then
      let run := (c :: rest).takeWhile (· == quote)
      if run.length < 3 then multilineString basic quote n (rest.drop (run.length - 1)) (run ++ acc)
      else if run.length > 5 then .error "too many quotes"
      else .ok (String.ofList ((run.drop 3) ++ acc).reverse, (c :: rest).drop run.length)
    else if basic && c == '\\' then
      if blanksToNewline rest then multilineString basic quote n (trimLineEnding rest.length rest) acc
      else do
        let (e, rest) ← escape rest
        multilineString basic quote n rest (e :: acc)
    else match newline? (c :: rest) with
      | some after => multilineString basic quote n after ('\n' :: acc)
      | none =>
        if isControl c then .error "control character in string"
        else multilineString basic quote n rest (c :: acc)

/-- A string value or quoted key, starting at its opening quote; an error in it is placed
at that quote. -/
def stringToken (allowMultiline : Bool) : Lex String := do
  let s ← get
  let budget := s.length + 1
  let reading : Except String (String × List Char) := match s with
    | '"' :: '"' :: '"' :: rest =>
      if allowMultiline then multilineString true '"' budget ((newline? rest).getD rest) []
      else .error "multi-line strings are not allowed for keys"
    | '"' :: rest => basicString budget rest []
    | '\'' :: '\'' :: '\'' :: rest =>
      if allowMultiline then multilineString false '\'' budget ((newline? rest).getD rest) []
      else .error "multi-line strings are not allowed for keys"
    | '\'' :: rest => literalString budget rest []
    | _ => .error "expected string"
  match reading with
  | .ok (text, rest) => set rest; pure text
  | .error message => throw { message, left := s.length }

/-! ## Keys -/

def simpleKey : Lex String := do
  match ← peek with
  | some '"' | some '\'' => stringToken false
  | _ =>
    let s ← get
    let bare := s.takeWhile isBareKeyChar
    if bare.isEmpty then fail "invalid key"
    set (s.drop bare.length)
    pure (String.ofList bare)

/-- A key of one or more parts joined by dots, with blanks allowed around the dots. -/
def dottedKey : Nat → Lex (List String)
  | 0 => fail "key too long"
  | n + 1 => do
    let k ← simpleKey
    skipSpaces
    match ← peek with
    | some '.' =>
      skipOne
      skipSpaces
      pure (k :: (← dottedKey n))
    | _ => pure [k]

/-! ## Numbers, dates and times -/

/-- Digits with single underscores between them; the digits alone. -/
def digitRun (ok : Char → Bool) : List Char → Option (List Char)
  | [] => none
  | c :: rest => if ok c then (afterDigit rest).map (c :: ·) else none
where
  afterDigit : List Char → Option (List Char)
    | [] => some []
    | '_' :: c :: rest => if ok c then (afterDigit rest).map (c :: ·) else none
    | c :: rest => if ok c then (afterDigit rest).map (c :: ·) else none

def digitsValue (base : Nat) (ds : List Char) : Nat :=
  ds.foldl (fun acc c => acc * base + ((hexValue [c]).getD 0)) 0

/-- The sign of a number and what follows it. -/
def splitSign : List Char → Bool × List Char
  | '-' :: rest => (true, rest)
  | '+' :: rest => (false, rest)
  | cs => (false, cs)

/-- Decimal digits without a superfluous leading zero. -/
def wholeDigits (cs : List Char) : Option (List Char) := do
  let ds ← digitRun Char.isDigit cs
  if ds.length > 1 && ds.head? == some '0' then none else some ds

def isOctal (c : Char) : Bool := '0' ≤ c && c ≤ '7'
def isBinary (c : Char) : Bool := c == '0' || c == '1'
def isHexDigit (c : Char) : Bool := (hexValue [c]).isSome

def integerToken (cs : List Char) : Option Int :=
  match cs with
  | '0' :: 'x' :: rest => (digitRun isHexDigit rest).map fun ds => (digitsValue 16 ds : Int)
  | '0' :: 'o' :: rest => (digitRun isOctal rest).map fun ds => (digitsValue 8 ds : Int)
  | '0' :: 'b' :: rest => (digitRun isBinary rest).map fun ds => (digitsValue 2 ds : Int)
  | _ =>
    let (negative, rest) := splitSign cs
    (wholeDigits rest).map fun ds => let v : Int := digitsValue 10 ds; if negative then -v else v

/-- `digits · 10^exponent` as a double, with huge and tiny magnitudes settled first. -/
def scientificFloat (negative : Bool) (digits : Nat) (digitCount : Nat) (exponent : Int) : Float :=
  let magnitude :=
    if digits = 0 then 0.0
    else if exponent + digitCount > 310 then Float.ofScientific 1 false 400
    else if exponent + digitCount < -330 then 0.0
    else if exponent < 0 then Float.ofScientific digits true exponent.natAbs
    else Float.ofScientific digits false exponent.toNat
  if negative then -magnitude else magnitude

def floatToken (cs : List Char) : Option Float := do
  let (negative, rest) := splitSign cs
  match rest with
  | ['i', 'n', 'f'] => return (if negative then -1.0 else 1.0) / 0.0
  | ['n', 'a', 'n'] => return 0.0 / 0.0
  | _ => pure ()
  let mantissa := rest.takeWhile fun c => c != 'e' && c != 'E'
  let exponentPart := rest.drop (mantissa.length + 1)
  let hasExponent := mantissa.length < rest.length
  let wholePart := mantissa.takeWhile (· != '.')
  let hasFraction := wholePart.length < mantissa.length
  if !hasExponent && !hasFraction then none
  let whole ← wholeDigits wholePart
  let fraction ← if hasFraction then digitRun Char.isDigit (mantissa.drop (wholePart.length + 1)) else some []
  let exponent ← if hasExponent then
      let (expNegative, expDigits) := splitSign exponentPart
      (digitRun Char.isDigit expDigits).map fun ds =>
        let v : Int := digitsValue 10 ds
        if expNegative then -v else v
    else some 0
  let ds := whole ++ fraction
  pure (scientificFloat negative (digitsValue 10 ds) ds.length (exponent - fraction.length))

def twoDigitsIn (cs : List Char) (high : Nat) : Bool :=
  match cs with
  | [a, b] => a.isDigit && b.isDigit && digitsValue 10 [a, b] ≤ high
  | _ => false

def isDateText (cs : List Char) : Bool :=
  match cs with
  | [y1, y2, y3, y4, '-', m1, m2, '-', d1, d2] =>
    [y1, y2, y3, y4, m1, m2, d1, d2].all Char.isDigit &&
      let month := digitsValue 10 [m1, m2]
      let day := digitsValue 10 [d1, d2]
      1 ≤ month && month ≤ 12 && 1 ≤ day && day ≤ daysInMonth (digitsValue 10 [y1, y2, y3, y4]) month
  | _ => false

/-- A time of day: hours and minutes, then optionally seconds and a fraction of them. -/
def isTimeText (cs : List Char) : Bool :=
  match cs with
  | [h1, h2, ':', m1, m2] => twoDigitsIn [h1, h2] 23 && twoDigitsIn [m1, m2] 59
  | h1 :: h2 :: ':' :: m1 :: m2 :: ':' :: s1 :: s2 :: fraction =>
    twoDigitsIn [h1, h2] 23 && twoDigitsIn [m1, m2] 59 && twoDigitsIn [s1, s2] 60 &&
      match fraction with
      | [] => true
      | '.' :: ds => !ds.isEmpty && ds.all Char.isDigit
      | _ => false
  | _ => false

def isOffsetText (cs : List Char) : Bool :=
  match cs with
  | ['Z'] | ['z'] => true
  | [sign, h1, h2, ':', m1, m2] => (sign == '+' || sign == '-') && twoDigitsIn [h1, h2] 23 && twoDigitsIn [m1, m2] 59
  | _ => false

/-- A date, a time, or a date and time with or without an offset. -/
def isDateTimeText (cs : List Char) : Bool :=
  if isDateText cs || isTimeText cs then true
  else if isDateText (cs.take 10) then
    match cs.drop 10 with
    | sep :: rest =>
      (sep == 'T' || sep == 't' || sep == ' ') &&
        let timePart := rest.takeWhile fun c => c.isDigit || c == ':' || c == '.'
        isTimeText timePart && (rest.length == timePart.length || isOffsetText (rest.drop timePart.length))
    | [] => false
  else false

def isTokenChar (c : Char) : Bool := c.isAlphanum || c == '_' || c == '+' || c == '-' || c == '.' || c == ':'

/-- The smallest and one past the largest integer kept. -/
def integerLow : Int := -(2 ^ 63)
def integerHigh : Int := 2 ^ 64

/-- What a bare token stands for: a boolean, a date or time, an integer or a float. -/
def scalarOfToken (token : List Char) : Except String TomlValue :=
  if token == ['t', 'r', 'u', 'e'] then .ok (.boolean true)
  else if token == ['f', 'a', 'l', 's', 'e'] then .ok (.boolean false)
  else if isDateTimeText token then .ok (.datetime (String.ofList token))
  else match integerToken token with
    | some i => if integerLow ≤ i ∧ i < integerHigh then .ok (.integer i) else .error "integer number overflowed"
    | none =>
      match floatToken token with
      | some f => .ok (.float f)
      | none =>
        match token.head? with
        | some c => if c.isDigit || c == '+' || c == '-' || c == '.' then .error "invalid number"
          else .error "string values must be quoted, expected literal string"
        | none => .error "missing value, expected value"

/-- A boolean, number, date or time, read as one token; a date may be followed by a blank
and a time. A token that is none of these is noted, and stands for its text. -/
def scalarToken : Lex TomlValue := do
  let s ← get
  let first := s.takeWhile isTokenChar
  let rest := s.drop first.length
  let token := match rest with
    | ' ' :: a :: b :: ':' :: _ =>
      if isDateText first && a.isDigit && b.isDigit then
        first ++ ' ' :: (rest.drop 1).takeWhile isTokenChar
      else first
    | _ => first
  if token.isEmpty then fail "missing value, expected value"
  set (s.drop token.length)
  match scalarOfToken token with
  | .ok v => pure v
  | .error message =>
    note { message, left := s.length, width := token.length }
    pure (.string (String.ofList token))

/-! ## Values -/

/-- Assigns a value under a dotted key inside an inline table. -/
def inlineAssign (table : TomlValue) (created : List TomlPath) (keys : List String) (v : TomlValue) :
    Except String (TomlValue × List TomlPath) :=
  go [] keys table created
where
  go (pre : TomlPath) : List String → TomlValue → List TomlPath → Except String (TomlValue × List TomlPath)
    | [], _, _ => .error "empty key"
    | [k], t, made =>
      let p := pre ++ [.key k]
      match t.getAt p with
      | some _ => .error "duplicate key"
      | none => .ok (t.setAt p v, made)
    | k :: ks, t, made =>
      let p := pre ++ [.key k]
      match t.getAt p with
      | none => go p ks (t.setAt p (.table [])) (p :: made)
      | some (.table _) => if made.contains p then go p ks t made else .error "duplicate key"
      | some _ => .error "duplicate key"

mutual

def value : Nat → Lex TomlValue
  | 0 => fail "nesting too deep"
  | n + 1 => do
    match ← get with
    | '"' :: _ | '\'' :: _ => pure (.string (← stringToken true))
    | '[' :: rest =>
      set rest
      arrayItems n []
    | '{' :: rest =>
      set rest
      skipBlankLines (← get).length
      match ← peek with
      | some '}' => skipOne; pure (.table [])
      | none => fail "unclosed inline table, expected `\x7d`"
      | _ => inlineEntries n (.table []) []
    | _ => scalarToken

def arrayItems : Nat → List TomlValue → Lex TomlValue
  | 0, _ => fail "nesting too deep"
  | n + 1, acc => do
    skipBlankLines (← get).length
    match ← peek with
    | some ']' => skipOne; pure (.array acc.reverse)
    | none => fail "unclosed array, expected `]`"
    | _ =>
      let v ← value n
      skipBlankLines (← get).length
      match ← peek with
      | some ',' => skipOne; arrayItems n (v :: acc)
      | some ']' => skipOne; pure (.array (v :: acc).reverse)
      | none => fail "unclosed array, expected `]`"
      | _ => fail "missing comma between array elements, expected `,`"

def inlineEntries : Nat → TomlValue → List TomlPath → Lex TomlValue
  | 0, _, _ => fail "nesting too deep"
  | n + 1, table, made => do
    let keyLeft := (← get).length
    let keys ← dottedKey (← get).length
    let keyWidth := keyLeft - (← get).length
    skipSpaces
    match ← peek with
    | some '=' => skipOne
    | _ => fail "key with no value, expected `=`"
    skipSpaces
    let v ← value n
    let (table, made) ← match inlineAssign table made keys v with
      | .ok r => pure r
      | .error message => do note { message, left := keyLeft, width := keyWidth }; pure (table, made)
    skipBlankLines (← get).length
    match ← peek with
    | some ',' =>
      skipOne
      skipBlankLines (← get).length
      match ← peek with
      | some '}' => skipOne; pure table
      | _ => inlineEntries n table made
    | some '}' => skipOne; pure table
    | none => fail "unclosed inline table, expected `\x7d`"
    | _ => fail "missing comma between key-value pairs, expected `,`"

end

/-! ## Documents -/

/-- A document as it is assembled, with what the redefinition rules need. -/
structure Assembly where
  root : TomlValue := .table []
  /-- Places of values given by a key, inline tables and arrays included. -/
  assigned : List TomlPath := []
  /-- Tables created by dotted keys. -/
  dotted : List TomlPath := []
  /-- Tables defined by a header. -/
  headers : List TomlPath := []
  /-- Arrays of tables. -/
  tableArrays : List TomlPath := []
  /-- The table that keys are written into. -/
  current : TomlPath := []
  /-- Where each value given by a key and each table given by a header was written, as the
  numbers of characters left at its start and after its end. -/
  spans : List (TomlPath × Nat × Nat) := []

namespace Assembly

/-- Writes a value, written at `place`, under a dotted key of the current table. -/
def assign (a : Assembly) (keys : List String) (v : TomlValue) (place : Nat × Nat) : Except String Assembly :=
  go a.current keys a
where
  go (pre : TomlPath) : List String → Assembly → Except String Assembly
    | [], _ => .error "empty key"
    | [k], a =>
      let p := pre ++ [.key k]
      match a.root.getAt p with
      | some _ => .error "duplicate key"
      | none => .ok { a with root := a.root.setAt p v, assigned := p :: a.assigned, spans := (p, place) :: a.spans }
    | k :: ks, a =>
      let p := pre ++ [.key k]
      match a.root.getAt p with
      | none => go p ks { a with root := a.root.setAt p (.table []), dotted := p :: a.dotted }
      | some (.table _) =>
        if a.dotted.contains p && !a.assigned.contains p then go p ks a else .error "duplicate key"
      | some _ => .error "duplicate key"

/-- Walks the keys of a header before its last, creating tables and entering the last table
of an array of tables. -/
def descend (a : Assembly) : TomlPath → List String → Except String (Assembly × TomlPath)
  | pre, [] => .ok (a, pre)
  | pre, k :: ks =>
    let p := pre ++ [.key k]
    match a.root.getAt p with
    | none => descend { a with root := a.root.setAt p (.table []) } p ks
    | some (.table _) => if a.assigned.contains p then .error "duplicate key" else descend a p ks
    | some (.array items) =>
      if a.tableArrays.contains p then descend a (p ++ [.item (items.length - 1)]) ks
      else .error "duplicate key"
    | some _ => .error "duplicate key"

/-- A `[table]` header, written at `place`. -/
def table (a : Assembly) (keys : List String) (place : Nat × Nat) : Except String Assembly := do
  let (a, pre) ← a.descend [] keys.dropLast
  let p := pre ++ (keys.getLast?.map fun k => [TomlStep.key k]).getD []
  let spans := (p, place) :: a.spans
  match a.root.getAt p with
  | none => pure { a with root := a.root.setAt p (.table []), headers := p :: a.headers, current := p, spans }
  | some (.table _) =>
    if a.headers.contains p || a.dotted.contains p || a.assigned.contains p then throw "duplicate key"
    pure { a with headers := p :: a.headers, current := p, spans }
  | some _ => throw "duplicate key"

/-- An `[[array]]` header, written at `place`: a new table at the end of the array. -/
def arrayTable (a : Assembly) (keys : List String) (place : Nat × Nat) : Except String Assembly := do
  let (a, pre) ← a.descend [] keys.dropLast
  let p := pre ++ (keys.getLast?.map fun k => [TomlStep.key k]).getD []
  match a.root.getAt p with
  | none =>
    pure { a with
      root := a.root.setAt p (.array [.table []]), tableArrays := p :: a.tableArrays
      current := p ++ [.item 0], spans := (p ++ [.item 0], place) :: a.spans }
  | some (.array items) =>
    if !a.tableArrays.contains p then throw "duplicate key"
    pure { a with
      root := a.root.setAt p (.array (items ++ [.table []])), current := p ++ [.item items.length]
      spans := (p ++ [.item items.length], place) :: a.spans }
  | some _ => throw "duplicate key"

end Assembly

/-- Applies a change to the document; a change that breaks the rules is noted at `place`
and left out. -/
def Assembly.apply (a : Assembly) (change : Except String Assembly) (place : Nat × Nat) : Lex Assembly :=
  match change with
  | .ok a => pure a
  | .error message => do
    note { message, left := place.1, width := place.1 - place.2 }
    pure a

/-- A header after its opening brackets: its key, then the closing brackets. -/
def header (closing : List Char) (unclosed : String) : Lex (List String) := do
  skipSpaces
  let keys ← dottedKey (← get).length
  skipSpaces
  let s ← get
  if s.take closing.length == closing then set (s.drop closing.length) else fail unclosed
  pure keys

/-- One line of a document. -/
def line (a : Assembly) : Lex Assembly := do
  skipSpaces
  let s ← get
  match s with
  | [] => pure a
  | '#' :: _ => endOfLine; pure a
  | '\n' :: _ | '\r' :: _ => endOfLine; pure a
  | '[' :: '[' :: rest =>
    set rest
    let keys ← header [']', ']'] "unclosed array table, expected `]]`"
    let place := (s.length, (← get).length)
    endOfLine
    a.apply (a.arrayTable keys place) place
  | '[' :: rest =>
    set rest
    let keys ← header [']'] "unclosed table, expected `]`"
    let place := (s.length, (← get).length)
    endOfLine
    a.apply (a.table keys place) place
  | _ =>
    let keys ← dottedKey s.length
    let keyPlace := (s.length, (← get).length)
    skipSpaces
    match ← peek with
    | some '=' => skipOne
    | _ => fail "key with no value, expected `=`"
    skipSpaces
    let valueLeft := (← get).length
    let v ← value (4 * s.length + 4)
    let valuePlace := (valueLeft, (← get).length)
    endOfLine
    a.apply (a.assign keys v valuePlace) keyPlace

def lines : Nat → Assembly → Lex Assembly
  | 0, a => pure a
  | n + 1, a => do
    if (← get).isEmpty then return a
    let before := (← get).length
    let a ← line a
    if (← get).length ≥ before then fail "unexpected content, expected newline"
    lines n a

end Toml

/-- A TOML document: its table, and where its parts were written. -/
structure TomlDocument where
  root : TomlValue
  /-- The stretch of text of each value given by a key and of each table given by a header. -/
  spans : List (TomlPath × TextSpan)
  /-- The length of the text, in characters. -/
  length : Nat

/-- The stretch of text a place is about: its own, else that of the nearest enclosing place
that has one; the whole text for the document itself. -/
def TomlDocument.spanOf (d : TomlDocument) (p : TomlPath) : TextSpan :=
  go p.reverse
where
  go : List TomlStep → TextSpan
    | [] => ⟨0, d.length⟩
    | step :: outer =>
      match d.spans.find? (·.1 == (step :: outer).reverse) with
      | some (_, span) => span
      | none => go outer

/-- The document a TOML text holds, or the first error in it. Places count the byte order
mark, when there is one. -/
def parseToml (text : String) : Except TomlError TomlDocument :=
  let total := text.length
  let s := match text.toList with
    | '\uFEFF' :: rest => rest
    | all => all
  let place (f : Toml.Fault) : TomlError :=
    { message := f.message, span := ⟨total - f.left, total - f.left + f.width⟩ }
  match ((Toml.lines (total + 1) {}).run s).run none with
  | .ok ((a, _), none) =>
    .ok { root := a.root, length := total, spans := a.spans.map fun (p, l, r) => (p, ⟨total - l, total - r⟩) }
  | .ok (_, some f) => .error (place f)
  | .error f => .error (place f)

end PoolTreasury
