import PoolTreasury.Json.Reader
import PoolTreasury.Decimal.Text
import PoolTreasury.Time.Rfc3339
import PoolTreasury.Encoding.Escape

/-! # Reading JSON text against a shape

A `Shape` says what a text must hold: a record with named fields, a list, a map, a
number of a given width, a decimal, and so on. `Shape.read` checks the text against the
shape in one pass and returns the value it holds, with every field of a record present
(absent optional fields as `null`, absent defaulted ones as their default). Decimals come
back as their text.

The errors are those of a typical typed JSON reader: "invalid type: string \"x\",
expected u64", "missing field `id`", "invalid length 0, expected struct Pool with 2
elements", each with the place where it was noticed. A record may also be written as a
list of its fields in order.
-/

namespace PoolTreasury

/-- Whether a record field may be absent. -/
inductive Presence where
  | required
  /-- Absent reads as `null`. -/
  | optional
  /-- Absent reads as the given value, also when a record is written as a list. -/
  | defaulted (value : Json)
deriving Repr

inductive Shape where
  | any
  | text
  | flag
  | unsigned (bits : Nat)
  | signed (bits : Nat)
  | double
  | decimal
  /-- An instant as RFC 3339 text; read back as its text. -/
  | instant
  /-- One of the named constants of an enumeration, written as a string. -/
  | variant (name : String) (names : List String)
  | optional (inner : Shape)
  | list (item : Shape)
  | map (value : Shape)
  | record (name : String) (fields : List (String × Shape × Presence))
  | oneOf (name : String) (alternatives : List Shape)
deriving Repr

namespace Shape

/-- How the expected kind is named in an error. -/
def expecting : Shape → String
  | .any => "any valid JSON value"
  | .text => "a string"
  | .flag => "a boolean"
  | .unsigned bits => "u" ++ toString bits
  | .signed bits => "i" ++ toString bits
  | .double => "f64"
  | .decimal => "a Decimal type representing a fixed-point number"
  | .instant => "an RFC 3339 formatted date and time string"
  | .variant name _ => "enum " ++ name
  | .optional _ => "option"
  | .list _ => "a sequence"
  | .map _ => "a map"
  | .record name _ => "struct " ++ name
  | .oneOf name _ => "untagged enum " ++ name

end Shape

/-- How a value that does not fit is named in an error. -/
inductive Unexpected where
  | null
  | bool (b : Bool)
  | nat (n : Nat)
  | negative (n : Nat)
  | double (f : Float)
  | string (s : String)
  | sequence
  | map

def Unexpected.describe : Unexpected → String
  | .null => "null"
  | .bool b => "boolean `" ++ (if b then "true" else "false") ++ "`"
  | .nat n => "integer `" ++ toString n ++ "`"
  | .negative n => "integer `-" ++ toString n ++ "`"
  | .double f => "floating point `" ++ Float.renderScientific f ++ "`"
  | .string s => "string " ++ debugQuote s
  | .sequence => "sequence"
  | .map => "map"

def Unexpected.ofNumber : JsonNumber → Unexpected
  | .nat n => .nat n
  | .negative n => .negative n
  | .double f => .double f

def invalidType (u : Unexpected) (s : Shape) : JsonError :=
  { message := "invalid type: " ++ u.describe ++ ", expected " ++ s.expecting }

def invalidValue (u : Unexpected) (s : Shape) : JsonError :=
  { message := "invalid value: " ++ u.describe ++ ", expected " ++ s.expecting }

namespace JsonText

/-- The whole-number value of a number, as the given width accepts it. -/
def unsignedOf (bits : Nat) (n : JsonNumber) : Except JsonError Nat :=
  match n with
  | .nat v => if v < 2 ^ bits then .ok v else .error (invalidValue (.nat v) (.unsigned bits))
  | .negative v => .error (invalidValue (.negative v) (.unsigned bits))
  | .double f => .error (invalidType (.double f) (.unsigned bits))

/-- A decimal from a read number or string, as a decimal field accepts it. -/
def signedOf (bits : Nat) (n : JsonNumber) : Except JsonError Int :=
  match n with
  | .nat v => if v < 2 ^ (bits - 1) then .ok v else .error (invalidValue (.nat v) (.signed bits))
  | .negative v =>
    if v ≤ 2 ^ (bits - 1) then .ok (-(v : Int)) else .error (invalidValue (.negative v) (.signed bits))
  | .double f => .error (invalidType (.double f) (.signed bits))

def decimalOfNumber (n : JsonNumber) : Except JsonError Decimal :=
  match n with
  | .nat v => .ok (Decimal.ofNat v)
  | .negative v => .ok (Decimal.ofNat v).neg
  | .double f =>
    match Decimal.parse? (Float.renderPositional f) with
    | .ok d => .ok d
    | .error _ => .error (invalidValue (.double f) .decimal)

def decimalOfText (s : String) : Except JsonError Decimal :=
  match Decimal.read? s with
  | some d => .ok d
  | none => .error (invalidValue (.string s) .decimal)

/-- What a value that was not read would be called: it is looked at, and read only as
far as naming it needs (a list or a map is not entered). -/
def peekUnexpected (src : ByteArray) (i : Nat) (s : Shape) : JsonError × Nat :=
  match byteAt src i with
  | some 110 => match keyword src (i + 1) [117, 108, 108] with
    | .ok (_, j) => (JsonError.placed src j (invalidType .null s), j)
    | .error e => e
  | some 116 => match keyword src (i + 1) [114, 117, 101] with
    | .ok (_, j) => (JsonError.placed src j (invalidType (.bool true) s), j)
    | .error e => e
  | some 102 => match keyword src (i + 1) [97, 108, 115, 101] with
    | .ok (_, j) => (JsonError.placed src j (invalidType (.bool false) s), j)
    | .error e => e
  | some 45 => match readNumber src (i + 1) false with
    | .ok (n, j) => (JsonError.placed src j (invalidType (.ofNumber n) s), j)
    | .error e => e
  | some 34 => match readString src (i + 1) with
    | .ok (str, j) => (JsonError.placed src j (invalidType (.string str) s), j)
    | .error e => e
  | some 91 => (JsonError.placed src i (invalidType .sequence s), i)
  | some 123 => (JsonError.placed src i (invalidType .map s), i)
  | some b =>
    if isDigitByte b then
      match readNumber src i true with
      | .ok (n, j) => (JsonError.placed src j (invalidType (.ofNumber n) s), j)
      | .error e => e
    else (JsonError.ahead src i "expected value", i)
  | none => (JsonError.ahead src i "expected value", i)

/-- Where a list ends after an error inside it: blanks, then a `]` or a `,` with the
blanks after it. -/
def closeList (src : ByteArray) (i : Nat) : Nat :=
  let j := skipBlanks src i
  match byteAt src j with
  | some 93 => j + 1
  | some 44 => skipBlanks src (j + 1)
  | _ => j

/-- Where a map ends after an error inside it: blanks, then a `}`. -/
def closeMap (src : ByteArray) (i : Nat) : Nat :=
  let j := skipBlanks src i
  match byteAt src j with
  | some 125 => j + 1
  | _ => j

/-- The end of a list whose items were all read. -/
def endList (src : ByteArray) (i : Nat) : Step Unit :=
  let j := skipBlanks src i
  match byteAt src j with
  | some 93 => .ok ((), j + 1)
  | some 44 =>
    let k := skipBlanks src (j + 1)
    match byteAt src k with
    | some 93 => fail (.ahead src k "trailing comma") k
    | _ => fail (.ahead src k "trailing characters") k
  | some _ => fail (.ahead src j "trailing characters") j
  | none => fail (.ahead src j "EOF while parsing a list") j

/-- The end of a map whose entries were all read. -/
def endMap (src : ByteArray) (i : Nat) : Step Unit :=
  let j := skipBlanks src i
  match byteAt src j with
  | some 125 => .ok ((), j + 1)
  | some 44 => fail (.ahead src j "trailing comma") j
  | some _ => fail (.ahead src j "trailing characters") j
  | none => fail (.ahead src j "EOF while parsing an object") j

/-- Before the next item of a list: `none` at the closing bracket, else the index of the
item. -/
def nextItem (src : ByteArray) (i : Nat) (first : Bool) : Step (Option Unit) :=
  let j := skipBlanks src i
  match byteAt src j with
  | some 93 => .ok (none, j)
  | some 44 =>
    if first then fail (.ahead src j "expected value") j
    else
      let k := skipBlanks src (j + 1)
      match byteAt src k with
      | some 93 => fail (.ahead src k "trailing comma") k
      | some _ => .ok (some (), k)
      | none => fail (.ahead src k "EOF while parsing a value") k
  | some _ =>
    if first then .ok (some (), j) else fail (.ahead src j "expected `,` or `]`") j
  | none => fail (.ahead src j "EOF while parsing a list") j

/-- Before the next key of a map: `none` at the closing brace, else the key and the index
after the colon. -/
def nextKey (src : ByteArray) (i : Nat) (first : Bool) : Step (Option String) :=
  let j := skipBlanks src i
  let atKey (k : Nat) : Step (Option String) :=
    match byteAt src k with
    | some 34 =>
      match readString src (k + 1) with
      | .ok (key, m) => .ok (some key, m)
      | .error e => .error e
    | some 125 => fail (.ahead src k "trailing comma") k
    | some _ => fail (.ahead src k "key must be a string") k
    | none => fail (.ahead src k "EOF while parsing a value") k
  match byteAt src j with
  | some 125 => .ok (none, j)
  | some 44 =>
    if first then fail (.ahead src j "key must be a string") j
    else atKey (skipBlanks src (j + 1))
  | some _ => if first then atKey j else fail (.ahead src j "expected `,` or `\x7d`") j
  | none => fail (.ahead src j "EOF while parsing an object") j

/-- The colon after a key. -/
def colon (src : ByteArray) (i : Nat) : Step Unit :=
  let j := skipBlanks src i
  match byteAt src j with
  | some 58 => .ok ((), j + 1)
  | some _ => fail (.ahead src j "expected `:`") j
  | none => fail (.ahead src j "EOF while parsing an object") j

/-- The refusal of a name that is not one of `names`. -/
def unknownVariant (name : String) (names : List String) : String :=
  let quoted := names.map fun n => "`" ++ n ++ "`"
  let expected := match quoted with
    | [] => "there are no variants"
    | [one] => "expected " ++ one
    | [one, two] => "expected " ++ one ++ " or " ++ two
    | _ => "expected one of " ++ ", ".intercalate quoted
  "unknown variant `" ++ name ++ "`, " ++ expected

/-- Whether a value read without a shape fits a shape, for the alternatives of a `oneOf`. -/
def fitsShape : Shape → Json → Option Json
  | .any, j => some j
  | .text, .string s => some (.string s)
  | .flag, .bool b => some (.bool b)
  | .unsigned bits, .number (.nat n) => if n < 2 ^ bits then some (.number (.nat n)) else none
  | .double, .number n => some (.number n)
  | _, _ => none

mutual

/-- Any value, as it is written. Nesting deeper than `depth` is refused. -/
def readAny (src : ByteArray) (fuel depth : Nat) (i : Nat) : Step Json :=
  match fuel with
  | 0 => fail (.ahead src i "recursion limit exceeded") i
  | fuel + 1 =>
    let i := skipBlanks src i
    match byteAt src i with
    | none => fail (.ahead src i "EOF while parsing a value") i
    | some b =>
      match b.toNat with
      | 110 => (keyword src (i + 1) [117, 108, 108]).map fun (_, j) => (.null, j)
      | 116 => (keyword src (i + 1) [114, 117, 101]).map fun (_, j) => (.bool true, j)
      | 102 => (keyword src (i + 1) [97, 108, 115, 101]).map fun (_, j) => (.bool false, j)
      | 45 => (readNumber src (i + 1) false).map fun (n, j) => (.number n, j)
      | 34 => (readString src (i + 1)).map fun (s, j) => (.string s, j)
      | 91 =>
        if depth ≤ 1 then fail (.ahead src i "recursion limit exceeded") i
        else
          match readAnyItems src fuel (depth - 1) (i + 1) true [] with
          | .ok (items, j) =>
            match endList src j with
            | .ok (_, k) => .ok (.array items, k)
            | .error e => .error e
          | .error (e, j) => .error (JsonError.placed src (closeList src j) e, j)
      | 123 =>
        if depth ≤ 1 then fail (.ahead src i "recursion limit exceeded") i
        else
          match readAnyFields src fuel (depth - 1) (i + 1) true [] with
          | .ok (fields, j) =>
            match endMap src j with
            | .ok (_, k) => .ok (.object fields, k)
            | .error e => .error e
          | .error (e, j) => .error (JsonError.placed src (closeMap src j) e, j)
      | _ =>
        if isDigitByte b then (readNumber src i true).map fun (n, j) => (.number n, j)
        else fail (.ahead src i "expected value") i

def readAnyItems (src : ByteArray) (fuel depth : Nat) (i : Nat) (first : Bool)
    (acc : List Json) : Step (List Json) :=
  match fuel with
  | 0 => fail (.ahead src i "recursion limit exceeded") i
  | fuel + 1 =>
    match nextItem src i first with
    | .error e => .error e
    | .ok (none, j) => .ok (acc.reverse, j)
    | .ok (some (), j) =>
      match readAny src fuel depth j with
      | .error e => .error e
      | .ok (v, k) => readAnyItems src fuel depth k false (v :: acc)

def readAnyFields (src : ByteArray) (fuel depth : Nat) (i : Nat) (first : Bool)
    (acc : List (String × Json)) : Step (List (String × Json)) :=
  match fuel with
  | 0 => fail (.ahead src i "recursion limit exceeded") i
  | fuel + 1 =>
    match nextKey src i first with
    | .error e => .error e
    | .ok (none, j) => .ok (acc.reverse, j)
    | .ok (some key, j) =>
      match colon src j with
      | .error e => .error e
      | .ok (_, k) =>
        match readAny src fuel depth k with
        | .error e => .error e
        | .ok (v, m) => readAnyFields src fuel depth m false ((key, v) :: acc)

end

/-- Every field in declaration order, absent ones filled in; the first absent required
field is an error. -/
def completeRecord (fields : List (String × Shape × Presence)) (found : List (String × Json)) :
    Except JsonError (List (String × Json)) :=
  fields.mapM fun (key, _, presence) =>
    match found.find? (·.1 == key), presence with
    | some (_, v), _ => .ok (key, v)
    | none, .required => .error { message := "missing field `" ++ key ++ "`" }
    | none, .optional => .ok (key, .null)
    | none, .defaulted v => .ok (key, v)

mutual

/-- A value of the given shape. -/
def readShape (src : ByteArray) (fuel depth : Nat) (s : Shape) (i : Nat) : Step Json :=
  match fuel with
  | 0 => fail (.ahead src i "recursion limit exceeded") i
  | fuel + 1 =>
    let i := skipBlanks src i
    match s with
    | .any => readAny src fuel depth i
    | .optional inner =>
      match byteAt src i with
      | some 110 => (keyword src (i + 1) [117, 108, 108]).map fun (_, j) => (.null, j)
      | _ => readShape src fuel depth inner i
    | .oneOf _ alternatives =>
      match readAny src fuel depth i with
      | .error e => .error e
      | .ok (v, j) =>
        match alternatives.findSome? (fitsShape · v) with
        | some w => .ok (w, j)
        | none => .error ({ message := "data did not match any variant of " ++ s.expecting }, j)
    | _ =>
      match byteAt src i with
      | none => fail (.ahead src i "EOF while parsing a value") i
      | some b => readShapeAt src fuel depth s i b

/-- A value of the given shape whose first byte `b` is at `i`. -/
def readShapeAt (src : ByteArray) (fuel depth : Nat) (s : Shape) (i : Nat) (b : UInt8) :
    Step Json :=
  match fuel with
  | 0 => fail (.ahead src i "recursion limit exceeded") i
  | fuel + 1 =>
    let mismatch : Step Json := .error (peekUnexpected src i s)
    match s with
    | .text =>
      if b == 34 then (readString src (i + 1)).map fun (str, j) => (.string str, j)
      else mismatch
    | .flag =>
      if b == 116 then (keyword src (i + 1) [114, 117, 101]).map fun (_, j) => (.bool true, j)
      else if b == 102 then
        (keyword src (i + 1) [97, 108, 115, 101]).map fun (_, j) => (.bool false, j)
      else mismatch
    | .unsigned bits =>
      let number := if b == 45 then readNumber src (i + 1) false
        else if isDigitByte b then readNumber src i true
        else .error (peekUnexpected src i s)
      match number with
      | .error e => .error e
      | .ok (n, j) =>
        match unsignedOf bits n with
        | .ok v => .ok (.number (.nat v), j)
        | .error e => fail (JsonError.placed src j e) j
    | .signed bits =>
      let number := if b == 45 then readNumber src (i + 1) false
        else if isDigitByte b then readNumber src i true
        else .error (peekUnexpected src i s)
      match number with
      | .error e => .error e
      | .ok (n, j) =>
        match signedOf bits n with
        | .ok v => .ok (Json.ofInt v, j)
        | .error e => fail (JsonError.placed src j e) j
    | .double =>
      if b == 45 then (readNumber src (i + 1) false).map fun (n, j) => (.number n, j)
      else if isDigitByte b then (readNumber src i true).map fun (n, j) => (.number n, j)
      else mismatch
    | .decimal =>
      let asDecimal (r : Except JsonError Decimal) (j : Nat) : Step Json :=
        match r with
        | .ok d => .ok (.string d.render, j)
        | .error e => fail (JsonError.placed src j e) j
      if b == 34 then
        match readString src (i + 1) with
        | .ok (str, j) => asDecimal (decimalOfText str) j
        | .error e => .error e
      else if b == 45 then
        match readNumber src (i + 1) false with
        | .ok (n, j) => asDecimal (decimalOfNumber n) j
        | .error e => .error e
      else if isDigitByte b then
        match readNumber src i true with
        | .ok (n, j) => asDecimal (decimalOfNumber n) j
        | .error e => .error e
      else if b == 91 then
        fail (JsonError.placed src (closeList src (i + 1)) (invalidType .sequence s)) (i + 1)
      else if b == 123 then
        fail (JsonError.placed src (closeMap src (i + 1)) (invalidType .map s)) (i + 1)
      else mismatch
    | .instant =>
      if b == 34 then
        match readString src (i + 1) with
        | .ok (str, j) =>
          match parseRfc3339 str with
          | .ok _ => .ok (.string str, j)
          | .error e => fail (JsonError.seen src j e.message) j
        | .error e => .error e
      else mismatch
    | .variant _ names =>
      if b == 34 then
        match readString src (i + 1) with
        | .ok (str, j) =>
          if names.contains str then .ok (.string str, j)
          else fail (JsonError.seen src j (unknownVariant str names)) j
        | .error e => .error e
      else fail (.ahead src i "expected value") i
    | .list item =>
      if b != 91 then mismatch
      else if depth ≤ 1 then fail (.ahead src i "recursion limit exceeded") i
      else
        match readItems src fuel (depth - 1) item (i + 1) true [] with
        | .ok (items, j) =>
          match endList src j with
          | .ok (_, k) => .ok (.array items, k)
          | .error e => .error e
        | .error (e, j) => .error (JsonError.placed src (closeList src j) e, j)
    | .map value =>
      if b != 123 then mismatch
      else if depth ≤ 1 then fail (.ahead src i "recursion limit exceeded") i
      else
        match readEntries src fuel (depth - 1) value (i + 1) true [] with
        | .ok (fields, j) =>
          match endMap src j with
          | .ok (_, k) => .ok (.object fields, k)
          | .error e => .error e
        | .error (e, j) => .error (JsonError.placed src (closeMap src j) e, j)
    | .record name fields =>
      if b == 91 then
        if depth ≤ 1 then fail (.ahead src i "recursion limit exceeded") i
        else
          match readPositional src fuel (depth - 1) name fields fields.length (i + 1) true 0 [] with
          | .ok (vs, j) =>
            match endList src j with
            | .ok (_, k) => .ok (.object vs, k)
            | .error e => .error e
          | .error (e, j) => .error (JsonError.placed src (closeList src j) e, j)
      else if b == 123 then
        if depth ≤ 1 then fail (.ahead src i "recursion limit exceeded") i
        else
          match readFields src fuel (depth - 1) fields (i + 1) true [] with
          | .ok (found, j) =>
            match completeRecord fields found with
            | .error e =>
              let k := closeMap src j
              fail (JsonError.placed src k e) k
            | .ok vs =>
              match endMap src j with
              | .ok (_, k) => .ok (.object vs, k)
              | .error e => .error e
          | .error (e, j) => .error (JsonError.placed src (closeMap src j) e, j)
      else mismatch
    | _ => readShape src fuel depth s i

def readItems (src : ByteArray) (fuel depth : Nat) (item : Shape) (i : Nat) (first : Bool)
    (acc : List Json) : Step (List Json) :=
  match fuel with
  | 0 => fail (.ahead src i "recursion limit exceeded") i
  | fuel + 1 =>
    match nextItem src i first with
    | .error e => .error e
    | .ok (none, j) => .ok (acc.reverse, j)
    | .ok (some (), j) =>
      match readShape src fuel depth item j with
      | .error e => .error e
      | .ok (v, k) => readItems src fuel depth item k false (v :: acc)

def readEntries (src : ByteArray) (fuel depth : Nat) (value : Shape) (i : Nat) (first : Bool)
    (acc : List (String × Json)) : Step (List (String × Json)) :=
  match fuel with
  | 0 => fail (.ahead src i "recursion limit exceeded") i
  | fuel + 1 =>
    match nextKey src i first with
    | .error e => .error e
    | .ok (none, j) => .ok (acc.reverse, j)
    | .ok (some key, j) =>
      match colon src j with
      | .error e => .error e
      | .ok (_, k) =>
        match readShape src fuel depth value k with
        | .error e => .error e
        | .ok (v, m) => readEntries src fuel depth value m false ((key, v) :: acc)

/-- The fields of a record written as a map, in the order read. A known field read twice
is an error; an unknown one is read and dropped. -/
def readFields (src : ByteArray) (fuel depth : Nat) (fields : List (String × Shape × Presence))
    (i : Nat) (first : Bool) (acc : List (String × Json)) : Step (List (String × Json)) :=
  match fuel with
  | 0 => fail (.ahead src i "recursion limit exceeded") i
  | fuel + 1 =>
    match nextKey src i first with
    | .error e => .error e
    | .ok (none, j) => .ok (acc.reverse, j)
    | .ok (some key, j) =>
      match fields.find? (·.1 == key) with
      | some (_, shape, _) =>
        if acc.any (·.1 == key) then
          .error ({ message := "duplicate field `" ++ key ++ "`" }, j)
        else
          match colon src j with
          | .error e => .error e
          | .ok (_, k) =>
            match readShape src fuel depth shape k with
            | .error e => .error e
            | .ok (v, m) => readFields src fuel depth fields m false ((key, v) :: acc)
      | none =>
        match colon src j with
        | .error e => .error e
        | .ok (_, k) =>
          match readAny src fuel 1000 k with
          | .error e => .error e
          | .ok (_, m) => readFields src fuel depth fields m false acc

/-- The fields of a record written as a list, in declaration order. -/
def readPositional (src : ByteArray) (fuel depth : Nat) (name : String)
    (fields : List (String × Shape × Presence)) (total : Nat) (i : Nat) (first : Bool)
    (index : Nat) (acc : List (String × Json)) : Step (List (String × Json)) :=
  match fuel with
  | 0 => fail (.ahead src i "recursion limit exceeded") i
  | fuel + 1 =>
    match fields with
    | [] => .ok (acc.reverse, i)
    | (key, shape, presence) :: rest =>
      match nextItem src i first with
      | .error e => .error e
      | .ok (none, j) =>
        match presence with
        | .defaulted v =>
          readPositional src fuel depth name rest total j first (index + 1) ((key, v) :: acc)
        | _ =>
          let noun := if total = 1 then " element" else " elements"
          .error ({ message := "invalid length " ++ toString index ++ ", expected struct " ++
            name ++ " with " ++ toString total ++ noun }, j)
      | .ok (some (), j) =>
        match readShape src fuel depth shape j with
        | .error e => .error e
        | .ok (v, k) =>
          readPositional src fuel depth name rest total k false (index + 1) ((key, v) :: acc)

end

end JsonText

namespace Shape

/-- The whole text as one value of this shape, with nothing but blanks after it. -/
def readBytes (s : Shape) (src : ByteArray) : Except JsonError Json :=
  match JsonText.readShape src (4 * src.size + 16) 128 s 0 with
  | .error (e, j) => .error (JsonError.placed src j e)
  | .ok (v, j) =>
    let k := JsonText.skipBlanks src j
    if k < src.size then .error (JsonError.ahead src k "trailing characters") else .ok v

def read (s : Shape) (text : String) : Except JsonError Json := s.readBytes text.toUTF8

end Shape

/-- Any JSON text as a value. -/
def Json.parse (text : String) : Except JsonError Json := Shape.any.read text

end PoolTreasury
