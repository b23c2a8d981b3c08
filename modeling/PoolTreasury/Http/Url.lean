import PoolTreasury.Prelude

/-! # URLs as the WHATWG URL standard reads them

A URL text is read in the standard's phases, without a base URL. Blanks and controls at
both ends are dropped and tabs and line breaks anywhere are left out. A scheme is a letter
and then letters, digits, `+`, `-` and `.`, up to a colon, and is kept in lower case.

The *special* schemes (`http`, `https`, `ws`, `wss`, `ftp`, `file`) read any run of `/`
and `\` after the colon, then an authority up to the next `/`, `\`, `?` or `#`: credentials
before its last `@`, a host, and a port after a colon, dropped when it is the scheme's
default. A host is an IPv6 address in brackets, or a domain: percent-decoded, in lower case,
free of the characters a domain may not hold, and read as an IPv4 address when its last
label is a number. Other schemes keep their host as written, and a text without `//` after
the colon is a path of its own.

A path is a list of segments between separators (`/`, and `\` for special schemes). A
segment `.` is dropped and `..` drops the one before it (also written with `%2e`), and a
path that ends in either ends with an empty segment. Then come the query after `?` and
the fragment after `#`. Characters outside a part's set are percent-encoded from their
UTF-8 bytes in uppercase hexadecimal: controls and everything beyond ASCII always, and
besides those space, `"`, `<`, `>` and a backquote in a fragment; space, `"`, `#`, `<`, `>`
in a query, and `'` as well in the query of a special scheme; the fragment's characters
with `#`, `?` and braces in a path segment; and the path's with `/:;=@[\]^|` in
credentials.
-/

namespace PoolTreasury

/-- Why a text is not a URL. -/
inductive UrlError where
  | emptyHost
  | invalidPort
  | invalidIpv4
  | invalidIpv6
  | invalidDomainCharacter
  | invalidDomainName
  | relativeWithoutBase
deriving DecidableEq, Repr

def UrlError.message : UrlError → String
  | .emptyHost => "empty host"
  | .invalidPort => "invalid port number"
  | .invalidIpv4 => "invalid IPv4 address"
  | .invalidIpv6 => "invalid IPv6 address"
  | .invalidDomainCharacter => "invalid domain character"
  | .invalidDomainName => "invalid international domain name"
  | .relativeWithoutBase => "relative URL without a base"

/-- The path of a URL: segments, or for a URL without an authority or a leading `/`, text
of its own. -/
inductive UrlPath where
  | segments (parts : List String)
  | whole (text : String)
deriving DecidableEq, Repr

structure Url where
  scheme : String
  username : String := ""
  password : String := ""
  /-- The host as written out, when the URL has an authority. -/
  host : Option String := none
  port : Option Nat := none
  path : UrlPath
  query : Option String := none
  fragment : Option String := none
deriving DecidableEq, Repr

namespace Url

/-! ## Percent-encoding -/

def hexDigit (n : Nat) : Char :=
  if n < 10 then Char.ofNat (48 + n) else Char.ofNat (55 + n)

/-- `c` as it stands in a URL part whose set is `escaped`: itself, or the percent-encoding of
each byte of its UTF-8 form. Controls and characters beyond ASCII are always encoded. -/
def encodeChar (escaped : Char → Bool) (c : Char) : List Char :=
  if c.toNat < 32 || c.toNat > 126 || escaped c then
    (String.singleton c).toUTF8.toList.flatMap fun b => ['%', hexDigit (b.toNat / 16), hexDigit (b.toNat % 16)]
  else [c]

def encodeText (escaped : Char → Bool) (cs : List Char) : String :=
  String.ofList (cs.flatMap (encodeChar escaped))

def inFragmentSet (c : Char) : Bool := " \"<>`".toList.contains c
def inQuerySet (c : Char) : Bool := " \"#<>".toList.contains c
def inSpecialQuerySet (c : Char) : Bool := inQuerySet c || c == '\''
def inPathSet (c : Char) : Bool := inFragmentSet c || "#?\x7b\x7d".toList.contains c
def inUserinfoSet (c : Char) : Bool := inPathSet c || "/:;=@[\\]^|".toList.contains c
def inNoSet (_ : Char) : Bool := false

def hexValue? (c : Char) : Option Nat :=
  if c.isDigit then some (c.toNat - 48)
  else if 'a' ≤ c ∧ c ≤ 'f' then some (c.toNat - 87)
  else if 'A' ≤ c ∧ c ≤ 'F' then some (c.toNat - 55)
  else none

/-- The bytes a text stands for, each `%` and two hexadecimal digits read as one byte. -/
def percentDecode : List Char → List UInt8
  | [] => []
  | '%' :: a :: b :: rest =>
    match hexValue? a, hexValue? b with
    | some x, some y => UInt8.ofNat (16 * x + y) :: percentDecode rest
    | _, _ => (String.singleton '%').toUTF8.toList ++ percentDecode (a :: b :: rest)
  | c :: rest => (String.singleton c).toUTF8.toList ++ percentDecode rest

/-! ## Schemes -/

def isSpecialScheme (scheme : String) : Bool :=
  ["http", "https", "ws", "wss", "ftp", "file"].contains scheme

def defaultPort : String → Option Nat
  | "http" | "ws" => some 80
  | "https" | "wss" => some 443
  | "ftp" => some 21
  | _ => none

def isSchemeChar (c : Char) : Bool := c.isAlphanum || c == '+' || c == '-' || c == '.'

/-- The scheme in lower case and the text after its colon. -/
def splitScheme (cs : List Char) : Option (String × List Char) :=
  match cs with
  | c :: _ =>
    if !c.isAlpha then none else
    let scheme := cs.takeWhile isSchemeChar
    match cs.drop scheme.length with
    | ':' :: rest => some (String.ofList (scheme.map Char.toLower), rest)
    | _ => none
  | [] => none

/-! ## Hosts -/

/-- A number in an IPv4 address: decimal, hexadecimal after `0x`, or octal after a `0`. -/
def ipv4Number (cs : List Char) : Option Nat :=
  let (radix, digits) := match cs with
    | '0' :: 'x' :: rest | '0' :: 'X' :: rest => (16, rest)
    | '0' :: rest@(_ :: _) => (8, rest)
    | _ => (10, cs)
  if cs.isEmpty then none
  else digits.foldlM (fun acc c => do
    let d ← hexValue? c
    if d < radix then some (acc * radix + d) else none) 0

/-- The parts of a domain between dots, a final empty part left out. -/
def dotParts (domain : List Char) : List (List Char) :=
  let parts := domain.splitOn '.'
  match parts.getLast? with
  | some [] => if parts.length > 1 then parts.dropLast else parts
  | _ => parts

/-- Whether a domain's last label is a number, which makes it an IPv4 address. -/
def endsInNumber (domain : List Char) : Bool :=
  let parts := domain.splitOn '.'
  let parts := if parts.getLast? == some [] then (if parts.length == 1 then [] else parts.dropLast) else parts
  match parts.getLast? with
  | none => false
  | some last => (!last.isEmpty && last.all Char.isDigit) || (match last with
      | '0' :: 'x' :: rest | '0' :: 'X' :: rest => rest.all fun c => (hexValue? c).isSome
      | _ => false)

/-- An IPv4 address of one to four numbers, the last filling the bytes left over. -/
def ipv4Address (domain : List Char) : Except UrlError Nat := do
  let parts := dotParts domain
  if parts.length > 4 then throw .invalidIpv4
  let numbers ← parts.mapM fun p => match ipv4Number p with
    | some n => pure n
    | none => throw .invalidIpv4
  if numbers.dropLast.any (· > 255) then throw .invalidIpv4
  let last := numbers.getLastD 0
  if last ≥ 256 ^ (5 - numbers.length) then throw .invalidIpv4
  pure (numbers.dropLast.zipIdx.foldl (fun acc (n, i) => acc + n * 256 ^ (3 - i)) last)

def ipv4Text (n : Nat) : String :=
  ".".intercalate ([3, 2, 1, 0].map fun i => toString (n / 256 ^ i % 256))

/-- One group of an IPv6 address: one to four hexadecimal digits. -/
def ipv6Group (cs : List Char) : Option Nat :=
  if cs.isEmpty || cs.length > 4 then none
  else cs.foldlM (fun acc c => (hexValue? c).map (acc * 16 + ·)) 0

/-- A decimal byte of an IPv4 address inside an IPv6 one: no leading zero. -/
def ipv6Byte (cs : List Char) : Option Nat :=
  if cs.isEmpty || !cs.all Char.isDigit || (cs.length > 1 && cs.head? == some '0') then none
  else
    let n := cs.foldl (fun acc c => acc * 10 + (c.toNat - 48)) 0
    if n ≤ 255 then some n else none

/-- The groups a run of IPv6 text stands for; only the last may be an IPv4 address, which
stands for two groups. -/
def ipv6Groups (cs : List Char) : Option (List Nat) :=
  if cs.isEmpty then some [] else
  let parts := cs.splitOn ':'
  let init := parts.dropLast
  let last := parts.getLastD []
  let tail : Option (List Nat) :=
    if last.contains '.' then
      match (last.splitOn '.').mapM ipv6Byte with
      | some [a, b, c, d] => some [a * 256 + b, c * 256 + d]
      | _ => none
    else (ipv6Group last).map ([·])
  do
    let front ← init.mapM ipv6Group
    let back ← tail
    pure (front ++ back)

/-- Splits at the first `::`. -/
def splitCompression : List Char → List Char × Option (List Char)
  | [] => ([], none)
  | ':' :: ':' :: rest => ([], some rest)
  | c :: rest => let (front, back) := splitCompression rest; (c :: front, back)

/-- The eight groups of an IPv6 address; one `::` stands for a run of zero groups, and an
IPv4 address may only end the whole. -/
def ipv6Address (cs : List Char) : Except UrlError (List Nat) :=
  match splitCompression cs with
  | (whole, none) =>
    match ipv6Groups whole with
    | some groups => if groups.length == 8 then .ok groups else .error .invalidIpv6
    | none => .error .invalidIpv6
  | (front, some back) =>
    match ipv6Groups front, ipv6Groups back with
    | some f, some b =>
      if f.length + b.length ≤ 7 && !front.contains '.' then
        .ok (f ++ List.replicate (8 - f.length - b.length) 0 ++ b)
      else .error .invalidIpv6
    | _, _ => .error .invalidIpv6

def lowerHex (n : Nat) : String :=
  if n = 0 then "0" else String.ofList (Nat.toDigits 16 n)

/-- The longest run of at least two zero groups, the first of equal ones: its start and
length. -/
def longestZeroRun (groups : List Nat) : Option (Nat × Nat) :=
  let step (acc : Option (Nat × Nat) × Nat × Nat) (g : Nat × Nat) : Option (Nat × Nat) × Nat × Nat :=
    let (best, start, len) := acc
    let (value, i) := g
    if value = 0 then
      let start := if len = 0 then i else start
      let len := len + 1
      let best := match best with
        | some (_, l) => if len > l then some (start, len) else best
        | none => some (start, len)
      (best, start, len)
    else (best, start, 0)
  match (groups.zipIdx.foldl step (none, 0, 0)).1 with
  | some (s, l) => if l ≥ 2 then some (s, l) else none
  | none => none

def ipv6Text (groups : List Nat) : String :=
  let text (gs : List Nat) := ":".intercalate (gs.map lowerHex)
  match longestZeroRun groups with
  | some (s, l) => text (groups.take s) ++ "::" ++ text (groups.drop (s + l))
  | none => text groups

/-- Characters a domain may not hold, after percent-decoding. -/
def forbiddenInDomain (c : Char) : Bool :=
  c.toNat ≤ 32 || c.toNat == 127 || "%#/:<>?@[\\]^|".toList.contains c

/-- Characters a host of a scheme that is not special may not hold. -/
def forbiddenInHost (c : Char) : Bool :=
  c.toNat == 0 || "\t\n\r #/:<>?@[\\]^|".toList.contains c

def bracketed (cs : List Char) : Option (List Char) :=
  match cs with
  | '[' :: rest => if rest.getLast? == some ']' then some rest.dropLast else none
  | _ => none

/-- The host of a special scheme as written out. Domains beyond ASCII are not read. -/
def specialHost (cs : List Char) : Except UrlError String :=
  if cs.head? == some '[' then
    match bracketed cs with
    | some inner => (ipv6Address inner).map fun gs => "[" ++ ipv6Text gs ++ "]"
    | none => .error .invalidIpv6
  else
    let bytes := percentDecode cs
    if bytes.any (·.toNat ≥ 128) then .error .invalidDomainName
    else
      let domain := bytes.map fun b => (Char.ofNat b.toNat).toLower
      if domain.any forbiddenInDomain then .error .invalidDomainName
      else if domain.isEmpty then .error .emptyHost
      else if endsInNumber domain then (ipv4Address domain).map ipv4Text
      else .ok (String.ofList domain)

/-- The host of another scheme, as written, with controls and non-ASCII percent-encoded. -/
def plainHost (cs : List Char) : Except UrlError String :=
  if cs.head? == some '[' then
    match bracketed cs with
    | some inner => (ipv6Address inner).map fun gs => "[" ++ ipv6Text gs ++ "]"
    | none => .error .invalidIpv6
  else if cs.any forbiddenInHost then .error .invalidDomainCharacter
  else .ok (encodeText inNoSet cs)

/-! ## Authorities -/

/-- Splits at the last occurrence of `sep`: what stands before it and after it. -/
def splitAtLast (sep : Char) (cs : List Char) : Option (List Char × List Char) :=
  match cs.reverse.findIdx? (· == sep) with
  | some i => some (cs.take (cs.length - 1 - i), cs.drop (cs.length - i))
  | none => none

/-- Splits a host and port at the first colon outside brackets. -/
def splitPort : List Char → Bool → List Char × Option (List Char)
  | [], _ => ([], none)
  | c :: rest, inBrackets =>
    if c == ':' && !inBrackets then ([], some rest)
    else
      let inBrackets := if c == '[' then true else if c == ']' then false else inBrackets
      let (host, port) := splitPort rest inBrackets
      (c :: host, port)

def portNumber (scheme : String) (cs : List Char) : Except UrlError (Option Nat) :=
  if cs.isEmpty then .ok none
  else if !cs.all Char.isDigit then .error .invalidPort
  else
    let n := cs.foldl (fun acc c => acc * 10 + (c.toNat - 48)) 0
    if n > 65535 then .error .invalidPort
    else .ok (if defaultPort scheme == some n then none else some n)

/-- An authority: credentials before the last `@`, then the host and port. -/
def authority (special : Bool) (scheme : String) (cs : List Char) (u : Url) : Except UrlError Url := do
  let (userinfo, hostPort) := match splitAtLast '@' cs with
    | some (info, rest) => (some info, rest)
    | none => (none, cs)
  let (username, password) := match userinfo with
    | some info =>
      let name := info.takeWhile (· != ':')
      (encodeText inUserinfoSet name, encodeText inUserinfoSet ((info.drop name.length).drop 1))
    | none => ("", "")
  let (hostText, portText) := splitPort hostPort false
  if special && hostText.isEmpty then throw .emptyHost
  if userinfo.isSome && hostPort.isEmpty then throw .emptyHost
  let host ← if special then specialHost hostText else plainHost hostText
  let port ← portNumber scheme (portText.getD [])
  pure { u with username, password, host := some host, port }

/-! ## Paths, queries and fragments -/

def isSingleDot (buffer : List Char) : Bool :=
  buffer == ['.'] || (buffer.map Char.toLower) == ['%', '2', 'e']

def isDoubleDot (buffer : List Char) : Bool :=
  let b := String.ofList (buffer.map Char.toLower)
  b == ".." || b == ".%2e" || b == "%2e." || b == "%2e%2e"

/-- Adds the segment in `buffer` to the path; `last` when no separator follows it. A `..`
drops the segment before it, and a dot segment at the end leaves an empty one. -/
def closeSegment (segments : List String) (buffer : List Char) (last : Bool) : List String :=
  if isDoubleDot buffer then
    let segments := segments.dropLast
    if last then segments ++ [""] else segments
  else if isSingleDot buffer then
    if last then segments ++ [""] else segments
  else segments ++ [String.ofList buffer]

/-- Reads path segments up to a `?`, a `#` or the end: the segments and what is left. -/
def pathSegments (special : Bool) : List Char → List String → List Char → List String × List Char
  | [], segments, buffer => (closeSegment segments buffer true, [])
  | c :: rest, segments, buffer =>
    if c == '/' || (special && c == '\\') then pathSegments special rest (closeSegment segments buffer false) []
    else if c == '?' || c == '#' then (closeSegment segments buffer true, c :: rest)
    else pathSegments special rest segments (buffer ++ encodeChar inPathSet c)

/-- The query and fragment at the head of the text, if any. -/
def queryAndFragment (special : Bool) (cs : List Char) (u : Url) : Url :=
  let fragmentOf (fs : List Char) := encodeText inFragmentSet fs
  match cs with
  | '?' :: rest =>
    let q := rest.takeWhile (· != '#')
    let fragment := match rest.drop q.length with
      | '#' :: fs => some (fragmentOf fs)
      | _ => none
    { u with query := some (encodeText (if special then inSpecialQuerySet else inQuerySet) q), fragment }
  | '#' :: fs => { u with fragment := some (fragmentOf fs) }
  | _ => u

/-- The path, query and fragment after an authority, or after the scheme when there is none. -/
def rest (special : Bool) (cs : List Char) (u : Url) : Url :=
  match cs with
  | [] => if special then { u with path := .segments [""] } else { u with path := .segments [] }
  | c :: more =>
    if c == '/' || (special && c == '\\') then
      let (segments, after) := pathSegments special more [] []
      queryAndFragment special after { u with path := .segments segments }
    else if !special && (c == '?' || c == '#') then queryAndFragment special cs { u with path := .segments [] }
    else
      let (segments, after) := pathSegments special cs [] []
      queryAndFragment special after { u with path := .segments segments }

/-- Whether a character ends an authority. -/
def endsAuthority (special : Bool) (c : Char) : Bool :=
  c == '/' || c == '?' || c == '#' || (special && c == '\\')

/-- Reads a URL. -/
def parse (text : String) : Except UrlError Url :=
  let trimmed := ((text.toList.dropWhile (·.toNat ≤ 32)).reverse.dropWhile (·.toNat ≤ 32)).reverse
  let cs := trimmed.filter fun c => c != '\t' && c != '\n' && c != '\r'
  match splitScheme cs with
  | none => .error .relativeWithoutBase
  | some (scheme, after) =>
    let special := isSpecialScheme scheme
    let base : Url := { scheme, path := .segments [] }
    if special then
      let afterSlashes := after.dropWhile fun c => c == '/' || c == '\\'
      let auth := afterSlashes.takeWhile fun c => !endsAuthority true c
      if scheme == "file" && auth.isEmpty then
        .ok (rest true (afterSlashes.drop auth.length) { base with host := some "" })
      else do
        let u ← authority true scheme auth base
        pure (rest true (afterSlashes.drop auth.length) u)
    else match after with
      | '/' :: '/' :: more =>
        let auth := more.takeWhile fun c => !endsAuthority false c
        do
          let u ← authority false scheme auth base
          pure (rest false (more.drop auth.length) u)
      | '/' :: _ => .ok (rest false after base)
      | _ =>
        let pathText := after.takeWhile fun c => c != '?' && c != '#'
        .ok (queryAndFragment false (after.drop pathText.length)
          { base with path := .whole (encodeText inNoSet pathText) })

/-! ## Writing -/

def pathText : UrlPath → String
  | .segments parts => String.join (parts.map ("/" ++ ·))
  | .whole text => text

/-- The URL as text. -/
def serialize (u : Url) : String :=
  let credentials :=
    if u.username.isEmpty && u.password.isEmpty then ""
    else u.username ++ (if u.password.isEmpty then "" else ":" ++ u.password) ++ "@"
  let authority := match u.host with
    | some h => "//" ++ credentials ++ h ++ (match u.port with
        | some p => ":" ++ toString p
        | none => "")
    | none => ""
  u.scheme ++ ":" ++ authority ++ pathText u.path ++
    (match u.query with
      | some q => "?" ++ q
      | none => "") ++
    (match u.fragment with
      | some f => "#" ++ f
      | none => "")

/-- Whether the URL names a host; an empty host of a `file` URL does not count. -/
def hasHost (u : Url) : Bool :=
  match u.host with
  | some h => !(u.scheme == "file" && h.isEmpty)
  | none => false

end Url

end PoolTreasury
