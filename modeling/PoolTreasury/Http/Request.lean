import PoolTreasury.Http.Url
/-! # HTTP requests and the network that carries them

A client names a service by its endpoint, a base URL whose trailing slashes are dropped,
and asks it for a path below it, with query pairs. The endpoint and the path are joined
as text and read as one URL, so that dot segments, backslashes, a `?` or a `#` in either
take effect. The URL is checked before anything is sent: text that is no URL cannot be
used at all, and one without a host or with a scheme other than `http` or `https` is
refused; each is a builder failure. Credentials in the URL are taken out of it.

Query pairs use the form encoding: ASCII letters, digits and `*-._` stand for themselves,
a space is `+`, and every other byte of the UTF-8 text is `%` and two uppercase
hexadecimal digits. They follow the URL's own query after a `&`, before its fragment.

A network decides what becomes of a request. A request that no server answers fails with
`error sending request for url (URL)` and the chain of causes below it.
-/

namespace PoolTreasury

inductive HttpMethod where
  | get
  | post
deriving DecidableEq, Repr

def HttpMethod.name : HttpMethod → String
  | .get => "GET"
  | .post => "POST"

structure HttpRequest where
  method : HttpMethod
  url : String
  /-- Header names and values, in the order they are set. -/
  headers : List (String × String)
  body : Option String
deriving DecidableEq, Repr

structure HttpResponse where
  status : Nat
  body : String
deriving DecidableEq, Repr

/-- A status in the 200s. -/
def HttpResponse.isSuccess (r : HttpResponse) : Bool := 200 ≤ r.status && r.status < 300

/-- Why a request got no answer. -/
inductive SendFailure where
  /-- The request could not be built; the URL is shown when it could be read. -/
  | builder (url : Option String) (cause : String)
  /-- The request was built but no answer came back. -/
  | unsent (url : String) (causes : List String)
deriving DecidableEq, Repr

namespace SendFailure

def message : SendFailure → String
  | .builder none _ => "builder error"
  | .builder (some url) _ => "builder error for url (" ++ url ++ ")"
  | .unsent url _ => "error sending request for url (" ++ url ++ ")"

/-- The causes beneath the message, the nearest first. -/
def causes : SendFailure → List String
  | .builder _ cause => [cause]
  | .unsent _ causes => causes

end SendFailure

/-- What the network makes of a request: an answer, or why there is none. -/
abbrev Network := HttpRequest → Except SendFailure HttpResponse

/-- A network on which no host can be reached. -/
def Network.unreachable : Network := fun r =>
  .error (.unsent r.url ["client error (Connect)", "tcp connect error",
    "Network is unreachable (os error 101)"])

/-! ## URLs -/

/-- An uppercase hexadecimal digit. -/
def upperNibble (n : Nat) : Char :=
  if n < 10 then Char.ofNat (48 + n) else Char.ofNat (55 + n)

def percentByte (b : UInt8) : List Char :=
  ['%', upperNibble (b.toNat / 16), upperNibble (b.toNat % 16)]

/-- A byte of a query key or value in the form encoding. -/
def formByte (b : UInt8) : List Char :=
  let c := Char.ofNat b.toNat
  if b.toNat < 128 && (c.isAlphanum || c == '*' || c == '-' || c == '.' || c == '_') then [c]
  else if b.toNat == 32 then ['+']
  else percentByte b

def formEncode (s : String) : String :=
  String.ofList (s.toUTF8.toList.flatMap formByte)

/-- Query pairs joined by `&`, each written `key=value`. -/
def queryText (pairs : List (String × String)) : String :=
  "&".intercalate (pairs.map fun (k, v) => formEncode k ++ "=" ++ formEncode v)

/-- An endpoint without its trailing slashes. -/
def trimEndpoint (endpoint : String) : String :=
  String.ofList (endpoint.toList.reverse.dropWhile (· == '/')).reverse

/-- Whether percent-encoded text decodes to UTF-8. -/
def decodesToText (text : String) : Bool :=
  (String.fromUTF8? (ByteArray.mk (Url.percentDecode text.toList).toArray)).isSome

/-- The URL without its credentials, which a request sends as a header instead. Credentials
that do not decode are left in place. -/
def Url.withoutCredentials (u : Url) : Url :=
  if !decodesToText u.username then u
  else if !u.username.isEmpty || (!u.password.isEmpty && decodesToText u.password) then
    { u with username := "", password := "" }
  else u

/-- The URL with query pairs added after its query, if it has one. -/
def Url.addQuery (u : Url) (pairs : List (String × String)) : Url :=
  if pairs.isEmpty then u
  else
    let added := queryText pairs
    { u with query := some (match u.query with
      | some q => if q.isEmpty then added else q ++ "&" ++ added
      | none => added) }

/-- The URL of `path` and `query` below an endpoint, or why it cannot be used. A URL that
does not read, or names no host, is refused before the query is added; one whose scheme is
not `http` or `https` after. -/
def requestUrl (endpoint path : String) (query : List (String × String)) :
    Except SendFailure String :=
  match Url.parse (trimEndpoint endpoint ++ path) with
  | .error e => .error (.builder none e.message)
  | .ok u =>
    if !u.hasHost then .error (.builder (some u.serialize) "URL scheme is not allowed")
    else
      let u := u.withoutCredentials.addQuery query
      if u.scheme == "http" || u.scheme == "https" then .ok u.serialize
      else .error (.builder (some u.serialize) "URL scheme is not allowed")

/-- Sends a request for `path` below `endpoint` over `net`. -/
def exchange (net : Network) (method : HttpMethod) (endpoint path : String)
    (query headers : List (String × String)) (body : Option String) :
    Except SendFailure HttpResponse := do
  let url ← requestUrl endpoint path query
  net { method, url, headers, body }

end PoolTreasury
