import PoolTreasury.Toml.Parse
import PoolTreasury.Json.Shape

/-! # Node configuration

A node is configured by a TOML file with the sections `treasury` and `wallet`, which are
required, and `storage`, `feed`, `oracle` and `scheduler`, whose fields all have
defaults, as does the top-level `log_level`. Unknown keys are ignored. A value of the
wrong kind, or a number out of its field's range, makes the file unreadable; a readable
file is then validated: addresses, the secret and the wallet endpoint must be set, the
commission positive, every interval and the page size non-zero.

The signing secret is never shown: the debugging text of the treasury section leaves it
out and ends in `..`.
-/

namespace PoolTreasury

def defaultRatesEndpoint : String := "https://tonapi.io/v2"
def defaultDexEndpoint : String := "https://api.dexscreener.com"
def defaultSourceTimeoutSecs : Nat := 10
def defaultFeedEndpoint : String := "https://toncenter.com/api/v3"
def defaultStoragePath : String := "$HOME/.pool-node/data"
def defaultConfigPath : String := "$HOME/.pool-node/config.toml"

structure TreasurySection where
  address : String
  signingSecret : String
  commissionAmount : Decimal
  tokenName : String
  tokenDecimals : Nat

structure FeedSection where
  endpoint : String := defaultFeedEndpoint
  apiKey : Option String := none
  pollIntervalSecs : Nat := 5
  pageSize : Nat := 50
  requestTimeoutSecs : Nat := 10
  /-- Where ingestion starts when no cursor has been stored yet. -/
  startLt : Nat := 0

structure OracleSection where
  primaryEndpoint : String := defaultRatesEndpoint
  primaryApiKey : Option String := none
  /-- Empty disables the fallback source. -/
  fallbackEndpoint : String := defaultDexEndpoint
  timeoutSecs : Nat := defaultSourceTimeoutSecs

structure WalletSection where
  endpoint : String
  apiKey : Option String
  timeoutSecs : Nat

structure SchedulerSection where
  tickIntervalSecs : Nat := 86400
  callTimeoutSecs : Nat := 10

structure NodeConfig where
  logLevel : String
  treasury : TreasurySection
  storagePath : String
  feed : FeedSection
  oracle : OracleSection
  wallet : WalletSection
  scheduler : SchedulerSection

/-- Why a configuration could not be had. -/
inductive ConfigError where
  /-- The file could not be read; the detail is the system's. -/
  | io (path detail : String)
  | parse (detail : String)
  | invalid (why : String)
deriving DecidableEq, Repr

namespace ConfigError

def message : ConfigError → String
  | .io path detail => "Failed to read " ++ path ++ ": " ++ detail
  | .parse detail => "Failed to parse config: " ++ detail
  | .invalid why => "Invalid config: " ++ why

/-- The errors beneath this one, the nearest first. -/
def sources : ConfigError → List String
  | .io _ detail => [detail]
  | .parse detail => [detail]
  | .invalid _ => []

def variant : ConfigError → String
  | .io .. => "Io"
  | .parse _ => "Parse"
  | .invalid _ => "Invalid"

end ConfigError

/-! ## Reading the sections

A section is read from its table the way a typed record is: first the entries it knows,
in the order of their keys (other keys are passed over), then the fields it must have and
was not given, in the section's own order. The first misfit is reported with the place it
is about: the value itself for a value of the wrong kind or out of range, the table for a
missing field.
-/

/-- Why a document does not fit a configuration, and the place in it the error is about. -/
structure Misfit where
  place : TomlPath
  message : String
deriving DecidableEq, Repr

namespace TomlField

abbrev Decoding := Except Misfit

/-- How a value that does not fit is named: a date or time reads as a map. -/
def unexpected : TomlValue → Unexpected
  | .string s => .string s
  | .integer i => if i < 0 then .negative i.natAbs else .nat i.toNat
  | .float f => .double f
  | .boolean b => .bool b
  | .datetime _ | .table _ => .map
  | .array _ => .sequence

def invalidType {α : Type} (p : TomlPath) (v : TomlValue) (expected : String) : Decoding α :=
  throw ⟨p, "invalid type: " ++ (unexpected v).describe ++ ", expected " ++ expected⟩

def invalidValue {α : Type} (p : TomlPath) (v : TomlValue) (expected : String) : Decoding α :=
  throw ⟨p, "invalid value: " ++ (unexpected v).describe ++ ", expected " ++ expected⟩

def text (p : TomlPath) : TomlValue → Decoding String
  | .string s => pure s
  | v => invalidType p v "a string"

/-- A whole number of the given width; `name` is the type's name. -/
def unsigned (name : String) (bits : Nat) (p : TomlPath) : TomlValue → Decoding Nat
  | .integer i => if 0 ≤ i ∧ i < 2 ^ bits then pure i.toNat else invalidValue p (.integer i) name
  | v => invalidType p v name

def decimalExpected : String := "a Decimal type representing a fixed-point number"

/-- A decimal from a string, an integer or a float, the float through its shortest text. -/
def decimal (p : TomlPath) : TomlValue → Decoding Decimal
  | .string s => match Decimal.read? s with
    | some d => pure d
    | none => invalidValue p (.string s) decimalExpected
  | .integer i => pure (if i < 0 then (Decimal.ofNat i.natAbs).neg else Decimal.ofNat i.toNat)
  | .float f =>
    if f.isNaN || f.isInf then invalidValue p (.float f) decimalExpected
    else match Decimal.parse? (Float.renderPositional f) with
      | .ok d => pure d
      | .error _ => invalidValue p (.float f) decimalExpected
  | v => invalidType p v decimalExpected

/-- The entries of a section's table; a date or time reads as a table of no known key. -/
def record (name : String) (p : TomlPath) : TomlValue → Decoding (List (String × TomlValue))
  | .table es => pure es
  | .datetime _ => pure []
  | v => invalidType p v ("struct " ++ name)

/-- A field of a section: its key, whether it must be given, and how its value is read. -/
structure FieldRule where
  key : String
  required : Bool
  check : TomlPath → TomlValue → Decoding Unit

def rule {α : Type} (key : String) (required : Bool) (read : TomlPath → TomlValue → Decoding α) :
    FieldRule :=
  { key, required, check := fun p v => do let _ ← read p v }

/-- Checks the table of a section at `p` in reading order. -/
def checkRecord (p : TomlPath) (entries : List (String × TomlValue)) (rules : List FieldRule) :
    Decoding Unit := do
  for (k, v) in entries.mergeSort fun x y => decide (x.1 ≤ y.1) do
    match rules.find? (·.key == k) with
    | some r => r.check (p ++ [.key k]) v
    | none => pure ()
  for r in rules do
    if r.required && (TomlValue.lookup entries r.key).isNone then
      throw ⟨p, "missing field `" ++ r.key ++ "`"⟩

def required {α : Type} (p : TomlPath) (t : List (String × TomlValue)) (key : String)
    (read : TomlPath → TomlValue → Decoding α) : Decoding α :=
  match TomlValue.lookup t key with
  | some v => read (p ++ [.key key]) v
  | none => throw ⟨p, "missing field `" ++ key ++ "`"⟩

def withDefault {α : Type} (p : TomlPath) (t : List (String × TomlValue)) (key : String) (d : α)
    (read : TomlPath → TomlValue → Decoding α) : Decoding α :=
  match TomlValue.lookup t key with
  | some v => read (p ++ [.key key]) v
  | none => pure d

def optional {α : Type} (p : TomlPath) (t : List (String × TomlValue)) (key : String)
    (read : TomlPath → TomlValue → Decoding α) : Decoding (Option α) :=
  match TomlValue.lookup t key with
  | some v => some <$> read (p ++ [.key key]) v
  | none => pure none

end TomlField

open TomlField in
def TreasurySection.ofToml (p : TomlPath) (v : TomlValue) : Decoding TreasurySection := do
  let t ← record "TreasuryConfig" p v
  checkRecord p t [rule "address" true text, rule "signing_secret" true text,
    rule "commission_amount" true decimal, rule "token_name" false text, rule "token_decimals" false (unsigned "u8" 8)]
  pure {
    address := ← required p t "address" text
    signingSecret := ← required p t "signing_secret" text
    commissionAmount := ← required p t "commission_amount" decimal
    tokenName := ← withDefault p t "token_name" "jetton" text
    tokenDecimals := ← withDefault p t "token_decimals" 9 (unsigned "u8" 8) }

open TomlField in
def FeedSection.ofToml (p : TomlPath) (v : TomlValue) : Decoding FeedSection := do
  let t ← record "FeedSection" p v
  checkRecord p t [rule "endpoint" false text, rule "api_key" false text,
    rule "poll_interval_secs" false (unsigned "u64" 64), rule "page_size" false (unsigned "usize" 64),
    rule "request_timeout_secs" false (unsigned "u64" 64), rule "start_lt" false (unsigned "u64" 64)]
  let d : FeedSection := {}
  pure {
    endpoint := ← withDefault p t "endpoint" d.endpoint text
    apiKey := ← optional p t "api_key" text
    pollIntervalSecs := ← withDefault p t "poll_interval_secs" d.pollIntervalSecs (unsigned "u64" 64)
    pageSize := ← withDefault p t "page_size" d.pageSize (unsigned "usize" 64)
    requestTimeoutSecs := ← withDefault p t "request_timeout_secs" d.requestTimeoutSecs (unsigned "u64" 64)
    startLt := ← withDefault p t "start_lt" d.startLt (unsigned "u64" 64) }

open TomlField in
def OracleSection.ofToml (p : TomlPath) (v : TomlValue) : Decoding OracleSection := do
  let t ← record "OracleSection" p v
  checkRecord p t [rule "primary_endpoint" false text, rule "primary_api_key" false text,
    rule "fallback_endpoint" false text, rule "timeout_secs" false (unsigned "u64" 64)]
  let d : OracleSection := {}
  pure {
    primaryEndpoint := ← withDefault p t "primary_endpoint" d.primaryEndpoint text
    primaryApiKey := ← optional p t "primary_api_key" text
    fallbackEndpoint := ← withDefault p t "fallback_endpoint" d.fallbackEndpoint text
    timeoutSecs := ← withDefault p t "timeout_secs" d.timeoutSecs (unsigned "u64" 64) }

open TomlField in
def WalletSection.ofToml (p : TomlPath) (v : TomlValue) : Decoding WalletSection := do
  let t ← record "WalletSection" p v
  checkRecord p t [rule "endpoint" true text, rule "api_key" false text, rule "timeout_secs" false (unsigned "u64" 64)]
  pure {
    endpoint := ← required p t "endpoint" text
    apiKey := ← optional p t "api_key" text
    timeoutSecs := ← withDefault p t "timeout_secs" 10 (unsigned "u64" 64) }

open TomlField in
def SchedulerSection.ofToml (p : TomlPath) (v : TomlValue) : Decoding SchedulerSection := do
  let t ← record "SchedulerSection" p v
  checkRecord p t [rule "tick_interval_secs" false (unsigned "u64" 64), rule "call_timeout_secs" false (unsigned "u64" 64)]
  let d : SchedulerSection := {}
  pure {
    tickIntervalSecs := ← withDefault p t "tick_interval_secs" d.tickIntervalSecs (unsigned "u64" 64)
    callTimeoutSecs := ← withDefault p t "call_timeout_secs" d.callTimeoutSecs (unsigned "u64" 64) }

open TomlField in
/-- The storage path of the `storage` section. -/
def storagePathOfToml (p : TomlPath) (v : TomlValue) : Decoding String := do
  let t ← record "StorageConfig" p v
  checkRecord p t [rule "path" false text]
  withDefault p t "path" defaultStoragePath text

open TomlField in
def NodeConfig.ofToml (v : TomlValue) : Decoding NodeConfig := do
  let t ← record "NodeConfig" [] v
  checkRecord [] t [rule "log_level" false text, rule "treasury" true TreasurySection.ofToml,
    rule "storage" false storagePathOfToml, rule "feed" false FeedSection.ofToml,
    rule "oracle" false OracleSection.ofToml, rule "wallet" true WalletSection.ofToml,
    rule "scheduler" false SchedulerSection.ofToml]
  pure {
    logLevel := ← withDefault [] t "log_level" "info" text
    treasury := ← required [] t "treasury" TreasurySection.ofToml
    storagePath := ← withDefault [] t "storage" defaultStoragePath storagePathOfToml
    feed := ← withDefault [] t "feed" {} FeedSection.ofToml
    oracle := ← withDefault [] t "oracle" {} OracleSection.ofToml
    wallet := ← required [] t "wallet" WalletSection.ofToml
    scheduler := ← withDefault [] t "scheduler" {} SchedulerSection.ofToml }

namespace NodeConfig

/-- The first rule a configuration breaks, if any. -/
def validate (c : NodeConfig) : Option String :=
  let intervals := [("feed.poll_interval_secs", c.feed.pollIntervalSecs),
    ("feed.request_timeout_secs", c.feed.requestTimeoutSecs), ("oracle.timeout_secs", c.oracle.timeoutSecs),
    ("wallet.timeout_secs", c.wallet.timeoutSecs), ("scheduler.tick_interval_secs", c.scheduler.tickIntervalSecs),
    ("scheduler.call_timeout_secs", c.scheduler.callTimeoutSecs)]
  if (trimWhite c.treasury.address).isEmpty then some "treasury.address must be set"
  else if c.treasury.signingSecret.isEmpty then some "treasury.signing_secret must be set"
  else if c.treasury.commissionAmount ≤ Decimal.zero then some "treasury.commission_amount must be positive"
  else if (trimWhite c.wallet.endpoint).isEmpty then some "wallet.endpoint must be set"
  else match intervals.find? (·.2 == 0) with
    | some (name, _) => some (name ++ " must be non-zero")
    | none => if c.feed.pageSize = 0 then some "feed.page_size must be non-zero" else none

/-- A configuration from TOML text, read and validated. -/
def fromToml (text : String) : Except ConfigError NodeConfig := do
  let doc ← (parseToml text).mapError fun e => .parse (e.render text)
  let config ← (ofToml doc.root).mapError fun m =>
    .parse (TomlError.render text { message := m.message, span := doc.spanOf m.place })
  match config.validate with
  | some why => throw (.invalid why)
  | none => pure config

/-- Every `$HOME` replaced by the home directory. -/
def expandPath (home path : String) : String := path.replace "$HOME" home

def storageLocation (home : String) (c : NodeConfig) : String := expandPath home c.storagePath

def debugOption (o : Option String) : String :=
  match o with
  | some s => "Some(" ++ debugQuote s ++ ")"
  | none => "None"

/-- The debugging text of a configuration, without the secret. -/
def debugText (c : NodeConfig) : String :=
  "NodeConfig \x7b log_level: " ++ debugQuote c.logLevel ++
  ", treasury: TreasuryConfig \x7b address: " ++ debugQuote c.treasury.address ++
  ", commission_amount: " ++ c.treasury.commissionAmount.render ++
  ", token_name: " ++ debugQuote c.treasury.tokenName ++
  ", token_decimals: " ++ toString c.treasury.tokenDecimals ++ ", .. \x7d" ++
  ", storage: StorageConfig \x7b path: " ++ debugQuote c.storagePath ++ " \x7d" ++
  ", feed: FeedSection \x7b endpoint: " ++ debugQuote c.feed.endpoint ++
  ", api_key: " ++ debugOption c.feed.apiKey ++
  ", poll_interval_secs: " ++ toString c.feed.pollIntervalSecs ++
  ", page_size: " ++ toString c.feed.pageSize ++
  ", request_timeout_secs: " ++ toString c.feed.requestTimeoutSecs ++
  ", start_lt: " ++ toString c.feed.startLt ++ " \x7d" ++
  ", oracle: OracleSection \x7b primary_endpoint: " ++ debugQuote c.oracle.primaryEndpoint ++
  ", primary_api_key: " ++ debugOption c.oracle.primaryApiKey ++
  ", fallback_endpoint: " ++ debugQuote c.oracle.fallbackEndpoint ++
  ", timeout_secs: " ++ toString c.oracle.timeoutSecs ++ " \x7d" ++
  ", wallet: WalletSection \x7b endpoint: " ++ debugQuote c.wallet.endpoint ++
  ", api_key: " ++ debugOption c.wallet.apiKey ++
  ", timeout_secs: " ++ toString c.wallet.timeoutSecs ++ " \x7d" ++
  ", scheduler: SchedulerSection \x7b tick_interval_secs: " ++ toString c.scheduler.tickIntervalSecs ++
  ", call_timeout_secs: " ++ toString c.scheduler.callTimeoutSecs ++ " \x7d \x7d"

/-- Every field as JSON, the secret replaced by its length in bytes. -/
def view (c : NodeConfig) : Json :=
  let optText := Json.opt Json.string
  .object [("log_level", .string c.logLevel),
    ("treasury", .object [("address", .string c.treasury.address),
      ("commission_amount", .string c.treasury.commissionAmount.render),
      ("signing_secret_len", Json.ofNat c.treasury.signingSecret.utf8ByteSize),
      ("token_decimals", Json.ofNat c.treasury.tokenDecimals), ("token_name", .string c.treasury.tokenName)]),
    ("storage_path", .string c.storagePath),
    ("feed", .object [("api_key", optText c.feed.apiKey), ("endpoint", .string c.feed.endpoint),
      ("page_size", Json.ofNat c.feed.pageSize), ("poll_interval_secs", Json.ofNat c.feed.pollIntervalSecs),
      ("request_timeout_secs", Json.ofNat c.feed.requestTimeoutSecs),
      ("start_lt", .string (toString c.feed.startLt))]),
    ("oracle", .object [("fallback_endpoint", .string c.oracle.fallbackEndpoint),
      ("primary_api_key", optText c.oracle.primaryApiKey), ("primary_endpoint", .string c.oracle.primaryEndpoint),
      ("timeout_secs", Json.ofNat c.oracle.timeoutSecs)]),
    ("wallet", .object [("api_key", optText c.wallet.apiKey), ("endpoint", .string c.wallet.endpoint),
      ("timeout_secs", Json.ofNat c.wallet.timeoutSecs)]),
    ("scheduler", .object [("call_timeout_secs", Json.ofNat c.scheduler.callTimeoutSecs),
      ("tick_interval_secs", Json.ofNat c.scheduler.tickIntervalSecs)]),
    ("call_timeout_secs", Json.ofNat c.scheduler.callTimeoutSecs),
    ("tick_interval_secs", Json.ofNat c.scheduler.tickIntervalSecs)]

end NodeConfig

end PoolTreasury
