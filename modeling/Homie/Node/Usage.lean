/-
The usage ledger of a node: `homie-node/src/usage.rs`, as far as it imports transcripts, and the
profiles of `homie-node/src/accounts.rs` it looks for them under.

An import goes through the profiles and through the transcripts of each.  A transcript that has
the size and the modification time it was last marked with is left alone; every other one is
parsed, its events are recorded one by one, and it is marked.  A step is one of these or an append
to a file by somebody else, so a list of steps is one interleaving.

The JSON of a line, SHA-256 and the price tables enter as `Tools`.  A float is its bits, and a path
is its names, which need not be text.  The database, the disk and the process fail where `fail`
says so.
-/
import Homie.Engine.Events
import Homie.Lib.Bytes
import Homie.Lib.KeyedMap
import Homie.Lib.Lines
import Homie.Lib.Sorting
import Homie.Lib.Text
import Homie.Lib.Trace
import Homie.Node.Checkpoint

namespace Homie.Usage

open Events (JsonValue)
open Lines (Bytes bufLines)
open Node (Hasher NodeError NodeResult ProviderKind hexEncode)

/-! ### JSON values -/

/-- `Value::get` with a name. -/
def get (value : JsonValue) (name : String) : Option JsonValue :=
  match value with
  | .object fields => (fields.find? (·.1 = name)).map (·.2)
  | _ => none

/-- `Value::pointer`, along names that are no indices. -/
def pointer (value : JsonValue) (names : List String) : Option JsonValue := names.foldlM get value

def asStr : JsonValue → Option String
  | .string text => some text
  | _ => none

def asI64 : JsonValue → Option Int
  | .integer n => if -2 ^ 63 ≤ n ∧ n < 2 ^ 63 then some n else none
  | _ => none

/-- `f64::is_finite` -/
def isFinite (bits : UInt64) : Bool := (bits >>> 52) &&& 0x7ff != 0x7ff

/-- Below zero, if it is a number at all. -/
def isNegative (bits : UInt64) : Bool := bits >>> 63 == 1 && bits <<< 1 != 0

structure Tools where
  /-- `serde_json::from_str` -/
  fromStr : Bytes → Option JsonValue
  hasher : Hasher
  /-- The double next to an integer. -/
  f64OfInteger : Int → UInt64
  claudeEstimate : String → Int → Int → Int → Int → Int → Option UInt64
  openaiEstimate : String → Int → Int → Int → Option UInt64

/-! ### Events -/

inductive UsageValueKind where
  | subscriptionQuota
  | estimatedApiEquivalent
  | authoritativeBilled
deriving DecidableEq, Repr

inductive UsageSource where
  | appServer
  | otel
  | transcript
  | manual
deriving DecidableEq, Repr

structure UsageEvent where
  id : String
  occurredAt : Int
  provider : ProviderKind
  profileId : Option String
  sessionId : Option String
  model : Option String
  inputTokens : Int
  outputTokens : Int
  cacheReadTokens : Int
  cacheWriteTokens : Int
  estimatedUsd : Option UInt64
  billedUsd : Option UInt64
  valueKind : UsageValueKind
  source : UsageSource
deriving DecidableEq, Repr

def validateEvent (event : UsageEvent) : NodeResult Unit := do
  if trimText event.id.toList = [] ∨ event.id.utf8ByteSize > 256 then
    throw (.badRequest "usage event id is invalid")
  if [event.inputTokens, event.outputTokens, event.cacheReadTokens, event.cacheWriteTokens].any
      (· < 0) then
    throw (.badRequest "usage token counts cannot be negative")
  if (event.estimatedUsd.toList ++ event.billedUsd.toList).any fun value =>
      !isFinite value || isNegative value then
    throw (.badRequest "usage costs must be finite and non-negative")

/-! ### Timestamps -/

/-- What stops an import: an error it returns, or a slice that cuts a character in two. -/
inductive Failure where
  | error (error : NodeError)
  | panic
deriving DecidableEq, Repr

/-- `str::is_char_boundary` -/
def isCharBoundary (text : Bytes) (index : Nat) : Bool :=
  index == 0 || match text[index]? with
    | some byte => byte < 0x80 || 0xc0 ≤ byte
    | none => index == text.length

/-- `&text[start..stop]` -/
def slice (text : Bytes) (start stop : Nat) : Except Failure Bytes :=
  if start ≤ stop ∧ isCharBoundary text start ∧ isCharBoundary text stop then
    .ok ((text.take stop).drop start)
  else .error .panic

def parseInteger (text : Bytes) : Option Int :=
  parseI64 (text.map fun byte => Char.ofNat byte.toNat)

def daysFromCivil (year month day : Int) : Int :=
  let year := if month ≤ 2 then year - 1 else year
  let era := (if year ≥ 0 then year else year - 399).tdiv 400
  let yearOfEra := year - era * 400
  let shiftedMonth := month + if month > 2 then -3 else 9
  let dayOfYear := (153 * shiftedMonth + 2).tdiv 5 + day - 1
  let dayOfEra := yearOfEra * 365 + yearOfEra.tdiv 4 - yearOfEra.tdiv 100 + dayOfYear
  era * 146097 + dayOfEra - 719468

/-- `rfind` of a sign. -/
def lastSign (suffix : Bytes) : Option Nat :=
  (suffix.reverse.findIdx? fun byte => byte == 0x2b || byte == 0x2d).map
    (suffix.length - 1 - ·)

def parseRfc3339Seconds (value : Bytes) : Except Failure (Option Int) := do
  if value.length < 20 then return none
  if (← slice value 4 5) ≠ [0x2d] then return none
  if (← slice value 7 8) ≠ [0x2d] then return none
  if (← slice value 10 11) ≠ [0x54] then return none
  let some year := parseInteger (← slice value 0 4) | return none
  let some month := parseInteger (← slice value 5 7) | return none
  let some day := parseInteger (← slice value 8 10) | return none
  let some hour := parseInteger (← slice value 11 13) | return none
  let some minute := parseInteger (← slice value 14 16) | return none
  let some second := parseInteger (← slice value 17 19) | return none
  let result := daysFromCivil year month day * 86400 + hour * 3600 + minute * 60 + second
  let suffix ← slice value 19 value.length
  match lastSign suffix with
  | none => return some result
  | some position =>
    let sign : Int := if suffix[position]? = some 0x2b then 1 else -1
    let timezone := suffix.drop (position + 1)
    if timezone.length < 5 then return some result
    let some hours := parseInteger (← slice timezone 0 2) | return none
    let some minutes := parseInteger (← slice timezone 3 5) | return none
    return some (result - sign * (hours * 3600 + minutes * 60))

def eventTimestamp (value : JsonValue) : Except Failure (Option Int) :=
  match (get value "timestamp").bind asI64 with
  | some timestamp => .ok (some timestamp)
  | none =>
    match (get value "timestamp").bind asStr with
    | some timestamp => parseRfc3339Seconds (Utf8.encode timestamp)
    | none => .ok none

/-! ### One line -/

def integer (value : Option JsonValue) : Int := max ((value.bind asI64).getD 0) 0

section Parse

variable (tools : Tools)

def asF64 : JsonValue → Option UInt64
  | .integer n => some (tools.f64OfInteger n)
  | .float bits => some bits
  | _ => none

def cost (value : JsonValue) : Option UInt64 :=
  (((get value "costUSD").orElse fun _ => (get value "cost_usd").orElse fun _ =>
    pointer value ["message", "costUSD"]).bind (asF64 tools)).filter fun cost =>
      isFinite cost && !isNegative cost

def parseClaudeEvent (value : JsonValue) : Except Failure (Option UsageEvent) := do
  let some message := get value "message" | return none
  let some usage := get message "usage" | return none
  let some occurredAt ← eventTimestamp value | return none
  let model := (get message "model").bind asStr
  let input := integer (get usage "input_tokens")
  let output := integer (get usage "output_tokens")
  let cacheRead := integer (get usage "cache_read_input_tokens")
  let cacheWrite := integer (get usage "cache_creation_input_tokens")
  let cacheWrite5m := integer (pointer usage ["cache_creation", "ephemeral_5m_input_tokens"])
  let cacheWrite1h := integer (pointer usage ["cache_creation", "ephemeral_1h_input_tokens"])
  return some
    { id := ""
      occurredAt := occurredAt
      provider := .claude
      profileId := none
      sessionId := (get value "sessionId").bind asStr
      model := model
      inputTokens := input
      outputTokens := output
      cacheReadTokens := cacheRead
      cacheWriteTokens := cacheWrite
      estimatedUsd := (cost tools value).orElse fun _ => model.bind fun model =>
        tools.claudeEstimate model input output cacheRead cacheWrite5m cacheWrite1h
      billedUsd := none
      valueKind := .estimatedApiEquivalent
      source := .transcript }

def parseCodexEvent (value : JsonValue) (model : Option String) :
    Except Failure (Option UsageEvent) := do
  if (pointer value ["payload", "type"]).bind asStr ≠ some "token_count" then return none
  let some usage := pointer value ["payload", "info", "last_token_usage"] | return none
  let some occurredAt ← eventTimestamp value | return none
  let input := integer (get usage "input_tokens")
  let output := integer (get usage "output_tokens")
  let cacheRead := integer (get usage "cached_input_tokens")
  return some
    { id := ""
      occurredAt := occurredAt
      provider := .codex
      profileId := none
      sessionId := (pointer value ["payload", "thread_id"]).bind asStr
      model := model
      inputTokens := input
      outputTokens := output
      cacheReadTokens := cacheRead
      cacheWriteTokens := 0
      estimatedUsd := (cost tools value).orElse fun _ => model.bind fun model =>
        tools.openaiEstimate model input output cacheRead
      billedUsd := none
      valueKind := .estimatedApiEquivalent
      source := .transcript }

/-! ### Paths and files -/

/-- The names of an absolute path. -/
abbrev Path := List Bytes

/-- `to_string_lossy` -/
def toStringLossy (path : Path) : Bytes := Utf8.lossy (path.flatMap (0x2f :: ·))

/-- `Path::extension` of the last name is `jsonl`. -/
def isJsonl (path : Path) : Bool :=
  path.getLast?.any fun name =>
    (Utf8.encode ".jsonl").isSuffixOf name && name != Utf8.encode ".jsonl"

/-- A regular file; its size is an `off_t`. -/
structure Transcript where
  path : Path
  bytes : Bytes
  modifiedNs : UInt64
  fits : bytes.length < 2 ^ 63
deriving DecidableEq

abbrev Files := KeyedMap Transcript.path

/-- A file that would get too large is left as it was. -/
def Files.append (files : Files) (path : Path) (more : Bytes) (modifiedNs : UInt64) : Files :=
  if h : (((files.get path).elim [] Transcript.bytes) ++ more).length < 2 ^ 63 then
    files.insert ⟨path, ((files.get path).elim [] Transcript.bytes) ++ more, modifiedNs, h⟩
  else files

/-- `jsonl_files`: the regular files below the root, sorted. -/
def jsonlFiles (files : Files) (root : Path) : List Path :=
  Sorting.sortBy compare ((files.values.map Transcript.path).filter fun path =>
    root.isPrefixOf path && root.length < path.length && isJsonl path)

def fileRevision (files : Files) (path : Path) : NodeResult (Nat × Nat) :=
  match files.get path with
  | some file => .ok (file.bytes.length, file.modifiedNs.toNat)
  | none => .error .io

/-! ### One transcript -/

/-- What is hashed of the place of a line: nothing stands between the path and the offset. -/
def placeText (path : Path) (offset : Nat) : Bytes :=
  toStringLossy path ++ (Bytes.ofNatBe 8 offset).reverse

/-- What the provider calls the message. -/
def providerId (value : JsonValue) : Option String :=
  ((pointer value ["message", "id"]).orElse fun _ => pointer value ["payload", "id"]).bind asStr

/-- What is hashed of a line. -/
def lineText (path : Path) (offset : Nat) (value : JsonValue) : Bytes :=
  placeText path offset ++ (providerId value).elim [] Utf8.encode

def transcriptEventId (path : Path) (offset : Nat) (value : JsonValue) : String :=
  "transcript:" ++ hexEncode (tools.hasher.sha256 (lineText path offset value))

/-- How far `parse_transcript` has come. -/
structure Cursor where
  offset : Nat
  codexModel : Option String
deriving DecidableEq, Repr

def Cursor.start : Cursor := ⟨0, none⟩

/-- The cursor behind a line that holds this value, if it holds any. -/
def Cursor.after (provider : ProviderKind) (cursor : Cursor) (line : Bytes)
    (value : Option JsonValue) : Cursor where
  offset := min (cursor.offset + (line.length + 1)) (2 ^ 64 - 1)
  codexModel :=
    match value with
    | none => cursor.codexModel
    | some value =>
      if provider = .codex ∧ (pointer value ["payload", "type"]).bind asStr = some "session_meta"
      then (pointer value ["payload", "model"]).bind asStr
      else cursor.codexModel

variable (path : Path) (provider : ProviderKind) (profileId : String)

def parseEvent (codexModel : Option String) (value : JsonValue) :
    Except Failure (Option UsageEvent) :=
  match provider with
  | .claude => parseClaudeEvent tools value
  | .codex => parseCodexEvent tools value codexModel

/-- The event of a value on a line at `offset`. -/
def parseValue (offset : Nat) (codexModel : Option String) (value : JsonValue) :
    Except Failure (Option UsageEvent) := do
  let parsed ← parseEvent tools provider codexModel value
  return parsed.map fun event =>
    { event with id := transcriptEventId tools path offset value, profileId := some profileId }

/-- The body of the loop of `parse_transcript`. -/
def parseLine (cursor : Cursor) (line : Bytes) : Except Failure (Cursor × Option UsageEvent) :=
  if !Utf8.valid line then .error (.error .io)
  else
    let after := cursor.after provider line (tools.fromStr line)
    match tools.fromStr line with
    | none => .ok (after, none)
    | some value => do
      let event ← parseValue tools path provider profileId cursor.offset after.codexModel value
      return (after, event)

def parseLines (cursor : Cursor) : List Bytes → Except Failure (List UsageEvent)
  | [] => .ok []
  | line :: lines => do
    let (cursor, event) ← parseLine tools path provider profileId cursor line
    let events ← parseLines cursor lines
    return event.toList ++ events

def parseTranscript (files : Files) : Except Failure (List UsageEvent) :=
  match files.get path with
  | some file => parseLines tools path provider profileId .start (bufLines file.bytes)
  | none => .error (.error .io)

end Parse

/-! ### Profiles -/

structure AccountProfile where
  id : String
  provider : ProviderKind
deriving DecidableEq, Repr

def validateProfileId (id : String) : NodeResult Unit :=
  if id = "" ∨ id.utf8ByteSize > 80
      ∨ !id.toList.all (fun c => c.isAlphanum || c == '-' || c == '_' || c == '.')
      ∨ id = "." ∨ id = ".." then
    .error (.badRequest
      "profile id must use 1-80 letters, numbers, dots, dashes, or underscores")
  else .ok ()

/-- `AccountStore::load` refuses a file with an id that is no name. -/
structure AccountStore where
  accountsRoot : Path
  profiles : List AccountProfile
  valid : ∀ profile ∈ profiles, validateProfileId profile.id = .ok ()

def providerName : ProviderKind → String
  | .claude => "claude"
  | .codex => "codex"

def AccountStore.configHome (accounts : AccountStore) (profile : AccountProfile) : Path :=
  accounts.accountsRoot ++ [Utf8.encode (providerName profile.provider), Utf8.encode profile.id]

/-- Where the transcripts of a profile are. -/
def AccountStore.transcriptRoot (accounts : AccountStore) (profile : AccountProfile) : Path :=
  match profile.provider with
  | .claude => accounts.configHome profile ++ [Utf8.encode "projects"]
  | .codex => accounts.configHome profile ++ [Utf8.encode "sessions"]

/-! ### The ledger -/

/-- A row of `usage_scan_files`. -/
structure ScanFile where
  path : Bytes
  size : Nat
  modifiedNs : Nat
deriving DecidableEq, Repr

structure UsageLedger where
  usageEvents : KeyedMap UsageEvent.id
  usageScanFiles : KeyedMap ScanFile.path

/-- `i64::try_from(value).unwrap_or(i64::MAX)` -/
def toI64 (value : Nat) : Nat := min value (2 ^ 63 - 1)

namespace UsageLedger

def empty : UsageLedger := ⟨.empty, .empty⟩

variable (ledger : UsageLedger)

/-- `INSERT OR IGNORE`: whether the event is a new row. -/
def record (event : UsageEvent) : NodeResult (Bool × UsageLedger) := do
  validateEvent event
  match ledger.usageEvents.get event.id with
  | some _ => return (false, ledger)
  | none => return (true, { ledger with usageEvents := ledger.usageEvents.insert event })

def fileIsCurrent (files : Files) (path : Path) : NodeResult Bool := do
  let (size, modifiedNs) ← fileRevision files path
  return (ledger.usageScanFiles.get (toStringLossy path)).any fun row =>
    row.size == toI64 size && row.modifiedNs == toI64 modifiedNs

def markFileCurrent (files : Files) (path : Path) : NodeResult UsageLedger := do
  let (size, modifiedNs) ← fileRevision files path
  return { ledger with
    usageScanFiles := ledger.usageScanFiles.insert
      ⟨toStringLossy path, toI64 size, toI64 modifiedNs⟩ }

end UsageLedger

/-! ### Imports -/

/-- The transcript an import is at, and what it has before it. -/
structure Visit where
  profile : AccountProfile
  path : Path
  paths : List Path
  profiles : List AccountProfile
  imported : Nat
deriving DecidableEq

inductive Stage where
  | check
  | parse
  | record (events : List UsageEvent)
  | mark
deriving DecidableEq

inductive Status where
  | idle
  | profiles (profiles : List AccountProfile) (imported : Nat)
  | file (visit : Visit) (stage : Stage)
  | done (imported : Nat)
  | failed (failure : Failure)
deriving DecidableEq

def Status.running : Status → Bool
  | profiles _ _ | file _ _ => true
  | idle | done _ | failed _ => false

/-- The loop over the paths of a profile. -/
def Status.enter (profile : AccountProfile) (paths : List Path) (profiles : List AccountProfile)
    (imported : Nat) : Status :=
  match paths with
  | [] => .profiles profiles imported
  | path :: paths => .file ⟨profile, path, paths, profiles, imported⟩ .check

def Visit.next (visit : Visit) : Status :=
  .enter visit.profile visit.paths visit.profiles visit.imported

/-- A node with the files around it. -/
structure Importer where
  files : Files
  ledger : UsageLedger
  status : Status

def Importer.start (files : Files) : Importer := ⟨files, .empty, .idle⟩

inductive Event where
  /-- Somebody writes at the end of a file, or makes one. -/
  | append (path : Path) (more : Bytes) (modifiedNs : UInt64)
  /-- `import_transcripts` is called, by one task at a time. -/
  | start
  /-- The import goes on. -/
  | advance
  /-- The import ends here. -/
  | fail (failure : Failure)

variable (tools : Tools) (accounts : AccountStore)

def Importer.advance (node : Importer) : Importer :=
  match node.status with
  | .idle | .done _ | .failed _ => node
  | .profiles [] imported => { node with status := .done imported }
  | .profiles (profile :: profiles) imported =>
    { node with
      status := .enter profile (jsonlFiles node.files (accounts.transcriptRoot profile))
        profiles imported }
  | .file visit .check =>
    match node.ledger.fileIsCurrent node.files visit.path with
    | .error error => { node with status := .failed (.error error) }
    | .ok true => { node with status := visit.next }
    | .ok false => { node with status := .file visit .parse }
  | .file visit .parse =>
    match parseTranscript tools visit.path visit.profile.provider visit.profile.id
        node.files with
    | .error failure => { node with status := .failed failure }
    | .ok events => { node with status := .file visit (.record events) }
  | .file visit (.record []) => { node with status := .file visit .mark }
  | .file visit (.record (event :: events)) =>
    match node.ledger.record event with
    | .error error => { node with status := .failed (.error error) }
    | .ok (inserted, ledger) =>
      { node with
        ledger := ledger
        status := .file { visit with imported := visit.imported + inserted.toNat }
          (.record events) }
  | .file visit .mark =>
    match node.ledger.markFileCurrent node.files visit.path with
    | .error error => { node with status := .failed (.error error) }
    | .ok ledger => { node with ledger := ledger, status := visit.next }

def Importer.step (node : Importer) : Event → Importer × Unit
  | .append path more modifiedNs =>
    ({ node with files := node.files.append path more modifiedNs }, ())
  | .start =>
    (if node.status.running then node
      else { node with status := .profiles accounts.profiles 0 }, ())
  | .advance => (node.advance tools accounts, ())
  | .fail failure =>
    (if node.status.running then { node with status := .failed failure } else node, ())

end Homie.Usage
