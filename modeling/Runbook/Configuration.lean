import Runbook.Json.Form
import Runbook.Settings

/-!
# Configuration

What a deployment sets: where to listen, where the store is, how the engine
runs and how much is logged. It is read from JSON, or put together from
environment variables with defaults (`Configuration.ofEnvironment`).
-/

namespace Runbook

/-- Where to listen. -/
structure ServerConfig where
  /-- the address -/
  host : String
  /-- the port -/
  port : UInt16
  deriving DecidableEq, Repr

/-- Where the store is. -/
structure DatabaseConfig where
  /-- its URL -/
  url : String
  deriving DecidableEq, Repr

/-- How the engine runs. -/
structure EngineConfig where
  /-- milliseconds between two queries about an operation -/
  pollIntervalMs : UInt64
  /-- queries after which a polling node gives up -/
  maxPollSequence : UInt32
  /-- what a failed write means -/
  persistence : WritePolicy
  /-- the service in the names of background operations -/
  service : String
  deriving DecidableEq, Repr

/-- What a deployment sets. -/
structure Configuration where
  /-- where to listen -/
  server : ServerConfig
  /-- where the store is -/
  database : DatabaseConfig
  /-- how the engine runs -/
  engine : EngineConfig
  /-- how much is logged -/
  logLevel : String
  deriving DecidableEq, Repr

namespace ServerConfig

/-- The section as JSON. -/
def toJson (c : ServerConfig) : Json :=
  .object [("host", .text c.host), ("port", .int c.port.toNat)]

/-- How the section is read. -/
def shape : Shape ServerConfig :=
  (ServerConfig.mk <$> .field "host" .string
    <*> .field "port" ((Shape.natural 16 "u16").map UInt16.ofNat) : Form _).record "ServerConfig"

end ServerConfig

namespace DatabaseConfig

/-- The section as JSON. -/
def toJson (c : DatabaseConfig) : Json := .object [("url", .text c.url)]

/-- How the section is read. -/
def shape : Shape DatabaseConfig :=
  (DatabaseConfig.mk <$> .field "url" .string : Form _).record "DatabaseConfig"

end DatabaseConfig

namespace EngineConfig

/-- The section as JSON. -/
def toJson (c : EngineConfig) : Json :=
  .object [("poll_interval_ms", .int c.pollIntervalMs.toNat),
    ("max_poll_sequence", .int c.maxPollSequence.toNat),
    ("persistence", .text c.persistence.name), ("service", .text c.service)]

/-- How the section is read. -/
def shape : Shape EngineConfig :=
  (EngineConfig.mk <$> .field "poll_interval_ms" ((Shape.natural 64 "u64").map UInt64.ofNat)
    <*> .field "max_poll_sequence" ((Shape.natural 32 "u32").map UInt32.ofNat)
    <*> .field "persistence" WritePolicy.shape <*> .field "service" .string : Form _).record
    "EngineConfig"

/-- The settings of an engine. The interval is at least a millisecond. -/
def settings (c : EngineConfig) : Settings where
  pollInterval := .ofMillis (max 1 c.pollIntervalMs.toNat)
  maxPolls := c.maxPollSequence
  policy := c.persistence
  service := c.service
  pollInterval_pos := by
    rw [Duration.inNanos_ofMillis]
    omega

end EngineConfig

namespace Configuration

/-- The configuration as JSON. -/
def toJson (c : Configuration) : Json :=
  .object [("server", c.server.toJson), ("database", c.database.toJson),
    ("engine", c.engine.toJson), ("log_level", .text c.logLevel)]

/-- How a configuration is read. -/
def shape : Shape Configuration :=
  (Configuration.mk <$> .field "server" ServerConfig.shape
    <*> .field "database" DatabaseConfig.shape <*> .field "engine" EngineConfig.shape
    <*> .field "log_level" .string : Form _).record "Config"

/-! ## From the environment -/

/-- A number of at most `max`: decimal digits, with or without a plus sign. -/
def decimalUpTo? (max : Nat) (text : String) : Option Nat :=
  let digits := match text.toList with
    | '+' :: rest => rest
    | all => all
  if digits.isEmpty ∨ !digits.all Char.isDigit then none
  else
    let n := digits.foldl (fun n c => n * 10 + (c.toNat - '0'.toNat)) 0
    if n ≤ max then some n else none

/-- The configuration that environment variables give. A variable that is not
set, or is no number where one is wanted, leaves the default. -/
def ofEnvironment (setting : String → Option String) : Configuration :=
  let text (key fallback : String) := (setting key).getD fallback
  let number (key : String) (max fallback : Nat) :=
    ((setting key).bind (decimalUpTo? max)).getD fallback
  { server :=
      { host := text "FLOWWORK_HOST" "0.0.0.0"
        port := UInt16.ofNat (number "FLOWWORK_PORT" (UInt16.size - 1) 3004) }
    database := { url := text "FLOWWORK_DATABASE_URL" "sqlite://data/flowwork.db" }
    engine :=
      { pollIntervalMs := UInt64.ofNat (number "FLOWWORK_POLL_INTERVAL_MS" (UInt64.size - 1) 3000)
        maxPollSequence := UInt32.ofNat (number "FLOWWORK_MAX_POLL_SEQUENCE" (UInt32.size - 1) 1200)
        persistence := ((setting "FLOWWORK_PERSISTENCE").bind WritePolicy.ofName?).getD .bestEffort
        service := text "FLOWWORK_SERVICE" "flowwork" }
    logLevel := text "FLOWWORK_LOG" "info" }

end Configuration

end Runbook
