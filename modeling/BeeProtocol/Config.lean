import BeeProtocol.Time.Duration

/-!
# Connection settings

Settings start from defaults and are changed one by one; the setters keep the row capacity and the
frame limit in their ranges. The effective handshake timeout adds a second to the connect timeout
even where a handshake timeout is set, so it fails for the largest connect timeouts.
-/

namespace BeeProtocol

/-- The settings of one connection. -/
structure Config where
  /-- Where the server is. -/
  host : String
  /-- The port that it listens on. -/
  port : UInt16
  /-- How long connecting may take. -/
  connectTimeout : Duration
  /-- The limit for the handshake reply, if one was set. -/
  handshakeTimeoutSet : Option Duration
  /-- The name that the client gives to the server. -/
  application : String
  /-- The database that the client asks for. -/
  url : String
  /-- How long the server may take to execute a statement. -/
  statementTimeout : Duration
  /-- How many rows of a statement are buffered before reading pauses. -/
  rowCapacity : Nat
  /-- The largest accepted payload. -/
  frameLimit : Nat
  /-- The time between two pings, if pings are sent. -/
  keepAliveInterval : Option Duration

/-- A sum of durations was too long. -/
inductive DurationOverflow
  | durationOverflow

/-- The wording of an overflow. -/
def DurationOverflow.message (_ : DurationOverflow) : String :=
  "overflow when adding durations"

namespace Config

/-- The most rows that a buffer can be asked to hold. -/
abbrev maxRowCapacity : Nat := UInt64.size / 8 - 1

/-- The largest frame limit. -/
abbrev maxFrameLimit : Nat := UInt32.size - 1

/-- A row capacity in its range: at least one row, so that reading can go on. -/
def clampRows (capacity : Nat) : Nat := max 1 (min capacity maxRowCapacity)

/-- The settings for a host and a port that hold when nothing else is set. -/
def defaults (host : String) (port : UInt16) : Config where
  host := host
  port := port
  connectTimeout := .ofSeconds 30
  handshakeTimeoutSet := none
  application := "bee-client"
  url := "agent://127.0.0.1:6142"
  statementTimeout := .ofSeconds 5
  rowCapacity := 1024
  frameLimit := 64 * 1024 * 1024
  keepAliveInterval := none

/-- One change to the settings. -/
inductive Setting
  | connectTimeout (span : Duration)
  | handshakeTimeout (span : Duration)
  | application (name : String)
  | url (url : String)
  | statementTimeout (span : Duration)
  | rowCapacity (capacity : Nat)
  | frameLimit (limit : Nat)
  | keepAliveInterval (span : Duration)

/-- The settings after a change. -/
def set (config : Config) : Setting → Config
  | .connectTimeout span => { config with connectTimeout := span }
  | .handshakeTimeout span => { config with handshakeTimeoutSet := some span }
  | .application name => { config with application := name }
  | .url url => { config with url := url }
  | .statementTimeout span => { config with statementTimeout := span }
  | .rowCapacity capacity => { config with rowCapacity := clampRows capacity }
  | .frameLimit limit => { config with frameLimit := min limit maxFrameLimit }
  | .keepAliveInterval span => { config with keepAliveInterval := some span }

/-- The settings after changes in order. -/
def build (host : String) (port : UInt16) (settings : List Setting) : Config :=
  settings.foldl set (defaults host port)

/-- The host and the port as one address. -/
def address (config : Config) : String := s!"{config.host}:{config.port.toNat}"

/-- The limit for the handshake reply: the one that was set, or a second more than the connect
timeout. The sum is formed in either case. -/
def handshakeTimeout (config : Config) : Except DurationOverflow Duration :=
  match config.connectTimeout.add? (.ofSeconds 1) with
  | none => .error .durationOverflow
  | some span => .ok (config.handshakeTimeoutSet.getD span)

/-- The statement timeout in whole seconds as a number of 32 bits, the largest if it is longer. -/
def statementTimeoutSeconds (config : Config) : UInt32 :=
  UInt32.ofNat (min config.statementTimeout.seconds (UInt32.size - 1))

end Config

end BeeProtocol
