import BeeProtocol.Error

/-!
# Messages

Requests travel from the client to the server and responses back. A statement is answered by a
column header, any number of rows and one end, each in a response of its own that carries the id of
the statement.
-/

namespace BeeProtocol

/-- The kinds of message. -/
inductive MessageKind
  | connectRequest
  | connectResponse
  | statementRequest
  | statementResponse
  | ping
  deriving DecidableEq

/-- The frame type that a kind of message travels under. -/
def MessageKind.frameType : MessageKind → UInt8
  | connectRequest => 0
  | connectResponse => 1
  | statementRequest => 2
  | statementResponse => 3
  | ping => 6

/-- Asks the server to accept the client. -/
structure ConnectRequest where
  /-- The database to connect to. -/
  url : String
  /-- The name of the client. -/
  application : String
  deriving DecidableEq

/-- The server's answer to a connect request. -/
inductive ConnectResponse
  | accepted
  | rejected (error : ServerError)
  deriving DecidableEq

/-- Whether the server accepted the client. A rejection with code 0 counts as accepted. -/
def ConnectResponse.isAccepted : ConnectResponse → Bool
  | accepted => true
  | rejected error => error.code == 0

/-- Asks the server to run a script; its responses carry the same id. -/
structure StatementRequest where
  /-- The id of the statement. -/
  id : UInt32
  /-- What is to be run. -/
  script : String
  /-- The server's own limit for the statement, in seconds. -/
  timeout : UInt32
  deriving DecidableEq

/-- A column of a result: its name and declared kind. -/
structure Column where
  /-- The name of the column. -/
  name : String
  /-- The kind of its values. -/
  dataType : DataType
  deriving DecidableEq

/-- One event in the answer to a statement. -/
inductive StatementEvent
  | columns (columns : List Column)
  | row (values : List Value)
  | abort
  | error (error : ServerError)
  deriving DecidableEq

namespace StatementEvent

/-- The state byte of an event. -/
def state : StatementEvent → UInt8
  | columns _ => 0
  | row _ => 1
  | abort => 2
  | error _ => 3

/-- The name of an event in diagnostics. -/
def name : StatementEvent → String
  | columns _ => "COLUMNS"
  | row _ => "ROW"
  | abort => "ABORT"
  | error _ => "ERROR"

/-- Whether the event ends the statement. -/
def isTerminal : StatementEvent → Bool
  | abort | error _ => true
  | _ => false

end StatementEvent

/-- An event of the statement with this id. -/
structure StatementResponse where
  /-- The id of the statement. -/
  id : UInt32
  /-- What has happened to it. -/
  event : StatementEvent
  deriving DecidableEq

/-- A message of any kind. -/
inductive Message
  | connectRequest (request : ConnectRequest)
  | connectResponse (response : ConnectResponse)
  | statementRequest (request : StatementRequest)
  | statementResponse (response : StatementResponse)
  | ping
  deriving DecidableEq

/-- The kind of a message. -/
def Message.kind : Message → MessageKind
  | connectRequest _ => .connectRequest
  | connectResponse _ => .connectResponse
  | statementRequest _ => .statementRequest
  | statementResponse _ => .statementResponse
  | ping => .ping

end BeeProtocol
