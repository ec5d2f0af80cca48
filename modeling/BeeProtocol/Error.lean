import BeeProtocol.Value.Error

/-!
# Errors

Three layers of errors: a value that cannot be read or written, a message or frame that breaks the
protocol, and what a caller of a connection sees. The wording of each is one function.
-/

namespace BeeProtocol

/-- How a message breaks the protocol. -/
inductive Violation
  /-- A field of a request that must be a text has another kind. -/
  | expectedString (field : String) (got : DataType)
  /-- A field of a request that must be an integer has another kind. -/
  | expectedInteger (field : String) (got : DataType)
  /-- An integer field of a request is not an unsigned 32-bit number. -/
  | outOfRange (field : String) (got : Int64)
  /-- The status of a connect response is neither accepted nor rejected. -/
  | invalidStatus (status : UInt8)
  /-- The state of a statement response is none of the four. -/
  | invalidState (state : UInt8)
  /-- A list has more items than its one-byte count can tell. -/
  | tooMany (items : String) (count : Nat)
  /-- A short text does not fit its one-byte length. -/
  | tooLong (field : String)
  /-- Any other violation, in its own words. -/
  | stated (text : String)
  deriving DecidableEq

/-- The wording of a violation. -/
def Violation.message : Violation → String
  | expectedString field got => s!"Expected string for {field}, got {got.name}"
  | expectedInteger field got => s!"Expected integer for {field}, got {got.name}"
  | outOfRange field got => s!"{field} out of range: {got.toInt}"
  | invalidStatus status => "Invalid connect response status: 0x" ++ hexByte status
  | invalidState state => "Invalid statement state: 0x" ++ hexByte state
  | tooMany items count => s!"Too many {items}: {count}"
  | tooLong field => s!"{field} longer than 255 bytes"
  | stated text => text

/-- An error of the frame and message layer. -/
inductive ProtocolError
  /-- The byte stream failed. -/
  | io (reason : String)
  /-- A value inside a message cannot be read or written. -/
  | value (error : ValueError)
  /-- A message breaks the protocol. -/
  | violation (violation : Violation)
  /-- A payload is larger than the limit. -/
  | frameTooLarge (size limit : Nat)
  deriving DecidableEq

/-- The wording of a protocol error. -/
def ProtocolError.message : ProtocolError → String
  | io reason => "I/O error: " ++ reason
  | value error => "Value error: " ++ error.message
  | violation v => "Protocol error: " ++ v.message
  | frameTooLarge size limit => s!"Frame too large: {size} bytes (max: {limit})"

/-- The wording of the error that caused this one, if another layer caused it. -/
def ProtocolError.cause? : ProtocolError → Option String
  | io reason => some reason
  | value error => some error.message
  | _ => none

/-- An error that the server reports: a code and a message. -/
structure ServerError where
  /-- What the server calls the error. -/
  code : Int32
  /-- What it says about it. -/
  message : String
  deriving DecidableEq

/-- The text of a server error. -/
def ServerError.toText (error : ServerError) : String :=
  s!"[{error.code.toInt}] {error.message}"

/-- What went wrong with a call on a connection. -/
inductive ClientError
  /-- The byte stream failed. -/
  | connection (reason : String)
  /-- The connection is closed, or was closed while the call waited. -/
  | connectionClosed
  /-- A payload meant for the call is malformed, or its own payload is too large. -/
  | decode (reason : String)
  /-- The server reported a failure. -/
  | application (error : ServerError)
  /-- A wait passed its deadline. -/
  | timeout (reason : String)
  /-- A row was taken when none was buffered. -/
  | emptyResult
  /-- The header has no such column. -/
  | columnNotFound (column : String)
  /-- A value is not of the wanted kind. -/
  | typeConversion (reason : String)
  deriving DecidableEq

namespace ClientError

/-- The wording of a client error. -/
def message : ClientError → String
  | connection reason => "Connection error: " ++ reason
  | connectionClosed => "Connection closed"
  | decode reason => "Decode error: " ++ reason
  | application error => s!"Application error: {error.code.toInt} - {error.message}"
  | timeout reason => "Timeout: " ++ reason
  | emptyResult => "No row available"
  | columnNotFound column => "Column not found: " ++ column
  | typeConversion reason => "Type conversion error: " ++ reason

/-- The server's code, if the server reported the error. -/
def code? : ClientError → Option Int32
  | application error => some error.code
  | _ => none

/-- Whether a wait passed its deadline. -/
def isTimeout : ClientError → Bool
  | timeout _ => true
  | _ => false

/-- Whether a new connection or a new wait may succeed. -/
def isRetryable : ClientError → Bool
  | connection _ | connectionClosed | timeout _ => true
  | _ => false

/-- A protocol error as a caller sees it: a failure of the byte stream is a connection error, and
everything else a decode error with the full wording. -/
def ofProtocol : ProtocolError → ClientError
  | .io reason => .connection reason
  | error => .decode error.message

end ClientError

end BeeProtocol
