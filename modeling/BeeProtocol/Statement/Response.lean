import BeeProtocol.Statement.Pull

/-!
# Steps on a response

A response has one user at a time. Its owner may start a call on it, take a row without waiting,
look at it or drop it; while a call has it, and after it was dropped or given away, every step is
refused.
-/

namespace BeeProtocol

/-- What the owner of a response can do with it. -/
inductive ResponseStep
  /-- Start a call, with a bound of its own or the one of the response. -/
  | pull (pull : Pull) (bound : Option Duration)
  /-- Take the next row without waiting. -/
  | take
  | readId
  | describe
  | drop

/-- Why a step is refused. -/
inductive Refusal
  /-- A call has the response. -/
  | busy
  /-- The response was dropped or given away for good. -/
  | gone
  /-- There is no response of that name. -/
  | noResponse
  /-- There is no promise of that name. -/
  | noPromise
  /-- The owner has given the whole connection up. -/
  | dropped
  deriving DecidableEq

/-- The wording of a refusal. -/
def Refusal.message : Refusal → String
  | busy => "busy"
  | gone => "gone"
  | noResponse => "no response"
  | noPromise => "no promise"
  | dropped => "dropped"

/-- What a step on a response answers. -/
inductive ResponseAnswer
  /-- The step was taken and answers nothing. -/
  | done
  | row (result : Except ClientError Row)
  | id (id : UInt32)
  | text (text : String)
  | refused (reason : Refusal)

end BeeProtocol
