import BeeProtocol.Link.Session
import BeeProtocol.Statement.Response

/-!
# Responses by name

A desk keeps the responses and the promises of a link under names. A response has one caller at a
time: it is lent to a call that gives it back when it ends, and given away to a call that takes it
over. A cancelled call gives nothing back.
-/

namespace BeeProtocol

/-- Where a response is. -/
inductive Whereabouts
  /-- At the desk. -/
  | here
  /-- Lent to the call with this label. -/
  | lent (label : Nat)
  | gone
  deriving DecidableEq

/-- A response under its name. -/
structure NamedResponse where
  /-- How the response is called. -/
  name : String
  /-- The statement that it belongs to. -/
  key : Nat
  /-- Who has it. -/
  place : Whereabouts

/-- A link with its responses and promises by name. -/
structure Desk where
  /-- The link. -/
  link : Link
  /-- The responses that were handed out on it. -/
  responses : List NamedResponse
  /-- The promises of single replies, by name. -/
  promises : List (String × Nat)
  /-- The names under which the responses of submissions under way will be kept. -/
  awaited : List (Nat × String)

namespace Desk

/-- A desk without responses. -/
def fresh (config : Config) : Desk := ⟨.fresh config, [], [], []⟩

/-- The response with a name, if there is one. -/
def find? (d : Desk) (name : String) : Option NamedResponse :=
  d.responses.find? (·.name == name)

/-- The key of a response that is at the desk. -/
def keyOf (d : Desk) (name : String) : Except Refusal Nat :=
  match d.find? name with
  | none => .error .noResponse
  | some response =>
    match response.place with
    | .here => .ok response.key
    | .lent _ => .error .busy
    | .gone => .error .gone

/-- Keeps a response under a name. One that was kept under it before is dropped. -/
def keep (d : Desk) (name : String) (key : Nat) : Desk :=
  let link :=
    match d.keyOf name with
    | .ok old => d.link.dropResponse old
    | .error _ => d.link
  { d with
    link := link
    responses := ⟨name, key, .here⟩ :: d.responses.filter (·.name != name) }

/-- Moves a response elsewhere. -/
def move (d : Desk) (name : String) (place : Whereabouts) : Desk :=
  { d with
    responses := d.responses.map fun response =>
      if response.name = name then { response with place := place } else response }

/-! ### Steps on a response -/

/-- Takes a step on the response under a key. -/
def performOn (d : Desk) (label : Nat) (name : String) (key : Nat) :
    ResponseStep → ResponseAnswer × Desk
  | .pull pull bound =>
    (.done,
      { d with link := d.link.startPull label key pull bound }.move name
        (if pull.consumes then .gone else .lent label))
  | .take => (.row (d.link.next key).1, { d with link := (d.link.next key).2 })
  | .readId => (.id ((d.link.channels[key]?).elim 0 (·.id)), d)
  | .describe => (.text ((d.link.channels[key]?).elim "" (·.summary)), d)
  | .drop => (.done, { d with link := d.link.dropResponse key }.move name .gone)

/-- Takes a step on a response, if it is at the desk. -/
def perform (d : Desk) (label : Nat) (name : String) (step : ResponseStep) :
    ResponseAnswer × Desk :=
  match d.keyOf name with
  | .ok key => d.performOn label name key step
  | .error reason => (.refused reason, d)

/-! ### Steps on a promise -/

/-- The key of a promise. -/
def promiseKey (d : Desk) (name : String) : Except Refusal Nat :=
  match d.promises.lookup name with
  | some key => .ok key
  | none => .error .noPromise

/-- The outcome of a promise so far. -/
def promiseOutcome (d : Desk) (name : String) : Except Refusal (Option (Outcome Message)) :=
  (d.promiseKey name).map fun key =>
    (d.link.replies[key]?).bind fun handler => handler.promise.outcome

/-- Starts to wait for a promise. -/
def watch (d : Desk) (label : Nat) (name : String) (bound : Option Duration) :
    Except Refusal Desk :=
  (d.promiseKey name).map fun key => { d with link := d.link.startWatch label key bound }

/-! ### Steps of the owner -/

/-- What takes the answer to a frame. -/
inductive Attachment
  | nothing
  /-- The handler of a statement, whose response is kept under a name from now on. -/
  | statement (name : String) (channel : Channel)
  /-- The handler of a single reply, whose promise is kept under a name. -/
  | promise (name : String) (kind : MessageKind)

/-- What the owner of a link can do with it. -/
inductive OwnerStep
  | markOpen
  /-- Describe the frame layer. -/
  | describe
  /-- Describe the whole connection. -/
  | describeConnection
  | readConfig
  /-- Allocate ids and read the last of them. -/
  | allocate (count : Nat)
  /-- Start a call that brings nothing to the desk. -/
  | call (call : LinkCall)
  /-- Write a frame, if there is one. -/
  | send (frame : Except ProtocolError Frame) (attachment : Attachment)
  /-- Start a call whose response will be kept under a name. -/
  | submit (name : String) (call : LinkCall)
  /-- Give the link up. -/
  | giveAway

/-- What a step of the owner answers. -/
inductive OwnerAnswer
  | done
  | text (text : String)
  | config (config : Config)
  | id (id : UInt16)
  /-- There is no frame to write. -/
  | unwritable (reason : ProtocolError)
  | refused (reason : Refusal)

/-- Starts to write a frame with what takes its answer. -/
def send (d : Desk) (label : Nat) (frame : Frame) : Attachment → Desk
  | .nothing => { d with link := d.link.start label (.send frame none) }
  | .statement name channel =>
    let key := d.link.channels.length
    let d := { d with link := d.link.addChannel channel }.keep name key
    { d with link := d.link.start label (.send frame (some (.statement key))) }
  | .promise name kind =>
    let key := d.link.replies.length
    { d with
      link := (d.link.addReply kind).start label (.send frame (some (.reply key)))
      promises := (name, key) :: d.promises }

/-- Takes a step of an owner who has the link. -/
def ownBy (d : Desk) (label : Nat) : OwnerStep → OwnerAnswer × Desk
  | .markOpen => (.done, { d with link := d.link.markOpen })
  | .describe => (.text d.link.summary, d)
  | .describeConnection => (.text d.link.connectionSummary, d)
  | .readConfig => (.config d.link.config, d)
  | .allocate count => (.id (d.link.nextIds count).1, { d with link := (d.link.nextIds count).2 })
  | .call call => (.done, { d with link := d.link.start label call })
  | .send (.ok frame) attachment => (.done, d.send label frame attachment)
  | .send (.error reason) _ => (.unwritable reason, d)
  | .submit name call =>
    (.done, { d with link := d.link.start label call, awaited := d.awaited ++ [(label, name)] })
  | .giveAway => (.done, { d with link := d.link.giveAway })

/-- Takes a step of the owner, unless the link was given up. -/
def own (d : Desk) (label : Nat) (step : OwnerStep) : OwnerAnswer × Desk :=
  if d.link.isHeld then d.ownBy label step else (.refused .dropped, d)

/-! ### Taking back -/

/-- What a call ended with, if it has ended. -/
def result? (d : Desk) (label : Nat) : Option LinkResult := d.link.finished.lookup label

/-- Takes back the responses of calls that have ended, and keeps those that submissions brought. -/
def update (d : Desk) : Desk :=
  let returned := d.responses.map fun response =>
    match response.place with
    | .lent label => if (d.result? label).isSome then { response with place := .here } else response
    | _ => response
  let d := { d with responses := returned }
  d.awaited.foldl (fun d (label, name) =>
    match d.result? label with
    | some (.response key) =>
      { d.keep name key with awaited := d.awaited.filter (·.1 != label) }
    | some _ => { d with awaited := d.awaited.filter (·.1 != label) }
    | none => d) d

/-- Lets all calls run until none can go on. -/
def settle (d : Desk) : Desk := { d with link := Schedule.settle d.link }.update

/-- Lets time pass. -/
def elapse (d : Desk) (gap : Nat) : Desk := { d with link := Schedule.elapse gap d.link }

/-- The responses in the order of their names, each with its channel. -/
def listing (d : Desk) : List (NamedResponse × Option Channel) :=
  (d.responses.mergeSort fun a b => a.name ≤ b.name).map fun response =>
    (response, d.link.channels[response.key]?)

end Desk

end BeeProtocol
