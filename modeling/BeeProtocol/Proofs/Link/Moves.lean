import BeeProtocol.Proofs.Link.Roster
import BeeProtocol.Proofs.Statement.Pull

/-!
# Moves

Whatever is done with a link, its roster changes by a few moves: a call is begun, it goes on to
another stage, registers its handler or quits, the link is closed, rows are taken from a response,
and the reader takes a handler off the queue, hands it a payload and puts it back or lets go of it.
-/

namespace BeeProtocol

namespace Stage

/-- The handler that a call at this stage has not registered yet. -/
def carries? : Stage → Option Handler
  | called (.send _ handler) => handler
  | sending _ (.inLine _ handler) => handler
  | _ => none

/-- The single reply that a call at this stage wants for itself. -/
def asks? : Stage → Option Nat
  | sending (.reply key _ _) _ => some key
  | replying key _ _ _ => some key
  | _ => none

/-- The single reply whose handler a call at this stage has registered for itself. -/
def claims? : Stage → Option Nat
  | sending (.reply key _ _) (.holding _) => some key
  | sending (.reply key _ _) .flushing => some key
  | replying key _ _ _ => some key
  | _ => none

/-- A call that claims a reply asks for it. -/
theorem asks_of_claims {stage : Stage} {key : Nat} (h : stage.claims? = some key) :
    stage.asks? = some key := by
  cases stage with
  | sending purpose step => cases purpose <;> cases step <;> first | exact h | cases h
  | replying other bound use deadline => exact h
  | _ => cases h

/-- Whether a call at this stage is writing a frame. -/
def isWriting : Stage → Bool
  | sending _ (.holding _) => true
  | sending _ .flushing => true
  | _ => false

/-- Whether a call at this stage has been through the registration of a handler, if it had one. -/
def hasEntered : Stage → Bool
  | sending (.keepAlive _ _) _ => false
  | sending _ (.inLine _ _) => false
  | sending _ _ => true
  | replying _ _ _ _ => true
  | ended => true
  | _ => false

/-- A call in line for the sake of a reply carries the handler of that reply, and a ping carries no
handler. -/
def IsConsistent : Stage → Prop
  | sending (.reply key _ _) (.inLine _ handler) => handler = some (.reply key)
  | sending (.keepAlive _ _) (.inLine _ handler) => handler = none
  | _ => True

/-- A call that writes has registered what it carried. -/
theorem isConsistent_of_isWriting {stage : Stage} (h : stage.isWriting) : stage.IsConsistent := by
  cases stage with
  | sending purpose step =>
    cases step with
    | inLine frame handler => cases h
    | holding frame => cases purpose <;> trivial
    | flushing => cases purpose <;> trivial
  | _ => cases h

/-- The handler of a single reply is carried only by the call that wants the reply for itself. -/
def IsOwn : Stage → Prop
  | called (.send _ (some (.reply _))) => False
  | sending purpose (.inLine _ (some (.reply key))) => ∃ bound use, purpose = .reply key bound use
  | _ => True

/-- A call at this stage has nothing to do with a handler. -/
structure IsPlain (stage : Stage) : Prop where
  /-- It carries no handler. -/
  carries : stage.carries? = none
  /-- It waits for no reply. -/
  asks : stage.asks? = none
  /-- It does not have the writer. -/
  writes : stage.isWriting = false
  /-- What it carries goes with what it wants. -/
  consistent : stage.IsConsistent
  /-- It brings no handler of others. -/
  own : stage.IsOwn

/-- A call goes on without registering or letting go of a handler. -/
structure GoesOnTo (stage new : Stage) : Prop where
  /-- It carries the same handler. -/
  carries : new.carries? = stage.carries?
  /-- It waits for the same reply. -/
  asks : new.asks? = stage.asks?
  /-- It claims the same reply. -/
  claims : new.claims? = stage.claims?
  /-- It does not have the writer then. -/
  writes : new.isWriting = false
  /-- What it carries then goes with what it wants. -/
  consistent : new.IsConsistent
  /-- It brings no handler of others if it did not before. -/
  own : stage.IsOwn → new.IsOwn
  /-- It has entered the writer if it had before. -/
  entered : stage.hasEntered → new.hasEntered

end Stage

/-- The handler that the reader holds. -/
def ReaderStage.held? : ReaderStage → Option Handler
  | decoding handler _ => some handler
  | storing key _ => some (.statement key)
  | _ => none

/-- What a caller of a response changes of its channel: it takes rows off the front. -/
structure Channel.GivesOut (c : Channel) (rows : List Row) (c' : Channel) : Prop where
  /-- The id is the same. -/
  id : c'.id = c.id
  /-- The bound of the waits is the same. -/
  bound : c'.bound = c.bound
  /-- The statement answers the same. -/
  answer : c'.answer = c.answer
  /-- The rows that are taken were at the front. -/
  rows : rows ++ c'.rows = c.rows

/-- What the end of a link changes of a channel: a statement that goes on is failed. -/
structure Channel.IsLost (c c' : Channel) : Prop where
  /-- The id is the same. -/
  id : c'.id = c.id
  /-- The bound of the waits is the same. -/
  bound : c'.bound = c.bound
  /-- A statement that goes on has failed because the connection is closed. -/
  answer : c'.answer = (c.finish (some .connectionClosed)).answer
  /-- The rows are the same. -/
  rows : c'.rows = c.rows

namespace Channel

/-- A statement that ends because the link is closed has lost its handler. -/
theorem isLost_finish (c : Channel) : c.IsLost (c.finish (some .connectionClosed)) :=
  ⟨c.finish_id _, c.finish_bound _, rfl, c.finish_rows _⟩

/-- A row that was to be stored is lost with its statement. -/
theorem isLost_letGo (c : Channel) : c.IsLost c.letGo := by
  refine ⟨c.letGo_id, c.letGo_bound, ?_, ?_⟩
  · have hphase : c.cutOff.phase = c.phase := congrArg (·.1) c.cutOff_answer
    have hheader : c.cutOff.header = c.header := congrArg (·.2.1) c.cutOff_answer
    have hfailure : c.cutOff.failure = c.failure := congrArg (·.2.2) c.cutOff_answer
    unfold letGo finish isDone answer
    rw [hphase]
    split
    · rw [hphase, hheader, hfailure]
    · rw [hheader, hfailure]
  · rw [letGo, finish_rows, cutOff_rows]

end Channel

/-- What is remembered of a move. -/
inductive Event
  /-- A call is begun with the handler of a single reply that it does not wait for. -/
  | offered (key : Nat)
  /-- A call registers the handler that it carries. -/
  | registered (t : Nat) (handler : Handler)
  /-- A call puts its frame into the out-buffer. -/
  | encoded (t : Nat)
  /-- The reader takes a handler off the queue, for a frame that the handler takes. -/
  | matched (handler : Handler)
  /-- The reader hands a payload or a row to a statement. -/
  | fed (key : Nat)
  /-- A caller takes rows from a response. -/
  | gained (key : Nat) (rows : List Row)

namespace Roster

/-- Whether a handler takes a frame. -/
def accepts (r : Roster) (frame : Frame) : Handler → Bool
  | .statement key =>
    frame.type == MessageKind.statementResponse.frameType
      && (r.channels[key]?).any fun c => c.isCandidate frame.payload
  | .reply key =>
    (r.replies[key]?).any fun h => h.frameType == frame.type && h.isCandidate frame.payload

/-- Takes the response of a statement from its caller. -/
def dropResponse (r : Roster) : Option Nat → Roster
  | some key => r.change key Channel.drop
  | none => r

/-- What a call at a stage gives up that ends there: the handler that it carries and the one that it
has registered for itself. -/
def release (r : Roster) (stage : Stage) : Roster :=
  let r := stage.carries?.elim r r.letGo
  stage.asks?.elim r fun key => r.unregister (.reply key)

/-- A call at a stage ends there; if it took a response from its caller, that is dropped. -/
def quit (r : Roster) (t : Nat) (stage : Stage) (response : Option Nat) : Roster :=
  ((r.release stage).dropResponse response).move t .ended

/-- A line in which a call moves leaves the writer with whoever else has it. -/
def KeepsWriter (r : Roster) (t : Nat) (line : List Nat) : Prop :=
  ∀ u, u ≠ t → r.line.head? = some u → line.head? = some u

/-- One move. -/
inductive Move (r : Roster) : Option Event → Roster → Prop
  | begin (stage : Stage) (hplain : stage.IsPlain) :
    Move r none { r with stages := r.stages ++ [stage] }
  | beginStatement (frame : Frame) (id : UInt32) (capacity : Nat) (bound : Duration) :
    Move r none
      { r with
        channels := r.channels ++ [.fresh id capacity bound]
        stages := r.stages ++ [.called (.send frame (some (.statement r.channels.length)))] }
  | beginReply (frame : Frame) (key : Nat) (added : List ReplyHandler) :
    Move r (some (.offered key))
      { r with
        replies := r.replies ++ added
        stages := r.stages ++ [.called (.send frame (some (.reply key)))] }
  | goOn {t : Nat} {stage : Stage} (new : Stage) {line : List Nat}
    (hstage : r.stages[t]? = some stage) (hgoesOn : stage.GoesOnTo new)
    (hline : r.KeepsWriter t line) :
    Move r none ({ r with line := line }.move t new)
  | openReply {t : Nat} {stage : Stage} (kind : MessageKind) (frame : Frame) (bound : Duration)
    (use : ReplyUse) {line : List Nat} (hstage : r.stages[t]? = some stage)
    (hplain : stage.IsPlain) (hentered : stage.hasEntered = false)
    (hline : r.KeepsWriter t line) :
    Move r none
      ({ r with replies := r.replies ++ [ReplyHandler.ofKind kind], line := line }.move t
        (.sending (.reply r.replies.length bound use)
          (.inLine frame (some (.reply r.replies.length)))))
  | openStatement {t : Nat} {stage : Stage} (id : UInt32) (capacity : Nat) (bound : Duration)
    (frame : Frame) {line : List Nat} (hstage : r.stages[t]? = some stage)
    (hplain : stage.IsPlain) (hentered : stage.hasEntered = false)
    (hline : r.KeepsWriter t line) :
    Move r none
      ({ r with channels := r.channels ++ [Channel.fresh id capacity bound], line := line }.move t
        (.sending (.statement r.channels.length)
          (.inLine frame (some (.statement r.channels.length)))))
  /-- A call without a handler gets the writer. -/
  | enter {t : Nat} {purpose : Purpose} {frame : Frame}
    (hstage : r.stages[t]? = some (.sending purpose (.inLine frame none)))
    (hwriter : r.line.head? = some t) :
    Move r none (r.move t (.sending purpose (.holding frame)))
  | register {t : Nat} {purpose : Purpose} {frame : Frame} {handler : Handler}
    (hstage : r.stages[t]? = some (.sending purpose (.inLine frame (some handler))))
    (hwriter : r.line.head? = some t) (hopen : r.isClosed = false) :
    Move r (some (.registered t handler))
      ({ r with pending := r.pending ++ [handler] }.move t (.sending purpose (.holding frame)))
  | encode {t : Nat} {purpose : Purpose} {frame : Frame}
    (hstage : r.stages[t]? = some (.sending purpose (.holding frame))) :
    Move r (some (.encoded t)) (r.move t (.sending purpose .flushing))
  | quit {t : Nat} {stage : Stage} (response : Option Nat) {line : List Nat}
    (hstage : r.stages[t]? = some stage) (hline : r.KeepsWriter t line) :
    Move r none ({ r with line := line }.quit t stage response)
  | close (reader : ReaderStage) (isAborted : Bool) (hheld : reader.held? = r.reading.held?)
    (hstops : reader.isStopped ∨ isAborted) :
    Move r none { r.shut with reading := reader, isAborted := isAborted }
  | giveOut {key : Nat} {c c' : Channel} {rows : List Row} (hchannel : r.channels[key]? = some c)
    (hgives : c.GivesOut rows c') :
    Move r (some (.gained key rows)) { r with channels := r.channels.set key c' }
  | drop (key : Nat) : Move r none (r.change key Channel.drop)
  | take {frame : Frame} {handler : Handler} (hreading : r.reading = .reading)
    (hgoesOn : r.isAborted = false) (hfind : r.pending.find? (r.accepts frame) = some handler) :
    Move r (some (.matched handler))
      { r with
        pending := r.pending.erase handler
        reading := .decoding handler frame.payload }
  | answer {key : Nat} {payload : List UInt8}
    (hreading : r.reading = .decoding (.reply key) payload) (hgoesOn : r.isAborted = false) :
    Move r none
      { r.changeReply key fun h => ((h.decode payload).complete).drop with reading := .reading }
  /-- The statement goes on after a payload. -/
  | hear {key : Nat} {payload : List UInt8} (row : Row)
    (hreading : r.reading = .decoding (.statement key) payload) (hgoesOn : r.isAborted = false)
    (hlive : ∀ c, r.channels[key]? = some c → (c.receive payload).1.isDone = false) :
    Move r (some (.fed key))
      { r.change key fun c => (c.receive payload).1 with reading := .storing key row }
  /-- The statement ends with a payload. -/
  | hearEnd {key : Nat} {payload : List UInt8} {c : Channel}
    (hreading : r.reading = .decoding (.statement key) payload) (hgoesOn : r.isAborted = false)
    (hchannel : r.channels[key]? = some c) (hdone : (c.receive payload).1.isDone = true) :
    Move r (some (.fed key))
      { r.change key fun c => (c.receive payload).1 with reading := .reading }
  | store {key : Nat} {row : Row} (hreading : r.reading = .storing key row)
    (hgoesOn : r.isAborted = false) :
    Move r (some (.fed key)) (r.change key fun c => (c.store row).1)
  | putBack {key : Nat} {row : Row} (hreading : r.reading = .storing key row)
    (hgoesOn : r.isAborted = false) (hopen : r.isClosed = false) :
    Move r none { r with pending := .statement key :: r.pending, reading := .reading }
  | forgetStatement {key : Nat} {change : Channel → Channel} (reader : ReaderStage)
    (hheld : r.reading.held? = some (.statement key)) (hlost : ∀ c : Channel, c.IsLost (change c))
    (hempty : reader.held? = none) :
    Move r none { r.change key change with reading := reader }
  | forgetReply {key : Nat} (reader : ReaderStage) (hheld : r.reading.held? = some (.reply key))
    (hempty : reader.held? = none) :
    Move r none { r.letGo (.reply key) with reading := reader }
  | halt (hempty : r.reading.held? = none) : Move r none { r with reading := .stopped }

/-- Moves one after another, with what is remembered of them. -/
inductive Moves : Roster → List Event → Roster → Prop
  | nil (r : Roster) : Moves r [] r
  | cons {r next last : Roster} {event : Option Event} {events : List Event}
    (hmove : r.Move event next) (hrest : Moves next events last) :
    Moves r (event.toList ++ events) last

/-- One move is a sequence of moves. -/
theorem Move.moves {r r' : Roster} {event : Option Event} (h : r.Move event r') :
    r.Moves event.toList r' := by
  have hone := Moves.cons h (.nil r')
  rwa [List.append_nil] at hone

/-- Moves follow one another. -/
theorem Moves.append {r r' r'' : Roster} {first second : List Event} (h : r.Moves first r')
    (h' : r'.Moves second r'') : r.Moves (first ++ second) r'' := by
  induction h with
  | nil r => exact h'
  | cons hmove hrest ih =>
    rw [List.append_assoc]
    exact .cons hmove (ih h')

/-- What holds in the beginning, of the roster and of what is remembered up to then, and is kept by
every move holds after all of them. -/
theorem Moves.invariant {P : Roster → List Event → Prop} {r r' : Roster} {events : List Event}
    (h : r.Moves events r') (log : List Event)
    (hmove : ∀ {r r' : Roster} {event : Option Event} {log : List Event},
      (∀ e, event = some e → e ∈ events) → r.Move event r' → P r log → P r' (log ++ event.toList))
    (hr : P r log) : P r' (log ++ events) := by
  induction h generalizing log with
  | nil r =>
    rw [List.append_nil]
    exact hr
  | @cons r next last event events hfirst hrest ih =>
    rw [← List.append_assoc]
    refine ih _ (fun he => hmove fun e hevent => ?_) (hmove (fun e hevent => ?_) hfirst hr)
    · exact List.mem_append_right _ (he e hevent)
    · exact List.mem_append_left _ (Option.mem_toList.mpr hevent)

end Roster

end BeeProtocol
