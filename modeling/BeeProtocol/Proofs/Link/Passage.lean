import BeeProtocol.Proofs.Link.Moves

/-!
# What becomes of statements and replies

As long as the reader feeds nothing to a statement, its callers take rows off its buffer, and the
end of the link may fail it once. Nothing else happens to it, whatever else is done with the link.
-/

namespace BeeProtocol

namespace Channel

/-- What a channel comes to while nothing is fed to it: rows are taken from it, and its statement
may be failed because the link has ended. -/
structure ComesTo (c : Channel) (rows : List Row) (c' : Channel) : Prop where
  /-- The id is the same. -/
  id : c'.id = c.id
  /-- The bound of the waits is the same. -/
  bound : c'.bound = c.bound
  /-- The rows that are taken were at the front. -/
  rows : rows ++ c'.rows = c.rows
  /-- The statement answers the same, or has failed because the connection is closed. -/
  answer : c'.answer = c.answer ∨ c'.answer = (c.finish (some .connectionClosed)).answer

variable {c c' c'' : Channel} {rows more : List Row}

/-- How a statement ends depends only on what it has come to. -/
theorem finish_answer_congr (h : c'.answer = c.answer) (failure : Option ClientError) :
    (c'.finish failure).answer = (c.finish failure).answer := by
  have hphase : c'.phase = c.phase := congrArg (·.1) h
  have hheader : c'.header = c.header := congrArg (·.2.1) h
  have hfailure : c'.failure = c.failure := congrArg (·.2.2) h
  unfold finish isDone
  rw [hphase]
  split
  · exact h
  · simp only [Channel.answer, hheader, hfailure]

/-- A statement ends once. -/
theorem finish_of_isDone (h : c.isDone) (failure : Option ClientError) : c.finish failure = c :=
  if_pos h

namespace ComesTo

/-- A channel comes to itself. -/
theorem refl (c : Channel) : c.ComesTo [] c := ⟨rfl, rfl, rfl, .inl rfl⟩

/-- Handing out rows is one way on. -/
theorem of_givesOut (h : c.GivesOut rows c') : c.ComesTo rows c' :=
  ⟨h.id, h.bound, h.rows, .inl h.answer⟩

/-- Losing the handler is one way on. -/
theorem of_isLost (h : c.IsLost c') : c.ComesTo [] c' := ⟨h.id, h.bound, h.rows, .inr h.answer⟩

/-- Dropping the response is one way on. -/
theorem drop (c : Channel) : c.ComesTo [] c.drop := ⟨rfl, rfl, rfl, .inl rfl⟩

/-- The ways of a channel add up, and so do the rows that it hands out. -/
theorem trans (h : c.ComesTo rows c') (h' : c'.ComesTo more c'') :
    c.ComesTo (rows ++ more) c'' := by
  refine ⟨h'.id.trans h.id, h'.bound.trans h.bound, ?_, ?_⟩
  · rw [List.append_assoc, h'.rows, h.rows]
  · rcases h.answer with hsame | hlost
    · rcases h'.answer with hsame' | hlost'
      · exact .inl (hsame'.trans hsame)
      · exact .inr (hlost'.trans (finish_answer_congr hsame _))
    · right
      rcases h'.answer with hsame' | hlost'
      · exact hsame'.trans hlost
      · have hdone : (c.finish (some .connectionClosed)).isDone := c.finish_isDone _
        rw [hlost', finish_answer_congr hlost, finish_of_isDone hdone]

/-- A statement that has ended stays as it is. -/
theorem answer_of_isDone (h : c.ComesTo rows c') (hdone : c.isDone) : c'.answer = c.answer := by
  rcases h.answer with hsame | hlost
  · exact hsame
  · rw [hlost, finish_of_isDone hdone]

end ComesTo

/-- A failure ends the statement. -/
def IsSound (c : Channel) : Prop := c.isDone = false → c.failure = none

/-- What feeding does to a channel. -/
structure Hears (c c' : Channel) : Prop where
  /-- The id is the same. -/
  id : c'.id = c.id
  /-- The bound of the waits is the same. -/
  bound : c'.bound = c.bound
  /-- A statement that has ended answers the same. -/
  done : c.isDone → c'.answer = c.answer
  /-- A statement stays sound. -/
  sound : c.IsSound → c'.IsSound
  /-- The peer reports no timeouts. -/
  untimed : ∀ what, c'.failure = some (.timeout what) → c.failure = some (.timeout what)

/-- A statement that answers the same is as sound. -/
theorem isSound_of_answer (h : c'.answer = c.answer) (hsound : c.IsSound) : c'.IsSound := by
  intro hdone
  rw [isDone_of_answer h] at hdone
  exact (congrArg (·.2.2) h).trans (hsound hdone)

/-- A statement that has ended is sound. -/
theorem isSound_finish (c : Channel) (failure : Option ClientError) :
    (c.finish failure).IsSound := by
  intro hdone
  rw [finish_isDone] at hdone
  cases hdone

/-- A channel stays sound on its way. -/
theorem ComesTo.sound (h : c.ComesTo rows c') (hsound : c.IsSound) : c'.IsSound := by
  rcases h.answer with hsame | hlost
  · exact isSound_of_answer hsame hsound
  · exact isSound_of_answer hlost (c.isSound_finish _)

/-- The end of a statement is a timeout only if its failure is one. -/
theorem untimed_finish {failure : Option ClientError} {what : String}
    (hfailure : failure ≠ some (.timeout what))
    (h : (c.finish failure).failure = some (.timeout what)) : c.failure = some (.timeout what) := by
  unfold finish at h
  split at h
  · exact h
  · exact (Option.or_eq_some_iff.mp h).resolve_right fun hlater => hfailure hlater.2

/-- A statement that ends hears that, unless it ends because of a timeout. -/
theorem hears_finish (c : Channel) {failure : Option ClientError}
    (hfailure : ∀ what, failure ≠ some (.timeout what)) : c.Hears (c.finish failure) where
  id := c.finish_id failure
  bound := c.finish_bound failure
  done h := by rw [finish_of_isDone h]
  sound _ := c.isSound_finish failure
  untimed what := untimed_finish (hfailure what)

/-- A statement hears an event. -/
theorem hears_apply (c : Channel) (event : StatementEvent) : c.Hears (c.apply event).1 := by
  cases event with
  | columns header =>
    dsimp only [apply, takeHeader]
    split
    · rename_i hphase
      refine ⟨rfl, rfl, fun hdone => ?_, fun hsound _ => hsound ?_, fun _ h => h⟩
      · simp [isDone, hphase] at hdone
      · simp [isDone, hphase]
    · exact ⟨rfl, rfl, fun _ => rfl, fun hsound => hsound, fun _ h => h⟩
  | row values => exact ⟨rfl, rfl, fun _ => rfl, fun hsound => hsound, fun _ h => h⟩
  | abort => exact c.hears_finish (by simp)
  | error reason => exact c.hears_finish (by simp)

/-- A statement hears a payload. -/
theorem hears_receive (c : Channel) (payload : List UInt8) : c.Hears (c.receive payload).1 := by
  unfold receive
  split
  · exact c.hears_apply _
  · exact ⟨rfl, rfl, fun _ => rfl, fun hsound => hsound, fun _ h => h⟩
  · exact c.hears_finish (by simp)

/-- A row that is stored is part of what the statement hears. -/
theorem hears_store (c : Channel) (row : Row) : c.Hears (c.store row).1 where
  id := c.store_id row
  bound := c.store_bound row
  done _ := c.store_answer row
  sound := isSound_of_answer (c.store_answer row)
  untimed _ h := (congrArg (·.2.2) (c.store_answer row)).symm.trans h

end Channel

namespace ReplyHandler

/-- What becomes of a single reply: nothing changes it once it is complete. -/
structure ComesTo (h h' : ReplyHandler) : Prop where
  /-- The kind is the same. -/
  kind : h'.kind = h.kind
  /-- A promise that is complete stays as it is. -/
  complete : h.promise.isComplete → h'.promise = h.promise

variable {h h' h'' : ReplyHandler}

/-- A reply comes to itself. -/
theorem ComesTo.refl (h : ReplyHandler) : h.ComesTo h := ⟨rfl, fun _ => rfl⟩

/-- The ways of a reply add up. -/
theorem ComesTo.trans (hcomes : h.ComesTo h') (hcomes' : h'.ComesTo h'') : h.ComesTo h'' := by
  refine ⟨hcomes'.kind.trans hcomes.kind, fun hcomplete => ?_⟩
  have hsame := hcomes.complete hcomplete
  rw [← hsame] at hcomplete ⊢
  exact hcomes'.complete hcomplete

/-- Settling a reply is one way on. -/
theorem comesTo_settle (h : ReplyHandler) (outcome : Outcome Message) :
    h.ComesTo (h.settle outcome) := by
  refine ⟨rfl, fun hcomplete => ?_⟩
  obtain ⟨before, hbefore⟩ := Option.isSome_iff_exists.mp hcomplete
  simp [settle, Promise.complete, hbefore]

/-- Completing a reply is one way on. -/
theorem comesTo_complete (h : ReplyHandler) : h.ComesTo h.complete := by
  unfold complete
  split
  · exact .refl h
  · rename_i outcome _
    have hsame : h.ComesTo { h with decoded := none } := ⟨rfl, fun _ => rfl⟩
    exact hsame.trans (comesTo_settle _ outcome)

/-- Answering a reply is one way on. -/
theorem comesTo_answer (h : ReplyHandler) (payload : List UInt8) :
    h.ComesTo ((h.decode payload).complete).drop := by
  have hdecode : h.ComesTo (h.decode payload) := ⟨rfl, fun _ => rfl⟩
  exact (hdecode.trans (comesTo_complete _)).trans (comesTo_settle _ _)

end ReplyHandler

namespace Event

/-- The rows that were taken from a response. -/
def gainedFrom (key : Nat) (log : List Event) : List Row :=
  log.flatMap fun
    | .gained other rows => if other = key then rows else []
    | _ => []

/-- What two parts of a run hand out adds up. -/
theorem gainedFrom_append (key : Nat) (log more : List Event) :
    gainedFrom key (log ++ more) = gainedFrom key log ++ gainedFrom key more :=
  List.flatMap_append ..

end Event

namespace Roster

variable {r r' : Roster} {event : Option Event} {key : Nat} {c : Channel} {more : List Channel}

/-- A statement comes to something. -/
def Brings (r' : Roster) (key : Nat) (c : Channel) (rows : List Row) : Prop :=
  ∃ c', r'.channels[key]? = some c' ∧ c.ComesTo rows c'

/-- A channel is brought along if nothing happens to it. -/
theorem brings_self (h : r.channels[key]? = some c) : r.Brings key c [] := ⟨c, h, .refl c⟩

/-- A channel is brought along by a change of any channel that hands out nothing. -/
theorem brings_change (h : r.channels[key]? = some c) (other : Nat) {change : Channel → Channel}
    (hchange : ∀ c : Channel, c.ComesTo [] (change c)) :
    (r.change other change).Brings key c [] := by
  refine ⟨if other = key then change c else c, ?_, ?_⟩
  · rw [Roster.change, List.getElem?_modify, h]
    by_cases hkey : other = key <;> simp [hkey]
  · split
    · exact hchange c
    · exact .refl c

/-- What brings a channel along adds up, and so do the rows that it hands out. -/
theorem Brings.trans {rows others : List Row} (h : r.Brings key c rows)
    (h' : ∀ c', r.channels[key]? = some c' → r'.Brings key c' others) :
    r'.Brings key c (rows ++ others) := by
  obtain ⟨c', hc', hcomes⟩ := h
  obtain ⟨c'', hc'', hcomes'⟩ := h' c' hc'
  exact ⟨c'', hc'', hcomes.trans hcomes'⟩

/-- A channel is brought along when a handler is let go of. -/
theorem brings_letGo (h : r.channels[key]? = some c) (handler : Handler) :
    (r.letGo handler).Brings key c [] := by
  cases handler with
  | statement other => exact brings_change h other fun c => .of_isLost c.isLost_finish
  | reply other => exact brings_self h

/-- A channel is brought along when the link is closed. -/
theorem brings_shut (h : r.channels[key]? = some c) : r.shut.Brings key c [] :=
  shut_invariant (P := fun r => r.Brings key c []) (brings_self h) (brings_self h)
    fun _ handler hbrings => hbrings.trans fun _ hc' => brings_letGo hc' handler

/-- A channel is brought along when a call ends. -/
theorem brings_quit (h : r.channels[key]? = some c) (t : Nat) (stage : Stage)
    (response : Option Nat) : (r.quit t stage response).Brings key c [] := by
  have hreleased : (r.release stage).Brings key c [] := by
    unfold release
    cases stage.carries? with
    | none => cases stage.asks? <;> exact brings_self h
    | some handler => cases stage.asks? <;> exact brings_letGo h handler
  refine hreleased.trans fun c' hc' => ?_
  cases response with
  | none => exact brings_self hc'
  | some other => exact brings_change hc' other Channel.ComesTo.drop

/-- A statement that is opened leaves the others as they were. -/
theorem brings_append (h : r.channels[key]? = some c)
    (hchannels : r'.channels = r.channels ++ more) : r'.Brings key c [] := by
  refine ⟨c, ?_, .refl c⟩
  rw [hchannels, List.getElem?_append_left (List.getElem?_eq_some_iff.mp h).1, h]

/-- What a move does with a statement. -/
inductive Fares (r' : Roster) (event : Option Event) (key : Nat) (c : Channel) : Prop
  | unfed (h : r'.Brings key c (Event.gainedFrom key event.toList))
  | fed (hevent : event = some (.fed key)) (c' : Channel) (h : r'.channels[key]? = some c')
    (hhears : c.Hears c')

/-- A statement that is fed fares as its channel hears, and the others fare as before. -/
theorem fares_feed (h : r.channels[key]? = some c) (other : Nat) {change : Channel → Channel}
    (hhears : c.Hears (change c)) (hchannels : r'.channels = (r.change other change).channels) :
    r'.Fares (some (.fed other)) key c := by
  by_cases hkey : other = key
  · subst hkey
    refine .fed rfl (change c) ?_ hhears
    rw [hchannels, Roster.change, List.getElem?_modify_eq, h]
    rfl
  · refine .unfed ⟨c, ?_, .refl c⟩
    rw [hchannels, Roster.change, List.getElem?_modify]
    simp [hkey, h]

/-- Every channel fares in a move as what is remembered of the move says. -/
theorem Move.fares (hmove : r.Move event r') (h : r.channels[key]? = some c) :
    r'.Fares event key c := by
  cases hmove with
  | beginStatement frame id capacity bound => exact .unfed (brings_append h rfl)
  | openStatement id capacity bound frame hstage hplain hentered hline =>
    exact .unfed (brings_append h rfl)
  | @quit t stage response line hstage hline =>
    have hline : ({ r with line := line } : Roster).channels[key]? = some c := h
    exact .unfed (brings_quit hline t stage response)
  | close reader isAborted hheld hstops => exact .unfed (brings_shut h)
  | @giveOut other before after rows hchannel hgives =>
    refine .unfed ?_
    by_cases hkey : other = key
    · subst hkey
      rw [hchannel, Option.some.injEq] at h
      subst h
      refine ⟨after, List.getElem?_set_self (List.getElem?_eq_some_iff.mp hchannel).1, ?_⟩
      have hgained : Event.gainedFrom other [.gained other rows] = rows := by
        simp [Event.gainedFrom]
      rw [Option.toList_some, hgained]
      exact .of_givesOut hgives
    · have hgained : Event.gainedFrom key [.gained other rows] = [] := by
        simp [Event.gainedFrom, hkey]
      rw [Option.toList_some, hgained]
      exact ⟨c, (List.getElem?_set_ne hkey).trans h, .refl c⟩
  | drop other => exact .unfed (brings_change h other Channel.ComesTo.drop)
  | @hear other payload row hreading hgoesOn hlive =>
    exact fares_feed h other (c.hears_receive payload) rfl
  | @hearEnd other payload before hreading hgoesOn hchannel hdone =>
    exact fares_feed h other (c.hears_receive payload) rfl
  | @store other row hreading hgoesOn => exact fares_feed h other (c.hears_store row) rfl
  | @forgetStatement other change reader hheld hlost hempty =>
    exact .unfed (brings_change h other fun c => .of_isLost (hlost c))
  | _ => exact .unfed (brings_self h)

/-- A statement that has ended stays as it is, whatever is done. -/
theorem Move.answer_of_isDone (hmove : r.Move event r') (h : r.channels[key]? = some c)
    (hdone : c.isDone) : ∃ c', r'.channels[key]? = some c' ∧ c'.answer = c.answer := by
  rcases hmove.fares h with ⟨c', hc', hcomes⟩ | ⟨-, c', hc', hhears⟩
  · exact ⟨c', hc', hcomes.answer_of_isDone hdone⟩
  · exact ⟨c', hc', hhears.done hdone⟩

/-- What becomes of a statement to which nothing is fed. -/
theorem Moves.brings {events : List Event} (hmoves : r.Moves events r')
    (hunfed : .fed key ∉ events) (h : r.channels[key]? = some c) :
    r'.Brings key c (Event.gainedFrom key events) := by
  refine hmoves.invariant (P := fun r log => r.Brings key c (Event.gainedFrom key log)) []
    (fun hevent hmove hbrings => ?_) (brings_self h)
  rw [Event.gainedFrom_append]
  refine hbrings.trans fun c' hc' => ?_
  rcases hmove.fares hc' with hbrings' | ⟨hfed, -, -, -⟩
  · exact hbrings'
  · exact absurd (hevent _ hfed) hunfed

/-! ### Single replies -/

/-- A single reply comes to something. -/
def Settles (r' : Roster) (key : Nat) (h : ReplyHandler) : Prop :=
  ∃ h', r'.replies[key]? = some h' ∧ h.ComesTo h'

variable {h h' : ReplyHandler}

/-- A reply settles down if nothing happens to it. -/
theorem settles_self (hreply : r.replies[key]? = some h) : r.Settles key h := ⟨h, hreply, .refl h⟩

/-- What settles a reply adds up. -/
theorem Settles.trans (hsettles : r.Settles key h)
    (hthen : ∀ h', r.replies[key]? = some h' → r'.Settles key h') : r'.Settles key h := by
  obtain ⟨h', hreply, hcomes⟩ := hsettles
  obtain ⟨h'', hreply', hcomes'⟩ := hthen h' hreply
  exact ⟨h'', hreply', hcomes.trans hcomes'⟩

/-- A reply settles down under a change of any reply that does so. -/
theorem settles_changeReply (hreply : r.replies[key]? = some h) (other : Nat)
    {change : ReplyHandler → ReplyHandler} (hchange : ∀ h : ReplyHandler, h.ComesTo (change h)) :
    (r.changeReply other change).Settles key h := by
  refine ⟨if other = key then change h else h, ?_, ?_⟩
  · rw [Roster.changeReply, List.getElem?_modify, hreply]
    by_cases hkey : other = key <;> simp [hkey]
  · split
    · exact hchange h
    · exact .refl h

/-- A reply settles down when a handler is let go of. -/
theorem settles_letGo (hreply : r.replies[key]? = some h) (handler : Handler) :
    (r.letGo handler).Settles key h := by
  cases handler with
  | statement other => exact settles_self hreply
  | reply other => exact settles_changeReply hreply other fun h => h.comesTo_settle _

/-- A reply settles down when the link is closed. -/
theorem settles_shut (hreply : r.replies[key]? = some h) : r.shut.Settles key h :=
  shut_invariant (P := fun r => r.Settles key h) (settles_self hreply) (settles_self hreply)
    fun _ handler hsettles => hsettles.trans fun _ hreply' => settles_letGo hreply' handler

/-- A reply settles down when a call ends. -/
theorem settles_quit (hreply : r.replies[key]? = some h) (t : Nat) (stage : Stage)
    (response : Option Nat) : (r.quit t stage response).Settles key h := by
  have hreleased : (r.release stage).Settles key h := by
    unfold release
    cases stage.carries? with
    | none => cases stage.asks? <;> exact settles_self hreply
    | some handler => cases stage.asks? <;> exact settles_letGo hreply handler
  refine hreleased.trans fun h' hreply' => ?_
  cases response <;> exact settles_self hreply'

/-- A reply settles down when others are added. -/
theorem settles_append {more : List ReplyHandler} (hreply : r.replies[key]? = some h)
    (hreplies : r'.replies = r.replies ++ more) : r'.Settles key h := by
  refine ⟨h, ?_, .refl h⟩
  rw [hreplies, List.getElem?_append_left (List.getElem?_eq_some_iff.mp hreply).1, hreply]

/-- What a move does with a single reply. -/
theorem Move.settles (hmove : r.Move event r') (hreply : r.replies[key]? = some h) :
    r'.Settles key h := by
  cases hmove with
  | beginReply frame other added => exact settles_append hreply rfl
  | openReply kind frame bound use hstage hplain hentered hline => exact settles_append hreply rfl
  | @quit t stage response line hstage hline =>
    have hline : ({ r with line := line } : Roster).replies[key]? = some h := hreply
    exact settles_quit hline t stage response
  | close reader isAborted hheld hstops => exact settles_shut hreply
  | @answer other payload hreading hgoesOn =>
    exact settles_changeReply hreply other fun h => h.comesTo_answer payload
  | @forgetReply other reader hheld hempty => exact settles_letGo hreply (.reply other)
  | _ => exact settles_self hreply

/-! ### What is known -/

/-- Whether there is such a statement or reply. -/
def Knows (r : Roster) : Handler → Prop
  | .statement key => key < r.channels.length
  | .reply key => key < r.replies.length

/-- A handler that stands for something does so after every move. -/
theorem Move.knows {handler : Handler} (hmove : r.Move event r') (hknows : r.Knows handler) :
    r'.Knows handler := by
  cases handler with
  | statement key =>
    rcases hmove.fares (List.getElem?_eq_getElem hknows) with ⟨c', hc', -⟩ | ⟨-, c', hc', -⟩
    · exact (List.getElem?_eq_some_iff.mp hc').1
    · exact (List.getElem?_eq_some_iff.mp hc').1
  | reply key =>
    obtain ⟨h', hreply', -⟩ := hmove.settles (List.getElem?_eq_getElem hknows)
    exact (List.getElem?_eq_some_iff.mp hreply').1

end Roster

end BeeProtocol
