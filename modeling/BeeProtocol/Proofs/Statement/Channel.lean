import BeeProtocol.Statement.Pull
import BeeProtocol.Proofs.Statement.Log

/-!
# Channels as reflections

A channel reflects the signals that its handler has dealt with: their end, their header and their
failure. Only the handler's side changes what is reflected, and only storing and taking change the
rows: storing appends a row at the end, and what a call takes is cut off at the front.
-/

namespace BeeProtocol

namespace Channel

/-- What the statement has come to, apart from the rows. -/
def answer (c : Channel) : StatementPhase × Option (List Column) × Option ClientError :=
  (c.phase, c.header, c.failure)

/-- A channel shows what the signals come to. -/
def Reflects (c : Channel) (log : List Signal) : Prop := c.answer = Signal.answerOf log

/-! ### The handler's side -/

/-- What the handler does about a signal. -/
def hear (c : Channel) : Signal → Channel × Option Row
  | .decoded event => c.apply event
  | .malformed reason => (c.finish (some (.decode reason.message)), none)
  | .abandoned reason => (c.finish (some reason), none)

/-- Receiving a payload is hearing what it tells. -/
theorem receive_eq (c : Channel) (payload : List UInt8) :
    c.receive payload = c.hear (.ofPayload payload) := by
  rw [receive, StatementResponse.decode_eq, Signal.ofPayload]
  cases StatementResponse.parser.parse payload <;> rfl

/-- A fresh channel has heard nothing. -/
theorem reflects_fresh (id : UInt32) (capacity : Nat) (bound : Duration) :
    (fresh id capacity bound).Reflects [] := rfl

namespace Reflects

variable {c : Channel} {log : List Signal}

/-- The phase of a channel is that of its log. -/
theorem phase_eq (h : c.Reflects log) : c.phase = Signal.phaseOf log := congrArg (·.1) h

/-- The header of a channel is that of its log. -/
theorem header_eq (h : c.Reflects log) : c.header = Signal.headerOf log := congrArg (·.2.1) h

/-- The failure of a channel is that of its log. -/
theorem failure_eq (h : c.Reflects log) : c.failure = Signal.failureOf log := congrArg (·.2.2) h

/-- A channel is done when the statement is over. -/
theorem isDone_eq (h : c.Reflects log) : c.isDone = Signal.isOver log := by
  rw [isDone, h.phase_eq, Signal.phaseOf]
  cases Signal.isOver log with
  | true => rfl
  | false => cases (Signal.headerOf log).isSome <;> rfl

/-- The first end is reflected, and no later one. -/
theorem finish (h : c.Reflects log) (signal : Signal) (hends : signal.ends) :
    (c.finish signal.failure?).Reflects (log ++ [signal]) := by
  rw [Channel.finish, h.isDone_eq]
  cases hover : Signal.isOver log with
  | true => exact h.trans (Signal.answerOf_append_of_isOver hover _).symm
  | false =>
    have hheader : c.header = Signal.headerOf (log ++ [signal]) := by
      rw [Signal.headerOf_append_singleton hover, (Signal.header?_of_ends hends).1, h.header_eq,
        Option.or_none]
    have hfailure : c.failure.or signal.failure? = Signal.failureOf (log ++ [signal]) := by
      rw [Signal.failureOf_append_singleton hover, if_pos hends, h.failure_eq,
        Signal.failureOf_of_not_isOver hover, Option.none_or]
    have hphase : StatementPhase.done = Signal.phaseOf (log ++ [signal]) := by
      simp [Signal.phaseOf, Signal.isOver, hends]
    simp only [Reflects, answer, Signal.answerOf, Bool.false_eq_true, if_false, hheader, hfailure,
      hphase]

/-- The first header is reflected, and no later one. -/
theorem takeHeader (h : c.Reflects log) (header : List Column) :
    (c.takeHeader header).Reflects (log ++ [.decoded (.columns header)]) := by
  rw [Channel.takeHeader, h.phase_eq, Signal.phaseOf]
  cases hover : Signal.isOver log with
  | true =>
    exact h.trans (Signal.answerOf_append_of_isOver hover _).symm
  | false =>
    have hgoesOn : Signal.isOver (log ++ [.decoded (.columns header)]) = false := by
      rw [Signal.isOver_append, hover]
      rfl
    have hfailure : c.failure = Signal.failureOf (log ++ [.decoded (.columns header)]) := by
      rw [h.failure_eq, Signal.failureOf_of_not_isOver hover,
        Signal.failureOf_of_not_isOver hgoesOn]
    have hheaders := Signal.headerOf_append_singleton hover (.decoded (.columns header))
    cases hheader : Signal.headerOf log with
    | none =>
      rw [hheader, Option.none_or] at hheaders
      simp [Reflects, answer, Signal.answerOf, Signal.phaseOf, hgoesOn, hheaders, hfailure,
        Signal.header?]
    | some first =>
      rw [hheader, Option.some_or] at hheaders
      simp [Reflects, answer, Signal.answerOf, Signal.phaseOf, hgoesOn, hheaders, ← hfailure,
        h.phase_eq, h.header_eq, hover, hheader]

/-- A row changes nothing of what is reflected. -/
theorem row (h : c.Reflects log) (values : List Value) :
    c.Reflects (log ++ [.decoded (.row values)]) := by
  have hsame := Signal.answerOf_without (.decoded (.row values)) rfl rfl log []
  rw [List.append_nil] at hsame
  exact h.trans hsame.symm

/-- A row is left to be stored exactly when the signal adds it to the accepted ones. -/
theorem fitRow?_eq (h : c.Reflects log) (values : List Value) :
    c.fitRow? values = Signal.nextRow? log (.decoded (.row values)) := by
  rw [fitRow?, Signal.nextRow?, h.isDone_eq, h.header_eq]
  cases Signal.headerOf log <;> rfl

/-- After hearing a signal, the channel reflects it too. -/
theorem hear (h : c.Reflects log) (signal : Signal) :
    (c.hear signal).1.Reflects (log ++ [signal]) ∧
      (c.hear signal).2 = Signal.nextRow? log signal := by
  have hnone (hends : signal.ends) : none = Signal.nextRow? log signal := by
    simp [Signal.nextRow?, (Signal.header?_of_ends hends).2]
  have hend (hends : signal.ends) : (c.finish signal.failure?).Reflects (log ++ [signal]) :=
    h.finish signal hends
  cases signal with
  | decoded event =>
    cases event with
    | columns header =>
      refine ⟨h.takeHeader header, ?_⟩
      simp [Channel.hear, Channel.apply, Signal.nextRow?, Signal.rowUnder?]
    | row values => exact ⟨h.row values, h.fitRow?_eq values⟩
    | abort => exact ⟨hend rfl, hnone rfl⟩
    | error reason => exact ⟨hend rfl, hnone rfl⟩
  | malformed reason => exact ⟨hend rfl, hnone rfl⟩
  | abandoned reason => exact ⟨hend rfl, hnone rfl⟩

end Reflects

/-- Whether a statement has ended is part of what it answers. -/
theorem isDone_of_answer {c c' : Channel} (h : c'.answer = c.answer) : c'.isDone = c.isDone := by
  rw [isDone, isDone, show c'.phase = c.phase from congrArg (·.1) h]

/-- A statement that is ended has ended. -/
theorem finish_isDone (c : Channel) (failure : Option ClientError) :
    (c.finish failure).isDone = true := by
  unfold finish
  split
  · assumption
  · rfl

/-- A statement that has ended does not start again. -/
theorem hear_isDone {c : Channel} (h : c.isDone) (signal : Signal) : (c.hear signal).1.isDone := by
  rcases signal with event | reason | reason
  · cases event with
    | columns header =>
      have hphase : c.phase ≠ .awaitingHeader := by
        intro hphase
        simp [isDone, hphase] at h
      simp only [hear, apply, takeHeader, if_neg hphase, h]
    | row values => exact h
    | abort => exact c.finish_isDone _
    | error reason => exact c.finish_isDone _
  · exact c.finish_isDone _
  · exact c.finish_isDone _

/-- A payload that leaves a row to be stored does not end the statement. -/
theorem isDone_of_receive_row {c : Channel} {payload : List UInt8} {row : Row}
    (h : (c.receive payload).2 = some row) : (c.receive payload).1.isDone = false := by
  rw [receive_eq] at h ⊢
  cases hsignal : Signal.ofPayload payload with
  | decoded event =>
    rw [hsignal] at h
    cases event with
    | row values =>
      dsimp only [hear, apply, fitRow?] at h ⊢
      cases hdone : c.isDone with
      | false => rfl
      | true => simp [hdone] at h
    | _ => cases h
  | _ =>
    rw [hsignal] at h
    cases h

/-! ### What does not change the rows -/

/-- The end of a statement leaves its rows. -/
@[simp] theorem finish_rows (c : Channel) (failure : Option ClientError) :
    (c.finish failure).rows = c.rows := by
  rw [finish]
  split <;> rfl

/-- The end of a statement leaves its response. -/
@[simp] theorem finish_isDropped (c : Channel) (failure : Option ClientError) :
    (c.finish failure).isDropped = c.isDropped := by
  rw [finish]
  split <;> rfl

/-- What a statement hears leaves its rows. -/
@[simp] theorem hear_rows (c : Channel) (signal : Signal) : (c.hear signal).1.rows = c.rows := by
  rcases signal with event | reason | reason
  · cases event <;> simp only [hear, apply, takeHeader, finish_rows]
    split <;> rfl
  · exact c.finish_rows _
  · exact c.finish_rows _

/-- What a statement hears leaves its response. -/
@[simp] theorem hear_isDropped (c : Channel) (signal : Signal) :
    (c.hear signal).1.isDropped = c.isDropped := by
  rcases signal with event | reason | reason
  · cases event <;> simp only [hear, apply, takeHeader, finish_isDropped]
    split <;> rfl
  · exact c.finish_isDropped _
  · exact c.finish_isDropped _

/-- Cutting off the decoding leaves the rows. -/
@[simp] theorem cutOff_rows (c : Channel) : c.cutOff.rows = c.rows := by
  rw [cutOff]
  split <;> rfl

/-- Cutting off the decoding leaves the response. -/
@[simp] theorem cutOff_isDropped (c : Channel) : c.cutOff.isDropped = c.isDropped := by
  rw [cutOff]
  split <;> rfl

/-- Freeing a slot leaves the rows. -/
@[simp] theorem release_rows (c : Channel) : c.release.rows = c.rows := by
  rw [release]
  split <;> rfl

/-- Freeing a slot leaves the response. -/
@[simp] theorem release_isDropped (c : Channel) : c.release.isDropped = c.isDropped := by
  rw [release]
  split <;> rfl

/-! ### What does not change the id -/

/-- The end of a statement leaves its id. -/
@[simp] theorem finish_id (c : Channel) (failure : Option ClientError) :
    (c.finish failure).id = c.id := by
  rw [finish]
  split <;> rfl

/-- What a statement hears leaves its id. -/
@[simp] theorem hear_id (c : Channel) (signal : Signal) : (c.hear signal).1.id = c.id := by
  rcases signal with event | reason | reason
  · cases event <;> simp only [hear, apply, takeHeader, finish_id]
    split <;> rfl
  · exact c.finish_id _
  · exact c.finish_id _

/-- A payload leaves the id. -/
@[simp] theorem receive_id (c : Channel) (payload : List UInt8) :
    (c.receive payload).1.id = c.id := by
  rw [receive_eq, hear_id]

/-- Letting go of the handler leaves the id. -/
@[simp] theorem letGo_id (c : Channel) : c.letGo.id = c.id := by
  rw [letGo, finish_id, cutOff]
  split <;> rfl

/-- Storing a row leaves the id. -/
@[simp] theorem store_id (c : Channel) (row : Row) : (c.store row).1.id = c.id := by
  unfold store
  split <;> try rfl
  split <;> rfl

/-! ### What does not change the answer -/

/-- Cutting off the decoding leaves what the statement answers. -/
@[simp] theorem cutOff_answer (c : Channel) : c.cutOff.answer = c.answer := by
  rw [cutOff]
  split <;> rfl

/-- Freeing a slot leaves what the statement answers. -/
@[simp] theorem release_answer (c : Channel) : c.release.answer = c.answer := by
  rw [release]
  split <;> rfl

/-- Dropping the response leaves what the statement answers. -/
@[simp] theorem drop_answer (c : Channel) : c.drop.answer = c.answer := rfl

/-- Storing a row changes nothing but the rows and who has a slot. -/
@[simp] theorem store_answer (c : Channel) (row : Row) : (c.store row).1.answer = c.answer := by
  unfold store
  split <;> try rfl
  split <;> rfl

/-- Storing a row leaves the response. -/
@[simp] theorem store_isDropped (c : Channel) (row : Row) :
    (c.store row).1.isDropped = c.isDropped := by
  unfold store
  split <;> try simp_all [push]
  split <;> simp_all

/-- As long as the response is kept, a row is dealt with by being appended to the others. -/
theorem store_rows {c : Channel} (h : c.isDropped = false) (row : Row) :
    (c.store row).1.rows = c.rows ++ if (c.store row).2 then [row] else [] := by
  unfold store
  split <;> simp_all [push]
  split <;> simp_all

/-! ### The response's side -/

/-- Taking a row takes the oldest one, unless there is a failure or no row. -/
theorem take_eq (c : Channel) :
    (∃ reason, c.failure = some reason ∧ c.take = (.error reason, c)) ∨
    (c.failure = none ∧ c.rows = [] ∧ c.take = (.error .emptyResult, c)) ∨
    (∃ row rows, c.failure = none ∧ c.rows = row :: rows ∧
      c.take = (.ok row, { c with rows := rows }.release)) := by
  unfold take
  cases hfailure : c.failure with
  | some reason => exact .inl ⟨reason, rfl, rfl⟩
  | none =>
    cases hrows : c.rows with
    | nil => exact .inr (.inl ⟨rfl, rfl, rfl⟩)
    | cons row rows => exact .inr (.inr ⟨row, rows, rfl, rfl, rfl⟩)

/-- Taking a row leaves the response. -/
@[simp] theorem take_isDropped (c : Channel) : c.take.2.isDropped = c.isDropped := by
  rcases c.take_eq with ⟨reason, -, htake⟩ | ⟨-, -, htake⟩ | ⟨row, rows, -, -, htake⟩
  · rw [htake]
  · rw [htake]
  · rw [htake, release_isDropped]

/-! ### What does not change the default bound -/

/-- The end of a statement leaves the bound of its waits. -/
@[simp] theorem finish_bound (c : Channel) (failure : Option ClientError) :
    (c.finish failure).bound = c.bound := by
  rw [finish]
  split <;> rfl

/-- What a statement hears leaves the bound of its waits. -/
@[simp] theorem hear_bound (c : Channel) (signal : Signal) :
    (c.hear signal).1.bound = c.bound := by
  rcases signal with event | reason | reason
  · cases event <;> simp only [hear, apply, takeHeader, finish_bound]
    split <;> rfl
  · exact c.finish_bound _
  · exact c.finish_bound _

/-- A payload leaves the bound of the waits. -/
@[simp] theorem receive_bound (c : Channel) (payload : List UInt8) :
    (c.receive payload).1.bound = c.bound := by
  rw [receive_eq, hear_bound]

/-- Cutting off the decoding leaves the bound of the waits. -/
@[simp] theorem cutOff_bound (c : Channel) : c.cutOff.bound = c.bound := by
  rw [cutOff]
  split <;> rfl

/-- Letting go of the handler leaves the bound of the waits. -/
@[simp] theorem letGo_bound (c : Channel) : c.letGo.bound = c.bound := by
  rw [letGo, finish_bound, cutOff_bound]

/-- Storing a row leaves the bound of the waits. -/
@[simp] theorem store_bound (c : Channel) (row : Row) : (c.store row).1.bound = c.bound := by
  unfold store
  split <;> try rfl
  split <;> rfl

/-- Freeing a slot leaves the bound of the waits. -/
@[simp] theorem release_bound (c : Channel) : c.release.bound = c.bound := by
  rw [release]
  split <;> rfl

/-- Taking a row leaves the bound of the waits. -/
@[simp] theorem take_bound (c : Channel) : c.take.2.bound = c.bound := by
  rcases c.take_eq with ⟨reason, -, htake⟩ | ⟨-, -, htake⟩ | ⟨row, rows, -, -, htake⟩
  · rw [htake]
  · rw [htake]
  · rw [htake, release_bound]

end Channel

end BeeProtocol
