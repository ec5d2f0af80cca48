import BeeProtocol.Statement.Channel
import BeeProtocol.Proofs.Message.StatementResponse
import Mathlib.Data.List.Induction
import Mathlib.Data.List.TakeWhile

/-!
# What happens to a statement

A statement is told of events, of malformed payloads and of being abandoned. What a caller sees of
it is a matter of these signals alone: the first header counts, the first end is final, and of the
rows between them those are accepted that have as many values as the header has columns. A channel
reflects the signals that its handler has dealt with.
-/

namespace BeeProtocol

/-- What can happen to a statement. -/
inductive Signal
  | decoded (event : StatementEvent)
  /-- A payload holds no event. -/
  | malformed (reason : ProtocolError)
  /-- The statement is failed from outside. -/
  | abandoned (reason : ClientError)

namespace Signal

/-- What a payload tells the handler. -/
def ofPayload (payload : List UInt8) : Signal :=
  match StatementResponse.parser.parse payload with
  | .ok response => .decoded response.event
  | .error reason => .malformed reason

/-- The header that a signal brings. -/
def header? : Signal → Option (List Column)
  | decoded (.columns header) => some header
  | _ => none

/-- The row that a signal brings under a header, if there is a value for each column. -/
def rowUnder? (header : List Column) : Signal → Option Row
  | decoded (.row values) => if header.length = values.length then some ⟨header, values⟩ else none
  | _ => none

/-- Whether a signal ends the statement. -/
def ends : Signal → Bool
  | decoded event => event.isTerminal
  | malformed _ | abandoned _ => true

/-- The failure that the statement ends with if a signal ends it. -/
def failure? : Signal → Option ClientError
  | decoded (.error reason) => some (.application reason)
  | decoded _ => none
  | malformed reason => some (.decode reason.message)
  | abandoned reason => some reason

/-! ### Sequences of signals -/

/-- Whether a statement has ended. -/
def isOver (log : List Signal) : Bool := log.any ends

/-- The signals before the end. -/
def live (log : List Signal) : List Signal := log.takeWhile fun signal => !signal.ends

/-- The first header before the end. -/
def headerOf (log : List Signal) : Option (List Column) := (live log).findSome? header?

/-- The failure of the first end. -/
def failureOf (log : List Signal) : Option ClientError := (log.find? ends).bind failure?

/-- How far the answer has come. -/
def phaseOf (log : List Signal) : StatementPhase :=
  if isOver log then .done
  else if (headerOf log).isSome then .receivingRows
  else .awaitingHeader

/-- The rows between the first header and the first end that fit the header. -/
def accepted (log : List Signal) : List Row :=
  match headerOf log with
  | some header =>
    ((live log).dropWhile fun signal => signal.header?.isNone).filterMap (rowUnder? header)
  | none => []

/-- The row that a signal adds to the accepted ones. -/
def nextRow? (log : List Signal) (signal : Signal) : Option Row :=
  if isOver log then none else (headerOf log).bind fun header => signal.rowUnder? header

/-! ### One more signal -/

/-- Once a statement is over, it stays over. -/
theorem isOver_append (log more : List Signal) :
    isOver (log ++ more) = (isOver log || isOver more) := List.any_append

/-- Before the end, all signals count. -/
theorem live_append_of_not_isOver {log : List Signal} (h : isOver log = false)
    (more : List Signal) : live (log ++ more) = log ++ live more := by
  have hall : ∀ signal ∈ log, signal.ends = false := by simpa [isOver] using h
  exact List.takeWhile_append_of_pos fun signal hsignal => by simp [hall signal hsignal]

/-- A log that is not over is all live. -/
theorem live_of_not_isOver {log : List Signal} (h : isOver log = false) : live log = log := by
  simpa [live] using live_append_of_not_isOver h []

/-- After the end, no signal counts. -/
theorem live_append_of_isOver {log : List Signal} (h : isOver log) (more : List Signal) :
    live (log ++ more) = live log := by
  induction log with
  | nil => simp [isOver] at h
  | cons signal log ih =>
    cases hends : signal.ends with
    | true => simp [live, hends]
    | false =>
      have hlog : isOver log := by simpa [isOver, hends] using h
      simpa [live, hends] using ih hlog

/-- Before the end, a signal counts unless it is the end. -/
theorem live_append_singleton {log : List Signal} (h : isOver log = false) (signal : Signal) :
    live (log ++ [signal]) = log ++ if signal.ends then [] else [signal] := by
  rw [live_append_of_not_isOver h]
  cases hends : signal.ends <;> simp [live, hends]

/-- An end brings neither a header nor a row. -/
theorem header?_of_ends {signal : Signal} (h : signal.ends) :
    signal.header? = none ∧ ∀ header, signal.rowUnder? header = none := by
  cases signal with
  | decoded event =>
    cases event with
    | columns header => simp [ends, StatementEvent.isTerminal] at h
    | row values => simp [ends, StatementEvent.isTerminal] at h
    | abort => exact ⟨rfl, fun _ => rfl⟩
    | error reason => exact ⟨rfl, fun _ => rfl⟩
  | malformed reason => exact ⟨rfl, fun _ => rfl⟩
  | abandoned reason => exact ⟨rfl, fun _ => rfl⟩

/-- A signal that brings a header brings no row. -/
theorem rowUnder?_of_header? {signal : Signal} {columns : List Column}
    (h : signal.header? = some columns) (header : List Column) :
    signal.rowUnder? header = none := by
  cases signal with
  | decoded event => cases event <;> simp_all [header?, rowUnder?]
  | malformed reason => simp [header?] at h
  | abandoned reason => simp [header?] at h

/-- What comes after the end leaves the header. -/
theorem headerOf_append_of_isOver {log : List Signal} (h : isOver log) (more : List Signal) :
    headerOf (log ++ more) = headerOf log := by
  rw [headerOf, live_append_of_isOver h, headerOf]

/-- The first header stays, and the first one that comes before the end is taken. -/
theorem headerOf_append_singleton {log : List Signal} (h : isOver log = false) (signal : Signal) :
    headerOf (log ++ [signal]) = (headerOf log).or signal.header? := by
  rw [headerOf, headerOf, live_append_singleton h, live_of_not_isOver h, List.findSome?_append]
  cases hends : signal.ends with
  | true => simp [(header?_of_ends hends).1]
  | false => simp

/-- What comes after the end leaves the failure. -/
theorem failureOf_append_of_isOver {log : List Signal} (h : isOver log) (more : List Signal) :
    failureOf (log ++ more) = failureOf log := by
  obtain ⟨last, hlast⟩ : ∃ last, log.find? ends = some last :=
    Option.isSome_iff_exists.mp (by simpa [isOver] using h)
  rw [failureOf, failureOf, List.find?_append, hlast, Option.some_or]

/-- The first end decides on the failure. -/
theorem failureOf_append_singleton {log : List Signal} (h : isOver log = false)
    (signal : Signal) :
    failureOf (log ++ [signal]) = if signal.ends then signal.failure? else none := by
  have hnone : log.find? ends = none := by simpa [isOver] using h
  rw [failureOf, List.find?_append, hnone, Option.none_or]
  cases hends : signal.ends <;> simp [hends]

/-- Before the end there is no failure. -/
theorem failureOf_of_not_isOver {log : List Signal} (h : isOver log = false) :
    failureOf log = none := by
  have hnone : log.find? ends = none := by simpa [isOver] using h
  rw [failureOf, hnone, Option.bind_none]

/-- The accepted rows grow at the end, by at most one row for each signal. -/
theorem accepted_append_singleton (log : List Signal) (signal : Signal) :
    accepted (log ++ [signal]) = accepted log ++ (nextRow? log signal).toList := by
  cases hover : isOver log with
  | true =>
    rw [nextRow?, if_pos hover, accepted, accepted, headerOf_append_of_isOver hover,
      live_append_of_isOver hover, Option.toList_none, List.append_nil]
  | false =>
    rw [nextRow?, if_neg (by simp [hover]), accepted, accepted, headerOf_append_singleton hover,
      live_append_singleton hover, live_of_not_isOver hover]
    cases hheader : headerOf log with
    | none =>
      -- A first header brings no row, and what comes before it is dropped.
      have hnone : ∀ signal ∈ log, signal.header? = none := by
        simpa [headerOf, live_of_not_isOver hover] using hheader
      cases hcolumns : signal.header? with
      | none => simp
      | some header =>
        rw [List.dropWhile_append_of_pos fun s hs => by simp [hnone s hs]]
        cases hends : signal.ends with
        | true => simp
        | false => simp [hcolumns, rowUnder?_of_header? hcolumns header]
    | some header =>
      have hsome : ∃ s ∈ log, s.header? = some header := by
        rw [headerOf, live_of_not_isOver hover] at hheader
        exact List.exists_of_findSome?_eq_some hheader
      have hstays : log.dropWhile (fun s => s.header?.isNone) ≠ [] := by
        obtain ⟨s, hs, hcolumns⟩ := hsome
        intro hempty
        have := List.dropWhile_eq_nil_iff.mp hempty s hs
        simp [hcolumns] at this
      rw [List.dropWhile_append, if_neg (by simpa using hstays), Option.some_or]
      cases hends : signal.ends with
      | true => simp [(header?_of_ends hends).2]
      | false => cases hrow : signal.rowUnder? header <;> simp [hrow]

/-- Nothing is accepted after the end. -/
theorem accepted_append_of_isOver {log : List Signal} (h : isOver log) (more : List Signal) :
    accepted (log ++ more) = accepted log := by
  rw [accepted, accepted, headerOf_append_of_isOver h, live_append_of_isOver h]

/-- The rows accepted from a beginning of the signals are the first ones of all. -/
theorem accepted_prefix_append (log more : List Signal) :
    accepted log <+: accepted (log ++ more) := by
  induction more using List.reverseRecOn with
  | nil => simp
  | append_singleton more signal ih =>
    rw [← List.append_assoc, accepted_append_singleton]
    exact ih.trans (List.prefix_append _ _)

/-- Being abandoned adds no row. -/
theorem accepted_append_abandoned (log : List Signal) (reasons : List ClientError) :
    accepted (log ++ reasons.map abandoned) = accepted log := by
  induction reasons using List.reverseRecOn with
  | nil => simp
  | append_singleton reasons reason ih =>
    have hnone : nextRow? (log ++ reasons.map abandoned) (.abandoned reason) = none := by
      simp [nextRow?, rowUnder?]
    rw [List.map_append, ← List.append_assoc, List.map_singleton, accepted_append_singleton, ih,
      hnone, Option.toList_none, List.append_nil]

/-! ### What the signals come to -/

/-- What the signals come to, apart from the rows. -/
def answerOf (log : List Signal) : StatementPhase × Option (List Column) × Option ClientError :=
  (phaseOf log, headerOf log, failureOf log)

/-- After the end, no signal changes what they come to. -/
theorem answerOf_append_of_isOver {log : List Signal} (h : isOver log) (more : List Signal) :
    answerOf (log ++ more) = answerOf log := by
  simp only [answerOf, phaseOf, headerOf_append_of_isOver h, failureOf_append_of_isOver h,
    isOver_append, h, Bool.true_or]

/-- A signal that is neither an end nor a header could as well be missing. -/
theorem answerOf_without (signal : Signal) (hends : signal.ends = false)
    (hheader : signal.header? = none) (log more : List Signal) :
    answerOf (log ++ signal :: more) = answerOf (log ++ more) := by
  cases hover : isOver log with
  | true => rw [answerOf_append_of_isOver hover, answerOf_append_of_isOver hover]
  | false =>
    have hheaders : headerOf (log ++ signal :: more) = headerOf (log ++ more) := by
      rw [headerOf, headerOf, live_append_of_not_isOver hover, live_append_of_not_isOver hover]
      simp [live, hends, hheader]
    have hfailures : failureOf (log ++ signal :: more) = failureOf (log ++ more) := by
      simp [failureOf, hends]
    have hovers : isOver (log ++ signal :: more) = isOver (log ++ more) := by
      simp [isOver, hends]
    rw [answerOf, answerOf, phaseOf, phaseOf, hheaders, hfailures, hovers]

/-- A signal that adds a row is neither an end nor a header, and comes before the end. -/
theorem of_nextRow? {log : List Signal} {signal : Signal} {row : Row}
    (h : nextRow? log signal = some row) :
    isOver log = false ∧ signal.ends = false ∧ signal.header? = none := by
  rw [nextRow?] at h
  split at h
  · simp at h
  · rename_i hover
    obtain ⟨header, -, hrow⟩ := Option.bind_eq_some_iff.mp h
    refine ⟨by simpa using hover, ?_, ?_⟩
    · by_contra hends
      rw [(header?_of_ends (by simpa using hends)).2 header] at hrow
      simp at hrow
    · by_contra hheader
      obtain ⟨columns, hcolumns⟩ := Option.ne_none_iff_exists'.mp hheader
      rw [rowUnder?_of_header? hcolumns header] at hrow
      simp at hrow

end Signal

end BeeProtocol
