import BeeProtocol.Proofs.Link.Registration

/-!
# What closing costs

Closing a link empties the queue and tells the reader to end, and from then on nothing is fed to a
statement. So a statement that had not ended can only fail because the link is closed, and one that
had ended stays as it was.
-/

namespace BeeProtocol

namespace Channel

variable {c c' : Channel} {rows : List Row}

/-- If the statement has ended, then because the link was closed. -/
def EndsLost (c : Channel) : Prop :=
  c.failure = if c.isDone then some .connectionClosed else none

/-- How a statement ends is part of what it answers. -/
theorem endsLost_of_answer (h : c'.answer = c.answer) (hc : c.EndsLost) : c'.EndsLost := by
  have hfailure : c'.failure = c.failure := congrArg (·.2.2) h
  rw [EndsLost, hfailure, isDone_of_answer h]
  exact hc

/-- A statement that is lost has ended for want of its link. -/
theorem EndsLost.finish (hc : c.EndsLost) : (c.finish (some .connectionClosed)).EndsLost := by
  cases hdone : c.isDone with
  | true => rwa [finish_of_isDone hdone]
  | false =>
    rw [EndsLost, hdone, if_neg (by simp)] at hc
    rw [EndsLost, finish_isDone, if_pos rfl, Channel.finish, if_neg (by simp [hdone]), hc]
    rfl

/-- What happens to a statement while nothing is fed to it. -/
theorem ComesTo.endsLost (h : c.ComesTo rows c') (hc : c.EndsLost) : c'.EndsLost := by
  rcases h.answer with hsame | hlost
  · exact endsLost_of_answer hsame hc
  · exact endsLost_of_answer hlost hc.finish

end Channel

namespace Roster

variable {r r' : Roster} {event : Option Event} {key : Nat} {c : Channel}

/-! ### What closing leaves -/

/-- Nobody waits in a queue that is closed. -/
theorem shut_pending (hpending : r.isClosed → r.pending = []) : r.shut.pending = [] := by
  unfold shut
  split
  · rename_i hclosed
    exact hpending hclosed
  · obtain ⟨channels, replies, hfold⟩ :=
      foldl_letGo_eq r.pending { r with isClosed := true, pending := [] }
    rw [hfold]

/-- On a closed link no handler waits, and the reader has ended or is about to. -/
structure IsShut (r : Roster) : Prop where
  /-- Nobody waits on a closed link. -/
  pending : r.isClosed → r.pending = []
  /-- The reader of a closed link has ended or is to end. -/
  reader : r.isClosed → r.reading.isStopped ∨ r.isAborted

/-- A reader that is at work reads an open link. -/
theorem IsShut.isClosed_eq_false (h : r.IsShut) (hgoesOn : r.isAborted = false)
    (hreading : r.reading.isStopped = false) : r.isClosed = false := by
  by_contra hclosed
  rw [Bool.not_eq_false] at hclosed
  rcases h.reader hclosed with hstopped | haborted
  · rw [hreading] at hstopped
    cases hstopped
  · rw [hgoesOn] at haborted
    cases haborted

/-- Nothing is to be shown of an open link. -/
theorem IsShut.of_open (hopen : r.isClosed = false) : r.IsShut :=
  ⟨fun hclosed => by simp [hopen] at hclosed, fun hclosed => by simp [hopen] at hclosed⟩

/-- A reader that lets go of what it holds was told to, if the link is closed. -/
theorem IsShut.of_emptied (h : r.IsShut) {handler : Handler}
    (hheld : r.reading.held? = some handler) (hclosed : r'.isClosed = r.isClosed)
    (hpending : r'.pending = r.pending) (haborted : r'.isAborted = r.isAborted) : r'.IsShut := by
  refine ⟨fun hclosed' => ?_, fun hclosed' => .inr ?_⟩
  · rw [hpending]
    exact h.pending (hclosed ▸ hclosed')
  · rw [haborted]
    refine (h.reader (hclosed ▸ hclosed')).resolve_left fun hstopped => ?_
    cases hreading : r.reading <;> simp_all [ReaderStage.held?, ReaderStage.isStopped]

/-- A roster that is closed stays shut in every move. -/
theorem Move.isShut (hmove : r.Move event r') (h : r.IsShut) : r'.IsShut := by
  cases hmove with
  | register hstage hwriter hopen => exact .of_open hopen
  | @quit t stage response line hstage hline =>
    refine ⟨fun hclosed => ?_, fun hclosed => ?_⟩
    · rw [quit_isClosed] at hclosed
      have hempty : ({ r with line := line } : Roster).pending = [] := h.pending hclosed
      rw [quit_pending, hempty]
      cases stage.asks? <;> rfl
    · rw [quit_isClosed] at hclosed
      rw [quit_reading, quit_isAborted]
      exact h.reader hclosed
  | close reader isAborted hheld hstops => exact ⟨fun _ => shut_pending h.pending, fun _ => hstops⟩
  | take hreading hgoesOn hfind =>
    exact .of_open (h.isClosed_eq_false hgoesOn (by rw [hreading]; rfl))
  | answer hreading hgoesOn => exact .of_open (h.isClosed_eq_false hgoesOn (by rw [hreading]; rfl))
  | hear row hreading hgoesOn hlive =>
    exact .of_open (h.isClosed_eq_false hgoesOn (by rw [hreading]; rfl))
  | hearEnd hreading hgoesOn hchannel hdone =>
    exact .of_open (h.isClosed_eq_false hgoesOn (by rw [hreading]; rfl))
  | putBack hreading hgoesOn hopen => exact .of_open hopen
  | forgetStatement reader hheld hlost hempty => exact h.of_emptied hheld rfl rfl rfl
  | forgetReply reader hheld hempty => exact h.of_emptied hheld rfl rfl rfl
  | halt hempty => exact ⟨h.pending, fun _ => .inl rfl⟩
  | _ => exact ⟨h.pending, h.reader⟩

/-- Whatever is done with a link, a closed one is shut. -/
theorem Moves.isShut {events : List Event} (hmoves : r.Moves events r') (h : r.IsShut) :
    r'.IsShut :=
  hmoves.invariant (P := fun r _ => r.IsShut) [] (fun _ hmove h => hmove.isShut h) h

/-- A closed link stays closed. -/
theorem Move.isClosed (hmove : r.Move event r') (h : r.isClosed) : r'.isClosed := by
  cases hmove with
  | quit response hstage hline =>
    rw [quit_isClosed]
    exact h
  | close reader isAborted hheld hstops => exact r.shut_isClosed
  | _ => exact h

/-- A roster that is closed stays closed. -/
theorem Moves.isClosed {events : List Event} (hmoves : r.Moves events r') (h : r.isClosed) :
    r'.isClosed :=
  hmoves.invariant (P := fun r _ => r.isClosed) [] (fun _ hmove h => hmove.isClosed h) h

/-! ### Statements that are opened -/

/-- Closing adds no statement. -/
theorem shut_channels_length (r : Roster) : r.shut.channels.length = r.channels.length := by
  refine shut_invariant (P := fun r' => r'.channels.length = r.channels.length) rfl rfl ?_
  rintro r' (key | key) h
  · exact (List.length_modify ..).trans h
  · exact h

/-- A statement that was not there before is a fresh one. -/
theorem Move.eq_fresh (hmove : r.Move event r') (hnew : r.channels[key]? = none)
    (hc : r'.channels[key]? = some c) : ∃ id capacity bound, c = .fresh id capacity bound := by
  have hshort := List.getElem?_eq_none_iff.mp hnew
  have hlong := (List.getElem?_eq_some_iff.mp hc).1
  have hadded (fresh : Channel) (hchannels : r'.channels = r.channels ++ [fresh]) : c = fresh := by
    rw [hchannels, List.getElem?_append_right hshort] at hc
    exact List.mem_singleton.mp (List.mem_of_getElem? hc)
  have hnone (hlength : r'.channels.length = r.channels.length) :
      ∃ id capacity bound, c = .fresh id capacity bound := by
    omega
  cases hmove with
  | beginStatement frame id capacity bound => exact ⟨id, capacity, bound, hadded _ rfl⟩
  | openStatement id capacity bound frame hstage hplain hentered hline =>
    exact ⟨id, capacity, bound, hadded _ rfl⟩
  | quit response hstage hline => exact hnone (quit_channels_length ..)
  | close reader isAborted hheld hstops => exact hnone r.shut_channels_length
  | giveOut hchannel hgives => exact hnone (List.length_set ..)
  | drop other => exact hnone (List.length_modify ..)
  | hear row hreading hgoesOn hlive => exact hnone (List.length_modify ..)
  | hearEnd hreading hgoesOn hchannel hdone => exact hnone (List.length_modify ..)
  | store hreading hgoesOn => exact hnone (List.length_modify ..)
  | forgetStatement reader hheld hlost hempty => exact hnone (List.length_modify ..)
  | _ => exact hnone rfl

/-- A statement that was not there before goes on. -/
theorem Move.opens (hmove : r.Move event r') (hnew : r.channels[key]? = none)
    (hc : r'.channels[key]? = some c) : c.isDone = false ∧ c.failure = none := by
  obtain ⟨id, capacity, bound, rfl⟩ := hmove.eq_fresh hnew hc
  exact ⟨rfl, rfl⟩

/-- A failure ends the statement, on whatever link. -/
theorem Moves.sound {events : List Event} (hmoves : r.Moves events r')
    (h : ∀ c ∈ r.channels, c.IsSound) : ∀ c ∈ r'.channels, c.IsSound := by
  refine hmoves.invariant (P := fun r _ => ∀ c ∈ r.channels, c.IsSound) [] ?_ h
  intro r r' event log _ hmove h c hmem
  obtain ⟨key, hc⟩ := List.mem_iff_getElem?.mp hmem
  cases hbefore : r.channels[key]? with
  | none => exact fun _ => (hmove.opens hbefore hc).2
  | some before =>
    have hsound := h before (List.mem_of_getElem? hbefore)
    rcases hmove.fares hbefore with ⟨after, hafter, hcomes⟩ | ⟨-, after, hafter, hhears⟩
    · rw [hc, Option.some.injEq] at hafter
      exact hafter ▸ hcomes.sound hsound
    · rw [hc, Option.some.injEq] at hafter
      exact hafter ▸ hhears.sound hsound

/-- As long as nothing is fed to a statement, only the end of the link can end it. -/
theorem Moves.endsLost {events : List Event} (hmoves : r.Moves events r')
    (hunfed : .fed key ∉ events) (h : ∀ c, r.channels[key]? = some c → c.EndsLost)
    (hc : r'.channels[key]? = some c) : c.EndsLost := by
  refine hmoves.invariant (P := fun r _ => ∀ c, r.channels[key]? = some c → c.EndsLost) [] ?_ h c hc
  intro r r' event log hevents hmove h c hc
  cases hbefore : r.channels[key]? with
  | none =>
    obtain ⟨hlive, hnone⟩ := hmove.opens hbefore hc
    rw [Channel.EndsLost, hlive, hnone]
    rfl
  | some before =>
    rcases hmove.fares hbefore with ⟨after, hafter, hcomes⟩ | ⟨hfed, -, -, -⟩
    · rw [hc, Option.some.injEq] at hafter
      exact hafter ▸ hcomes.endsLost (h before hbefore)
    · exact absurd (hevents _ hfed) hunfed

end Roster

end BeeProtocol
