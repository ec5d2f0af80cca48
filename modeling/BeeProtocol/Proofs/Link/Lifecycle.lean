import BeeProtocol.Proofs.Link.Closing
import BeeProtocol.Proofs.Link.Courses
import BeeProtocol.Proofs.Link.Ledger

/-!
# The life of a link

The phase of a link only moves forward, and a closed link is empty: no handler waits, none is
registered, and whoever gets the writer then fails at once and with it the handler that it brings.
Closing a closed link changes nothing for anybody else.
-/

namespace BeeProtocol

namespace Ledger

/-- Entries leave the phase alone and put their frames into the out-buffer one behind another. -/
theorem foldl_add (l : Ledger) (entries : List Entry) :
    (entries.foldl add l).phase = l.phase ∧
      (entries.foldl add l).bytes =
        l.bytes ++ Frame.envelopes ((entries.flatMap (·.written)).map (·.2)) := by
  induction entries generalizing l with
  | nil => simp [Frame.envelopes]
  | cons entry entries ih =>
    obtain ⟨hphase, hbytes⟩ := ih (l.add entry)
    refine ⟨hphase, ?_⟩
    rw [List.foldl_cons, hbytes]
    simp [add, Frame.envelopes]

end Ledger

/-- Closing a closed link once more changes nothing. -/
theorem Roster.IsShut.shut_stop {r : Roster} (h : r.IsShut) (hclosed : r.isClosed) :
    r.shut.stop = r := by
  have hshut : r.shut = r := if_pos hclosed
  rw [hshut, stop]
  rcases h.reader hclosed with hstopped | haborted
  · cases hreading : r.reading with
    | stopped => rfl
    | _ => simp [hreading, ReaderStage.isStopped] at hstopped
  · split
    · rfl
    · rw [← haborted]

namespace Link

variable {s next : Link} {t : Nat}

/-! ### What a change leaves alone -/

/-- The writer, the labels of the calls and their results are the same. -/
structure SameOutcome (s next : Link) : Prop where
  /-- Nothing was written. -/
  writer : next.writer = s.writer
  /-- No call has ended. -/
  finished : next.finished = s.finished
  /-- The calls report to the same ones. -/
  labels : next.tasks.map (·.label) = s.tasks.map (·.label)

/-- Nothing comes of doing nothing. -/
theorem SameOutcome.refl (s : Link) : s.SameOutcome s := ⟨rfl, rfl, rfl⟩

/-- Changes of which nothing comes add up. -/
theorem SameOutcome.trans {last : Link} (h : s.SameOutcome next) (h' : next.SameOutcome last) :
    s.SameOutcome last :=
  ⟨h'.writer.trans h.writer, h'.finished.trans h.finished, h'.labels.trans h.labels⟩

/-- A change of the tasks that leaves their labels. -/
theorem labels_modify (tasks : List Task) (t : Nat) {change : Task → Task}
    (h : ∀ task, (change task).label = task.label) :
    (tasks.modify t change).map (·.label) = tasks.map (·.label) := by
  apply List.ext_getElem?
  intro u
  simp only [List.getElem?_map, List.getElem?_modify]
  by_cases hu : t = u <;> cases tasks[u]? <;> simp [hu, h]

/-- Who is woken does not show. -/
theorem SameOutcome.of_wakes {changed : Link} (h : changed.Wakes next)
    (hchanged : s.SameOutcome changed) : s.SameOutcome next := by
  obtain ⟨ready, rfl, -⟩ := h
  exact ⟨hchanged.writer, hchanged.finished, hchanged.labels⟩

/-- Nothing comes of a call that goes on. -/
theorem sameOutcome_setStage (s : Link) (t : Nat) (stage : Stage) :
    s.SameOutcome (s.setStage t stage) := ⟨rfl, rfl, labels_modify _ t fun _ => rfl⟩

/-- Nothing comes of a change of a channel. -/
theorem sameOutcome_changeChannel (s : Link) (key : Nat) (change : Channel → Channel) :
    s.SameOutcome (s.changeChannel key change) :=
  .of_wakes (s.wakes_changeChannel key change) ⟨rfl, rfl, rfl⟩

/-- Nothing comes of letting go of a handler. -/
theorem sameOutcome_letGo (s : Link) (handler : Handler) : s.SameOutcome (s.letGo handler) :=
  .of_wakes (s.wakes_letGo handler) ⟨rfl, rfl, rfl⟩

/-- Nothing comes of leaving the line. -/
theorem sameOutcome_leaveLine (s : Link) (t : Nat) : s.SameOutcome (s.leaveLine t) :=
  .of_wakes (s.wakes_leaveLine t) ⟨rfl, rfl, rfl⟩

/-- Nothing comes of giving up a purpose. -/
theorem sameOutcome_giveUp (s : Link) (purpose : Purpose) : s.SameOutcome (s.giveUp purpose) :=
  .of_wakes (s.wakes_giveUp purpose) ⟨rfl, rfl, rfl⟩

/-- Nothing comes of ending the task that sends pings. -/
theorem sameOutcome_stopKeepAlive (s : Link) : s.SameOutcome s.stopKeepAlive := by
  rcases s.stopKeepAlive_cases with ⟨-, hsame⟩ | ⟨key, -, hwakes⟩
  · rw [hsame]
    exact .refl s
  · exact .of_wakes hwakes ⟨rfl, rfl, labels_modify _ key fun _ => rfl⟩

/-- No call ends when the link fails. -/
theorem sameOutcome_fail (s : Link) : s.SameOutcome s.fail :=
  .of_wakes s.wakes_fail ⟨rfl, rfl, rfl⟩

/-- No call ends when the link is released. -/
theorem sameOutcome_releaseUnused (s : Link) : s.SameOutcome s.releaseUnused := by
  have hstopped := s.sameOutcome_stopKeepAlive
  rcases s.releaseUnused_cases with hsame | hsame | hsame <;> rw [hsame]
  · exact .refl s
  · exact hstopped
  · exact hstopped.trans (sameOutcome_fail _)

/-- A call that ends reports its result. -/
theorem finished_conclude {label : Option Nat} (h : (s.tasks.map (·.label))[t]? = some label)
    (result : LinkResult) :
    (s.conclude t result).finished =
      s.finished ++ label.toList.map fun label => (label, result) := by
  rw [List.getElem?_map, Option.map_eq_some_iff] at h
  obtain ⟨task, htask, rfl⟩ := h
  rw [s.conclude_eq htask]

/-- A call that ends leaves the writer alone. -/
theorem writer_conclude (s : Link) (t : Nat) (result : LinkResult) :
    (s.conclude t result).writer = s.writer := by
  rw [conclude_eq_setStage]
  rfl

/-! ### Turns on a closed link -/

/-- The rest of a turn changes neither the writer nor what has come of calls. -/
theorem sameOutcome_turn {after : Link} {goesOn : Bool}
    (hturn : ({ s with ready := s.ready.erase (.task t) } : Link).taskTurn t = (after, goesOn)) :
    after.SameOutcome (s.act (.turn (.task t))) := by
  dsimp only [act, turnOf]
  rw [hturn]
  cases goesOn with
  | true =>
    have htold : after.SameOutcome
        { after with ready := .task t :: after.ready.erase (.task t) } := ⟨rfl, rfl, rfl⟩
    exact htold.trans (sameOutcome_releaseUnused _)
  | false => exact after.sameOutcome_releaseUnused

/-- The rest of a turn on a closed link changes nothing but who can go on and what is told to
end. -/
theorem act_turn_of_isClosed {after : Link} {goesOn : Bool}
    (hturn : ({ s with ready := s.ready.erase (.task t) } : Link).taskTurn t = (after, goesOn))
    (hclosed : after.isClosed) (hshut : after.roster.IsShut) :
    after.SameOutcome (s.act (.turn (.task t))) ∧
      (s.act (.turn (.task t))).roster = after.roster := by
  have hreleased (next : Link) (hroster : next.roster = after.roster) :
      next.releaseUnused.roster = after.roster := by
    rcases next.roster_releaseUnused with hsame | hshuts
    · rw [hsame, hroster]
    · rw [hshuts, hroster, hshut.shut_stop hclosed]
  refine ⟨sameOutcome_turn hturn, ?_⟩
  dsimp only [act, turnOf]
  rw [hturn]
  cases goesOn with
  | true => exact hreleased { after with ready := _ } rfl
  | false => exact hreleased after rfl

/-- What a handler stands for and had not ended has failed because the link is closed. -/
def Fails (s next : Link) : Handler → Prop
  | .statement key => ∀ c, s.channels[key]? = some c → c.isDone = false →
    ∃ c', next.channels[key]? = some c' ∧ c'.isDone ∧ c'.failure = some .connectionClosed
  | .reply key => ∀ h, s.replies[key]? = some h → h.promise.outcome = none →
    ∃ h', next.replies[key]? = some h' ∧ h'.promise.outcome = some (.error .connectionClosed)

/-- A call has failed because the link is closed, and nothing else has come of it. -/
structure Refused (s next : Link) (t : Nat) (label : Option Nat) (handler : Option Handler) :
    Prop where
  /-- The call has ended. -/
  ended : next.roster.stages[t]? = some .ended
  /-- It reports that the connection is closed. -/
  result : next.finished =
    s.finished ++ label.toList.map fun label => (label, .failed .connectionClosed)
  /-- Nobody has joined the queue or left it. -/
  pending : next.pending = s.pending
  /-- Nothing was written. -/
  writer : next.writer = s.writer
  /-- What its handler stands for has failed. -/
  fails : ∀ lost, handler = some lost → s.Fails next lost

/-- Letting go of a handler, whatever else is given up, fails what it stands for. -/
theorem fails_of_letGo (hsound : ∀ c ∈ s.channels, c.IsSound) (handler : Handler)
    (purpose : Purpose) (stage : Stage)
    (hnext : next.roster =
      (((s.roster.letGo handler).leave t).giveUp purpose).move t stage) :
    s.Fails next handler := by
  cases handler with
  | statement key =>
    intro c hc hlive
    let lost := c.finish (some .connectionClosed)
    have hfailure : lost.failure = some .connectionClosed := by
      have hnone := hsound c (List.mem_of_getElem? hc) hlive
      simp [lost, Channel.finish, hlive, hnone]
    have hfailed : ((s.roster.letGo (.statement key)).leave t).channels[key]? = some lost := by
      change (s.channels.modify key _)[key]? = _
      rw [List.getElem?_modify_eq, hc]
      rfl
    have hchannels : next.channels =
        (((s.roster.letGo (.statement key)).leave t).giveUp purpose).channels :=
      congrArg Roster.channels hnext
    rw [hchannels]
    cases purpose with
    | statement other =>
      change ∃ c', (List.modify _ other Channel.drop)[key]? = some c' ∧ _
      rw [List.getElem?_modify, hfailed]
      refine ⟨_, rfl, ?_⟩
      split <;> exact ⟨c.finish_isDone _, hfailure⟩
    | _ => exact ⟨lost, hfailed, c.finish_isDone _, hfailure⟩
  | reply key =>
    intro h hreply hundecided
    have hreplies : next.replies = s.replies.modify key fun h => h.abandon .connectionClosed := by
      have hsame := congrArg Roster.replies hnext
      cases purpose <;> exact hsame
    refine ⟨h.abandon .connectionClosed, ?_, ?_⟩
    · rw [hreplies, List.getElem?_modify_eq, hreply]
      rfl
    · simp [ReplyHandler.abandon, ReplyHandler.settle, Promise.complete, hundecided]

/-- A closed link lets go of the handler that a call brings. -/
theorem roster_elim_register (hclosed : s.isClosed) (handler : Option Handler) :
    (handler.elim s s.register).roster = handler.elim s.roster s.roster.letGo := by
  cases handler with
  | none => rfl
  | some lost =>
    rw [Option.elim_some, Option.elim_some, s.register_of_isClosed hclosed, roster_letGo]

/-- Nothing comes of the handler that a closed link refuses. -/
theorem sameOutcome_elim_register (hclosed : s.isClosed) (handler : Option Handler) :
    s.SameOutcome (handler.elim s s.register) := by
  cases handler with
  | none => exact .refl s
  | some lost =>
    rw [Option.elim_some, s.register_of_isClosed hclosed]
    exact s.sameOutcome_letGo lost

/-- A call that gets the writer of a closed link is refused. -/
theorem refused_of_isClosed {label : Option Nat} {purpose : Purpose} {frame : Frame}
    {handler : Option Handler} (hshut : s.roster.IsShut) (hsound : ∀ c ∈ s.channels, c.IsSound)
    (hclosed : s.isClosed)
    (htask : s.tasks[t]? = some ⟨label, .sending purpose (.inLine frame handler), false⟩)
    (hwriter : s.hasWriter t) : s.Refused (s.act (.turn (.task t))) t label handler := by
  let woken : Link := { s with ready := s.ready.erase (.task t) }
  let opened : Link := handler.elim woken woken.register
  let failed : Link := (opened.leaveLine t).failSend t purpose .connectionClosed
  have hturn : woken.taskTurn t = (failed, false) := by
    unfold taskTurn
    rw [show woken.tasks[t]? = some ⟨label, .sending purpose (.inLine frame handler), false⟩
      from htask]
    have hwriter' : woken.hasWriter t := hwriter
    dsimp only [sendTurn]
    rw [if_neg (by simp), if_pos hwriter']
    exact if_pos hclosed
  -- What becomes of the roster.
  have hroster : failed.roster =
      (((handler.elim s.roster s.roster.letGo).leave t).giveUp purpose).move t .ended := by
    rw [roster_failSend, roster_leaveLine, roster_elim_register (s := woken) hclosed]
    rfl
  have hmoves : s.roster.Moves (s.turnEvents (.task t)) failed.roster := by
    have hturned := woken.taskTurn_moves t
    rw [hturn] at hturned
    exact hturned
  have hclosed' : failed.isClosed := hmoves.isClosed hclosed
  obtain ⟨hsame, hlast⟩ := act_turn_of_isClosed hturn hclosed' (hmoves.isShut hshut)
  -- What becomes of the results.
  have hopened : s.SameOutcome opened := by
    have hwoken : s.SameOutcome woken := ⟨rfl, rfl, rfl⟩
    exact hwoken.trans (sameOutcome_elim_register (s := woken) hclosed handler)
  have hgiven : s.SameOutcome ((opened.leaveLine t).giveUp purpose) :=
    (hopened.trans (opened.sameOutcome_leaveLine t)).trans (sameOutcome_giveUp _ purpose)
  have hlabel : (((opened.leaveLine t).giveUp purpose).tasks.map (·.label))[t]? = some label := by
    rw [hgiven.labels, List.getElem?_map, htask]
    rfl
  refine ⟨?_, ?_, ?_, ?_, ?_⟩
  · have hkey : t < s.roster.stages.length := by
      have ht := (List.getElem?_eq_some_iff.mp htask).1
      simpa [roster] using ht
    rw [hlast, hroster, Roster.move, Roster.giveUp_stages, Roster.leave]
    have hstages : (handler.elim s.roster s.roster.letGo).stages = s.roster.stages := by
      cases handler with
      | none => rfl
      | some lost => exact s.roster.letGo_stages lost
    dsimp only
    rw [hstages, List.getElem?_set_self hkey]
  · rw [hsame.finished, ← hgiven.finished]
    exact finished_conclude hlabel _
  · have hempty (link : Link) (hshut : link.roster.IsShut) (hclosed : link.isClosed) :
        link.pending = [] := hshut.pending hclosed
    rw [hempty s hshut hclosed]
    exact hempty _ (hlast ▸ hmoves.isShut hshut) ((congrArg Roster.isClosed hlast).trans hclosed')
  · rw [hsame.writer, ← hgiven.writer]
    exact writer_conclude _ t _
  · rintro lost rfl
    exact fails_of_letGo hsound lost purpose .ended (hlast.trans hroster)

/-! ### Closing a closed link -/

/-- A turn has moved nothing but its own call, which has ended in no other way than by closing. -/
structure Recloses (s next : Link) (t : Nat) (label : Option Nat) : Prop where
  /-- Only the call itself and the line have moved. -/
  roster : ∃ stage line, next.roster = { s.roster with line := line }.move t stage
  /-- The call reports nothing, or that the link is closed. -/
  finished : next.finished = s.finished ∨
    next.finished = s.finished ++ label.toList.map fun label => (label, .closed)
  /-- No frame was written. -/
  bytes : next.writer.bytes = s.writer.bytes

/-- Joining the line is all that a call to close a closed link does in its first turn. -/
theorem recloses_called {label : Option Nat} (hshut : s.roster.IsShut) (hclosed : s.isClosed)
    (htask : s.tasks[t]? = some ⟨label, .called .close, false⟩) :
    s.Recloses (s.act (.turn (.task t))) t label := by
  let woken : Link := { s with ready := s.ready.erase (.task t) }
  let joined : Link := (woken.stopKeepAlive.fail.joinLine t).setStage t .closing
  have hturn : woken.taskTurn t = (joined, true) := by
    unfold taskTurn
    rw [show woken.tasks[t]? = some ⟨label, .called .close, false⟩ from htask]
    rfl
  have hroster : joined.roster =
      { s.roster with line := s.roster.line ++ [t] }.move t .closing := by
    have hfailed : woken.stopKeepAlive.fail.roster = s.roster := by
      rw [roster_fail, roster_stopKeepAlive]
      exact hshut.shut_stop hclosed
    rw [← hfailed]
    exact roster_setStage _ t .closing
  have hsame : s.SameOutcome joined := by
    have hwoken : s.SameOutcome woken := ⟨rfl, rfl, rfl⟩
    have hfailed := (hwoken.trans woken.sameOutcome_stopKeepAlive).trans (sameOutcome_fail _)
    have hjoined : woken.stopKeepAlive.fail.SameOutcome
        (woken.stopKeepAlive.fail.joinLine t) := ⟨rfl, rfl, rfl⟩
    exact (hfailed.trans hjoined).trans (sameOutcome_setStage _ t .closing)
  obtain ⟨hrest, hlast⟩ := act_turn_of_isClosed hturn
    ((congrArg Roster.isClosed hroster).trans hclosed) (by rw [hroster]; exact ⟨hshut.1, hshut.2⟩)
  have hwhole := hsame.trans hrest
  exact ⟨⟨_, _, hlast.trans hroster⟩, .inl hwhole.finished, congrArg Writer.bytes hwhole.writer⟩

/-- Shutting the writer down, once the call has it, is all that comes of it later. -/
theorem recloses_closing {label : Option Nat} (hshut : s.roster.IsShut) (hclosed : s.isClosed)
    (htask : s.tasks[t]? = some ⟨label, .closing, false⟩) :
    s.Recloses (s.act (.turn (.task t))) t label := by
  let woken : Link := { s with ready := s.ready.erase (.task t) }
  have hstage : s.roster.stages[t]? = some .closing := stage_of_task htask
  cases hwriter : s.hasWriter t with
  | false =>
    have hturn : woken.taskTurn t = (woken, false) := by
      unfold taskTurn
      rw [show woken.tasks[t]? = some ⟨label, .closing, false⟩ from htask]
      exact if_neg (show ¬ s.hasWriter t = true by simp [hwriter])
    obtain ⟨hrest, hlast⟩ := act_turn_of_isClosed hturn hclosed hshut
    refine ⟨⟨.closing, s.roster.line, ?_⟩, .inl hrest.finished, congrArg Writer.bytes hrest.writer⟩
    obtain ⟨ht, hget⟩ := List.getElem?_eq_some_iff.mp hstage
    rw [hlast, Roster.move, ← hget, List.set_getElem_self]
    rfl
  | true =>
    let left : Link := ({ woken with writer := woken.writer.shutdown } : Link).leaveLine t
    have hturn : woken.taskTurn t = (left.conclude t .closed, false) := by
      unfold taskTurn
      rw [show woken.tasks[t]? = some ⟨label, .closing, false⟩ from htask]
      exact if_pos hwriter
    have hroster : (left.conclude t .closed).roster = (s.roster.leave t).move t .ended := by
      rw [roster_conclude, roster_leaveLine]
      rfl
    have hleft := sameOutcome_leaveLine ({ woken with writer := woken.writer.shutdown } : Link) t
    have hlabel : (left.tasks.map (·.label))[t]? = some label := by
      rw [hleft.labels, List.getElem?_map]
      exact congrArg (Option.map (·.label)) htask
    obtain ⟨hrest, hlast⟩ := act_turn_of_isClosed hturn
      ((congrArg Roster.isClosed hroster).trans hclosed) (by rw [hroster]; exact ⟨hshut.1, hshut.2⟩)
    refine ⟨⟨_, _, hlast.trans hroster⟩, .inr ?_, ?_⟩
    · rw [hrest.finished, finished_conclude hlabel, hleft.finished]
    · rw [hrest.writer, writer_conclude, hleft.writer]
      rfl

/-! ### Who has closed a link -/

/-- Whoever is closing the link, or has ended by closing it, has closed it. -/
structure ClosedBy (s : Link) : Prop where
  /-- Who is closing the link has closed it. -/
  closing : .closing ∈ s.roster.stages → s.isClosed
  /-- Who has ended by closing the link has closed it. -/
  closers : s.ledger.closers ≠ [] → s.isClosed

/-- A turn that closes the link leaves it closed. -/
theorem isClosed_act_turn {after : Link} {goesOn : Bool}
    (hturn : ({ s with ready := s.ready.erase (.task t) } : Link).taskTurn t = (after, goesOn))
    (hclosed : after.isClosed) : (s.act (.turn (.task t))).isClosed := by
  dsimp only [act, turnOf]
  rw [hturn]
  cases goesOn with
  | true => exact (releaseUnused_moves { after with ready := _ }).isClosed hclosed
  | false => exact after.releaseUnused_moves.isClosed hclosed

/-- Only a call that is closing the link ends by closing it. -/
theorem closing_of_closers {action : Action} (h : (s.entryAt action).closers ≠ []) :
    .closing ∈ s.roster.stages := by
  unfold entryAt at h
  split at h
  · cases h rfl
  · cases h rfl
  · rename_i t
    split at h
    · rename_i task htask
      split at h
      · cases h rfl
      · unfold callEntry at h
        split at h
        · cases h rfl
        · cases h rfl
        · split at h <;> cases h rfl
        · rename_i hclosing
          rw [← hclosing]
          exact List.mem_map_of_mem (List.mem_of_getElem? htask)
        · cases h rfl
    · cases h rfl
  · cases h rfl

/-- Whoever has closed a link, it stays closed whatever is done. -/
theorem ClosedBy.act (h : s.ClosedBy) (action : Action) : (s.act action).ClosedBy := by
  have hstays (hclosed : s.isClosed) : (s.act action).isClosed :=
    (s.act_moves action).isClosed hclosed
  constructor
  · intro hmem
    obtain ⟨u, hnew⟩ := List.mem_iff_getElem?.mp hmem
    cases s.comes_act hnew with
    | begun hnone hbegins => cases isFirst_of_begins s hbegins
    | kept hstage => exact hstays (h.closing (List.mem_of_getElem? hstage))
    | dropped hended => cases hended
    | @stepped label stage haction htask hcourse =>
      have hstage : s.roster.stages[u]? = some stage := stage_of_task htask
      subst haction
      cases hcourse with
      | wait => exact hstays (h.closing (List.mem_of_getElem? hstage))
      | close =>
        -- The first turn of a call to close the link closes it.
        let woken : Link := { s with ready := s.ready.erase (.task u) }
        have hturn : woken.taskTurn u = ((woken.beginCall u .close).1, true) := by
          unfold taskTurn
          rw [show woken.tasks[u]? = some ⟨label, .called .close, false⟩ from htask]
          rfl
        have hclosed : (woken.beginCall u .close).1.isClosed := by
          change (woken.beginCall u .close).1.roster.isClosed = true
          have hmoves := roster_fail woken.stopKeepAlive
          obtain ⟨isAborted, hstop, -⟩ := woken.stopKeepAlive.roster.shut.stop_eq
          rw [hstop] at hmoves
          exact (congrArg Roster.isClosed hmoves).trans (Roster.shut_isClosed _)
        exact isClosed_act_turn hturn hclosed
  · intro hclosers
    obtain ⟨phase, -, hledger⟩ := s.aged_act action
    rw [hledger] at hclosers
    by_cases hbefore : s.ledger.closers = []
    · have hadds : (s.entryAt action).closers ≠ [] := by
        refine fun hnone => hclosers ?_
        change s.ledger.closers ++ (s.entryAt action).closers = []
        rw [hbefore, hnone]
        rfl
      exact hstays (h.closing (closing_of_closers hadds))
    · exact hstays (h.closers hbefore)

/-- Whoever has closed a link, it stays closed in every run. -/
theorem ClosedBy.run (h : s.ClosedBy) (actions : List Action) :
    (actions.foldl Link.act s).ClosedBy := by
  induction actions generalizing s with
  | nil => exact h
  | cons action actions ih => exact ih (h.act action)

/-! ### Writing on a closed link -/

/-- The frames that are put into the out-buffer in a run, with the calls that write them. -/
def written (s : Link) (actions : List Action) : List (Nat × Frame) :=
  (s.entries actions).flatMap (·.written)

/-- Only a call that is writing puts a frame into the out-buffer, and in its own turn. -/
theorem task_of_written {action : Action} {frame : Frame}
    (h : (t, frame) ∈ (s.entryAt action).written) :
    action = .turn (.task t) ∧ ∃ label purpose,
      s.tasks[t]? = some ⟨label, .sending purpose (.holding frame), false⟩ := by
  unfold entryAt at h
  split at h
  · cases h
  · cases h
  · rename_i u
    split at h
    · rename_i task htask
      obtain ⟨label, stage, isAborted⟩ := task
      split at h
      · cases h
      · rename_i hgoesOn
        obtain rfl : isAborted = false := by simpa using hgoesOn
        unfold callEntry at h
        split at h
        · cases h
        · cases h
        · rename_i purpose frame' hstage
          split at h
          · obtain ⟨rfl, rfl⟩ := Prod.mk.inj (List.mem_singleton.mp h)
            obtain rfl : stage = _ := hstage
            exact ⟨rfl, label, purpose, htask⟩
          · cases h
        · split at h <;> cases h
        · cases h
    · cases h
  · cases h

/-- A frame is written by a call that holds the writer with it. -/
theorem isWriting_of_written {action : Action} {frame : Frame}
    (h : (t, frame) ∈ (s.entryAt action).written) :
    ∃ purpose, s.roster.stages[t]? = some (.sending purpose (.holding frame)) := by
  obtain ⟨-, label, purpose, htask⟩ := task_of_written h
  exact ⟨purpose, stage_of_task htask⟩

/-- On a closed link nobody gets to write. -/
theorem isWriting_of_act (hclosed : s.isClosed) {action : Action} {new : Stage}
    (hnew : (s.act action).roster.stages[t]? = some new) (hwrites : new.isWriting) :
    ∃ stage, s.roster.stages[t]? = some stage ∧ stage.isWriting := by
  cases s.comes_act hnew with
  | begun hnone hbegins =>
    have hfirst := isFirst_of_begins s hbegins
    cases new <;> cases hfirst <;> cases hwrites
  | kept hstage => exact ⟨new, hstage, hwrites⟩
  | dropped hended =>
    subst hended
    cases hwrites
  | @stepped label stage haction htask hcourse =>
    refine ⟨stage, stage_of_task htask, ?_⟩
    cases hcourse with
    | wait => exact hwrites
    | enter hwriter hopen =>
      rw [hclosed] at hopen
      cases hopen
    | encode hroom hsize => rfl
    | _ => cases hwrites

/-- Nobody puts a frame into the out-buffer of a closed link who was not writing already. -/
theorem isWriting_of_written_run (hclosed : s.isClosed) {actions : List Action} {frame : Frame}
    (h : (t, frame) ∈ s.written actions) :
    ∃ stage, s.roster.stages[t]? = some stage ∧ stage.isWriting := by
  induction actions generalizing s with
  | nil => cases h
  | cons action actions ih =>
    rcases List.mem_append.mp h with hfirst | hrest
    · obtain ⟨purpose, hstage⟩ := isWriting_of_written hfirst
      exact ⟨_, hstage, rfl⟩
    · obtain ⟨stage, hstage, hwrites⟩ := ih ((s.act_moves action).isClosed hclosed) hrest
      exact isWriting_of_act hclosed hstage hwrites

/-- No handler is registered on a closed link. -/
theorem registered_notMem_of_isClosed (hclosed : s.isClosed) (actions : List Action)
    (handler : Handler) : .registered t handler ∉ s.journal actions := by
  have hmoves := s.run_moves actions
  refine (hmoves.invariant (P := fun r log => r.isClosed ∧ .registered t handler ∉ log) []
    ?_ ⟨hclosed, List.not_mem_nil⟩).2
  rintro r r' event log - hmove ⟨hclosed, hnone⟩
  refine ⟨hmove.isClosed hclosed, ?_⟩
  rw [List.mem_append, not_or]
  refine ⟨hnone, fun hmem => ?_⟩
  cases hmove with
  | register hstage hwriter hopen =>
    rw [hclosed] at hopen
    cases hopen
  | _ => simp at hmem

/-! ### The whole life -/

/-- A call whose frame is not too large joins the line in its first turn. -/
theorem queued_of_writes {label : Option Nat} {call : LinkCall} {purpose : Purpose} {frame : Frame}
    {handler : Option Handler} (htask : s.tasks[t]? = some ⟨label, .called call, false⟩)
    (hwrites : s.Writes call purpose frame handler) (hsize : frame.payload.length ≤ s.codec.limit) :
    (s.act (.turn (.task t))).roster.stages[t]? =
      some (.sending purpose (.inLine frame handler)) := by
  let woken : Link := { s with ready := s.ready.erase (.task t) }
  have hturn : woken.taskTurn t = woken.beginCall t call := by
    unfold taskTurn
    rw [show woken.tasks[t]? = some ⟨label, .called call, false⟩ from htask]
    rfl
  have hkey : t < s.roster.stages.length := by
    have ht := (List.getElem?_eq_some_iff.mp htask).1
    simpa [roster] using ht
  have hstages := woken.stages_beginCall (t := t) (hwrites.with_ready s _) hsize
  change (s.turnOf (.task t)).roster.stages[t]? = _
  rw [stages_turnOf]
  change (woken.taskTurn t).1.roster.stages[t]? = _
  rw [hturn, hstages]
  exact List.getElem?_set_self hkey

/-- What holds of a link, and of all that can be done with it, at any moment of its life. -/
structure Lifecycle (s : Link) : Prop where
  /-- The phase only moves forward. -/
  forward : ∀ actions : List Action, s.phase.rank ≤ (actions.foldl act s).phase.rank
  /-- No handler waits on a closed link. -/
  pending : s.isClosed → s.pending = []
  /-- Only a link that is connecting is marked open. -/
  marks : s.phase ≠ .connecting → s.act .markOpen = s
  /-- A call whose frame is not too large stands in line with it after its first turn. -/
  queues : ∀ t label call purpose frame handler,
    s.tasks[t]? = some ⟨label, .called call, false⟩ → s.Writes call purpose frame handler →
      frame.payload.length ≤ s.codec.limit → (s.act (.turn (.task t))).roster.stages[t]? =
        some (.sending purpose (.inLine frame handler))
  /-- If it gets the writer of a closed link, it fails, and so does what it brings a handler for. -/
  refuses : s.isClosed → ∀ t label purpose frame handler,
    s.tasks[t]? = some ⟨label, .sending purpose (.inLine frame handler), false⟩ → s.hasWriter t →
      s.Refused (s.act (.turn (.task t))) t label handler
  /-- From when the link is closed no handler is registered, and nobody puts a frame into the
  out-buffer who was not writing it already. -/
  silent : s.isClosed → ∀ actions : List Action,
    (∀ t handler, .registered t handler ∉ s.journal actions) ∧
      (actions.foldl act s).writer.bytes =
        s.writer.bytes ++ Frame.envelopes ((s.written actions).map (·.2)) ∧
      ∀ t frame, (t, frame) ∈ s.written actions →
        ∃ stage, s.roster.stages[t]? = some stage ∧ stage.isWriting
  /-- A call that has ended by closing the link has closed it. -/
  closers : ∀ label, (label, .closed) ∈ s.finished → s.isClosed
  /-- To close a closed link changes nothing for anybody else. -/
  recloses : s.isClosed → ∀ t label stage, stage = .called .close ∨ stage = .closing →
    s.tasks[t]? = some ⟨label, stage, false⟩ → s.Recloses (s.act (.turn (.task t))) t label

/-- Every link lives like this, whatever is done with it. -/
theorem lifecycle_runOf (config : Config) (actions : List Action) :
    (runOf config actions).Lifecycle := by
  have horder := inOrder_runOf config actions
  have hfresh : (fresh config).ClosedBy :=
    ⟨fun hmem => absurd hmem List.not_mem_nil, fun hnone => absurd rfl hnone⟩
  have hclosers : (runOf config actions).ClosedBy := hfresh.run actions
  generalize runOf config actions = s at horder hclosers
  -- What a run from here on adds to the ledger.
  have hledger (actions : List Action) : s.phase.rank ≤ (actions.foldl act s).phase.rank ∧
      (actions.foldl act s).writer.bytes =
        s.writer.bytes ++ Frame.envelopes ((s.written actions).map (·.2)) := by
    obtain ⟨phase, hforward, hadded⟩ := s.aged_run actions
    obtain ⟨hphase, hbytes⟩ := s.ledger.foldl_add (s.entries actions)
    rw [hphase] at hforward
    have hafter : (actions.foldl act s).phase = phase := congrArg Ledger.phase hadded
    exact ⟨hafter ▸ hforward, (congrArg Ledger.bytes hadded).trans hbytes⟩
  refine
    { forward := fun actions => (hledger actions).1
      pending := horder.shut.pending
      marks := fun hphase => if_neg hphase
      queues := fun t label call purpose frame handler => queued_of_writes
      refuses := fun hclosed t label purpose frame handler =>
        refused_of_isClosed horder.shut horder.sound hclosed
      silent := fun hclosed actions =>
        ⟨fun t handler => registered_notMem_of_isClosed hclosed actions handler,
          (hledger actions).2, fun t frame => isWriting_of_written_run hclosed⟩
      closers := fun label hmem => hclosers.closers fun hnone => ?_
      recloses := fun hclosed t label stage hstage htask => ?_ }
  · have hmem' : label ∈ s.ledger.closers :=
      List.mem_map.mpr ⟨_, List.mem_filter.mpr ⟨hmem, rfl⟩, rfl⟩
    rw [hnone] at hmem'
    cases hmem'
  · rcases hstage with rfl | rfl
    · exact recloses_called horder.shut hclosed htask
    · exact recloses_closing horder.shut hclosed htask

end Link

end BeeProtocol
