import BeeProtocol.Proofs.Link.Handshaking

/-!
# What calls report

A call reports at most one result in its turn. One that writes a statement reports a failure, or
hands out the response once its frame is out. One that waits on a response reports what its wait
ends with.
-/

namespace BeeProtocol.Link

variable {s next : Link} {t key : Nat} {label : Option Nat} {stage : Stage} {call : PullCall}
  {sort : LinkResult → Prop}

/-- A call has reported a result of some sort, or nothing. -/
def Reports (s next : Link) (label : Option Nat) (sort : LinkResult → Prop) : Prop :=
  next.finished = s.finished ∨ ∃ result, sort result ∧
    next.finished = s.finished ++ label.toList.map fun label => (label, result)

/-- A call reports the same if nothing comes of what follows. -/
theorem Reports.trans {last : Link} (h : s.Reports next label sort)
    (hsame : next.SameOutcome last) : s.Reports last label sort := by
  unfold Reports
  rwa [hsame.finished]

/-- A call with this label has reported nothing so far. -/
structure Unreported (s : Link) (t : Nat) (label : Option Nat) (next : Link) : Prop where
  /-- No call has ended. -/
  finished : next.finished = s.finished
  /-- The call still reports to the same one. -/
  label : (next.tasks.map (·.label))[t]? = some label

namespace Unreported

/-- A call has not reported yet when its turn begins. -/
theorem of_task {isAborted : Bool} (htask : s.tasks[t]? = some ⟨label, stage, isAborted⟩) :
    s.Unreported t label s := by
  refine ⟨rfl, ?_⟩
  rw [List.getElem?_map, htask]
  rfl

/-- A call has still not reported if nothing comes of what follows. -/
theorem trans {last : Link} (h : s.Unreported t label next) (hsame : next.SameOutcome last) :
    s.Unreported t label last := ⟨hsame.finished.trans h.finished, hsame.labels ▸ h.label⟩

/-- A call that has not reported reports at most one result. -/
theorem reports (h : s.Unreported t label next) : s.Reports next label sort := .inl h.finished

/-- A call that ends after a change that has not reported reports its own result and no other. -/
theorem conclude (h : s.Unreported t label next) {result : LinkResult} (hsort : sort result) :
    s.Reports (next.conclude t result) label sort := by
  refine .inr ⟨result, hsort, ?_⟩
  rw [finished_conclude h.label, h.finished]

/-- A call that goes on has not reported. -/
theorem setStage (h : s.Unreported t label next) (new : Stage) :
    s.Unreported t label (next.setStage t new) := h.trans (next.sameOutcome_setStage t new)

/-- A call that leaves the line has not reported. -/
theorem leaveLine (h : s.Unreported t label next) : s.Unreported t label (next.leaveLine t) :=
  h.trans (next.sameOutcome_leaveLine t)

/-- A call that lets go of a handler has not reported. -/
theorem letGo (h : s.Unreported t label next) (handler : Handler) :
    s.Unreported t label (next.letGo handler) := h.trans (next.sameOutcome_letGo handler)

end Unreported

/-- Only a result of that sort can have been reported. -/
theorem Reports.eq_of_finished (h : s.Reports next label sort) {name : Nat} {result : LinkResult}
    (hfinished : next.finished = s.finished ++ [(name, result)]) :
    label = some name ∧ sort result := by
  rcases h with hsame | ⟨other, hsort, hreports⟩
  · simp [hsame] at hfinished
  · rw [hreports, List.append_cancel_left_eq] at hfinished
    cases label with
    | none => simp at hfinished
    | some label =>
      obtain ⟨rfl, rfl⟩ : label = name ∧ other = result := by simpa using hfinished
      exact ⟨rfl, hsort⟩

/-- A call that was told to end reports nothing. -/
theorem sameOutcome_dropTask (s : Link) (t : Nat) (stage : Stage) :
    s.SameOutcome (s.dropTask t stage) := by
  have hleft : s.SameOutcome ((s.leaveLine t).setStage t .ended) :=
    (s.sameOutcome_leaveLine t).trans (sameOutcome_setStage _ _ _)
  unfold dropTask
  dsimp only
  split
  · exact hleft.trans (sameOutcome_letGo _ _)
  · exact (hleft.trans (sameOutcome_letGo _ _)).trans (sameOutcome_giveUp _ _)
  · exact hleft.trans (sameOutcome_giveUp _ _)
  · exact hleft.trans ⟨rfl, rfl, rfl⟩
  · exact hleft.trans (sameOutcome_changeChannel _ _ _)
  · exact hleft

/-- A call reports in an action what it reports in the turn that it takes there. -/
theorem reports_act {isAborted : Bool} (htask : s.tasks[t]? = some ⟨label, stage, isAborted⟩)
    (hturn : isAborted = false → s.Reports ((s.woken t).taskTurn t).1 label sort) :
    s.Reports (s.act (.turn (.task t))) label sort := by
  have hsame : ((s.woken t).taskTurn t).1.SameOutcome (s.act (.turn (.task t))) :=
    sameOutcome_turn (s := s) rfl
  cases isAborted with
  | true =>
    have hdropped : (s.woken t).taskTurn t = ((s.woken t).dropTask t stage, false) := by
      unfold taskTurn
      rw [show (s.woken t).tasks[t]? = some ⟨label, stage, true⟩ from htask]
      rfl
    rw [hdropped] at hsame
    exact .inl (((s.woken t).sameOutcome_dropTask t stage).trans hsame).finished
  | false =>
    rcases hturn rfl with hnone | ⟨result, hsort, hreports⟩
    · exact .inl (hsame.finished.trans hnone)
    · exact .inr ⟨result, hsort, hsame.finished.trans hreports⟩

/-- A call that has ended does nothing in its turn. -/
theorem taskTurn_ended (htask : s.tasks[t]? = some ⟨label, .ended, false⟩) :
    (s.woken t).taskTurn t = (s.woken t, false) := by
  unfold taskTurn
  rw [show (s.woken t).tasks[t]? = some ⟨label, .ended, false⟩ from htask]
  rfl

/-! ### Calls that write -/

namespace Unreported

variable (hfails : ∀ reason, sort (.failed reason))
include hfails

/-- A call that fails with its purpose reports the failure. -/
theorem failSend (h : s.Unreported t label next) (purpose : Purpose) (reason : ClientError) :
    s.Reports (next.failSend t purpose reason) label sort :=
  (h.trans (next.sameOutcome_giveUp purpose)).conclude (hfails reason)

/-- A call that fails to write reports the failure. -/
theorem failWrite (h : s.Unreported t label next) (purpose : Purpose) (reason : ProtocolError) :
    s.Reports (next.failWrite t purpose reason) label sort :=
  failSend hfails (h.leaveLine.trans (sameOutcome_fail _)) purpose _

/-- A call that wants to write goes on, or reports that its frame is too large. -/
theorem beginSend (h : s.Unreported t label next) (purpose : Purpose) (frame : Frame)
    (handler : Option Handler) :
    s.Reports (next.beginSend t purpose frame handler).1 label sort := by
  unfold Link.beginSend
  dsimp only
  split
  · refine failSend hfails ?_ purpose _
    cases handler with
    | none => exact h
    | some handler => exact h.letGo handler
  · have hjoined : s.Unreported t label (next.joinLine t) := ⟨h.finished, h.label⟩
    exact (hjoined.setStage _).reports

/-- A call that gets the writer goes on, or reports that the link is closed. -/
theorem enter (h : s.Unreported t label next) (purpose : Purpose) (frame : Frame)
    (handler : Option Handler) : s.Reports (next.enter t purpose frame handler).1 label sort := by
  have hregistered : s.Unreported t label (handler.elim next next.register) := by
    cases handler with
    | none => exact h
    | some handler =>
      dsimp only [Option.elim_some]
      unfold register
      split
      · exact h.letGo handler
      · exact ⟨h.finished, h.label⟩
  unfold Link.enter
  dsimp only
  split
  · exact failSend hfails hregistered.leaveLine _ _
  · exact (hregistered.setStage _).reports

/-- A call that writes a statement reports a failure, or hands out the response once it is out. -/
theorem sendTurn (h : s.Unreported t label next) (key : Nat) (step : SendStep)
    (hout : step = .flushing → sort (.response key)) :
    s.Reports (next.sendTurn t (.statement key) step).1 label sort := by
  have hwritten (writer : Writer) : s.Unreported t label { next with writer := writer } :=
    ⟨h.finished, h.label⟩
  cases step with
  | inLine frame handler =>
    dsimp only [Link.sendTurn]
    split
    · exact enter hfails h _ frame handler
    · exact h.reports
  | holding frame =>
    dsimp only [Link.sendTurn]
    split
    · split
      · exact ((hwritten _).setStage _).reports
      · exact failWrite hfails h _ _
    · split
      · exact (hwritten _).reports
      · exact (hwritten _).reports
      · exact failWrite hfails (hwritten _) _ _
  | flushing =>
    dsimp only [Link.sendTurn]
    split
    · exact (hwritten _).leaveLine.conclude (hout rfl)
    · exact (hwritten _).reports
    · exact failWrite hfails (hwritten _) _ _

/-- A call that submits a script goes on, or reports why there is no frame for it. -/
theorem beginSubmit (h : s.Unreported t label next) (id : UInt16) (script : String)
    (seconds : UInt32) : s.Reports (next.beginSubmit t id script seconds).1 label sort := by
  have hopened (c : Channel) : s.Unreported t label (next.addChannel c) := ⟨h.finished, h.label⟩
  unfold Link.beginSubmit
  dsimp only
  split
  · exact h.conclude (hfails _)
  · exact beginSend hfails (hopened _) _ _ _

end Unreported

/-! ### Calls that wait on a response -/

/-- The turn of a call on a response is that of its wait. -/
theorem taskTurn_pulling (htask : s.tasks[t]? = some ⟨label, .pulling key call, false⟩) :
    (s.woken t).taskTurn t = (s.woken t).pullTurn t key call := by
  unfold taskTurn
  rw [show (s.woken t).tasks[t]? = some ⟨label, .pulling key call, false⟩ from htask]
  rfl

/-- A call on a response reports what its wait ends with, if it ends. -/
theorem Unreported.pullTurn (h : s.Unreported t label next)
    (hout : ∀ c result, next.channels[key]? = some c →
      (call.turn next.now c).1 = .finished result → sort (.pulled result)) :
    s.Reports (next.pullTurn t key call).1 label sort := by
  have hchanged (change : Channel → Channel) :
      s.Unreported t label (next.changeChannel key change) :=
    h.trans (next.sameOutcome_changeChannel key change)
  unfold Link.pullTurn
  split
  · exact h.reports
  · rename_i c hchannel
    dsimp only
    split
    · exact ((hchanged _).setStage _).reports
    · exact (hchanged _).reports
    · rename_i result hfinished
      have hsort : sort (.pulled result) := hout c result hchannel hfinished
      have hconcluded := (hchanged fun _ => (call.turn next.now c).2).conclude hsort
      unfold concludePull
      dsimp only
      split
      · exact hconcluded.trans (sameOutcome_changeChannel _ key _)
      · exact hconcluded

/-- A call that waits on a response reports only what its own turn ends with. -/
theorem reports_pulling {isAborted : Bool}
    (htask : s.tasks[t]? = some ⟨label, stage, isAborted⟩)
    (h : stage = .pulling key call ∨ stage = .ended) :
    s.Reports (s.act (.turn (.task t))) label fun result =>
      (stage = .pulling key call ∧ isAborted = false) ∧
        ∃ c pulled, s.channels[key]? = some c ∧ (call.turn s.now c).1 = .finished pulled ∧
          result = .pulled pulled := by
  have hwoken : s.Unreported t label (s.woken t) := ⟨rfl, (Unreported.of_task htask).label⟩
  refine reports_act htask ?_
  rintro rfl
  rcases h with rfl | rfl
  · rw [taskTurn_pulling htask]
    exact hwoken.pullTurn fun c pulled hchannel hturn =>
      ⟨⟨rfl, rfl⟩, c, pulled, hchannel, hturn, rfl⟩
  · rw [taskTurn_ended htask]
    exact hwoken.reports

/-- The result of a turn is reported. -/
theorem finished_act_pulling {name : Nat} {c : Channel} {result : PullResult}
    (htask : s.tasks[t]? = some ⟨some name, .pulling key call, false⟩)
    (hchannel : s.channels[key]? = some c) (hresult : (call.turn s.now c).1 = .finished result) :
    (s.act (.turn (.task t))).finished = s.finished ++ [(name, .pulled result)] := by
  let changed : Link := (s.woken t).changeChannel key fun _ => (call.turn s.now c).2
  have hchanged : (s.woken t).SameOutcome changed := sameOutcome_changeChannel _ _ _
  have hturn : (s.woken t).taskTurn t = (changed.concludePull t key call.pull result, false) := by
    rw [taskTurn_pulling htask]
    unfold pullTurn
    rw [show (s.woken t).channels[key]? = some c from hchannel]
    dsimp only
    rw [show (call.turn (s.woken t).now c).1 = .finished result from hresult]
    rfl
  have hlabel : (changed.tasks.map (·.label))[t]? = some (some name) :=
    hchanged.labels ▸ (Unreported.of_task htask).label
  have hconcluded : (changed.conclude t (.pulled result)).finished =
      s.finished ++ [(name, .pulled result)] := by
    rw [finished_conclude hlabel, hchanged.finished]
    rfl
  rw [(sameOutcome_turn hturn).finished, ← hconcluded]
  unfold concludePull
  dsimp only
  split
  · exact (sameOutcome_changeChannel _ key _).finished
  · rfl

end BeeProtocol.Link
