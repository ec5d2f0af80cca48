import BeeProtocol.Proofs.Link.Journal
import BeeProtocol.Proofs.Link.Registration
import BeeProtocol.Proofs.Link.Waking

/-!
# Nobody is forgotten

A turn wakes whoever can go on because of it, and who has had a turn goes on or cannot go on. So in
every run, whoever was not woken cannot go on.
-/

namespace BeeProtocol

namespace Roster

/-! ### Calls and the line -/

/-- Letting go of a handler leaves the line. -/
@[simp] theorem letGo_line (r : Roster) (handler : Handler) : (r.letGo handler).line = r.line := by
  cases handler <;> rfl

/-- Giving up a purpose leaves the line. -/
@[simp] theorem giveUp_line (r : Roster) (purpose : Purpose) :
    (r.giveUp purpose).line = r.line := by cases purpose <;> rfl

/-- Stopping the reader leaves the line. -/
@[simp] theorem line_stop (r : Roster) : r.stop.line = r.line := by
  unfold stop
  split <;> rfl

/-- Who has left the line is not in it. -/
theorem notMem_leave (r : Roster) (t : Nat) : t ∉ (r.leave t).line := by simp [leave]

end Roster

namespace Link

variable {s : Link} {actor : Actor} {t : Nat} {stage : Stage}

/-- What a turn leaves behind: everybody else is heeded, and who has had it cannot go on unless it
goes on. -/
structure Heeds (next : Link × Bool) (own : Actor) : Prop where
  /-- Everybody else was woken or cannot go on. -/
  others : ∀ actor, actor ≠ own → next.1.Heeded actor
  /-- Who has had the turn cannot go on, unless the turn says so. -/
  rests : next.2 = false → next.1.roster.Blocked next.1.writer own
  /-- It stands in the line exactly if its stage says so. -/
  placed : ∀ t, own = .task t → next.1.roster.IsPlaced t

/-! ### What a call changes of itself -/

namespace Heeded

/-- A call that moves does not concern the others. -/
theorem of_move (h : s.Heeded actor) (hne : actor ≠ .task t) {s' : Link} {new : Stage}
    (hready : actor ∈ s.ready → actor ∈ s'.ready) (hroster : s'.roster = s.roster.move t new)
    (hwriter : s'.writer = s.writer) : s'.Heeded actor := by
  have hother {u : Nat} (hu : actor = .task u) :
      (s.roster.move t new).stages[u]? = s.roster.stages[u]? := by
    refine List.getElem?_set_ne (fun heq => hne ?_)
    rw [hu, heq]
  refine ⟨h.woken.imp hready fun hblocked => ?_, fun u hu => ?_⟩
  · rw [hroster, hwriter]
    cases actor with
    | reader => exact hblocked
    | task u =>
      intro stage hstage
      rw [hother rfl] at hstage
      exact (hblocked stage hstage).of_same id rfl rfl
  · rw [hroster]
    exact (h.placed u hu).of_same Iff.rfl (hother hu) (Nat.le_refl _)

/-- A call that goes on is heeded by all others. -/
theorem setStage (h : s.Heeded actor) (hne : actor ≠ .task t) (new : Stage) :
    (s.setStage t new).Heeded actor := h.of_move hne id (s.roster_setStage t new) rfl

/-- A call that ends is heeded by all others. -/
theorem conclude (h : s.Heeded actor) (hne : actor ≠ .task t) (result : LinkResult) :
    (s.conclude t result).Heeded actor := by
  refine h.of_move hne (fun hready => ?_) (s.roster_conclude t result) ?_
  · unfold Link.conclude
    split <;> exact hready
  · unfold Link.conclude
    split <;> rfl

/-- Another line in which everybody else stands as before. -/
theorem of_line (h : s.Heeded actor) {s' : Link} {line : List Nat}
    (hready : actor ∈ s.ready → actor ∈ s'.ready)
    (hroster : s'.roster = { s.roster with line := line }) (hwriter : s'.writer = s.writer)
    (hhead : ∀ u, actor = .task u → line.head? = some u → s.line.head? = some u ∨ actor ∈ s'.ready)
    (hmem : ∀ u, actor = .task u → (u ∈ line ↔ u ∈ s.line)) : s'.Heeded actor := by
  constructor
  · rcases h.woken with hin | hblocked
    · exact .inl (hready hin)
    · by_cases hwoken : actor ∈ s'.ready
      · exact .inl hwoken
      · right
        rw [hroster, hwriter]
        cases actor with
        | reader => exact hblocked
        | task u =>
          intro stage hstage
          exact (hblocked stage hstage).of_same
            (fun hnext => (hhead u rfl hnext).resolve_right hwoken) rfl rfl
  · intro u hu
    rw [hroster]
    exact (h.placed u hu).of_same (hmem u hu) rfl (Nat.le_refl _)

/-- A call that joins the line is heeded by all others. -/
theorem joinLine (h : s.Heeded actor) (hne : actor ≠ .task t) : (s.joinLine t).Heeded actor := by
  have hother {u : Nat} (hu : actor = .task u) : u ≠ t := fun heq => hne (by rw [hu, heq])
  have hjoined : (s.joinLine t).roster = { s.roster with line := s.line ++ [t] } := rfl
  refine h.of_line id hjoined rfl (fun u hu hhead => .inl ?_) fun u hu => ?_
  · cases hline : s.line with
    | nil =>
      rw [hline] at hhead
      exact absurd (Option.some.inj hhead).symm (hother hu)
    | cons first rest =>
      rw [hline] at hhead
      exact hhead
  · simp [hother hu]

/-- Who gets the writer is woken. -/
theorem leaveLine (h : s.Heeded actor) (hne : actor ≠ .task t) : (s.leaveLine t).Heeded actor := by
  have hother {u : Nat} (hu : actor = .task u) : u ≠ t := fun heq => hne (by rw [hu, heq])
  have hwakes := s.wakes_leaveLine t
  refine h.of_line (fun hready => hwakes.mem_ready hready) hwakes.roster hwakes.writer
    (fun u hu hhead => ?_) fun u hu => ?_
  · obtain ⟨rest, hrest⟩ := List.head?_eq_some_iff.mp hhead
    by_cases hwriter : s.hasWriter t
    · right
      change s.line.filter (· != t) = u :: rest at hrest
      unfold Link.leaveLine
      dsimp only
      rw [hrest]
      dsimp only
      rw [if_pos hwriter, hu]
      exact mem_ready_wake_self _ _
    · left
      change s.line.filter (· != t) = u :: rest at hrest
      cases hline : s.line with
      | nil => simp [hline] at hrest
      | cons first others =>
        have hfirst : first ≠ t := by
          rintro rfl
          simp [hasWriter, hline] at hwriter
        rw [hline, List.filter_cons_of_pos (by simpa using hfirst)] at hrest
        rw [(List.cons.inj hrest).1]
        rfl
  · simp [hother hu]

/-- Only who writes cares about the stream. -/
theorem of_writer (h : s.Heeded actor) (w : Writer)
    (hwrites : ∀ u stage, actor = .task u → s.roster.stages[u]? = some stage →
      stage.isWriting = false) : ({ s with writer := w } : Link).Heeded actor := by
  refine ⟨h.woken.imp_right fun hblocked => ?_, h.placed⟩
  cases actor with
  | reader => exact hblocked
  | task u =>
    exact fun stage hstage => (hblocked stage hstage).of_not_writing (hwrites u stage rfl hstage) w

/-- Who writes has the writer. -/
theorem setWriter (h : s.Heeded actor) (hne : actor ≠ .task t) (hfirst : s.roster.WriterFirst)
    (hhead : s.roster.line.head? = some t) (w : Writer) :
    ({ s with writer := w } : Link).Heeded actor := by
  refine h.of_writer w fun u stage hu hstage => ?_
  by_contra hwrites
  rw [Bool.not_eq_false] at hwrites
  have hsecond := hfirst u stage hstage hwrites
  rw [hhead, Option.some.injEq] at hsecond
  exact hne (by rw [hu, hsecond])

/-- A purpose that is given up is heeded. -/
theorem giveUp (h : s.Heeded actor) (purpose : Purpose) : (s.giveUp purpose).Heeded actor := by
  cases purpose with
  | reply key bound use => exact h.unregister _
  | statement key => exact h.changeChannel key _
  | _ => exact h

/-- A handler that is registered, or let go of by a closed link, is heeded. -/
theorem register (h : s.Heeded actor) (handler : Handler) : (s.register handler).Heeded actor := by
  unfold Link.register
  split
  · exact h.letGo handler
  · exact h.of_same id rfl rfl

/-- A new task that sends pings is woken, and one that is to end as well. -/
theorem startKeepAlive (h : s.Heeded actor) : s.startKeepAlive.Heeded actor := by
  unfold Link.startKeepAlive
  split
  · exact h
  · split
    · exact h
    · rename_i period _ _
      have hadded : (s.addTask none (.called (.keepAlive period))).Heeded actor :=
        h.addTask none rfl (by simp)
      exact hadded.stopKeepAlive.of_same id rfl rfl

end Heeded

/-! ### What a call leaves behind -/

section Turns

variable (h : ∀ actor, actor ≠ .task t → s.Heeded actor)
include h

/-- A call that stays where it is because it cannot go on. -/
theorem heeds_stay (hplaced : s.roster.IsPlaced t) (hstage : s.roster.stages[t]? = some stage)
    (hrests : s.roster.Rests s.writer t stage) : Heeds (s, false) (.task t) := by
  refine ⟨h, fun _ other hother => ?_, fun u hu => ?_⟩
  · rw [hstage, Option.some.injEq] at hother
    rwa [← hother]
  · cases hu
    exact hplaced

/-- A call that goes on at another stage. -/
theorem heeds_setStage {new : Stage} (hstage : s.roster.stages[t]? = some stage)
    (hline : t ∈ s.roster.line ↔ new.isInLine)
    (hknown : ∀ key call, new = .pulling key call → key < s.channels.length) :
    Heeds (s.setStage t new, true) (.task t) := by
  refine ⟨fun actor hne => (h actor hne).setStage hne new, by simp, fun u hu => ?_⟩
  cases hu
  have hnew : (s.roster.move t new).stages[t]? = some new := Lists.getElem?_set_of_some hstage new
  rw [roster_setStage]
  refine ⟨?_, fun key call hpulls => ?_⟩
  · rw [hnew]
    simpa [Roster.move] using hline
  · rw [hnew, Option.some.injEq] at hpulls
    exact hknown key call hpulls

omit h in
/-- A call that has ended out of the line. -/
theorem heeds_ended (h : ∀ actor, actor ≠ .task t → s.Heeded actor)
    (hended : ∀ stage, s.roster.stages[t]? = some stage → stage = .ended)
    (hline : t ∉ s.roster.line) : Heeds (s, false) (.task t) := by
  refine ⟨h, fun _ stage hstage => ?_, fun u hu => ?_⟩
  · rw [hended stage hstage]
    trivial
  · cases hu
    refine ⟨⟨fun hmem => absurd hmem hline, ?_⟩, fun key call hpulls => ?_⟩
    · rintro ⟨stage, hstage, hinLine⟩
      rw [hended stage hstage] at hinLine
      cases hinLine
    · cases hended _ hpulls

omit h in
/-- A call that has ended stands at no other stage. -/
theorem eq_ended_of_move {r : Roster} {stage : Stage}
    (hstage : (r.move t .ended).stages[t]? = some stage) : stage = .ended := by
  rcases Lists.of_getElem?_set hstage with ⟨-, rfl⟩ | ⟨hne, -⟩
  · rfl
  · exact absurd rfl hne

/-- A call that ends outside the line need not be woken again. -/
theorem heeds_conclude (hline : t ∉ s.roster.line) (result : LinkResult) :
    Heeds (s.conclude t result, false) (.task t) := by
  refine heeds_ended (fun actor hne => (h actor hne).conclude hne result)
    (fun stage hstage => ?_) ?_
  · rw [roster_conclude] at hstage
    exact eq_ended_of_move hstage
  · rw [roster_conclude]
    exact hline

/-- A call that fails with its purpose outside the line need not be woken again. -/
theorem heeds_failSend (hline : t ∉ s.roster.line) (purpose : Purpose) (reason : ClientError) :
    Heeds (s.failSend t purpose reason, false) (.task t) := by
  refine heeds_conclude (fun actor hne => (h actor hne).giveUp purpose) ?_ _
  rw [roster_giveUp, Roster.giveUp_line]
  exact hline

/-- A call that fails to write leaves the line to the next one, who is woken. -/
theorem heeds_failWrite (purpose : Purpose) (reason : ProtocolError) :
    Heeds (s.failWrite t purpose reason, false) (.task t) := by
  refine heeds_failSend (fun actor hne => ((h actor hne).leaveLine hne).fail) ?_ purpose _
  rw [roster_fail, Roster.line_stop, Roster.shut_line_eq, roster_leaveLine]
  exact s.roster.notMem_leave t

/-- A call that wants to write goes on at once, or ends. -/
theorem heeds_beginSend (hstage : s.roster.stages[t]? = some stage) (hline : t ∉ s.roster.line)
    (purpose : Purpose) (frame : Frame) (handler : Option Handler) :
    Heeds (s.beginSend t purpose frame handler) (.task t) := by
  unfold beginSend
  dsimp only
  split
  · refine heeds_failSend (fun actor hne => ?_) ?_ purpose _
    · cases handler with
      | none => exact h actor hne
      | some handler => exact (h actor hne).letGo handler
    · cases handler with
      | none => exact hline
      | some handler =>
        rw [Option.elim_some, roster_letGo, Roster.letGo_line]
        exact hline
  · refine heeds_setStage (s := s.joinLine t) (fun actor hne => (h actor hne).joinLine hne)
      hstage ?_ (by simp)
    simp [joinLine, roster, Stage.isInLine, Stage.isQueueing]

/-- A call that gets the writer goes on at once, or leaves the line and ends. -/
theorem heeds_enter (hstage : s.roster.stages[t]? = some stage) (hmem : t ∈ s.roster.line)
    (purpose : Purpose) (frame : Frame) (handler : Option Handler) :
    Heeds (s.enter t purpose frame handler) (.task t) := by
  have hentered (actor : Actor) (hne : actor ≠ .task t) :
      (handler.elim s s.register).Heeded actor := by
    cases handler with
    | none => exact h actor hne
    | some handler => exact (h actor hne).register handler
  have hsame : (handler.elim s s.register).roster.line = s.roster.line ∧
      (handler.elim s s.register).roster.stages = s.roster.stages := by
    cases handler with
    | none => exact ⟨rfl, rfl⟩
    | some handler =>
      unfold Option.elim register
      dsimp only
      split
      · rw [roster_letGo, Roster.letGo_line, Roster.letGo_stages]
        exact ⟨rfl, rfl⟩
      · exact ⟨rfl, rfl⟩
  unfold enter
  dsimp only
  split
  · refine heeds_failSend (fun actor hne => (hentered actor hne).leaveLine hne) ?_ purpose _
    rw [roster_leaveLine]
    exact Roster.notMem_leave _ t
  · refine heeds_setStage hentered (hsame.2.symm ▸ hstage) ?_ (by simp)
    rw [hsame.1]
    simp [hmem, Stage.isInLine, Stage.isWriting]

/-- A call whose frame is out goes on to wait, or ends. -/
theorem heeds_afterSend (hstage : s.roster.stages[t]? = some stage) (hline : t ∉ s.roster.line)
    (purpose : Purpose) : Heeds (s.afterSend t purpose) (.task t) := by
  cases purpose with
  | plain => exact heeds_conclude h hline _
  | statement key => exact heeds_conclude h hline _
  | reply key bound use =>
    exact heeds_setStage h hstage (iff_of_false hline Bool.false_ne_true) (by simp)
  | keepAlive period next =>
    exact heeds_setStage h hstage (iff_of_false hline Bool.false_ne_true) (by simp)

/-- A call that waits in line goes on when it has the writer, and one that writes when the stream
takes more bytes. -/
theorem heeds_sendTurn (hplaced : s.roster.IsPlaced t) (hfirst : s.roster.WriterFirst)
    {purpose : Purpose} {step : SendStep}
    (hstage : s.roster.stages[t]? = some (.sending purpose step)) :
    Heeds (s.sendTurn t purpose step) (.task t) := by
  have hmem : t ∈ s.roster.line := by
    refine hplaced.line.mpr ⟨_, hstage, ?_⟩
    cases step <;> rfl
  have hwritten (hwrites : (Stage.sending purpose step).isWriting) (w : Writer) (actor : Actor)
      (hne : actor ≠ .task t) : ({ s with writer := w } : Link).Heeded actor :=
    (h actor hne).setWriter hne hfirst (hfirst t _ hstage hwrites) w
  cases step with
  | inLine frame handler =>
    dsimp only [sendTurn]
    split
    · exact heeds_enter h hstage hmem purpose frame handler
    · rename_i hwriter
      exact heeds_stay h hplaced hstage (by simpa [Roster.Rests, hasWriter, roster] using hwriter)
  | holding frame =>
    have hwritten := hwritten rfl
    dsimp only [sendTurn]
    split
    · split
      · refine heeds_setStage (hwritten _) hstage ?_ (by simp)
        exact ⟨fun _ => rfl, fun _ => hmem⟩
      · exact heeds_failWrite h purpose _
    · split
      · refine ⟨hwritten _, by simp, fun u hu => ?_⟩
        cases hu
        exact hplaced
      · rename_i hstalled
        exact heeds_stay (hwritten _) hplaced hstage (Writer.flush_flush hstalled)
      · exact heeds_failWrite (hwritten _) purpose _
  | flushing =>
    have hwritten := hwritten rfl
    let flushed : Link := { s with writer := s.writer.flush.1 }
    have hleft : (flushed.leaveLine t).roster = s.roster.leave t := flushed.roster_leaveLine t
    have hstage' : (flushed.leaveLine t).roster.stages[t]? = some (.sending purpose .flushing) := by
      rw [hleft]
      exact hstage
    dsimp only [sendTurn]
    split
    · refine heeds_afterSend (fun actor hne => (hwritten _ actor hne).leaveLine hne) hstage' ?_
        purpose
      change t ∉ (flushed.leaveLine t).roster.line
      rw [hleft]
      exact Roster.notMem_leave _ t
    · rename_i hstalled
      exact heeds_stay (hwritten _) hplaced hstage (Writer.flush_flush hstalled)
    · exact heeds_failWrite (hwritten _) purpose _

/-- A task that pauses goes on at its next ping and sleeps until then. -/
theorem heeds_pauseTurn (hplaced : s.roster.IsPlaced t) (hline : t ∉ s.roster.line)
    {period : Duration} {due : Nat} (hstage : s.roster.stages[t]? = some (.pausing period due)) :
    Heeds (s.pauseTurn t period due) (.task t) := by
  unfold pauseTurn
  split
  · split
    · refine heeds_ended (fun actor hne => (h actor hne).setStage hne .ended)
        (fun stage hended => ?_) ?_
      · rw [roster_setStage] at hended
        exact eq_ended_of_move hended
      · rw [roster_setStage]
        exact hline
    · exact heeds_beginSend h hstage hline _ _ _
  · exact heeds_stay h hplaced hstage trivial

/-- An accepted handshake may start to send pings. -/
theorem heeds_accepted (hline : t ∉ s.roster.line) :
    Heeds (s.markOpen.startKeepAlive.conclude t .ok, false) (.task t) := by
  refine heeds_conclude (fun actor hne => (h actor hne).markOpen.startKeepAlive) ?_ _
  rcases s.markOpen.roster_startKeepAlive with hsame | ⟨period, hadded⟩
  · rw [hsame, roster_markOpen]
    exact hline
  · rw [hadded, roster_markOpen]
    exact hline

/-- A call that waits for a reply ends with it or at its deadline and sleeps until then. -/
theorem heeds_replyTurn (hplaced : s.roster.IsPlaced t) (hline : t ∉ s.roster.line) {key : Nat}
    {bound : Duration} {use : ReplyUse} {deadline : Nat}
    (hstage : s.roster.stages[t]? = some (.replying key bound use deadline)) :
    Heeds (s.replyTurn t key bound use deadline, false) (.task t) := by
  have hended (result : LinkResult) :
      Heeds ((s.unregister (.reply key)).conclude t result, false) (.task t) :=
    heeds_conclude (fun actor hne => (h actor hne).unregister _) hline result
  have haccepted :=
    heeds_accepted (s := s.unregister (.reply key)) (fun actor hne => (h actor hne).unregister _)
      hline
  unfold replyTurn
  split
  · cases use with
    | request => exact hended _
    | handshake =>
      dsimp only [concludeHandshake]
      split
      · split
        · exact haccepted
        · exact hended _
      · exact haccepted
  · exact hended _
  · rename_i hundecided
    split
    · exact hended _
    · refine heeds_stay h hplaced hstage fun reply hreply => ?_
      rw [show s.replies[key]? = some reply from hreply] at hundecided
      exact hundecided

/-- A call that watches a reply ends with it or at its deadline and sleeps until then. -/
theorem heeds_watchTurn (hplaced : s.roster.IsPlaced t) (hline : t ∉ s.roster.line) {key : Nat}
    {bound : Option Duration} {deadline : Option Nat}
    (hstage : s.roster.stages[t]? = some (.watching key bound deadline)) :
    Heeds (s.watchTurn t key bound deadline, false) (.task t) := by
  have hended (result : LinkResult) := heeds_conclude h hline result
  have hstays := heeds_stay h hplaced hstage trivial
  unfold watchTurn
  split
  · exact hended _
  · exact hended _
  · split
    · exact hended _
    · exact hstays
  · exact hstays

/-- A call on a statement that has ended does not wait. -/
theorem heeds_pullTurn (hplaced : s.roster.IsPlaced t) (hline : t ∉ s.roster.line) {key : Nat}
    {call : PullCall} (hstage : s.roster.stages[t]? = some (.pulling key call)) :
    Heeds (s.pullTurn t key call) (.task t) := by
  have hknown : key < s.channels.length := hplaced.known key call hstage
  obtain ⟨c, hc⟩ : ∃ c, s.channels[key]? = some c := ⟨_, List.getElem?_eq_getElem hknown⟩
  have hpulled (c' : Channel) (actor : Actor) (hne : actor ≠ .task t) :
      (s.changeChannel key fun _ => c').Heeded actor := (h actor hne).changeChannel key _
  unfold pullTurn
  rw [hc]
  dsimp only
  cases hturn : call.turn s.now c with
  | mk progress after =>
    have hroster := s.roster_changeChannel key fun _ => after
    have hstage' : (s.changeChannel key fun _ => after).roster.stages[t]? =
        some (.pulling key call) := by
      rw [hroster]
      exact hstage
    have hline' : t ∉ (s.changeChannel key fun _ => after).roster.line := by
      rw [hroster]
      exact hline
    dsimp only
    cases progress with
    | again call' =>
      refine heeds_setStage (hpulled after) hstage' (iff_of_false hline' Bool.false_ne_true)
        fun other call'' heq => ?_
      cases heq
      have hlength := congrArg (fun r : Roster => r.channels.length) hroster
      simp only [Roster.change, List.length_modify] at hlength
      exact Nat.lt_of_lt_of_eq hknown hlength.symm
    | asleep =>
      have hasleep : (call.turn s.now c).1 = .asleep := by rw [hturn]
      have hsame : after = c := by
        have hpasses := PullCall.turn_asleep hasleep
        rwa [hturn] at hpasses
      refine heeds_stay (hpulled after) ?_ hstage' ?_
      · rw [hroster]
        exact hplaced.of_same Iff.rfl rfl (by simp [Roster.change])
      · refine ⟨after, ?_, ?_⟩
        · rw [hroster, Roster.change, List.getElem?_modify_eq,
            show s.roster.channels[key]? = some c from hc]
          rfl
        · rw [hsame]
          by_contra hdone
          exact PullCall.not_asleep_of_done (by simpa using hdone) hasleep
    | finished result =>
      have hended := heeds_conclude (hpulled after) hline' (.pulled result)
      dsimp only [concludePull]
      split
      · refine heeds_ended (fun actor hne => (hended.others actor hne).changeChannel key _)
          (fun stage hstage => ?_) ?_
        · rw [roster_changeChannel, roster_conclude] at hstage
          exact eq_ended_of_move hstage
        · rw [roster_changeChannel, roster_conclude]
          exact hline'
      · exact hended

/-! ### First turns -/

/-- A call that asks for a reply goes on at once, or ends. -/
theorem heeds_beginRequest (hstage : s.roster.stages[t]? = some stage) (hline : t ∉ s.roster.line)
    (message : Message) (kind : MessageKind) (bound : Duration) (use : ReplyUse) :
    Heeds (s.beginRequest t message kind bound use) (.task t) := by
  unfold beginRequest
  split
  · exact heeds_conclude h hline _
  · exact heeds_beginSend (s := s.addReply kind) (fun actor hne => (h actor hne).addReply kind)
      hstage hline _ _ _

/-- A call that submits a script goes on at once, or ends. -/
theorem heeds_beginSubmit (hstage : s.roster.stages[t]? = some stage) (hline : t ∉ s.roster.line)
    (id : UInt16) (script : String) (seconds : UInt32) :
    Heeds (s.beginSubmit t id script seconds) (.task t) := by
  unfold beginSubmit
  dsimp only
  split
  · exact heeds_conclude h hline _
  · generalize hchannel : Channel.fresh id.toUInt32 s.config.rowCapacity
      (if seconds = 0 then s.config.statementTimeout else .ofSeconds seconds.toUInt64) = channel
    exact heeds_beginSend (s := s.addChannel channel)
      (fun actor hne => (h actor hne).addChannel channel) hstage hline _ _ _

/-- Every call goes on after its first turn, ends or has something to wait for. -/
theorem heeds_beginCall {call : LinkCall} (hstage : s.roster.stages[t]? = some (.called call))
    (hline : t ∉ s.roster.line) : Heeds (s.beginCall t call) (.task t) := by
  cases call with
  | send frame handler => exact heeds_beginSend h hstage hline _ _ _
  | request message kind bound => exact heeds_beginRequest h hstage hline _ _ _ _
  | handshake application url =>
    unfold beginCall
    generalize s.config.handshakeTimeout = timeout
    cases timeout with
    | error reason => exact heeds_conclude h hline _
    | ok bound => exact heeds_beginRequest h hstage hline _ _ _ _
  | submit id script seconds => exact heeds_beginSubmit h hstage hline _ _ _
  | execute script =>
    exact heeds_beginSubmit (s := { s with lastId := followingId s.lastId })
      (fun actor hne => (h actor hne).of_same id rfl rfl) hstage hline _ _ _
  | ping => exact heeds_beginSend h hstage hline _ _ _
  | close =>
    have hroster : s.stopKeepAlive.fail.roster = s.roster.shut.stop := by
      rw [roster_fail, roster_stopKeepAlive]
    have hstage' : s.stopKeepAlive.fail.roster.stages[t]? = some (.called .close) := by
      rw [hroster, Roster.stop_stages, Roster.shut_stages]
      exact hstage
    refine heeds_setStage (s := s.stopKeepAlive.fail.joinLine t)
      (fun actor hne => (h actor hne).stopKeepAlive.fail.joinLine hne) hstage' ?_ (by simp)
    simp [joinLine, roster, Stage.isInLine, Stage.isQueueing]
  | keepAlive period =>
    exact heeds_setStage h hstage (iff_of_false hline Bool.false_ne_true) (by simp)

/-! ### Any turn of a call -/

/-- A call that is ended leaves the line, and whoever waits for what it had is woken. -/
theorem heeds_dropTask (stage : Stage) : Heeds (s.dropTask t stage, false) (.task t) := by
  have hothers (actor : Actor) (hne : actor ≠ .task t) :
      ((s.leaveLine t).setStage t .ended).Heeded actor :=
    ((h actor hne).leaveLine hne).setStage hne _
  have hroster : ((s.leaveLine t).setStage t .ended).roster = (s.roster.leave t).move t .ended := by
    rw [roster_setStage, roster_leaveLine]
  unfold dropTask
  dsimp only
  generalize (s.leaveLine t).setStage t .ended = left at hothers hroster ⊢
  have hafter {next : Link} (hheeded : ∀ actor, left.Heeded actor → next.Heeded actor)
      (hstages : next.roster.stages = left.roster.stages)
      (hline : next.roster.line = left.roster.line) : Heeds (next, false) (.task t) := by
    refine heeds_ended (fun actor hne => hheeded actor (hothers actor hne))
      (fun stage hstage => ?_) ?_
    · rw [hstages, hroster] at hstage
      exact eq_ended_of_move hstage
    · rw [hline, hroster]
      exact s.roster.notMem_leave t
  have hgiven (purpose : Purpose) : Heeds (left.giveUp purpose, false) (.task t) :=
    hafter (fun actor hactor => hactor.giveUp purpose) (by simp) (by simp)
  split
  · rename_i handler
    exact hafter (fun actor hactor => hactor.letGo handler) (by simp) (by simp)
  · rename_i purpose frame handler
    exact hafter (fun actor hactor => (hactor.letGo handler).giveUp purpose) (by simp) (by simp)
  · exact hgiven _
  · exact hafter (fun actor hactor => hactor.unregister _) rfl rfl
  · rename_i channel _
    have hdropped := left.roster_changeChannel channel Channel.drop
    exact hafter (fun actor hactor => hactor.changeChannel channel _) (by rw [hdropped]; rfl)
      (by rw [hdropped]; rfl)
  · exact hafter (fun _ hactor => hactor) rfl rfl

/-- A call that closes the link shuts the writer down when it has it. -/
theorem heeds_closing (hplaced : s.roster.IsPlaced t) (hfirst : s.roster.WriterFirst)
    (hstage : s.roster.stages[t]? = some .closing) :
    Heeds (if s.hasWriter t then
      (({ s with writer := s.writer.shutdown }.leaveLine t).conclude t .closed, false)
      else (s, false)) (.task t) := by
  split
  · rename_i hwriter
    have hhead : s.roster.line.head? = some t := by simpa [hasWriter, roster] using hwriter
    have hshut (actor : Actor) (hne : actor ≠ .task t) :=
      (h actor hne).setWriter hne hfirst hhead s.writer.shutdown
    refine heeds_conclude (fun actor hne => (hshut actor hne).leaveLine hne) ?_ _
    rw [roster_leaveLine]
    exact Roster.notMem_leave _ t
  · rename_i hwriter
    exact heeds_stay h hplaced hstage (by simpa [Roster.Rests, hasWriter, roster] using hwriter)

/-- Every turn of a call leaves nobody behind who could go on and is not woken. -/
theorem heeds_taskTurn (hplaced : s.roster.IsPlaced t) (hfirst : s.roster.WriterFirst) :
    Heeds (s.taskTurn t) (.task t) := by
  unfold taskTurn
  cases htask : s.tasks[t]? with
  | none =>
    refine ⟨h, fun _ stage hstage => ?_, fun u hu => ?_⟩
    · simp [roster, htask] at hstage
    · cases hu
      exact hplaced
  | some task =>
    obtain ⟨label, stage, isAborted⟩ := task
    have hstage : s.roster.stages[t]? = some stage := stage_of_task htask
    have hline (hout : stage.isInLine = false) : t ∉ s.roster.line := by
      intro hmem
      obtain ⟨other, hother, hinLine⟩ := hplaced.line.mp hmem
      rw [hstage, Option.some.injEq] at hother
      rw [← hother, hout] at hinLine
      cases hinLine
    dsimp only
    cases isAborted with
    | true => exact heeds_dropTask h stage
    | false =>
      rw [if_neg (by simp)]
      cases stage with
      | called call => exact heeds_beginCall h hstage (hline rfl)
      | sending purpose step => exact heeds_sendTurn h hplaced hfirst hstage
      | replying key bound use deadline => exact heeds_replyTurn h hplaced (hline rfl) hstage
      | closing => exact heeds_closing h hplaced hfirst hstage
      | pulling key call => exact heeds_pullTurn h hplaced (hline rfl) hstage
      | watching key bound deadline => exact heeds_watchTurn h hplaced (hline rfl) hstage
      | pausing period due => exact heeds_pauseTurn h hplaced (hline rfl) hstage
      | ended => exact heeds_stay h hplaced hstage trivial

end Turns

/-! ### The reader -/

section Reader

variable (h : ∀ actor, actor ≠ .reader → s.Heeded actor)
include h

/-- What the reader is at does not concern the others. -/
theorem heeded_setReader (stage : ReaderStage) (actor : Actor) (hne : actor ≠ .reader) :
    (s.setReader stage).Heeded actor := by
  refine ⟨(h actor hne).woken.imp_right fun hblocked => ?_, fun t ht => ?_⟩
  · cases actor with
    | reader => exact absurd rfl hne
    | task t => exact fun other hother => (hblocked other hother).of_same id rfl rfl
  · exact ((h actor hne).placed t ht).of_same Iff.rfl rfl (Nat.le_refl _)

omit h in
/-- A reader that goes on, or was not told to end. -/
theorem heeds_reader {goesOn : Bool} (h : ∀ actor, actor ≠ .reader → s.Heeded actor)
    (hrests : goesOn = false → s.reader.isAborted → s.reader.stage.isStopped) :
    Heeds (s, goesOn) .reader := ⟨h, hrests, fun t ht => by cases ht⟩

/-- A reader that stops is heeded by all calls, and rests. -/
theorem heeds_stopped : Heeds (s.setReader .stopped, false) .reader :=
  heeds_reader (heeded_setReader h .stopped) fun _ _ => rfl

/-- A reader that puts a handler back is heeded by all calls. -/
theorem heeded_putBack (key : Nat) (actor : Actor) (hne : actor ≠ .reader) :
    (s.putBack key).Heeded actor := by
  have hreading := heeded_setReader h .reading actor hne
  unfold putBack
  dsimp only
  split
  · exact hreading
  · unfold requeue
    split
    · exact hreading.letGo _
    · exact hreading.of_same id rfl rfl

/-- A reader that reads on sleeps only if nothing has arrived. -/
theorem heeds_readMore (hgoesOn : s.reader.isAborted = false) : Heeds s.readMore .reader := by
  have hread (s' : Link) (hroster : s'.roster = s.roster) (hwriter : s'.writer = s.writer)
      (hready : s'.ready = s.ready) (actor : Actor) (hne : actor ≠ .reader) : s'.Heeded actor :=
    (h actor hne).of_same (fun hmem => hready ▸ hmem) hroster hwriter
  unfold readMore
  split
  · exact heeds_stopped fun actor hne => (h actor hne).shutdown
  · split
    · exact heeds_reader h fun _ haborted => by simp [hgoesOn] at haborted
    · exact heeds_reader (hread _ rfl rfl rfl) (by simp)
    · exact heeds_reader (hread _ rfl rfl rfl) (by simp)
    · rename_i inbound _
      have hlast := hread { s with inbound := inbound } rfl rfl rfl
      exact heeds_stopped fun actor hne => (hlast actor hne).shutdown

/-- A reader that has a frame goes on. -/
theorem heeds_takeFrame (frame : Frame) :
    Heeds (match s.takeMatch frame with
      | (none, s) => (s, true)
      | (some handler, s) => (s.setReader (.decoding handler frame.payload), true)) .reader := by
  unfold takeMatch
  cases s.pending.find? (s.accepts frame) with
  | none => exact heeds_reader h (by simp)
  | some handler =>
    have htaken (actor : Actor) (hne : actor ≠ .reader) :
        ({ s with pending := s.pending.erase handler } : Link).Heeded actor :=
      (h actor hne).of_same id rfl rfl
    exact heeds_reader (heeded_setReader htaken _) (by simp)

/-- A reader that looks for a frame sleeps only if it needs more bytes. -/
theorem heeds_readFrame (hgoesOn : s.reader.isAborted = false) : Heeds s.readFrame .reader := by
  unfold readFrame
  rcases s.codec.decode s.reader.buffer with ⟨frame, buffer⟩
  have hread (actor : Actor) (hne : actor ≠ .reader) :
      ({ s with reader := { s.reader with buffer := buffer } } : Link).Heeded actor :=
    (h actor hne).of_same id rfl rfl
  cases frame with
  | none => exact heeds_readMore hread hgoesOn
  | some frame => exact heeds_takeFrame hread frame

/-- A reader that has decoded a payload goes on. -/
theorem heeds_decodePayload (handler : Handler) (payload : List UInt8) :
    Heeds (s.decodePayload handler payload, true) .reader := by
  refine heeds_reader (fun actor hne => ?_) (by simp)
  have hdecoded (key : Nat) (change : Channel → Channel) (actor : Actor) (hne : actor ≠ .reader) :
      (s.changeChannel key change).Heeded actor := (h actor hne).changeChannel key change
  cases handler with
  | reply key =>
    exact heeded_setReader (fun actor hne => (h actor hne).changeReply key _) .reading actor hne
  | statement key =>
    dsimp only [decodePayload]
    split
    · exact heeded_setReader (hdecoded key _) _ actor hne
    · exact heeded_putBack (hdecoded key _) key actor hne

/-- A reader that stores a row sleeps only if there is no slot for it. -/
theorem heeds_storeRow (hgoesOn : s.reader.isAborted = false) (key : Nat) (row : Row) :
    Heeds (s.storeRow key row) .reader := by
  have hstored (actor : Actor) (hne : actor ≠ .reader) :
      (s.changeChannel key fun c => (c.store row).1).Heeded actor :=
    (h actor hne).changeChannel key _
  have haborted : (s.changeChannel key fun c => (c.store row).1).reader.isAborted = false := by
    have hroster := congrArg Roster.isAborted (s.roster_changeChannel key fun c => (c.store row).1)
    exact hroster.trans hgoesOn
  unfold storeRow
  dsimp only
  split
  · exact heeds_reader (heeded_putBack hstored key) (by simp)
  · exact heeds_reader hstored fun _ habort => by simp [haborted] at habort

/-- A reader that is cut off has ended. -/
theorem heeds_dropReader : Heeds (s.dropReader, false) .reader := by
  have hstopped := heeded_setReader h .stopped
  have hafter {next : Link}
      (hheeded : ∀ actor, (s.setReader .stopped).Heeded actor → next.Heeded actor)
      (hreading : next.roster.reading = .stopped) : Heeds (next, false) .reader := by
    refine heeds_reader (fun actor hne => hheeded actor (hstopped actor hne)) fun _ _ => ?_
    rw [show next.reader.stage = .stopped from hreading]
    rfl
  unfold dropReader
  dsimp only
  split
  · rename_i handler _ _
    refine hafter (fun actor hactor => hactor.letGo handler) ?_
    rw [roster_letGo]
    cases handler <;> rfl
  · rename_i key _ _
    refine hafter (fun actor hactor => hactor.changeChannel key _) ?_
    rw [roster_changeChannel]
    rfl
  · exact hafter (fun _ hactor => hactor) rfl

/-- Every turn of the reader leaves nobody behind who could go on and is not woken. -/
theorem heeds_readerTurn : Heeds s.readerTurn .reader := by
  unfold readerTurn
  cases haborted : s.reader.isAborted with
  | true => exact heeds_dropReader h
  | false =>
    rw [if_neg (by simp)]
    split
    · exact heeds_readFrame h haborted
    · exact heeds_decodePayload h _ _
    · exact heeds_storeRow h haborted _ _
    · exact heeds_reader h fun _ habort => by simp [haborted] at habort

end Reader

/-! ### Any action -/

namespace Heeded

variable (h : s.Heeded actor)
include h

/-- Nobody but the reader waits for what arrives. -/
theorem arrive (item : Inbound) : (s.arrive item).Heeded actor := by
  have harrived : ({ s with inbound := s.inbound ++ item.arrivals } : Link).Heeded actor :=
    h.of_same id rfl rfl
  exact harrived.wakes (s.wakes_arrive item)

/-- Who has the writer is woken when the stream changes its mode. -/
theorem setMode (hfirst : s.roster.WriterFirst) (mode : StreamMode) :
    (s.setMode mode).Heeded actor := by
  let changed : Link := { s with writer := { s.writer with mode := mode } }
  unfold Link.setMode
  dsimp only
  split
  · rename_i first _ hline
    by_cases hne : actor = .task first
    · subst hne
      refine ⟨.inl (mem_ready_wake_self changed _), fun t ht => ?_⟩
      rw [roster_wake]
      exact h.placed t ht
    · have hhead : s.roster.line.head? = some first := by simp [roster, hline]
      exact (h.setWriter hne hfirst hhead changed.writer).wakes (wakes_wake changed _)
  · rename_i hline
    refine h.of_writer changed.writer fun u stage _ hstage => ?_
    by_contra hwrites
    have hhead := hfirst u stage hstage (by simpa using hwrites)
    simp [roster, hline] at hhead

/-- A call on a response that starts is woken. -/
theorem startPull (label channel : Nat) (pull : Pull) (bound : Option Duration) :
    (s.startPull label channel pull bound).Heeded actor := by
  unfold Link.startPull
  split
  · exact h
  · rename_i c hc
    refine h.addTask _ rfl fun key call heq => ?_
    cases heq
    exact (List.getElem?_eq_some_iff.mp hc).1

/-- A caller that takes the next row without waiting wakes whom that concerns. -/
theorem next (channel : Nat) : (s.next channel).2.Heeded actor := by
  rw [next_snd]
  exact h.changeChannel channel _

/-- Nobody waits for an id. -/
theorem nextIds (count : Nat) : (s.nextIds count).2.Heeded actor := by
  rw [nextIds_eq]
  exact h.of_same id rfl rfl

/-- Who waits for a time is woken when it is there. -/
theorem pass (gap : Nat) : (s.pass gap).Heeded actor := by
  have hlater : ({ s with now := s.now + gap } : Link).Heeded actor := h.of_same id rfl rfl
  exact hlater.wakes (s.wakes_pass gap)

end Heeded

namespace Alert

/-- Who has had a turn is in front again or cannot go on. -/
theorem of_turn {next : Link × Bool} (h : Heeds next actor) :
    (if next.2 then { next.1 with ready := actor :: next.1.ready.erase actor }
      else next.1).Alert := by
  obtain ⟨s, goesOn⟩ := next
  intro other
  cases goesOn with
  | false =>
    by_cases hother : other = actor
    · subst hother
      exact ⟨.inr (h.rests rfl), h.placed⟩
    · exact h.others other hother
  | true =>
    by_cases hother : other = actor
    · subst hother
      exact ⟨.inl List.mem_cons_self, h.placed⟩
    · refine (h.others other hother).of_same (fun hready => ?_) rfl rfl
      exact List.mem_cons_of_mem _ ((List.mem_erase_of_ne hother).mpr hready)

/-- After a turn a link is alert. -/
theorem turnOf (hs : s.Alert) (hfirst : s.roster.WriterFirst) (actor : Actor) :
    (s.turnOf actor).Alert := by
  have hothers (other : Actor) (hne : other ≠ actor) :
      ({ s with ready := s.ready.erase actor } : Link).Heeded other :=
    (hs other).of_same (fun hready => (List.mem_erase_of_ne hne).mpr hready) rfl rfl
  intro other
  refine Heeded.releaseUnused ?_
  cases actor with
  | reader => exact of_turn (heeds_readerTurn hothers) other
  | task t => exact of_turn (heeds_taskTurn hothers ((hs (.task t)).placed t rfl) hfirst) other

/-- After a call was cancelled a link is alert. -/
theorem cancel (hs : s.Alert) (label : Nat) : ((s.cancel? label).getD s).Alert := by
  unfold cancel?
  cases s.tasks.findIdx? fun task => task.label == some label && !task.stage.isEnded with
  | none => exact hs
  | some t =>
    cases htask : s.tasks[t]? with
    | none =>
      rw [Option.bind_some, htask]
      exact hs
    | some task =>
      rw [Option.bind_some, htask]
      have hdropped := heeds_dropTask (fun actor _ => hs actor) (t := t) task.stage
      intro actor
      refine Heeded.releaseUnused ?_
      by_cases hne : actor = .task t
      · subst hne
        exact ⟨.inr (hdropped.rests rfl), hdropped.placed⟩
      · refine (hdropped.others actor hne).of_same (fun hready => ?_) rfl rfl
        exact List.mem_filter.mpr ⟨hready, by simpa using hne⟩

/-- Whatever is done with a link, whoever can go on because of it is woken. -/
theorem act (hs : s.Alert) (hfirst : s.roster.WriterFirst) (action : Action) :
    (s.act action).Alert := by
  intro actor
  have h := hs actor
  cases action with
  | arrive item => exact h.arrive item
  | setMode mode => exact h.setMode hfirst mode
  | call label call hplain => exact h.addTask _ rfl (by simp)
  | statement label frame id capacity bound => exact (h.addChannel _).addTask _ rfl (by simp)
  | reply label frame kind => exact (h.addReply kind).addTask _ rfl (by simp)
  | pull label channel pull bound => exact h.startPull label channel pull bound
  | watch label reply bound => exact h.addTask _ rfl (by simp)
  | next channel => exact h.next channel
  | dropResponse channel => exact h.changeChannel channel _
  | cancel label => exact hs.cancel label actor
  | allocate count => exact h.nextIds count
  | markOpen => exact h.markOpen
  | giveAway =>
    have hgiven : ({ s with isHeld := false } : Link).Heeded actor := h.of_same id rfl rfl
    exact hgiven.releaseUnused
  | pass gap => exact h.pass gap
  | turn who => exact hs.turnOf hfirst who actor

/-- A link stays alert in every run. -/
theorem run {log : List Event} (hs : s.Alert)
    (hwire : Roster.WireOrder s.roster.stages s.roster.line log) (actions : List Action) :
    (actions.foldl Link.act s).Alert := by
  induction actions generalizing s log with
  | nil => exact hs
  | cons action actions ih =>
    exact ih (hs.act hwire.writer action) ((s.act_moves action).wireOrder hwire)

/-- On a fresh link only the reader can go on. -/
theorem fresh (config : Config) : (fresh config).Alert := by
  intro actor
  refine ⟨?_, fun t _ => ⟨by simp [roster, Link.fresh], by simp [roster, Link.fresh]⟩⟩
  cases actor with
  | reader => exact .inl (List.mem_singleton_self _)
  | task t => exact .inr (by simp [Roster.Blocked, roster, Link.fresh])

end Alert

end Link

end BeeProtocol
