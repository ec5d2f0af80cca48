import BeeProtocol.Proofs.Link.Draining

/-!
# The reader of an open link

Whatever is done beside the reader spares it, or it closes the link and ends the reader. So the
reader of an open link is at work in every run: it was woken, or it has read all frames of what has
arrived, or it waits for a slot.
-/

namespace BeeProtocol

namespace Roster

variable {codec : Codec} {r r' : Roster} {f f' : Feed} {goesOn : Bool} {key : Nat}

/-- The reader moves no call. -/
theorem ReaderStep.stages (h : ReaderStep codec r f r' f' goesOn) : r'.stages = r.stages := by
  cases h with
  | close hreading hdecode hover => exact r.shut_stages
  | _ => rfl

/-- A reader that waits for more has no frame in its buffer. -/
theorem ReaderStep.spent (h : ReaderStep codec r f r' f' false) (hreading : r'.reading = .reading) :
    (codec.decode f'.buffer).1 = none := by
  cases h with
  | wait _ hdecode hahead hinbound => exact Codec.decode_rest_of_none hdecode
  | close _ hdecode hover => cases hreading
  | stall hstoring hc hwaits => cases hstoring.symm.trans hreading
  | rest hstopped => cases hstopped.symm.trans hreading

/-- The response of a statement was dropped. -/
def HasDropped (r : Roster) (key : Nat) : Prop := ∃ c, r.channels[key]? = some c ∧ c.isDropped

/-- A dropped response stays so under a change that does not take it up. -/
theorem HasDropped.change (h : r.HasDropped key) (other : Nat) {change : Channel → Channel}
    (hchange : ∀ c : Channel, (change c).isDropped = c.isDropped) :
    (r.change other change).HasDropped key := by
  obtain ⟨c, hc, hdropped⟩ := h
  refine ⟨if other = key then change c else c, ?_, ?_⟩
  · rw [Roster.change, List.getElem?_modify, hc]
    by_cases hkey : other = key <;> simp [hkey]
  · split
    · exact (hchange c).trans hdropped
    · exact hdropped

/-- A dropped response stays so when a handler is let go of. -/
theorem HasDropped.letGo (h : r.HasDropped key) (handler : Handler) :
    (r.letGo handler).HasDropped key := by
  cases handler with
  | statement other => exact h.change other fun c => c.finish_isDropped _
  | reply other => exact h

/-- A dropped response stays so when the link is closed. -/
theorem HasDropped.shut (h : r.HasDropped key) : r.shut.HasDropped key :=
  shut_invariant (P := fun r => r.HasDropped key) h h fun _ handler h => h.letGo handler

/-- A dropped response stays so in every step of the reader. -/
theorem ReaderStep.hasDropped (h : ReaderStep codec r f r' f' goesOn)
    (hdropped : r.HasDropped key) : r'.HasDropped key := by
  have hreceive (other : Nat) (payload : List UInt8) :=
    hdropped.change other fun c : Channel => (c.receive_eq payload) ▸ c.hear_isDropped _
  cases h with
  | close hreading hdecode hover => exact hdropped.shut
  | @hearRow other payload c row hreading hc hrow => exact hreceive other payload
  | @hear other payload c hreading hc hnone => exact hreceive other payload
  | @store other row c hreading hc hstored =>
    exact hdropped.change other fun c => c.store_isDropped row
  | @stall other row c hreading hc hwaits =>
    exact hdropped.change other fun c => c.store_isDropped row
  | _ => exact hdropped

end Roster

namespace Link

variable {s s' s'' : Link} {action : Action}

/-! ### Ending the reader -/

/-- The link is closed, and its reader has ended or ends at its next turn. -/
structure IsEnding (s : Link) : Prop where
  /-- The link is closed. -/
  closed : s.isClosed
  /-- The reader has ended, or it is to end and was woken. -/
  reader : s.reader.stage.isStopped ∨ s.reader.isAborted ∧ .reader ∈ s.ready

/-- Dropped responses stay dropped. -/
def KeepsDrops (s s' : Link) : Prop := ∀ key, s.roster.HasDropped key → s'.roster.HasDropped key

/-- Changes that keep responses dropped add up. -/
theorem KeepsDrops.trans (h : s.KeepsDrops s') (h' : s'.KeepsDrops s'') : s.KeepsDrops s'' :=
  fun key hdropped => h' key (h key hdropped)

/-- What spares the reader keeps responses dropped. -/
theorem Spares.keepsDrops (h : s.Spares s') : s.KeepsDrops s' := by
  rintro key ⟨c, hc, hdropped⟩
  obtain ⟨c', hc', hheeds⟩ := h.heeds key c hc
  exact ⟨c', hc', hheeds.dropped hdropped⟩

/-- What spares the reader leaves an end under way. -/
theorem Spares.isEnding (h : s.Spares s') (hending : s.IsEnding) : s'.IsEnding where
  closed := h.isClosed.trans hending.closed
  reader := by
    rw [show s'.reader = s.reader from congrArg Outlook.reader h.outlook]
    exact hending.reader.imp id (And.imp id h.woken)

/-- What spares the reader does not stop it. -/
theorem Spares.isStopped (h : s.Spares s') :
    s'.reader.stage.isStopped = s.reader.stage.isStopped :=
  congrArg (fun outlook : Outlook => outlook.reader.stage.isStopped) h.outlook

/-- The end of a link that fails is under way. -/
theorem isEnding_fail (s : Link) : s.fail.IsEnding := by
  have hclosed : s.shutdown.isClosed := congrArg Outlook.isClosed s.outlook_shutdown
  unfold fail stopReader
  split
  · rename_i hstopped
    exact ⟨hclosed, .inl (by rw [hstopped]; rfl)⟩
  · let told : Link :=
      { s.shutdown with reader := { s.shutdown.reader with isAborted := true } }
    have houtlook := (told.wakes_wake .reader).view (f := outlook) fun _ => rfl
    refine ⟨(congrArg Outlook.isClosed houtlook).trans hclosed, .inr ⟨?_, mem_ready_wake_self _ _⟩⟩
    exact congrArg (fun outlook : Outlook => outlook.reader.isAborted) houtlook

/-- Responses stay dropped when the link fails. -/
theorem keepsDrops_fail (s : Link) : s.KeepsDrops s.fail := by
  intro key hdropped
  obtain ⟨isAborted, hstop, -⟩ := s.roster.shut.stop_eq
  rw [roster_fail, hstop]
  exact hdropped.shut

/-! ### What is done beside the reader -/

/-- The reader is spared, or the link is closed and the reader told to end. -/
inductive Yields (s s' : Link) : Prop
  | spared (h : s.Spares s')
  | ended (hending : s'.IsEnding) (hreading : s'.roster.reading = s.roster.reading)
    (hdrops : s.KeepsDrops s')

namespace Yields

/-- Responses stay dropped whether the reader is spared or the link is closed. -/
theorem keepsDrops (h : s.Yields s') : s.KeepsDrops s' := by
  cases h with
  | spared hspares => exact hspares.keepsDrops
  | ended hending hreading hdrops => exact hdrops

/-- The reader stays at its stage. -/
theorem reading (h : s.Yields s') : s'.roster.reading = s.roster.reading := by
  cases h with
  | spared hspares => exact hspares.reading
  | ended hending hreading hdrops => exact hreading

/-- What is done beside the reader adds up. -/
theorem trans (h : s.Yields s') (h' : s'.Yields s'') : s.Yields s'' := by
  have hreading := h'.reading.trans h.reading
  have hdrops := h.keepsDrops.trans h'.keepsDrops
  cases h' with
  | ended hending => exact .ended hending hreading hdrops
  | spared hspares' =>
    cases h with
    | spared hspares => exact .spared (hspares.trans hspares')
    | ended hending => exact .ended (hspares'.isEnding hending) hreading hdrops

/-- What is done beside the reader leaves an end under way. -/
theorem isEnding (h : s.Yields s') (hending : s.IsEnding) : s'.IsEnding := by
  cases h with
  | spared hspares => exact hspares.isEnding hending
  | ended hending' hreading hdrops => exact hending'

end Yields

/-- A link that fails tells its reader to end. -/
theorem yields_fail (s : Link) : s.Yields s.fail := by
  refine .ended s.isEnding_fail ?_ s.keepsDrops_fail
  obtain ⟨isAborted, hstop, -⟩ := s.roster.shut.stop_eq
  rw [roster_fail, hstop]
  exact s.roster.shut_reading

/-- The release of a link spares the reader or tells it to end. -/
theorem yields_releaseUnused (s : Link) : s.Yields s.releaseUnused := by
  rcases s.releaseUnused_cases with hsame | hsame | hsame <;> rw [hsame]
  · exact .spared (.refl s)
  · exact .spared s.spares_stopKeepAlive
  · exact (Yields.spared s.spares_stopKeepAlive).trans (yields_fail _)

/-- A call that fails to write tells the reader to end. -/
theorem yields_failWrite (s : Link) (t : Nat) (purpose : Purpose) (reason : ProtocolError) :
    s.Yields (s.failWrite t purpose reason) :=
  ((Yields.spared (s.spares_leaveLine t)).trans (yields_fail _)).trans
    (.spared (spares_failSend _ t purpose _))

/-- A call whose frame cannot be written closes the link. -/
theorem yields_sendTurn (s : Link) (t : Nat) (purpose : Purpose) (step : SendStep)
    (hcloses : s.closesAt (.sending purpose step)) :
    s.Yields (s.sendTurn t purpose step).1 := by
  have hwriter (writer : Writer) : s.Yields { s with writer := writer } :=
    .spared (s.spares_setWriter writer)
  cases step with
  | inLine frame handler => cases hcloses
  | holding frame =>
    dsimp only [closesAt] at hcloses
    dsimp only [sendTurn]
    by_cases hroom : s.writer.outbox.length < Writer.boundary
    · rw [if_pos hroom]
      split
      · exact (hwriter _).trans (.spared (spares_setStage _ t _))
      · exact s.yields_failWrite t purpose _
    · rw [if_neg hroom]
      split
      · exact hwriter _
      · exact hwriter _
      · exact (hwriter _).trans (yields_failWrite _ t purpose _)
  | flushing =>
    dsimp only [sendTurn]
    split
    · exact (hwriter _).trans
        (.spared ((spares_leaveLine _ t).trans (spares_afterSend _ t purpose)))
    · exact hwriter _
    · exact (hwriter _).trans (yields_failWrite _ t purpose _)

/-- A turn of a call registers its handler, and otherwise spares the reader or closes the link. -/
theorem yields_taskTurn (s : Link) (t : Nat) :
    (s.joined (s.turnEvents (.task t))).Yields (s.taskTurn t).1 := by
  by_cases hmild : ∀ task, s.tasks[t]? = some task → task.isAborted ∨ s.closesAt task.stage = false
  · exact .spared (s.spares_taskTurn t hmild)
  · simp only [not_forall, not_or, Bool.not_eq_true, Bool.not_eq_false] at hmild
    obtain ⟨⟨label, stage, isAborted⟩, htask, rfl, hcloses⟩ := hmild
    unfold taskTurn turnEvents
    dsimp only at hcloses ⊢
    rw [htask]
    dsimp only
    rw [if_neg (by simp), if_neg (by simp)]
    cases stage with
    | called call =>
      cases call with
      | close =>
        rw [joined_of_nil s rfl]
        exact ((Yields.spared s.spares_stopKeepAlive).trans (yields_fail _)).trans
          (.spared ((spares_joinLine _ t).trans (spares_setStage _ t _)))
      | _ => cases hcloses
    | sending purpose step =>
      rw [joined_of_nil s]
      · exact s.yields_sendTurn t purpose step hcloses
      · cases step with
        | inLine frame handler => cases hcloses
        | holding frame =>
          dsimp only [callEvents]
          split
          · split <;> rfl
          · rfl
        | flushing => rfl
    | _ => cases hcloses

/-- What is done beside the reader spares it or closes the link, except that what arrives is put
behind the rest, who is registered is put behind the others, and the owner may give the link up. -/
theorem yields_act (s : Link) (hother : action ≠ .turn .reader) :
    ∃ isHeld, ({ s.met action with isHeld := isHeld } : Link).Yields (s.act action) := by
  cases houtside : action.releases with
  | false => exact ⟨s.isHeld, .spared (s.spares_outside houtside)⟩
  | true =>
    cases action with
    | cancel label =>
      refine ⟨s.isHeld, ?_⟩
      rw [met_of_nil s rfl rfl]
      rcases s.cancel_cases label with hsame | ⟨next, hnext, hcancel⟩
      · change s.Yields ((s.cancel? label).getD s)
        rw [hsame]
        exact .spared (.refl s)
      · change s.Yields ((s.cancel? label).getD s)
        rw [hcancel]
        exact (Yields.spared hnext).trans (yields_releaseUnused _)
    | giveAway =>
      refine ⟨false, ?_⟩
      rw [met_of_nil s rfl rfl]
      exact yields_releaseUnused _
    | turn actor =>
      cases actor with
      | reader => exact absurd rfl hother
      | task t =>
        refine ⟨s.isHeld, ?_⟩
        rw [met_task]
        change (s.joined (s.turnEvents (.task t))).Yields (s.turnOf (.task t))
        rw [turnOf_eq_release]
        exact (((Yields.spared (s.spares_begun t)).trans (yields_taskTurn _ t)).trans
          (.spared (s.spares_turned t))).trans (yields_releaseUnused _)
    | _ => cases houtside

/-! ### The reader's turn -/

/-- The reader of an open link that is at work: it was woken, or it has nothing to do. -/
structure AtWork (s : Link) : Prop where
  /-- The link is open. -/
  isOpen : s.isClosed = false
  /-- The reader was not told to end. -/
  goesOn : s.reader.isAborted = false
  /-- The reader has not ended. -/
  reads : s.reader.stage.isStopped = false
  /-- The reader was woken, or it has nothing to do. -/
  alert : .reader ∈ s.ready ∨ s.roster.Idles s.feed ∧
    (s.reader.stage = .reading → (s.codec.decode s.reader.buffer).1 = none)

/-- A link that is attended is left as it is, unless its reader has still to end. -/
theorem releaseUnused_same (hattended : s.IsAttended)
    (hstopped : s.isClosed → s.reader.stage.isStopped) :
    s.releaseUnused.roster = s.roster ∧ s.Spares s.releaseUnused := by
  cases hclosed : s.isClosed with
  | false =>
    have hopen := releaseUnused_of_attended hattended hclosed
    refine ⟨s.roster_releaseUnused.resolve_right fun hshut => ?_, ?_⟩
    · have hshuts : s.releaseUnused.isClosed = s.roster.shut.stop.isClosed :=
        congrArg Roster.isClosed hshut
      obtain ⟨isAborted, hstop, -⟩ := s.roster.shut.stop_eq
      rw [hopen, hstop, s.roster.shut_isClosed] at hshuts
      cases hshuts
    · cases s.yields_releaseUnused with
      | spared hspares => exact hspares
      | ended hending hreading hdrops => cases hopen.symm.trans hending.closed
  | true =>
    have hkept : s.stopKeepAlive.fail = s.stopKeepAlive := by
      have hstage : s.stopKeepAlive.reader.stage.isStopped :=
        s.spares_stopKeepAlive.isStopped.trans (hstopped hclosed)
      have hshutdown : s.stopKeepAlive.shutdown = s.stopKeepAlive :=
        if_pos (s.spares_stopKeepAlive.isClosed.trans hclosed)
      rw [fail, hshutdown]
      unfold stopReader
      split
      · rfl
      · rename_i hgoesOn
        cases hreading : s.stopKeepAlive.reader.stage with
        | stopped => exact absurd hreading hgoesOn
        | _ =>
          rw [hreading] at hstage
          cases hstage
    unfold releaseUnused
    split
    · exact ⟨rfl, .refl s⟩
    · dsimp only
      rw [hkept, ite_self]
      exact ⟨s.roster_stopKeepAlive, s.spares_stopKeepAlive⟩

/-- A turn of a reader at work is one of its steps, after which it stays woken if it can go on. -/
theorem AtWork.turn (h : s.AtWork) (hattended : s.IsAttended)
    (hknown : ∀ key, s.reader.stage.held? = some (.statement key) →
      ∃ c, s.channels[key]? = some c) :
    s.ReaderTurns (s.act (.turn .reader), s.readsOn) ∧
      (s.readsOn → .reader ∈ (s.act (.turn .reader)).ready) := by
  obtain ⟨hturns, hready⟩ := turned_reader h.goesOn (fun _ => h.isOpen) hknown
  have hstep := hturns.step
  dsimp only at hstep
  have hturned : (s.turned .reader).IsAttended := by
    refine hattended.imp (fun hheld => hturns.held.trans hheld) (Or.imp (fun hclosed => ?_) ?_)
    · rw [h.isOpen] at hclosed
      cases hclosed
    · rintro ⟨stage, hmem, huses⟩
      exact ⟨stage, hstep.stages ▸ hmem, huses⟩
  have hstopped : (s.turned .reader).isClosed → (s.turned .reader).reader.stage.isStopped :=
    fun hclosed => (hstep.stopped (h.reads.trans h.isOpen.symm)).trans hclosed
  obtain ⟨hroster, hspares⟩ := releaseUnused_same hturned hstopped
  change s.ReaderTurns (s.turnOf .reader, _) ∧ (_ → .reader ∈ (s.turnOf .reader).ready)
  rw [turnOf_eq_release]
  refine ⟨⟨?_, hspares.isHeld.trans hturns.held, hspares.config.trans hturns.config⟩,
    fun hgoesOn => hspares.woken (hready hgoesOn)⟩
  dsimp only
  rw [hroster, hspares.feed]
  exact hstep

/-- A reader that ends lets go of the handler that it holds. -/
theorem outlook_dropReader (s : Link) :
    s.dropReader.outlook = (s.setReader .stopped).outlook := by
  unfold dropReader
  dsimp only
  split
  · exact (spares_letGo _ _).outlook
  · exact outlook_changeChannel _ _ _
  · rfl

/-- Responses stay dropped when the reader is cut off. -/
theorem keepsDrops_dropReader (s : Link) : s.KeepsDrops s.dropReader := by
  intro key hdropped
  unfold dropReader
  dsimp only
  split
  · rw [roster_letGo, roster_setReader]
    exact Roster.HasDropped.letGo (r := { s.roster with reading := .stopped }) hdropped _
  · rw [roster_changeChannel, roster_setReader]
    refine Roster.HasDropped.change hdropped _ fun c => ?_
    rw [Channel.letGo, Channel.finish_isDropped, Channel.cutOff_isDropped]
  · exact hdropped

/-- The reader of a closed link has ended after its turn, if not before. -/
theorem IsEnding.turn (h : s.IsEnding) :
    (s.act (.turn .reader)).IsEnding ∧ (s.act (.turn .reader)).reader.stage.isStopped ∧
      s.KeepsDrops (s.act (.turn .reader)) := by
  let woken : Link := { s with ready := s.ready.erase .reader }
  have hturned : (s.turned .reader).isClosed ∧ (s.turned .reader).reader.stage.isStopped ∧
      s.KeepsDrops (s.turned .reader) := by
    cases haborted : s.reader.isAborted with
    | true =>
      have hturned : s.turned .reader = woken.dropReader := by
        unfold turned readerTurn
        dsimp only
        rw [haborted]
        rfl
      have houtlook := woken.outlook_dropReader
      rw [hturned]
      refine ⟨(congrArg Outlook.isClosed houtlook).trans h.closed, ?_,
        woken.keepsDrops_dropReader⟩
      exact congrArg (fun outlook : Outlook => outlook.reader.stage.isStopped) houtlook
    | false =>
      have hstopped : s.reader.stage.isStopped := h.reader.resolve_right (by simp [haborted])
      have hturned : s.turned .reader = woken := by
        unfold turned readerTurn
        dsimp only
        rw [haborted]
        cases hstage : s.reader.stage with
        | stopped => rfl
        | _ =>
          rw [hstage] at hstopped
          cases hstopped
      rw [hturned]
      exact ⟨h.closed, hstopped, fun key hdropped => hdropped⟩
  obtain ⟨hclosed, hstopped, hdrops⟩ := hturned
  have hsame := releaseUnused_same (s := s.turned .reader) (.inr (.inl hclosed)) fun _ => hstopped
  change (s.turnOf .reader).IsEnding ∧ _ ∧ s.KeepsDrops (s.turnOf .reader)
  rw [turnOf_eq_release]
  refine ⟨hsame.2.isEnding ⟨hclosed, .inl hstopped⟩, ?_, hdrops.trans hsame.2.keepsDrops⟩
  exact hsame.2.isStopped.trans hstopped

/-! ### Whole runs -/

/-- A reader that is spared goes on as before. -/
theorem AtWork.spared (h : s.AtWork) {isHeld : Bool}
    (hspares : ({ s.met action with isHeld := isHeld } : Link).Spares (s.act action)) :
    (s.act action).AtWork := by
  have hreader : (s.act action).reader = s.reader := congrArg Outlook.reader hspares.outlook
  have hcodec : (s.act action).codec = s.codec := codec_of_config hspares.config
  refine ⟨hspares.isClosed.trans h.isOpen, hreader ▸ h.goesOn, hreader ▸ h.reads, ?_⟩
  by_cases hquiet : s.reader.stage = .reading → action.arrivals = []
  · rcases h.alert with hready | ⟨hidles, hspent⟩
    · exact .inl (hspares.woken hready)
    · rw [hreader, hcodec]
      exact (hspares.alert (.inr (idles_met hidles hquiet))).imp id fun hidles => ⟨hidles, hspent⟩
  · rw [Classical.not_imp] at hquiet
    exact .inl (reader_ready_of_arrivals hquiet.1 hquiet.2)

/-- The reader is at work as long as the link is open, and has ended or is about to end then. -/
theorem atWork_act (h : s.IsEnding ∨ s.AtWork) (hattended : s.IsAttended)
    (hknown : ∀ key, s.reader.stage.held? = some (.statement key) →
      ∃ c, s.channels[key]? = some c) (action : Action) :
    ((s.act action).IsEnding ∨ (s.act action).AtWork) ∧ s.KeepsDrops (s.act action) := by
  by_cases hreader : action = .turn .reader
  · subst hreader
    rcases h with hending | hwork
    · exact ⟨.inl hending.turn.1, hending.turn.2.2⟩
    · obtain ⟨⟨hstep, -, hconfig⟩, hready⟩ := hwork.turn hattended hknown
      dsimp only at hstep hconfig
      refine ⟨?_, fun key hdropped => hstep.hasDropped hdropped⟩
      have hstopped := hstep.stopped (hwork.reads.trans hwork.isOpen.symm)
      cases hclosed : (s.act (.turn .reader)).isClosed with
      | true => exact .inl ⟨hclosed, .inl (hstopped.trans hclosed)⟩
      | false =>
        refine .inr ⟨hclosed, (step_isAborted hstep).trans hwork.goesOn, hstopped.trans hclosed, ?_⟩
        cases hreads : s.readsOn with
        | true => exact .inl (hready hreads)
        | false =>
          rw [hreads] at hstep
          rw [codec_of_config hconfig]
          exact .inr ⟨hstep.idles, hstep.spent⟩
  · obtain ⟨isHeld, hyields⟩ := s.yields_act hreader
    refine ⟨?_, hyields.keepsDrops⟩
    rcases h with hending | hwork
    · exact .inl (hyields.isEnding ⟨hending.closed, hending.reader⟩)
    · cases hyields with
      | ended hending hreading hdrops => exact .inl hending
      | spared hspares => exact .inr (hwork.spared hspares)

/-- Who is held by the reader goes on. -/
theorem InOrder.exists_held {log : List Event} {key : Nat} (h : s.InOrder log)
    (hheld : s.reader.stage.held? = some (.statement key)) :
    ∃ c, s.channels[key]? = some c ∧ c.isDone = false := by
  refine Roster.goesOn_statement_iff.mp ((h.tenure key).live ?_)
  have hone := Roster.held_eq (r := s.roster) hheld (.statement key)
  rw [if_pos rfl] at hone
  unfold Roster.places
  omega

/-- What is known of the reader after every run holds of every action that comes next. -/
theorem atWork_step {log : List Event} (h : s.InOrder log) (hworks : s.IsEnding ∨ s.AtWork)
    (action : Action) :
    ((s.act action).IsEnding ∨ (s.act action).AtWork) ∧ s.KeepsDrops (s.act action) :=
  atWork_act hworks h.attended (fun _ hheld => (h.exists_held hheld).imp fun _ => And.left) action

/-- In every run the reader is at work as long as the link is open. -/
theorem atWork_runOf (config : Config) (actions : List Action) :
    (runOf config actions).IsEnding ∨ (runOf config actions).AtWork := by
  induction actions using List.reverseRecOn with
  | nil => exact .inr ⟨rfl, rfl, rfl, .inl (List.mem_singleton_self _)⟩
  | append_singleton actions action ih =>
    rw [runOf_concat]
    exact (atWork_step (inOrder_runOf config actions) ih action).1

end Link

end BeeProtocol
