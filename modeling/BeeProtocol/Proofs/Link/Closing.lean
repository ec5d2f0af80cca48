import BeeProtocol.Proofs.Link.Alertness
import BeeProtocol.Proofs.Link.Demultiplexing
import BeeProtocol.Proofs.Link.Losses
import BeeProtocol.Proofs.Link.PendingQueue

/-!
# The end of a link

A link that is closed comes to rest with nothing pending: no handler waits, the reader has ended,
every call has its reply, and every statement whose handler was registered has ended. What had ended
before stays as it was, and the rest fails because the link is closed. Only a statement whose frame
still waits in line for a writer that is stalled goes on, and with it the calls on its response.
-/

namespace BeeProtocol

namespace Link

variable {s s' : Link} {key : Nat} {actor : Actor}

/-! ### Who closes a link -/

/-- An open link that was given up is used by some call. -/
def IsAttended (s : Link) : Prop :=
  s.isHeld ∨ s.isClosed ∨ ∃ stage ∈ s.roster.stages, stage.usesWriter

/-- A link is attended if its owner, its phase and its calls are still there. -/
theorem IsAttended.of_roster (h : s.IsAttended) (hheld : s'.isHeld = s.isHeld)
    (hclosed : s'.roster.isClosed = s.roster.isClosed)
    (hstages : ∀ stage ∈ s.roster.stages, stage ∈ s'.roster.stages) : s'.IsAttended := by
  refine h.imp (fun hin => hheld ▸ hin) (Or.imp (fun hin => ?_) fun ⟨stage, hmem, huses⟩ => ?_)
  · exact hclosed.trans hin
  · exact ⟨stage, hstages stage hmem, huses⟩

/-- Neither the owner nor the phase nor the calls are different. -/
structure SameUse (s s' : Link) : Prop where
  /-- The owner still has the link, or still has not. -/
  held : s'.isHeld = s.isHeld
  /-- The link is still open, or still closed. -/
  closed : s'.isClosed = s.isClosed
  /-- All calls stand where they stood. -/
  stages : s'.roster.stages = s.roster.stages

/-- Changes that leave the use of a link add up. -/
theorem SameUse.trans {s'' : Link} (h : s.SameUse s') (h' : s'.SameUse s'') : s.SameUse s'' :=
  ⟨h'.held.trans h.held, h'.closed.trans h.closed, h'.stages.trans h.stages⟩

/-- A link is attended if it is used as before. -/
theorem IsAttended.of_same (h : s.IsAttended) (hsame : s.SameUse s') : s'.IsAttended :=
  h.of_roster hsame.held hsame.closed fun stage hmem => by rwa [hsame.stages]

/-- A task that sends a ping uses the writer. -/
theorem usesWriter_of_isPinging {stage : Stage} (h : stage.isPinging) : stage.usesWriter := by
  cases stage with
  | sending purpose step => rfl
  | _ => cases h

/-- A test of the tasks by their stages is a test of the roster. -/
theorem tasks_any (s : Link) (test : Stage → Bool) :
    s.tasks.any (fun task => test task.stage) = s.roster.stages.any test := by
  simp [roster, List.any_map, Function.comp_def]

/-- A link that is not used by any call is closed at once. -/
theorem releaseUnused_attended (s : Link) : s.releaseUnused.IsAttended := by
  unfold releaseUnused
  split
  · rename_i hused
    rcases Bool.or_eq_true_iff.mp hused with hheld | huse
    · exact .inl hheld
    · obtain ⟨task, hmem, huses⟩ := List.any_eq_true.mp huse
      rw [Bool.and_eq_true] at huses
      exact .inr (.inr ⟨task.stage, List.mem_map_of_mem hmem, huses.1⟩)
  · dsimp only
    split
    · rename_i hpings
      obtain ⟨task, hmem, hping⟩ := List.any_eq_true.mp hpings
      exact .inr (.inr ⟨task.stage, List.mem_map_of_mem hmem, usesWriter_of_isPinging hping⟩)
    · refine .inr (.inl ?_)
      change s.stopKeepAlive.fail.roster.isClosed = true
      obtain ⟨isAborted, hstop, -⟩ := s.roster.shut.stop_eq
      rw [roster_fail, roster_stopKeepAlive, hstop]
      exact s.roster.shut_isClosed

/-- A link that is attended is left open. -/
theorem releaseUnused_of_attended (h : s.IsAttended) (hopen : s.isClosed = false) :
    s.releaseUnused.isClosed = false := by
  unfold releaseUnused
  split
  · exact hopen
  · rename_i hunused
    dsimp only
    split
    · exact (congrArg Roster.isClosed s.roster_stopKeepAlive).trans hopen
    · rename_i hquiet
      simp only [Bool.or_eq_true, not_or, Bool.not_eq_true] at hunused hquiet
      obtain ⟨hunheld, hunused⟩ := hunused
      rcases h with hheld | hclosed | ⟨stage, hmem, huses⟩
      · rw [hunheld] at hheld
        cases hheld
      · rw [hopen] at hclosed
        cases hclosed
      · -- The call that uses the writer would be in the middle of a ping.
        have hping : stage.isPinging = true := by
          rw [isInUse, tasks_any s fun stage => stage.usesWriter && !stage.isPinging] at hunused
          simpa [huses] using List.any_eq_false.mp hunused stage hmem
        rw [tasks_any s.stopKeepAlive Stage.isPinging, roster_stopKeepAlive] at hquiet
        exact absurd hping (List.any_eq_false.mp hquiet stage hmem)

/-! ### Who holds the link -/

/-- A change of a channel leaves the use of a link. -/
theorem sameUse_changeChannel (s : Link) (key : Nat) (change : Channel → Channel) :
    s.SameUse (s.changeChannel key change) := by
  have hroster := s.roster_changeChannel key change
  exact ⟨(s.wakes_changeChannel key change).isHeld, congrArg Roster.isClosed hroster,
    by rw [hroster]; rfl⟩

/-- Whatever is done with a link, it is left open only if it is attended. -/
theorem act_attended (h : s.IsAttended) (action : Action) : (s.act action).IsAttended := by
  have hsame {next : Link} (hheld : next.isHeld = s.isHeld) (hroster : next.roster = s.roster) :
      next.IsAttended :=
    h.of_same ⟨hheld, congrArg Roster.isClosed hroster, congrArg Roster.stages hroster⟩
  have hbegun (opened : Link) (hheld : opened.isHeld = s.isHeld)
      (hclosed : opened.roster.isClosed = s.roster.isClosed)
      (hstages : opened.roster.stages = s.roster.stages) (label : Option Nat) (stage : Stage) :
      (opened.addTask label stage).IsAttended := by
    refine h.of_roster ((opened.wakes_addTask label stage).isHeld.trans hheld) ?_
      fun stage' hmem => ?_
    · rw [roster_addTask]
      exact hclosed
    · rw [roster_addTask]
      exact List.mem_append_left _ (hstages ▸ hmem)
  cases action with
  | arrive item => exact hsame (s.wakes_arrive item).isHeld (s.roster_arrive item)
  | setMode mode => exact hsame (s.wakes_setMode mode).isHeld (s.roster_setMode mode)
  | call label call hplain => exact hbegun s rfl rfl rfl _ _
  | statement label frame id capacity bound => exact hbegun (s.addChannel _) rfl rfl rfl _ _
  | reply label frame kind => exact hbegun (s.addReply kind) rfl rfl rfl _ _
  | pull label channel pull bound =>
    dsimp only [act, startPull]
    split
    · exact h
    · exact hbegun s rfl rfl rfl _ _
  | watch label reply bound => exact hbegun s rfl rfl rfl _ _
  | next channel =>
    dsimp only [act, next]
    split
    · exact h
    · exact h.of_same (s.sameUse_changeChannel channel _)
  | dropResponse channel => exact h.of_same (s.sameUse_changeChannel channel _)
  | cancel label =>
    dsimp only [act, cancel?]
    cases s.tasks.findIdx? fun task => task.label == some label && !task.stage.isEnded with
    | none => exact h
    | some t =>
      rw [Option.bind_some]
      cases s.tasks[t]? with
      | none => exact h
      | some task => exact releaseUnused_attended _
  | allocate count =>
    exact hsame (congrArg Link.isHeld (s.nextIds_eq count) :) (s.roster_nextIds count)
  | markOpen => exact hsame (congrArg Link.isHeld s.markOpen_eq :) s.roster_markOpen
  | giveAway => exact releaseUnused_attended _
  | pass gap => exact hsame (s.wakes_pass gap).isHeld (s.roster_pass gap)
  | turn actor => exact releaseUnused_attended _

/-- A link stays attended in every run. -/
theorem run_attended (h : s.IsAttended) (actions : List Action) :
    (actions.foldl act s).IsAttended := by
  induction actions generalizing s with
  | nil => exact h
  | cons action actions ih => exact ih (act_attended h action)

/-! ### What is fed -/

/-- Only a reader that holds the handler of a statement feeds the statement. -/
theorem held_of_fed {action : Action} (h : .fed key ∈ s.eventsAt action) :
    action = .turn .reader ∧ s.reader.isAborted = false ∧
      s.reader.stage.held? = some (.statement key) := by
  cases action with
  | call label call hplain =>
    cases call with
    | send frame handler => rcases handler with - | other | other <;> simp [eventsAt] at h
    | _ => cases h
  | reply label frame kind => simp [eventsAt] at h
  | next channel =>
    dsimp only [eventsAt] at h
    split at h <;> simp at h
  | turn actor =>
    rcases turnEvents_cases h with ⟨t, stage, -, hmem⟩ | ⟨rfl, hgoesOn, hmem⟩
    · exact absurd (callEvents_cases hmem) (by simp)
    · rcases readerEvents_cases hmem with ⟨handler, hmatched⟩ | ⟨other, hfed, hheld⟩
      · cases hmatched
      · obtain rfl := Event.fed.inj hfed
        exact ⟨rfl, hgoesOn, hheld⟩
  | _ => cases h

/-- Putting a handler back leaves the use of a link. -/
theorem sameUse_putBack (s : Link) (key : Nat) : s.SameUse (s.putBack key) := by
  have hreading : s.SameUse (s.setReader .reading) := ⟨rfl, rfl, rfl⟩
  unfold putBack
  dsimp only
  split
  · exact hreading
  · unfold requeue
    split
    · exact hreading.trans (sameUse_changeChannel ..)
    · exact ⟨rfl, rfl, rfl⟩

/-- A reader that feeds a statement does not close the link. -/
theorem sameUse_readerTurn (haborted : s.reader.isAborted = false)
    (hheld : s.reader.stage.held? = some (.statement key)) : s.SameUse s.readerTurn.1 := by
  have hchanged (change : Channel → Channel) := s.sameUse_changeChannel key change
  have hput (change : Channel → Channel) :=
    (hchanged change).trans ((s.changeChannel key change).sameUse_putBack key)
  unfold readerTurn
  rw [if_neg (by simp [haborted])]
  cases hstage : s.reader.stage with
  | decoding handler payload =>
    rw [hstage] at hheld
    obtain rfl := Option.some.inj hheld
    dsimp only [decodePayload]
    split
    · exact (hchanged _).trans ⟨rfl, rfl, rfl⟩
    · exact hput _
  | storing other row =>
    rw [hstage] at hheld
    obtain rfl := Handler.statement.inj (Option.some.inj hheld)
    dsimp only [storeRow]
    split
    · exact hput _
    · exact hchanged _
  | _ =>
    rw [hstage] at hheld
    cases hheld

/-- What closes a link feeds nothing to a statement. -/
theorem isClosed_of_fed {action : Action} (h : s.IsAttended) (hopen : s.isClosed = false)
    (hfed : .fed key ∈ s.eventsAt action) : (s.act action).isClosed = false := by
  obtain ⟨rfl, haborted, hheld⟩ := held_of_fed hfed
  let woken : Link := { s with ready := s.ready.erase .reader }
  have hturn : woken.SameUse woken.readerTurn.1 := sameUse_readerTurn haborted hheld
  have hsame : s.SameUse woken.readerTurn.1 := ⟨hturn.held, hturn.closed, hturn.stages⟩
  have hwhole (next : Link × Bool) (h : next.1.IsAttended) (hopen : next.1.isClosed = false) :
      (if next.2 then { next.1 with ready := Actor.reader :: next.1.ready.erase .reader }
        else next.1).releaseUnused.isClosed = false := by
    split
    · exact releaseUnused_of_attended (h.of_same ⟨rfl, rfl, rfl⟩) hopen
    · exact releaseUnused_of_attended h hopen
  exact hwhole woken.readerTurn (h.of_same hsame) (hsame.closed.trans hopen)

/-- Nothing is fed to a statement on a closed link. -/
theorem fed_notMem_of_isClosed (h : s.roster.IsShut) (hclosed : s.isClosed)
    (actions : List Action) : .fed key ∉ s.journal actions := by
  induction actions generalizing s with
  | nil => exact List.not_mem_nil
  | cons action actions ih =>
    have hmoves := s.act_moves action
    rw [journal, List.mem_append, not_or]
    refine ⟨fun hfed => ?_, ih (hmoves.isShut h) (hmoves.isClosed hclosed)⟩
    obtain ⟨-, haborted, hheld⟩ := held_of_fed hfed
    have hreading : s.roster.reading.isStopped = false := by
      cases hstage : s.reader.stage with
      | stopped =>
        rw [hstage] at hheld
        cases hheld
      | _ => simp [roster, hstage, ReaderStage.isStopped]
    rw [show s.isClosed = false from h.isClosed_eq_false haborted hreading] at hclosed
    cases hclosed

/-! ### The action that closes the link -/

/-- A link that has been closed was closed by one of the actions. -/
theorem exists_closing (actions : List Action) (hopen : s.isClosed = false)
    (hclosed : (actions.foldl act s).isClosed) :
    ∃ before action after, actions = before ++ action :: after ∧
      (before.foldl act s).isClosed = false ∧ ((before.foldl act s).act action).isClosed := by
  induction actions generalizing s with
  | nil => simp [hopen] at hclosed
  | cons action actions ih =>
    cases hfirst : (s.act action).isClosed with
    | true => exact ⟨[], action, actions, rfl, hopen, hfirst⟩
    | false =>
      obtain ⟨before, closing, after, rfl, hbefore, hcloses⟩ := ih hfirst hclosed
      exact ⟨action :: before, closing, after, rfl, hbefore, hcloses⟩

/-- What has become of the statements on a link that was open before. -/
structure Ended (s s' : Link) (log : List Event) : Prop where
  /-- A statement that had not ended has failed, if it has ended, because the link was closed. -/
  lost : ∀ (key : Nat) (c : Channel), s'.channels[key]? = some c → c.isDone →
    (∀ before : Channel, s.channels[key]? = some before → before.isDone = false) →
      c.failure = some .connectionClosed
  /-- One that had ended is as it was, with the rows that were not taken from it. -/
  kept : ∀ (key : Nat) (c : Channel), s.channels[key]? = some c → c.isDone →
    ∃ c' : Channel, s'.channels[key]? = some c' ∧ c'.answer = c.answer ∧
      Event.gainedFrom key log ++ c'.rows = c.rows

/-- What the closing action and all later ones do to the statements. -/
theorem ended_of_closing {action : Action} (hshut : s.roster.IsShut) (hattended : s.IsAttended)
    (hsound : ∀ c ∈ s.channels, c.IsSound) (hopen : s.isClosed = false)
    (hcloses : (s.act action).isClosed) (after : List Action) :
    s.Ended (after.foldl act (s.act action)) (s.journal (action :: after)) := by
  have hmoves := s.run_moves (action :: after)
  have hunfed (key : Nat) : .fed key ∉ s.journal (action :: after) := by
    rw [journal, List.mem_append, not_or]
    have hshut' := (s.act_moves action).isShut hshut
    refine ⟨fun hfed => ?_, fed_notMem_of_isClosed hshut' hcloses after⟩
    rw [isClosed_of_fed hattended hopen hfed] at hcloses
    cases hcloses
  constructor
  · intro key c hc hdone hlive
    have hbefore (c : Channel) (hc : s.roster.channels[key]? = some c) : c.EndsLost := by
      have hgoesOn := hlive c hc
      rw [Channel.EndsLost, hgoesOn]
      exact hsound c (List.mem_of_getElem? hc) hgoesOn
    have hlost := hmoves.endsLost (hunfed key) hbefore hc
    rwa [Channel.EndsLost, hdone] at hlost
  · intro key c hc hdone
    have hbefore : s.roster.channels[key]? = some c := hc
    obtain ⟨c', hc', hcomes⟩ := hmoves.brings (hunfed key) hbefore
    exact ⟨c', hc', hcomes.answer_of_isDone hdone, hcomes.rows⟩

/-! ### A link at rest -/

/-- The frame of a statement waits in line, and the stream takes nothing from who has the writer. -/
def IsHeldUp (s : Link) (key : Nat) : Prop :=
  ∃ t u purpose frame,
    (s.tasks[t]?).map (·.stage) = some (.sending purpose (.inLine frame (some (.statement key)))) ∧
      t ∈ s.line ∧ s.line.head? = some u ∧ u ≠ t ∧ s.writer.flush.2 = .stalled

/-- A closed link on which nobody can go on, given what is remembered of the run. -/
structure AtRest (s : Link) (log : List Event) : Prop where
  /-- No handler waits, and the reader has ended. -/
  pending : s.pending = []
  /-- The reader has ended. -/
  reader : s.reader.stage.isStopped
  /-- No call waits for a single reply. -/
  replies : ∀ task ∈ s.tasks, ∀ key bound use deadline,
    task.stage ≠ .replying key bound use deadline
  /-- Every statement whose handler was registered has ended. -/
  registered : ∀ key, .statement key ∈ Event.registeredIn log →
    ∃ c, s.channels[key]? = some c ∧ c.isDone
  /-- A call waits on a response only as long as the frame of the statement is held up. -/
  pulls : ∀ task ∈ s.tasks, ∀ key call, task.stage = .pulling key call → s.IsHeldUp key

/-- What holds of a link in every run. -/
structure InOrder (s : Link) (log : List Event) : Prop where
  /-- Everybody was woken or cannot go on. -/
  alert : s.Alert
  /-- Nothing waits on a closed link. -/
  shut : s.roster.IsShut
  /-- An open link that was given up is used by some call. -/
  attended : s.IsAttended
  /-- A failure ends its statement. -/
  sound : ∀ c ∈ s.channels, c.IsSound
  /-- The handler of every statement that goes on is in one place. -/
  tenure : ∀ key, s.roster.Tenure (.statement key)
  /-- No call carries a handler that was registered. -/
  lays : ∀ key, s.roster.Lays log (.statement key)
  /-- No two calls wait for one reply. -/
  asked : s.roster.AskedOnce
  /-- A reply that a call waits for is decided, or its handler waits or is with the reader. -/
  answered : s.roster.Answered

/-- In every run a link is in order. -/
theorem inOrder_runOf (config : Config) (actions : List Action) :
    (runOf config actions).InOrder (journalOf config actions) := by
  let start : Link := fresh config
  have hmoves : start.roster.Moves (journalOf config actions) (runOf config actions).roster :=
    start.run_moves actions
  have hwire : Roster.WireOrder start.roster.stages start.roster.line [] := Roster.wireOrder_fresh
  have htenure (key : Nat) : start.roster.Tenure (.statement key) := Roster.tenure_fresh config _
  have hasked : start.roster.AskedOnce := fun key => ⟨Nat.zero_le 1, fun h => by cases h⟩
  have hanswered : start.roster.Answered := fun stage hmem => by cases hmem
  have hstatement (key : Nat) : ∀ other, .offered other ∈ journalOf config actions →
      ∃ k, Handler.statement key = .statement k := fun _ _ => ⟨key, rfl⟩
  exact
    { alert := (Alert.fresh config).run hwire actions
      shut := hmoves.isShut (.of_open rfl)
      attended := run_attended (.inl rfl) actions
      sound := hmoves.sound fun c hmem => by cases hmem
      tenure := fun key => hmoves.tenure (hstatement key) (htenure key)
      lays := fun key => by
        have hnone : start.roster.Lays [] (.statement key) := fun hmem => by cases hmem
        exact hmoves.lays (hstatement key) (htenure key) hnone
      asked := hmoves.askedOnce hasked
      answered := hmoves.answered hwire hasked hanswered }

namespace InOrder

variable {log : List Event} (h : s.InOrder log) (hclosed : s.isClosed) (hrest : s.ready = [])

include h hrest in
/-- Nobody can go on at rest. -/
theorem blocked (actor : Actor) : s.roster.Blocked s.writer actor :=
  (h.alert actor).woken.resolve_left (by simp [hrest])

include h in
/-- Every call stands in the line exactly while it writes. -/
theorem placed (t : Nat) : s.roster.IsPlaced t := (h.alert (.task t)).placed t rfl

include h hclosed hrest

/-- The reader of a closed link has ended, and so it holds nothing. -/
theorem reader_stopped : s.reader.stage.isStopped :=
  (h.shut.reader hclosed).elim id (h.blocked hrest .reader)

/-- The reader of a closed link at rest holds no handler. -/
theorem holds_nothing : s.roster.reading.held? = none := by
  have hstopped := h.reader_stopped hclosed hrest
  change s.reader.stage.held? = none
  cases hstage : s.reader.stage with
  | stopped => rfl
  | _ => simp [hstage, ReaderStage.isStopped] at hstopped

/-- A call waits for no single reply: the reply was decided at the latest when the link was
closed. -/
theorem replying_ne {stage : Stage} (hmem : stage ∈ s.roster.stages) (key : Nat) (bound : Duration)
    (use : ReplyUse) (deadline : Nat) : stage ≠ .replying key bound use deadline := by
  rintro rfl
  obtain ⟨t, hstage⟩ := List.mem_iff_getElem?.mp hmem
  have hknown : key < s.replies.length :=
    (h.asked key).2 (Roster.asked_pos hstage rfl)
  obtain ⟨reply, hreply⟩ : ∃ reply, s.roster.replies[key]? = some reply :=
    ⟨_, List.getElem?_eq_getElem hknown⟩
  have hundecided := h.blocked hrest (.task t) _ hstage reply hreply
  have hgoesOn : s.roster.goesOn (.reply key) :=
    Roster.goesOn_reply_iff.mpr ⟨reply, hreply, hundecided⟩
  rcases h.answered _ hmem key rfl hgoesOn with hwaits | hheld
  · rw [h.shut.pending hclosed] at hwaits
    cases hwaits
  · rw [h.holds_nothing hclosed hrest] at hheld
    cases hheld

/-- The handler of a statement that goes on is carried by a call. -/
theorem exists_carrier {c : Channel} (hc : s.channels[key]? = some c) (hlive : c.isDone = false) :
    ∃ stage ∈ s.roster.stages, stage.carries? = some (.statement key) := by
  have hplaces := (h.tenure key).kept key rfl (Roster.goesOn_statement_iff.mpr ⟨c, hc, hlive⟩)
  unfold Roster.places at hplaces
  rw [h.shut.pending hclosed, Roster.held_of_empty (h.holds_nothing hclosed hrest)] at hplaces
  simpa [Roster.carried, List.countP_pos_iff] using hplaces

/-- A statement goes on only if its frame is held up. -/
theorem heldUp {c : Channel} (hc : s.channels[key]? = some c) (hlive : c.isDone = false) :
    s.IsHeldUp key := by
  obtain ⟨stage, hmem, hcarries⟩ := h.exists_carrier hclosed hrest hc hlive
  obtain ⟨t, hstage⟩ := List.mem_iff_getElem?.mp hmem
  have hblocked := h.blocked hrest (.task t) stage hstage
  cases stage with
  | called call => exact hblocked.elim
  | sending purpose step =>
    cases step with
    | inLine frame handler =>
      obtain rfl : handler = some (.statement key) := hcarries
      have hline : t ∈ s.roster.line := (h.placed t).line.mpr ⟨_, hstage, rfl⟩
      obtain ⟨u, rest, hfirst⟩ := List.exists_cons_of_ne_nil (List.ne_nil_of_mem hline)
      have hhead : s.roster.line.head? = some u := by simp [hfirst]
      have hother : u ≠ t := by
        rintro rfl
        exact hblocked hhead
      -- Who has the writer cannot go on either, so it is writing.
      obtain ⟨first, hwriter, hinLine⟩ := (h.placed u).line.mp (by simp [hfirst])
      have hstuck := h.blocked hrest (.task u) first hwriter
      refine ⟨t, u, purpose, frame, ?_, hline, hhead, hother, ?_⟩
      · simpa [roster] using hstage
      · cases first with
        | sending purpose' step' =>
          cases step' with
          | inLine frame' handler' => exact absurd hhead hstuck
          | holding frame' => exact hstuck
          | flushing => exact hstuck
        | closing => exact absurd hhead hstuck
        | _ => cases hinLine
    | holding frame => cases hcarries
    | flushing => cases hcarries
  | _ => cases hcarries

/-- A closed link in order at which nobody can go on is at rest. -/
theorem atRest : s.AtRest log where
  pending := h.shut.pending hclosed
  reader := h.reader_stopped hclosed hrest
  replies task hmem key bound use deadline :=
    h.replying_ne hclosed hrest (List.mem_map_of_mem hmem) key bound use deadline
  registered key hmem := by
    obtain ⟨hcarried, hknown⟩ := h.lays key hmem
    obtain ⟨c, hc⟩ : ∃ c, s.channels[key]? = some c := ⟨_, List.getElem?_eq_getElem hknown⟩
    refine ⟨c, hc, ?_⟩
    by_contra hlive
    obtain ⟨stage, hmem, hcarries⟩ := h.exists_carrier hclosed hrest hc (by simpa using hlive)
    have hnone := List.countP_eq_zero.mp hcarried stage hmem
    simp [hcarries] at hnone
  pulls task hmem key call hpulls := by
    have hstage : task.stage ∈ s.roster.stages := List.mem_map_of_mem hmem
    rw [hpulls] at hstage
    obtain ⟨t, hstage⟩ := List.mem_iff_getElem?.mp hstage
    obtain ⟨c, hc, hlive⟩ := h.blocked hrest (.task t) _ hstage
    exact h.heldUp hclosed hrest hc hlive

end InOrder

/-- In every run, a closed link on which nobody can go on is at rest. It was closed by one of the
actions; what had ended before has stayed as it was, and whatever has ended since has failed because
the link was closed. -/
theorem atRest_runOf (config : Config) (actions : List Action)
    (hclosed : (runOf config actions).isClosed) (hrest : (runOf config actions).ready = []) :
    (runOf config actions).AtRest (journalOf config actions) ∧
    ∃ before action after, actions = before ++ action :: after ∧
      (runOf config before).isClosed = false ∧ (runOf config (before ++ [action])).isClosed ∧
        (runOf config before).Ended (runOf config actions)
          ((runOf config before).journal (action :: after)) := by
  refine ⟨(inOrder_runOf config actions).atRest hclosed hrest, ?_⟩
  obtain ⟨before, action, after, rfl, hopen, hcloses⟩ :=
    exists_closing (s := fresh config) actions rfl hclosed
  refine ⟨before, action, after, rfl, hopen, ?_, ?_⟩
  · simpa [runOf] using hcloses
  · have h := inOrder_runOf config before
    have hended := ended_of_closing h.shut h.attended h.sound hopen hcloses after
    simpa [runOf] using hended

/-- One statement is aborted with a row in its buffer, the reader holds the handler of another one
and a row that its full buffer does not take, and a request waits for its reply. -/
def fullBuffer : List Action :=
  submission 0 7 ++
    .statement 1 ⟨2, []⟩ 9 1 (.ofSeconds 30) :: List.replicate 4 (.turn (.task 1)) ++
    .call 2 (.request .ping .ping (.ofSeconds 5)) rfl :: List.replicate 5 (.turn (.task 2)) ++
    reception [⟨3, [0, 0, 0, 7, 0, 0]⟩, ⟨3, [0, 0, 0, 7, 1, 0]⟩, ⟨3, [0, 0, 0, 7, 2]⟩,
      ⟨3, [0, 0, 0, 9, 0, 0]⟩, ⟨3, [0, 0, 0, 9, 1, 0]⟩, ⟨3, [0, 0, 0, 9, 1, 0]⟩] ++
    List.replicate 4 (.turn .reader)

/-- Then the link is closed. -/
def closedByCall : List Action :=
  fullBuffer ++ .call 3 .close rfl :: List.replicate 2 (.turn (.task 3)) ++
    [.turn .reader, .turn (.task 2)]

/-- The statement that the reader was at fails, and the one that was aborted keeps its row. -/
theorem atRest_closedByCall :
    (runOf (.defaults "" 0) fullBuffer).reader.stage.held? = some (.statement 1) ∧
      ((runOf (.defaults "" 0) closedByCall).channels.map fun c =>
        (c.rows.length, c.isDone, c.failure.isSome)) = [(1, true, false), (1, true, true)] ∧
      (runOf (.defaults "" 0) closedByCall).AtRest (journalOf (.defaults "" 0) closedByCall) ∧
      ∃ before action after, closedByCall = before ++ action :: after ∧
        (runOf (.defaults "" 0) before).isClosed = false ∧
          (runOf (.defaults "" 0) (before ++ [action])).isClosed ∧
            (runOf (.defaults "" 0) before).Ended (runOf (.defaults "" 0) closedByCall)
              ((runOf (.defaults "" 0) before).journal (action :: after)) := by
  refine ⟨by decide +kernel, by decide +kernel, ?_⟩
  exact atRest_runOf (.defaults "" 0) closedByCall (by decide +kernel) (by decide +kernel)

/-- The stream takes nothing of a frame, so that the frame of a statement stays in line while a call
waits on the response and the peer ends the stream. -/
def stalledInLine : List Action :=
  [.setMode (.limited 0), .call 0 (.send ⟨6, [0]⟩ none) rfl] ++
    List.replicate 4 (.turn (.task 0)) ++
    .statement 1 ⟨2, [0]⟩ 7 4 (.ofSeconds 30) :: List.replicate 2 (.turn (.task 1)) ++
    [.pull 2 0 .hasNext none, .turn (.task 2), .turn .reader, .arrive .ended, .turn .reader,
      .turn .reader]

/-- A closed link on which nobody can go on may have a call that waits on a response. -/
theorem not_forall_pulls_ended :
    ¬ ∀ (config : Config) (actions : List Action), (runOf config actions).isClosed →
      (runOf config actions).ready = [] → ∀ task ∈ (runOf config actions).tasks,
        ∀ key call, task.stage ≠ .pulling key call := by
  intro hall
  have hended := hall (.defaults "" 0) stalledInLine (by decide) (by decide)
  have hwaits : (runOf (.defaults "" 0) stalledInLine).tasks.any (·.stage.isPulling 0) := by decide
  obtain ⟨task, hmem, hpulls⟩ := List.any_eq_true.mp hwaits
  cases hstage : task.stage with
  | pulling key call => exact hended task hmem key call hstage
  | _ => simp [hstage, Stage.isPulling] at hpulls

end Link

end BeeProtocol
