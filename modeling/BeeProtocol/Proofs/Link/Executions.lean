import BeeProtocol.Proofs.Config
import BeeProtocol.Proofs.Link.Reports
import BeeProtocol.Proofs.Statement.Waiting

/-!
# Waits on the responses to scripts that are executed

The response to a script that is executed keeps the limit for its waits that it was opened with,
whatever becomes of its statement. A wait that is begun on it without a bound of its own ends with a
timeout as soon as it takes a turn after that limit with nothing there, and never before.
-/

namespace BeeProtocol

namespace Channel

/-- The waits on a response have a bound, and its statement has not failed with a timeout. -/
structure IsBoundBy (c : Channel) (bound : Duration) : Prop where
  /-- The waits are bound by it. -/
  bound : c.bound = bound
  /-- No wait has made the statement fail. -/
  untimed : ∀ what, c.failure ≠ some (.timeout what)

variable {c c' : Channel} {rows : List Row} {bound : Duration}

/-- A fresh channel is bound as it was opened. -/
theorem isBoundBy_fresh (id : UInt32) (capacity : Nat) (bound : Duration) :
    (fresh id capacity bound).IsBoundBy bound := ⟨rfl, nofun⟩

/-- A channel stays bound on its way. -/
theorem ComesTo.isBoundBy (h : c.ComesTo rows c') (hbound : c.IsBoundBy bound) :
    c'.IsBoundBy bound := by
  refine ⟨h.bound.trans hbound.bound, fun what htimeout => hbound.untimed what ?_⟩
  rcases h.answer with hsame | hlost
  · exact (congrArg (·.2.2) hsame).symm.trans htimeout
  · have hclosed : some ClientError.connectionClosed ≠ some (.timeout what) := nofun
    exact untimed_finish hclosed ((congrArg (·.2.2) hlost).symm.trans htimeout)

/-- A channel stays bound by what it hears. -/
theorem Hears.isBoundBy (h : c.Hears c') (hbound : c.IsBoundBy bound) : c'.IsBoundBy bound :=
  ⟨h.bound.trans hbound.bound, fun what htimeout => hbound.untimed what (h.untimed what htimeout)⟩

end Channel

namespace Roster

variable {r r' : Roster} {event : Option Event} {events : List Event} {key : Nat} {bound : Duration}

/-- The waits on the response under a key have a bound. -/
def Binds (r : Roster) (key : Nat) (bound : Duration) : Prop :=
  ∃ c, r.channels[key]? = some c ∧ c.IsBoundBy bound

/-- A response stays bound in every move. -/
theorem Move.binds (hmove : r.Move event r') (h : r.Binds key bound) : r'.Binds key bound := by
  obtain ⟨c, hc, hbound⟩ := h
  rcases hmove.fares hc with ⟨c', hc', hcomes⟩ | ⟨-, c', hc', hhears⟩
  · exact ⟨c', hc', hcomes.isBoundBy hbound⟩
  · exact ⟨c', hc', hhears.isBoundBy hbound⟩

/-- A response stays bound in every sequence of moves. -/
theorem Moves.binds (hmoves : r.Moves events r') (h : r.Binds key bound) : r'.Binds key bound := by
  induction hmoves with
  | nil r => exact h
  | cons hmove hrest ih => exact ih (hmove.binds h)

/-- No call goes missing in a move. -/
theorem Move.stages_length (hmove : r.Move event r') : r.stages.length ≤ r'.stages.length := by
  cases hmove with
  | begin | beginStatement | beginReply => simp
  | quit response hstage hline =>
    rw [quit_stages]
    simp
  | close => rw [shut_stages]
  | _ => simp [move, change, changeReply, letGo]

/-- No call goes missing in a sequence of moves. -/
theorem Moves.stages_length (hmoves : r.Moves events r') : r.stages.length ≤ r'.stages.length := by
  induction hmoves with
  | nil r => exact le_rfl
  | cons hmove hrest ih => exact hmove.stages_length.trans ih

end Roster

namespace Link

variable {s next : Link} {t key : Nat} {label : Option Nat} {stage new : Stage} {script : String}
  {bound : Duration} {action : Action} {call : PullCall} {config : Config} {actions : List Action}

/-- A response stays bound in every action. -/
theorem binds_act (h : s.roster.Binds key bound) (action : Action) :
    (s.act action).roster.Binds key bound := (s.act_moves action).binds h

/-- A response stays bound in every run. -/
theorem binds_run (h : s.roster.Binds key bound) (actions : List Action) :
    (actions.foldl act s).roster.Binds key bound := (s.run_moves actions).binds h

/-- A call that was begun stands somewhere. -/
theorem exists_stage_act (h : s.roster.stages[t]? = some stage) (action : Action) :
    ∃ new, (s.act action).roster.stages[t]? = some new := by
  have ht := (List.getElem?_eq_some_iff.mp h).1
  exact ⟨_, List.getElem?_eq_getElem (ht.trans_le (s.act_moves action).stages_length)⟩

/-! ### Executing a script -/

/-- Where a call stands that executes a script. From when it writes its statement, the waits on the
response have their bound. -/
inductive Executes (r : Roster) (script : String) (bound : Duration) : Stage → Prop
  | called : Executes r script bound (.called (.execute script))
  | sending {key : Nat} (step : SendStep) (hbinds : r.Binds key bound) :
    Executes r script bound (.sending (.statement key) step)
  | ended : Executes r script bound .ended

/-- What the statement of a script is written in, under the next statement id. -/
def statementFrame (s : Link) (script : String) : Except ProtocolError Frame :=
  (Message.statementRequest
    ⟨s.nextId.1.toUInt32, script, s.config.statementTimeoutSeconds⟩).toFrame

/-- In its first turn, such a call opens the channel whose response it will hand out. -/
theorem taskTurn_execute {frame : Frame}
    (htask : s.tasks[t]? = some ⟨label, .called (.execute script), false⟩)
    (hframe : s.statementFrame script = .ok frame) (hsize : frame.payload.length ≤ s.codec.limit) :
    let c : Channel := .fresh s.nextId.1.toUInt32 s.config.rowCapacity s.config.executionLimit
    (s.woken t).taskTurn t = ((((s.woken t).nextId.2.addChannel c).joinLine t).setStage t
      (.sending (.statement s.channels.length)
        (.inLine frame (some (.statement s.channels.length)))), true) := by
  intro c
  rw [taskTurn_called htask]
  change (s.woken t).nextId.2.beginSubmit t s.nextId.1 script s.config.statementTimeoutSeconds = _
  unfold statementFrame at hframe
  unfold beginSubmit
  rw [hframe]
  exact if_neg (Nat.not_lt.mpr hsize)

/-- The first turn of a call that executes a script opens a response with its bound. -/
theorem binds_execute {frame : Frame}
    (htask : s.tasks[t]? = some ⟨label, .called (.execute script), false⟩)
    (hframe : s.statementFrame script = .ok frame) (hsize : frame.payload.length ≤ s.codec.limit) :
    (s.act (.turn (.task t))).roster.Binds s.channels.length s.config.executionLimit := by
  let c : Channel := .fresh s.nextId.1.toUInt32 s.config.rowCapacity s.config.executionLimit
  obtain ⟨ready, hreleased⟩ := exists_released (taskTurn_execute htask hframe hsize)
  have hnew : (s.channels ++ [c])[s.channels.length]? = some c := List.getElem?_concat_length
  rw [hreleased]
  exact (releaseUnused_moves _).binds ⟨c, hnew, Channel.isBoundBy_fresh _ _ _⟩

/-- Whatever is done, a call that executes a script stands where such a call can stand. -/
theorem Executes.act (h : Executes s.roster script bound stage)
    (hlimit : s.config.executionLimit = bound) (hstage : s.roster.stages[t]? = some stage)
    (hnew : (s.act action).roster.stages[t]? = some new) :
    Executes (s.act action).roster script bound new := by
  have hkept : Executes (s.act action).roster script bound stage := by
    cases h with
    | called => exact .called
    | sending step hbinds => exact .sending step (binds_act hbinds action)
    | ended => exact .ended
  cases comes_act s hnew with
  | begun hnone hbegins => cases hnone.symm.trans hstage
  | kept hold =>
    obtain rfl := Option.some.inj (hstage.symm.trans hold)
    exact hkept
  | dropped hended => exact hended ▸ .ended
  | @stepped label old haction htask hcourse =>
    subst haction
    obtain rfl := Option.some.inj (hstage.symm.trans (stage_of_task htask))
    cases hcourse with
    | wait => exact hkept
    | finish => exact .ended
    | queue hwrites hsize =>
      cases h with
      | called =>
        cases hwrites with
        | execute script hframe => exact .sending _ (hlimit ▸ binds_execute htask hframe hsize)
    | enter hwriter hopen =>
      cases hkept with
      | sending step hbinds => exact .sending _ hbinds
    | encode hroom hsize =>
      cases hkept with
      | sending step hbinds => exact .sending _ hbinds
    | _ => cases h

/-- Such a call hands out a response only when its statement is out. -/
theorem Executes.reports {isAborted : Bool} (h : Executes s.roster script bound stage)
    (htask : s.tasks[t]? = some ⟨label, stage, isAborted⟩) :
    s.Reports (s.act (.turn (.task t))) label fun result =>
      (∃ reason, result = .failed reason) ∨
        ∃ key, stage = .sending (.statement key) .flushing ∧ result = .response key := by
  have hlabel := (Unreported.of_task htask).label
  refine reports_act htask ?_
  rintro rfl
  cases h with
  | called =>
    have hnext : s.Unreported t label (s.woken t).nextId.2 := ⟨rfl, hlabel⟩
    rw [taskTurn_called htask]
    exact hnext.beginSubmit (fun reason => .inl ⟨reason, rfl⟩) _ _ _
  | @sending key step hbinds =>
    have hwoken : s.Unreported t label (s.woken t) := ⟨rfl, hlabel⟩
    rw [taskTurn_sending htask]
    refine hwoken.sendTurn (fun reason => .inl ⟨reason, rfl⟩) key step fun hlast => ?_
    exact .inr ⟨key, by rw [hlast], rfl⟩
  | ended =>
    rw [taskTurn_ended htask]
    exact .inl rfl

/-- At every stage on the roster there is a task. -/
theorem exists_task (h : s.roster.stages[t]? = some stage) :
    ∃ label isAborted, s.tasks[t]? = some ⟨label, stage, isAborted⟩ := by
  obtain ⟨⟨label, stage, isAborted⟩, htask, rfl⟩ :=
    Option.map_eq_some_iff.mp (List.getElem?_map.symm.trans h)
  exact ⟨label, isAborted, htask⟩

/-- A call that begins stands at its first stage. -/
theorem stage_addTask (s : Link) (label : Option Nat) (first : Stage) :
    (s.addTask label first).roster.stages[s.tasks.length]? = some first := by
  rw [roster_addTask, show s.tasks.length = s.roster.stages.length by simp [roster]]
  exact List.getElem?_concat_length

/-- In a run, a call that was begun to execute a script stands at one of those stages. -/
theorem executes_runOf (config : Config) (before : List Action) (name : Nat) (script : String)
    (during : List Action) :
    ∃ stage,
      (runOf config (before ++ .call name (.execute script) rfl :: during)).roster.stages[
        (runOf config before).tasks.length]? = some stage ∧
      Executes (runOf config (before ++ .call name (.execute script) rfl :: during)).roster script
        config.executionLimit stage := by
  induction during using List.reverseRecOn with
  | nil =>
    rw [runOf_concat]
    exact ⟨_, (runOf config before).stage_addTask _ _, .called⟩
  | append_singleton during action ih =>
    obtain ⟨stage, hstage, hexecutes⟩ := ih
    obtain ⟨new, hnew⟩ := exists_stage_act hstage action
    rw [← List.cons_append, ← List.append_assoc, runOf_concat]
    exact ⟨new, hnew, hexecutes.act (by rw [config_runOf]) hstage hnew⟩

/-- In a run, a script was executed, and the call has handed out the response under a key. -/
def HandsOut (config : Config) (actions : List Action) (key : Nat) : Prop :=
  ∃ before name script during,
    before ++ .call name (.execute script) rfl :: during ++
        [.turn (.task (runOf config before).tasks.length)] <+: actions ∧
      ((runOf config (before ++ .call name (.execute script) rfl :: during)).act
          (.turn (.task (runOf config before).tasks.length))).finished =
        (runOf config (before ++ .call name (.execute script) rfl :: during)).finished ++
          [(name, .response key)]

/-- The waits on such a response have the limit of the settings. -/
theorem HandsOut.binds (h : HandsOut config actions key) :
    (runOf config actions).roster.Binds key config.executionLimit := by
  obtain ⟨before, name, script, during, ⟨later, rfl⟩, hfinished⟩ := h
  obtain ⟨stage, hstage, hexecutes⟩ := executes_runOf config before name script during
  rw [runOf_append, runOf_concat]
  generalize runOf config (before ++ .call name (.execute script) rfl :: during) = s at *
  refine binds_run (binds_act ?_ _) later
  obtain ⟨label, isAborted, htask⟩ := exists_task hstage
  obtain ⟨-, ⟨reason, hfailed⟩ | ⟨key', rfl, hresponse⟩⟩ :=
    (hexecutes.reports htask).eq_of_finished hfinished
  · cases hfailed
  · cases hresponse
    cases hexecutes with
    | sending step hbinds => exact hbinds

/-! ### Waiting on such a response -/

/-- A call on a response that asks for one thing waits until it ends. -/
theorem pulling_act (hone : call.pull.consumes = false)
    (hstage : s.roster.stages[t]? = some stage) (h : stage = .pulling key call ∨ stage = .ended)
    (hnew : (s.act action).roster.stages[t]? = some new) :
    new = .pulling key call ∨ new = .ended := by
  cases comes_act s hnew with
  | begun hnone hbegins => cases hnone.symm.trans hstage
  | kept hold => exact Option.some.inj (hstage.symm.trans hold) ▸ h
  | dropped hended => exact .inr hended
  | @stepped label old haction htask hcourse =>
    obtain rfl := Option.some.inj (hstage.symm.trans (stage_of_task htask))
    rcases h with rfl | rfl
    · cases hcourse with
      | wait => exact .inl rfl
      | finish => exact .inr rfl
      | pull hchannel hagain => cases hone.symm.trans (PullCall.consumes_of_again hagain)
    · cases hcourse with
      | wait => exact .inr rfl
      | finish => exact .inr rfl

/-- The link some actions after a call was begun on the response under a key with no bound of its
own. -/
def afterPull (config : Config) (actions : List Action) (label key : Nat) (pull : Pull)
    (more : List Action) : Link := runOf config (actions ++ .pull label key pull none :: more)

/-- In a run, such a call that asks for one thing stands there with the bound of the response, or
has ended. -/
theorem pulling_afterPull (hbinds : (runOf config actions).roster.Binds key bound) (label : Nat)
    {pull : Pull} (hone : pull.consumes = false) (more : List Action) :
    ∃ stage, (afterPull config actions label key pull more).roster.stages[
        (runOf config actions).tasks.length]? = some stage ∧
      (stage = .pulling key (.start (runOf config actions).now pull bound) ∨ stage = .ended) := by
  unfold afterPull
  induction more using List.reverseRecOn with
  | nil =>
    obtain ⟨c, hchannel, hbound⟩ := hbinds
    rw [runOf_concat]
    generalize runOf config actions = s at *
    have hbegun : s.act (.pull label key pull none) =
        s.addTask (some label) (.pulling key (.start s.now pull bound)) := by
      dsimp only [act, startPull]
      rw [show s.channels[key]? = some c from hchannel]
      dsimp only [Option.getD_none]
      rw [hbound.bound]
    rw [hbegun]
    exact ⟨_, s.stage_addTask _ _, .inl rfl⟩
  | append_singleton more action ih =>
    obtain ⟨stage, hstage, hpulls⟩ := ih
    obtain ⟨new, hnew⟩ := exists_stage_act hstage action
    rw [← List.cons_append, ← List.append_assoc, runOf_concat]
    exact ⟨new, hnew, pulling_act (show Pull.consumes _ = false from hone) hstage hpulls hnew⟩

/-- Such a call times out in the turn that it takes then. -/
def TimesOut (config : Config) (actions : List Action) (label key : Nat) (pull : Pull)
    (more : List Action) : Prop :=
  ∃ what, ((afterPull config actions label key pull more).act
      (.turn (.task (runOf config actions).tasks.length))).finished =
    (afterPull config actions label key pull more).finished ++
      [(label, .pulled (.failed (.timeout what)))]

/-- Such a call goes on with the limit of the settings, and what it waits for has not come. -/
def WaitsOn (config : Config) (actions : List Action) (label key : Nat) (pull : Pull)
    (more : List Action) : Prop :=
  let call : PullCall := .start (runOf config actions).now pull config.executionLimit
  (afterPull config actions label key pull more).tasks[(runOf config actions).tasks.length]? =
      some ⟨some label, .pulling key call, false⟩ ∧
    ∃ c, (afterPull config actions label key pull more).channels[key]? = some c ∧ call.Awaits c

/-- A call on the response times out exactly when the bound has passed while it waits. -/
theorem timesOut_iff (hout : HandsOut config actions key) (label : Nat) {pull : Pull}
    (hone : pull.consumes = false) (more : List Action) :
    TimesOut config actions label key pull more ↔
      WaitsOn config actions label key pull more ∧
        (runOf config actions).now * Clock.tick + config.executionLimit.nanos < Clock.horizon ∧
        (runOf config actions).now * Clock.tick + config.executionLimit.nanos ≤
          (afterPull config actions label key pull more).now * Clock.tick := by
  obtain ⟨stage, hstage, hpulls⟩ := pulling_afterPull hout.binds label hone more
  have hbinds : (afterPull config actions label key pull more).roster.Binds key
      config.executionLimit := by
    unfold afterPull
    rw [runOf_append]
    exact binds_run hout.binds _
  obtain ⟨c, hchannel, hbound⟩ := hbinds
  unfold TimesOut WaitsOn
  generalize afterPull config actions label key pull more = s at *
  generalize (runOf config actions).tasks.length = t at *
  rw [← PullCall.isDue_start_iff pull]
  generalize hcall :
    PullCall.start (runOf config actions).now pull config.executionLimit = call at *
  have htimeout : (∃ what, (call.turn s.now c).1 = .finished (.failed (.timeout what))) ↔
      call.Awaits c ∧ call.isDue s.now = true :=
    PullCall.exists_turn_timeout_iff (hcall ▸ hone) hbound.untimed
  constructor
  · rintro ⟨what, hfinished⟩
    obtain ⟨named, isAborted, htask⟩ := exists_task hstage
    obtain ⟨rfl, ⟨rfl, rfl⟩, c', pulled, hchannel', hturn, hpulled⟩ :=
      (reports_pulling htask hpulls).eq_of_finished hfinished
    obtain rfl := Option.some.inj (hchannel.symm.trans hchannel')
    obtain rfl := LinkResult.pulled.inj hpulled
    obtain ⟨hawaits, hdue⟩ := htimeout.mp ⟨what, hturn⟩
    exact ⟨⟨htask, c, hchannel, hawaits⟩, hdue⟩
  · rintro ⟨⟨htask, c', hchannel', hawaits⟩, hdue⟩
    obtain rfl := Option.some.inj (hchannel.symm.trans hchannel')
    obtain ⟨what, hturn⟩ := htimeout.mpr ⟨hawaits, hdue⟩
    exact ⟨what, finished_act_pulling htask hchannel hturn⟩

/-- No call on the response to a script that is executed times out before the statement timeout has
passed, if it asks for one thing and has no bound of its own. -/
def HonoursTimeout (config : Config) : Prop :=
  ∀ actions key, HandsOut config actions key → ∀ label pull more, pull.consumes = false →
    TimesOut config actions label key pull more →
      (runOf config actions).now * Clock.tick + config.statementTimeout.nanos ≤
        (afterPull config actions label key pull more).now * Clock.tick

/-- A timeout is honoured if the waits are bound by all of it. -/
theorem honoursTimeout_of_eq
    (hlimit : config.executionLimit.nanos = config.statementTimeout.nanos) :
    HonoursTimeout config := by
  intro actions key hout label pull more hone htimes
  rw [← hlimit]
  exact ((timesOut_iff hout label hone more).mp htimes).2.2

/-! ### Waits that time out early -/

/-- A fresh link while its first call writes the statement of a script. -/
def submitting (config : Config) (step : SendStep) (pending : List Handler) (outbox : List UInt8) :
    Link :=
  { fresh config with
    channels := [.fresh 1 config.rowCapacity config.executionLimit]
    pending := pending
    writer := ⟨.flowing, outbox, [], 0⟩
    line := [0]
    tasks := [⟨some 0, .sending (.statement 0) step, false⟩]
    ready := [.task 0, .reader]
    lastId := 1 }

/-- What executes a script on a fresh link, up to the last turn of the call. -/
def executing (script : String) : List Action :=
  .call 0 (.execute script) rfl :: List.replicate 3 (.turn (.task 0))

/-- The statement of some script can be written on a fresh link. -/
def CanExecute (config : Config) : Prop :=
  ∃ script frame, (fresh config).statementFrame script = .ok frame ∧
    frame.payload.length ≤ (fresh config).codec.limit

/-- A call that can go on after its turn stays in front. -/
theorem act_of_taskTurn (hturn : (s.woken t).taskTurn t = (next, true)) :
    s.act (.turn (.task t)) =
      ({ next with ready := .task t :: next.ready.erase (.task t) } : Link).releaseUnused := by
  dsimp only [act, turnOf]
  rw [show ({ s with ready := s.ready.erase (.task t) } : Link).taskTurn t = (next, true)
    from hturn]
  rfl

/-- A script is written in the frame of its statement. -/
theorem runOf_executing {frame : Frame}
    (hframe : (fresh config).statementFrame script = .ok frame)
    (hsize : frame.payload.length ≤ (fresh config).codec.limit) :
    runOf config (executing script) =
      submitting config .flushing [.statement 0] frame.envelope := by
  let turn : Action := .turn (.task 0)
  let called : Link := (fresh config).start 0 (.execute script)
  have hbegun : called.act turn =
      submitting config (.inLine frame (some (.statement 0))) [] [] := by
    have hturn := taskTurn_execute (s := called) (t := 0) rfl hframe hsize
    exact act_of_taskTurn (s := called) hturn
  have hentered : (submitting config (.inLine frame (some (.statement 0))) [] []).act turn =
      submitting config (.holding frame) [.statement 0] [] := rfl
  have hencoded : (submitting config (.holding frame) [.statement 0] []).act turn =
      submitting config .flushing [.statement 0] frame.envelope := by
    let holding : Link := submitting config (.holding frame) [.statement 0] []
    have hencode : (holding.woken 0).codec.encode frame = .ok frame.envelope := if_pos hsize
    have hroom : (holding.woken 0).writer.outbox.length < Writer.boundary := Nat.zero_lt_succ _
    have htask : holding.tasks[0]? =
        some ⟨some 0, .sending (.statement 0) (.holding frame), false⟩ := rfl
    have hturn : (holding.woken 0).taskTurn 0 =
        ((submitting config .flushing [.statement 0] frame.envelope).woken 0, true) := by
      rw [taskTurn_sending htask]
      dsimp only [sendTurn]
      rw [if_pos hroom, hencode]
      rfl
    exact act_of_taskTurn (s := holding) hturn
  have hcalled : (fresh config).act (.call 0 (.execute script) rfl) = called := rfl
  simp only [runOf, executing, List.replicate, List.foldl_cons, List.foldl_nil]
  rw [hcalled, hbegun, hentered, hencoded]

/-- Time that passes changes the clock and may wake calls. -/
theorem exists_pass (s : Link) (gap : Nat) :
    ∃ ready, s.act (.pass gap) = { s with now := s.now + gap, ready := ready } := by
  dsimp only [act, pass]
  exact wakeTasks_eq _ _

/-- A limit below the statement timeout makes a wait time out early. -/
theorem not_honoursTimeout_of_lt (hcan : CanExecute config)
    (hless : config.executionLimit.nanos < config.statementTimeout.nanos) :
    ¬ HonoursTimeout config := by
  obtain ⟨script, frame, hframe, hsize⟩ := hcan
  obtain ⟨whole, hwhole, hlimit⟩ := Config.exists_seconds_of_lt hless
  let actions : List Action := executing script ++ [.turn (.task 0)]
  let submitted : Link := submitting config .flushing [.statement 0] frame.envelope
  let handed : Link := submitted.act (.turn (.task 0))
  let pulled : Link := handed.addTask (some 1)
    (.pulling 0 (.start 0 .columns config.executionLimit))
  have hrun : runOf config actions = handed := by
    rw [runOf_concat, runOf_executing hframe hsize]
  have hout : HandsOut config actions 0 := by
    refine ⟨[], 0, script, List.replicate 3 (.turn (.task 0)), List.prefix_rfl, ?_⟩
    rw [show runOf config ([] ++ .call 0 (.execute script) rfl ::
      List.replicate 3 (.turn (.task 0))) = submitted from runOf_executing hframe hsize]
    rfl
  -- The clock shows whole milliseconds, and the limit is one of them.
  obtain ⟨ready, hpassed⟩ := pulled.exists_pass (1000 * whole)
  have hwaiting : afterPull config actions 1 0 .columns [.pass (1000 * whole)] =
      { pulled with now := pulled.now + 1000 * whole, ready := ready } := by
    have hpulled : handed.act (.pull 1 0 .columns none) = pulled := rfl
    unfold afterPull
    rw [runOf_append, hrun, List.foldl_cons, hpulled, List.foldl_cons, hpassed, List.foldl_nil]
  have hbegan : (runOf config actions).now = 0 := congrArg Link.now hrun
  have hnow : (afterPull config actions 1 0 .columns [.pass (1000 * whole)]).now * Clock.tick =
      config.executionLimit.nanos := by
    rw [hwaiting, hlimit]
    change (0 + 1000 * whole) * Clock.tick = _
    simp only [Clock.tick, Duration.perSecond]
    omega
  have htimes : TimesOut config actions 1 0 .columns [.pass (1000 * whole)] := by
    refine (timesOut_iff hout 1 rfl _).mpr ⟨?_, ?_, ?_⟩
    · unfold WaitsOn
      rw [hwaiting, hrun]
      exact ⟨rfl, _, rfl, rfl, rfl, rfl⟩
    · rw [hbegan, hlimit]
      simp only [Clock.horizon, Clock.tick, Duration.perSecond, UInt64.size, UInt32.size] at *
      omega
    · rw [hbegan, hnow, Nat.zero_mul, Nat.zero_add]
  intro hhonours
  have hlate := hhonours actions 0 hout 1 .columns _ rfl htimes
  rw [hbegan, hnow, Nat.zero_mul, Nat.zero_add] at hlate
  omega

/-! ### The limit and the statement timeout -/

/-- How long calls wait on the responses to scripts that are executed under some settings. -/
structure LimitsWaits (config : Config) : Prop where
  /-- A call that asks for one thing and has no bound of its own, begun on a response that was
  handed out, times out in a turn exactly if it waits on when the limit has passed since then. -/
  times : ∀ actions key, HandsOut config actions key → ∀ label pull more, pull.consumes = false →
    (TimesOut config actions label key pull more ↔
      WaitsOn config actions label key pull more ∧
        (runOf config actions).now * Clock.tick + config.executionLimit.nanos < Clock.horizon ∧
        (runOf config actions).now * Clock.tick + config.executionLimit.nanos ≤
          (afterPull config actions label key pull more).now * Clock.tick)
  /-- The limit is never more than the statement timeout. -/
  le : config.executionLimit.nanos ≤ config.statementTimeout.nanos
  /-- It lacks less than a second of one whose seconds can be sent along. -/
  close : config.statementTimeout.seconds < UInt32.size →
    config.statementTimeout.nanos < config.executionLimit.nanos + Duration.perSecond
  /-- The statement timeout is honoured if it is below a second or a number of whole seconds that
  can be sent along. -/
  honours : config.statementTimeout.seconds = 0 ∨
    config.statementTimeout.seconds < UInt32.size ∧
      config.statementTimeout.nanos % Duration.perSecond = 0 → HonoursTimeout config
  /-- Any other one is not, as soon as the statement of a script can be written. -/
  cuts : CanExecute config → HonoursTimeout config → config.statementTimeout.seconds = 0 ∨
    config.statementTimeout.seconds < UInt32.size ∧
      config.statementTimeout.nanos % Duration.perSecond = 0

/-- The waits on a response are bound by the timeout in whole seconds. -/
theorem limitsWaits (config : Config) : LimitsWaits config := by
  refine ⟨fun actions key hout label pull more hone => timesOut_iff hout label hone more,
    config.executionLimit_le, Config.lt_executionLimit_add, fun hwhole => ?_,
    fun hcan hhonours => ?_⟩
  · exact honoursTimeout_of_eq (config.executionLimit_eq_iff.mpr hwhole)
  · by_contra hcut
    have hless := Nat.lt_of_le_of_ne config.executionLimit_le
      (mt config.executionLimit_eq_iff.mp hcut)
    exact not_honoursTimeout_of_lt hcan hless hhonours

/-- With a statement timeout of almost three seconds, a call gives up after two. -/
theorem not_honoursTimeout_afterTwo :
    (runOf (.build "db" 7000 [.statementTimeout ⟨2999000000, by decide⟩])
        (executing "run" ++ [.turn (.task 0), .pull 1 0 .columns none, .pass 1999, .pass 1,
          .turn (.task 1)])).finished =
      [(0, .response 0),
        (1, .pulled (.failed (.timeout "statement 1: no column header within 2s")))] ∧
    ¬ HonoursTimeout (.build "db" 7000 [.statementTimeout ⟨2999000000, by decide⟩]) :=
  ⟨rfl, not_honoursTimeout_of_lt ⟨"run", _, rfl, by decide⟩ (by decide)⟩

end Link

end BeeProtocol
