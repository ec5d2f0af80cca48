import BeeProtocol.Proofs.Link.Passage
import BeeProtocol.Proofs.Link.Tenure

/-!
# Registration and the wire

A call registers its handler when it gets the writer and keeps the writer until its frame is out. So
the frames of the handlers go into the out-buffer in the order in which the handlers were
registered, and a handler that was registered is not carried by any call again.
-/

namespace BeeProtocol

namespace Event

/-- The calls that registered a handler, each with its handler, oldest first. -/
def registrations (log : List Event) : List (Nat × Handler) :=
  log.filterMap fun
    | .registered t handler => some (t, handler)
    | _ => none

/-- The handlers that were registered, oldest first. -/
def registeredIn (log : List Event) : List Handler := (registrations log).map (·.2)

/-- The handlers whose frames were put into the out-buffer, given the registrations before. -/
def encodedAfter (known : List (Nat × Handler)) : List Event → List Handler
  | [] => []
  | .registered t handler :: log => encodedAfter (known ++ [(t, handler)]) log
  | .encoded t :: log => (known.lookup t).toList ++ encodedAfter known log
  | _ :: log => encodedAfter known log

/-- The handlers whose frames were put into the out-buffer, oldest first. -/
def encodedIn (log : List Event) : List Handler := encodedAfter [] log

/-! ### More events -/

/-- Who registers in two parts of a run adds up. -/
theorem registrations_append (log more : List Event) :
    registrations (log ++ more) = registrations log ++ registrations more :=
  List.filterMap_append ..

/-- The handlers registered in two parts of a run add up. -/
theorem registeredIn_append (log more : List Event) :
    registeredIn (log ++ more) = registeredIn log ++ registeredIn more := by
  rw [registeredIn, registrations_append, List.map_append]
  rfl

/-- The handlers encoded in the second part are those known before it or since. -/
theorem encodedAfter_append (known : List (Nat × Handler)) (log more : List Event) :
    encodedAfter known (log ++ more) =
      encodedAfter known log ++ encodedAfter (known ++ registrations log) more := by
  induction log generalizing known with
  | nil => simp [registrations, encodedAfter]
  | cons first log ih =>
    cases first with
    | registered t handler =>
      have hknown : known ++ registrations (.registered t handler :: log) =
          known ++ [(t, handler)] ++ registrations log := by simp [registrations]
      rw [List.cons_append, encodedAfter, encodedAfter, ih, hknown]
    | encoded t =>
      rw [List.cons_append, encodedAfter, encodedAfter, ih, List.append_assoc]
      rfl
    | _ => exact ih known

/-- The handlers encoded in two parts of a run add up. -/
theorem encodedIn_append (log more : List Event) :
    encodedIn (log ++ more) = encodedIn log ++ encodedAfter (registrations log) more :=
  encodedAfter_append [] log more

/-- Whether an event has to do with what is sent. -/
def isOfWire : Event → Bool
  | .registered _ _ => true
  | .encoded _ => true
  | _ => false

end Event

namespace Roster

variable {r r' : Roster} {handler : Handler} {event : Option Event} {log : List Event}

/-- A handler of what goes on stands for something. -/
theorem knows_of_goesOn (h : r.goesOn handler) : r.Knows handler := by
  cases handler with
  | statement key =>
    by_contra hkey
    rw [goesOn, List.getElem?_eq_none (Nat.le_of_not_lt hkey)] at h
    cases h
  | reply key =>
    by_contra hkey
    rw [goesOn, List.getElem?_eq_none (Nat.le_of_not_lt hkey)] at h
    cases h

/-- What has ended does not start again. -/
theorem Move.goesOn_of_goesOn (hmove : r.Move event r') (hknows : r.Knows handler)
    (h : r'.goesOn handler) : r.goesOn handler := by
  cases handler with
  | statement key =>
    obtain ⟨c, hc⟩ : ∃ c, r.channels[key]? = some c := ⟨_, List.getElem?_eq_getElem hknows⟩
    simp only [goesOn, hc, Option.any_some, Bool.not_eq_true']
    by_contra hdone
    rw [Bool.not_eq_false] at hdone
    obtain ⟨c', hc', hanswer⟩ := hmove.answer_of_isDone hc hdone
    simp [goesOn, hc', Channel.isDone_of_answer hanswer, hdone] at h
  | reply key =>
    obtain ⟨x, hreply⟩ : ∃ x, r.replies[key]? = some x := ⟨_, List.getElem?_eq_getElem hknows⟩
    obtain ⟨x', hreply', hcomes⟩ := hmove.settles hreply
    simp only [goesOn, hreply, hreply', Option.any_some, Bool.not_eq_true'] at h ⊢
    by_contra hcomplete
    rw [Bool.not_eq_false] at hcomplete
    rw [hcomes.complete hcomplete, hcomplete] at h
    cases h

/-- A handler that there is already is not brought again, as long as nobody brings the handler of a
reply that others wait for. -/
theorem Move.carried_le (h : r.Move event r')
    (hown : ∀ key, event = some (.offered key) → ∃ k, handler = .statement k)
    (hknows : r.Knows handler) : r'.carried handler ≤ r.carried handler := by
  have hnew {other : Handler} (hother : ¬ r.Knows other) :
      (some other == some handler).toNat = 0 := by
    have hne : other ≠ handler := by
      rintro rfl
      exact hother hknows
    simp [hne]
  cases h with
  | begin stage hplain =>
    have hcarried := carried_append (r := r) r.stages stage handler
    rw [hplain.carries] at hcarried
    exact Nat.le_of_eq hcarried
  | beginStatement frame id capacity bound =>
    have hcarried := carried_append (r := r) r.stages
      (.called (.send frame (some (.statement r.channels.length)))) handler
    rw [Stage.carries?, hnew (Nat.lt_irrefl _)] at hcarried
    exact Nat.le_of_eq hcarried
  | beginReply frame key added =>
    obtain ⟨k, rfl⟩ := hown key rfl
    have hcarried := carried_append (r := r) r.stages (.called (.send frame (some (.reply key))))
      (.statement k)
    exact Nat.le_of_eq hcarried
  | goOn new hstage hgoesOn hline =>
    exact Nat.le_of_eq (carried_move_of_same hstage new hgoesOn.carries handler)
  | openReply kind frame bound use hstage hplain hentered hline =>
    have hcarried := carried_move hstage (.sending (.reply r.replies.length bound use)
      (.inLine frame (some (.reply r.replies.length)))) handler
    rw [hplain.carries, Stage.carries?, hnew (Nat.lt_irrefl _)] at hcarried
    exact Nat.le_of_eq hcarried
  | openStatement id capacity bound frame hstage hplain hentered hline =>
    have hcarried := carried_move hstage (.sending (.statement r.channels.length)
      (.inLine frame (some (.statement r.channels.length)))) handler
    rw [hplain.carries, Stage.carries?, hnew (Nat.lt_irrefl _)] at hcarried
    exact Nat.le_of_eq hcarried
  | @enter t purpose frame hstage hwriter =>
    exact Nat.le_of_eq (carried_move_of_same hstage (.sending purpose (.holding frame)) rfl handler)
  | @register t purpose frame other hstage hwriter hopen =>
    have hcarried := carried_move hstage (.sending purpose (.holding frame)) handler
    exact Nat.le.intro hcarried
  | @encode t purpose frame hstage =>
    exact Nat.le_of_eq (carried_move_of_same hstage (.sending purpose .flushing) rfl handler)
  | @quit t stage response line hstage hline =>
    have hleft : ({ r with line := line } : Roster).stages[t]? = some stage := hstage
    exact Nat.le.intro (carried_quit hleft response handler)
  | close reader isAborted hheld hstops =>
    have hcarried : r.shut.carried handler = r.carried handler := by
      rw [carried, shut_stages, carried]
    exact Nat.le_of_eq hcarried
  | _ => exact Nat.le_refl _

/-! ### What a move does with the calls -/

/-- What a move does with the stages of the calls and the line for the writer. -/
inductive CallMove (r : Roster) : Option Event → List Stage → List Nat → Prop
  | begin (event : Option Event) (added : List Stage)
    (hwrites : ∀ stage ∈ added, stage.isWriting = false)
    (hclaims : ∀ stage ∈ added, stage.claims? = none)
    (hconsistent : ∀ stage ∈ added, stage.IsConsistent)
    (hown : (∀ key, event ≠ some (.offered key)) → ∀ stage ∈ added, stage.IsOwn)
    (hsilent : ∀ e, event = some e → e.isOfWire = false) :
    CallMove r event (r.stages ++ added) r.line
  | goOn {t : Nat} {stage : Stage} (new : Stage) (line : List Nat)
    (hstage : r.stages[t]? = some stage) (hwrites : new.isWriting = false)
    (hclaims : ∀ key, new.claims? = some key → stage.claims? = some key)
    (hconsistent : new.IsConsistent) (hown : stage.IsOwn → new.IsOwn)
    (hentered : stage.hasEntered → new.hasEntered) (hline : r.KeepsWriter t line) :
    CallMove r none (r.stages.set t new) line
  | enter {t : Nat} {purpose : Purpose} {frame : Frame}
    (hstage : r.stages[t]? = some (.sending purpose (.inLine frame none)))
    (hwriter : r.line.head? = some t) :
    CallMove r none (r.stages.set t (.sending purpose (.holding frame))) r.line
  | register {t : Nat} {purpose : Purpose} {frame : Frame} {handler : Handler}
    (hstage : r.stages[t]? = some (.sending purpose (.inLine frame (some handler))))
    (hwriter : r.line.head? = some t) :
    CallMove r (some (.registered t handler))
      (r.stages.set t (.sending purpose (.holding frame))) r.line
  | encode {t : Nat} {purpose : Purpose} {frame : Frame}
    (hstage : r.stages[t]? = some (.sending purpose (.holding frame))) :
    CallMove r (some (.encoded t)) (r.stages.set t (.sending purpose .flushing)) r.line

/-- Every move is a move of the calls and the line, or leaves both. -/
theorem Move.callMove (h : r.Move event r') : r.CallMove event r'.stages r'.line := by
  have hsame (event : Option Event) (hsilent : ∀ e, event = some e → e.isOfWire = false) :
      r.CallMove event r.stages r.line := by
    have hnone := CallMove.begin (r := r) event [] (by simp) (by simp) (by simp) (by simp) hsilent
    rwa [List.append_nil] at hnone
  have hone (event : Option Event) (stage : Stage) (hwrites : stage.isWriting = false)
      (hclaims : stage.claims? = none) (hconsistent : stage.IsConsistent)
      (hown : (∀ key, event ≠ some (.offered key)) → stage.IsOwn)
      (hsilent : ∀ e, event = some e → e.isOfWire = false) :
      r.CallMove event (r.stages ++ [stage]) r.line :=
    .begin event [stage] (by simpa using hwrites) (by simpa using hclaims)
      (by simpa using hconsistent) (by simpa using hown) hsilent
  cases h with
  | begin stage hplain =>
    have hclaims : stage.claims? = none := by
      cases hclaims : stage.claims? with
      | none => rfl
      | some key => exact absurd hplain.asks (by simp [Stage.asks_of_claims hclaims])
    exact hone none stage hplain.writes hclaims hplain.consistent (fun _ => hplain.own) (by simp)
  | beginStatement frame id capacity bound =>
    exact hone none _ rfl rfl trivial (fun _ => trivial) (by simp)
  | beginReply frame key added =>
    exact hone _ _ rfl rfl trivial (fun hnone => absurd rfl (hnone key)) (by simp [Event.isOfWire])
  | goOn new hstage hgoesOn hline =>
    exact .goOn new _ hstage hgoesOn.writes (by simp [hgoesOn.claims]) hgoesOn.consistent
      hgoesOn.own hgoesOn.entered hline
  | openReply kind frame bound use hstage hplain hentered hline =>
    exact .goOn _ _ hstage rfl (by simp [Stage.claims?]) rfl (fun _ => ⟨bound, use, rfl⟩)
      (by simp [hentered]) hline
  | openStatement id capacity bound frame hstage hplain hentered hline =>
    exact .goOn _ _ hstage rfl (by simp [Stage.claims?]) trivial (fun _ => trivial)
      (by simp [hentered]) hline
  | enter hstage hwriter => exact .enter hstage hwriter
  | register hstage hwriter hopen => exact .register hstage hwriter
  | encode hstage => exact .encode hstage
  | quit response hstage hline =>
    rw [quit_stages, quit_line]
    exact .goOn .ended _ hstage rfl (by simp [Stage.claims?]) trivial (fun _ => trivial)
      (fun _ => rfl) hline
  | close reader isAborted hheld hstops =>
    dsimp only
    rw [shut_stages, shut_line_eq]
    exact hsame none (by simp)
  | _ => exact hsame _ (by simp [Event.isOfWire])

/-! ### The order on the wire -/

/-- The calls that write have the writer one at a time, and the frames of the handlers were put into
the out-buffer in the order in which the handlers were registered. -/
structure WireOrder (stages : List Stage) (line : List Nat) (log : List Event) : Prop where
  /-- What a call carries goes with what it wants. -/
  consistent : ∀ stage ∈ stages, stage.IsConsistent
  /-- Who writes is first in the line. -/
  writer : ∀ t stage, stages[t]? = some stage → stage.isWriting → line.head? = some t
  /-- Who has registered its handler has entered the writer. -/
  entered : ∀ t handler, (t, handler) ∈ Event.registrations log →
    ∃ stage, stages[t]? = some stage ∧ stage.hasEntered
  /-- The frames of handlers are in the out-buffer in the order of registration. -/
  order : (Event.encodedIn log).Sublist (Event.registeredIn log)
  /-- The frame that is written next is that of the handler that was registered last. -/
  holding : ∀ t purpose frame handler, stages[t]? = some (.sending purpose (.holding frame)) →
    (t, handler) ∈ Event.registrations log →
    ∃ earlier, Event.registeredIn log = earlier ++ [handler] ∧
      (Event.encodedIn log).Sublist earlier

/-- What does not concern the wire. -/
theorem wire_of_silent (hsilent : ∀ e, event = some e → e.isOfWire = false) (log : List Event) :
    Event.registrations (log ++ event.toList) = Event.registrations log ∧
      Event.encodedIn (log ++ event.toList) = Event.encodedIn log := by
  rw [Event.registrations_append, Event.encodedIn_append]
  rcases event with - | e
  · simp [Event.registrations, Event.encodedAfter]
  · have he := hsilent e rfl
    cases e <;> simp_all [Event.registrations, Event.encodedAfter, Event.isOfWire]

section

variable {stages : List Stage} {line : List Nat} {t u : Nat} {stage new : Stage}
  {purpose : Purpose} {frame : Frame}

/-- Those that have entered stay so when a call moves. -/
theorem WireOrder.entered_set (h : WireOrder stages line log) (hstage : stages[t]? = some stage)
    (hentered : stage.hasEntered → new.hasEntered) (u : Nat) (handler : Handler)
    (hmem : (u, handler) ∈ Event.registrations log) :
    ∃ stage, (stages.set t new)[u]? = some stage ∧ stage.hasEntered := by
  obtain ⟨before, hbefore, hhas⟩ := h.entered u handler hmem
  by_cases hu : u = t
  · subst hu
    rw [hstage, Option.some.injEq] at hbefore
    subst hbefore
    exact ⟨new, Lists.getElem?_set_of_some hstage new, hentered hhas⟩
  · exact ⟨before, by rw [List.getElem?_set_ne (Ne.symm hu), hbefore], hhas⟩

/-- The calls stay consistent if the stage that one goes to is. -/
theorem WireOrder.consistent_set (h : WireOrder stages line log) (hnew : new.IsConsistent) :
    ∀ stage ∈ stages.set t new, stage.IsConsistent := by
  intro stage hmem
  rcases List.mem_or_eq_of_mem_set hmem with hmem | rfl
  · exact h.consistent stage hmem
  · exact hnew

/-- Who has the writer may begin to write. -/
theorem WireOrder.writer_set (h : WireOrder stages line log) (hwriter : line.head? = some t)
    (new : Stage) (u : Nat) (after : Stage) (hafter : (stages.set t new)[u]? = some after)
    (hwrites : after.isWriting) : line.head? = some u := by
  rcases Lists.of_getElem?_set hafter with ⟨rfl, -⟩ | ⟨-, hafter⟩
  · exact hwriter
  · exact h.writer u after hafter hwrites

/-- Nobody writes but who has the writer. -/
theorem WireOrder.eq_of_isWriting (h : WireOrder stages line log) (hwriter : line.head? = some t)
    (hstage : stages[u]? = some stage) (hwrites : stage.isWriting) : u = t := by
  have hhead := h.writer u stage hstage hwrites
  rw [hwriter, Option.some.injEq] at hhead
  exact hhead.symm

/-- A call that has not entered has registered nothing. -/
theorem WireOrder.notMem_registrations (h : WireOrder stages line log)
    (hstage : stages[t]? = some stage) (hnot : stage.hasEntered = false) (handler : Handler) :
    (t, handler) ∉ Event.registrations log := by
  intro hmem
  obtain ⟨before, hbefore, hhas⟩ := h.entered t handler hmem
  rw [hstage, Option.some.injEq] at hbefore
  rw [← hbefore, hnot] at hhas
  cases hhas

/-- A call in line has not entered the writer. -/
theorem hasEntered_inLine (purpose : Purpose) (frame : Frame) (handler : Option Handler) :
    (Stage.sending purpose (.inLine frame handler)).hasEntered = false := by
  cases purpose <;> rfl

/-- The order on the wire is kept when calls begin that do not write. -/
theorem WireOrder.begin {added : List Stage} (h : WireOrder stages line log)
    (hwrites : ∀ stage ∈ added, stage.isWriting = false)
    (hadded : ∀ stage ∈ added, stage.IsConsistent)
    (hsilent : ∀ e, event = some e → e.isOfWire = false) :
    WireOrder (stages ++ added) line (log ++ event.toList) := by
  obtain ⟨hregistrations, hencoded⟩ := wire_of_silent hsilent log
  have hregistered : Event.registeredIn (log ++ event.toList) = Event.registeredIn log :=
    congrArg (List.map Prod.snd) hregistrations
  constructor
  · intro stage hmem
    rcases List.mem_append.mp hmem with hmem | hmem
    · exact h.consistent stage hmem
    · exact hadded stage hmem
  · intro t stage hstage hisWriting
    rcases Lists.of_getElem?_append hstage with hstage | hmem
    · exact h.writer t stage hstage hisWriting
    · rw [hwrites stage hmem] at hisWriting
      cases hisWriting
  · intro t handler hmem
    rw [hregistrations] at hmem
    obtain ⟨stage, hstage, hhas⟩ := h.entered t handler hmem
    refine ⟨stage, ?_, hhas⟩
    rw [List.getElem?_append_left (List.getElem?_eq_some_iff.mp hstage).1, hstage]
  · rw [hencoded, hregistered]
    exact h.order
  · intro t purpose frame handler hstage hmem
    rw [hregistrations] at hmem
    rw [hencoded, hregistered]
    rcases Lists.of_getElem?_append hstage with hstage | hnew
    · exact h.holding t purpose frame handler hstage hmem
    · cases hwrites _ hnew

/-- The order on the wire is kept when a call goes on that does not write then. -/
theorem WireOrder.goOn {line' : List Nat} (h : WireOrder stages line log)
    (hstage : stages[t]? = some stage) (hwrites : new.isWriting = false)
    (hnew : new.IsConsistent) (hentered : stage.hasEntered → new.hasEntered)
    (hline : ∀ u, u ≠ t → line.head? = some u → line'.head? = some u) :
    WireOrder (stages.set t new) line' log where
  consistent := h.consistent_set hnew
  writer u after hafter hisWriting := by
    rcases Lists.of_getElem?_set hafter with ⟨rfl, rfl⟩ | ⟨hu, hafter⟩
    · rw [hwrites] at hisWriting
      cases hisWriting
    · exact hline u hu (h.writer u after hafter hisWriting)
  entered := h.entered_set hstage hentered
  order := h.order
  holding u purpose frame handler hafter hmem := by
    rcases Lists.of_getElem?_set hafter with ⟨rfl, rfl⟩ | ⟨-, hafter⟩
    · cases hwrites
    · exact h.holding u purpose frame handler hafter hmem

/-- A call without a handler gets the writer. -/
theorem WireOrder.enter (h : WireOrder stages line log)
    (hstage : stages[t]? = some (.sending purpose (.inLine frame none)))
    (hwriter : line.head? = some t) :
    WireOrder (stages.set t (.sending purpose (.holding frame))) line log where
  consistent := h.consistent_set (Stage.isConsistent_of_isWriting rfl)
  writer := h.writer_set hwriter _
  entered := h.entered_set hstage (by simp [hasEntered_inLine])
  order := h.order
  holding u purpose' frame' handler hafter hmem := by
    rcases Lists.of_getElem?_set hafter with ⟨rfl, -⟩ | ⟨-, hafter⟩
    · exact absurd hmem (h.notMem_registrations hstage (hasEntered_inLine ..) handler)
    · exact h.holding u purpose' frame' handler hafter hmem

/-- A call gets the writer and registers its handler, which is the last one then. -/
theorem WireOrder.register (h : WireOrder stages line log)
    (hstage : stages[t]? = some (.sending purpose (.inLine frame (some handler))))
    (hwriter : line.head? = some t) :
    WireOrder (stages.set t (.sending purpose (.holding frame))) line
      (log ++ [.registered t handler]) := by
  -- A ping carries no handler.
  have hhas : (Stage.sending purpose (.holding frame)).hasEntered = true := by
    have hbefore := h.consistent _ (List.mem_of_getElem? hstage)
    cases purpose with
    | keepAlive period next => cases hbefore
    | _ => rfl
  have hregistrations : Event.registrations (log ++ [.registered t handler]) =
      Event.registrations log ++ [(t, handler)] := Event.registrations_append ..
  have hregistered : Event.registeredIn (log ++ [.registered t handler]) =
      Event.registeredIn log ++ [handler] := Event.registeredIn_append ..
  have hencoded : Event.encodedIn (log ++ [.registered t handler]) = Event.encodedIn log := by
    rw [Event.encodedIn_append]
    exact List.append_nil _
  refine ⟨h.consistent_set (Stage.isConsistent_of_isWriting rfl), h.writer_set hwriter _,
    ?_, ?_, ?_⟩
  · intro u other hmem
    rw [hregistrations] at hmem
    rcases List.mem_append.mp hmem with hmem | hmem
    · exact h.entered_set hstage (by simp [hasEntered_inLine]) u other hmem
    · obtain ⟨rfl, rfl⟩ := Prod.mk.inj (List.mem_singleton.mp hmem)
      exact ⟨_, Lists.getElem?_set_of_some hstage _, hhas⟩
  · rw [hencoded, hregistered]
    exact h.order.trans (List.sublist_append_left ..)
  · intro u purpose' frame' other hafter hmem
    rw [hregistrations] at hmem
    rw [hencoded, hregistered]
    rcases Lists.of_getElem?_set hafter with ⟨rfl, -⟩ | ⟨hu, hafter⟩
    · rcases List.mem_append.mp hmem with hmem | hmem
      · exact absurd hmem (h.notMem_registrations hstage (hasEntered_inLine ..) other)
      · obtain ⟨-, rfl⟩ := Prod.mk.inj (List.mem_singleton.mp hmem)
        exact ⟨Event.registeredIn log, rfl, h.order⟩
    · exact absurd (h.eq_of_isWriting hwriter hafter rfl) hu

/-- The call that has the writer puts its frame into the out-buffer. -/
theorem WireOrder.encode (h : WireOrder stages line log)
    (hstage : stages[t]? = some (.sending purpose (.holding frame))) :
    WireOrder (stages.set t (.sending purpose .flushing)) line (log ++ [.encoded t]) := by
  have hwriter : line.head? = some t := h.writer t _ hstage rfl
  have hregistrations : Event.registrations (log ++ [.encoded t]) = Event.registrations log := by
    rw [Event.registrations_append]
    exact List.append_nil _
  have hregistered : Event.registeredIn (log ++ [.encoded t]) = Event.registeredIn log :=
    congrArg (List.map Prod.snd) hregistrations
  have hencoded : Event.encodedIn (log ++ [.encoded t]) =
      Event.encodedIn log ++ ((Event.registrations log).lookup t).toList := by
    rw [Event.encodedIn_append]
    exact congrArg _ (List.append_nil _)
  have hentered : (Stage.sending purpose (.holding frame)).hasEntered →
      (Stage.sending purpose .flushing).hasEntered := by cases purpose <;> exact id
  refine ⟨h.consistent_set (Stage.isConsistent_of_isWriting rfl), h.writer_set hwriter _,
    ?_, ?_, ?_⟩
  · rw [hregistrations]
    exact h.entered_set hstage hentered
  · rw [hencoded, hregistered]
    cases hlookup : (Event.registrations log).lookup t with
    | none => simpa using h.order
    | some handler =>
      obtain ⟨before, after, hsplit, -⟩ := List.lookup_eq_some_iff.mp hlookup
      have hmem : (t, handler) ∈ Event.registrations log := by simp [hsplit]
      obtain ⟨earlier, hlast, hbefore⟩ := h.holding t purpose frame handler hstage hmem
      rw [hlast]
      exact hbefore.append_right [handler]
  · intro u purpose' frame' other hafter hmem
    rcases Lists.of_getElem?_set hafter with ⟨-, hflushing⟩ | ⟨hu, hafter⟩
    · cases hflushing
    · exact absurd (h.eq_of_isWriting hwriter hafter rfl) hu

end

/-- Every move keeps the order on the wire. -/
theorem CallMove.wireOrder {stages : List Stage} {line : List Nat}
    (hmove : r.CallMove event stages line) (h : WireOrder r.stages r.line log) :
    WireOrder stages line (log ++ event.toList) := by
  cases hmove with
  | begin _ added hwrites hclaims hconsistent hown hsilent =>
    exact h.begin hwrites hconsistent hsilent
  | goOn new _ hstage hwrites hclaims hconsistent hown hentered hline =>
    rw [Option.toList_none, List.append_nil]
    exact h.goOn hstage hwrites hconsistent hentered hline
  | enter hstage hwriter =>
    rw [Option.toList_none, List.append_nil]
    exact h.enter hstage hwriter
  | register hstage hwriter => exact h.register hstage hwriter
  | encode hstage => exact h.encode hstage

/-- Whatever is done with a link keeps the order on the wire. -/
theorem Moves.wireOrder {events : List Event} (hmoves : r.Moves events r')
    (h : WireOrder r.stages r.line log) : WireOrder r'.stages r'.line (log ++ events) :=
  hmoves.invariant (P := fun r log => WireOrder r.stages r.line log) log
    (fun _ hmove h => hmove.callMove.wireOrder h) h

/-- Nothing is out of order in the beginning. -/
theorem wireOrder_fresh : WireOrder [] [] [] where
  consistent := by simp
  writer := by simp
  entered := by simp [Event.registrations]
  order := .slnil
  holding := by simp

/-! ### What a registered handler is not any more -/

/-- No call carries a handler that was registered, and it is known. -/
def Lays (r : Roster) (log : List Event) (handler : Handler) : Prop :=
  handler ∈ Event.registeredIn log → r.carried handler = 0 ∧ r.Knows handler

/-- A handler that is registered is left by the only call that carried it. -/
theorem Move.lays (hmove : r.Move event r')
    (hown : ∀ key, event = some (.offered key) → ∃ k, handler = .statement k)
    (htenure : r.Tenure handler) (h : r.Lays log handler) :
    r'.Lays (log ++ event.toList) handler := by
  intro hmem
  rw [Event.registeredIn_append] at hmem
  rcases List.mem_append.mp hmem with hmem | hmem
  · obtain ⟨hcarried, hknows⟩ := h hmem
    have hle := hmove.carried_le hown hknows
    exact ⟨by omega, hmove.knows hknows⟩
  · cases hmove with
    | @register t purpose frame other hstage hwriter hopen =>
      obtain rfl : handler = other := by
        simpa [Event.registeredIn, Event.registrations] using hmem
      have hcarried := carried_move hstage (.sending purpose (.holding frame)) handler
      change (r.move t _).carried handler + (some handler == some handler).toNat = _ + 0
        at hcarried
      rw [beq_self_eq_true, Bool.toNat_true] at hcarried
      have hunique := htenure.unique
      have hlive := htenure.live
      unfold places at hunique hlive
      have hknows : r.Knows handler := knows_of_goesOn (hlive (by omega))
      refine ⟨?_, hknows⟩
      change (r.move t (.sending purpose (.holding frame))).carried handler = 0
      omega
    | _ => simp [Event.registeredIn, Event.registrations] at hmem

/-- Whatever is done with a link, a handler that was registered is not carried by any call. -/
theorem Moves.lays {events : List Event} (hmoves : r.Moves events r')
    (hown : ∀ key, .offered key ∈ events → ∃ k, handler = .statement k)
    (htenure : r.Tenure handler) (h : r.Lays log handler) : r'.Lays (log ++ events) handler := by
  refine (hmoves.invariant (P := fun r log => r.Tenure handler ∧ r.Lays log handler) log ?_
    ⟨htenure, h⟩).2
  rintro r r' event log hevents hmove ⟨htenure, h⟩
  have hown' (key : Nat) (hkey : event = some (.offered key)) := hown key (hevents _ hkey)
  exact ⟨hmove.tenure hown' htenure, hmove.lays hown' htenure h⟩

/-- Each handler is registered once. -/
theorem Move.nodup_registered (hmove : r.Move event r') (hlays : ∀ handler, r.Lays log handler)
    (h : (Event.registeredIn log).Nodup) : (Event.registeredIn (log ++ event.toList)).Nodup := by
  rw [Event.registeredIn_append]
  cases hmove with
  | @register t purpose frame handler hstage hwriter hopen =>
    change (_ ++ [handler]).Nodup
    refine List.nodup_append.mpr ⟨h, by simp, ?_⟩
    intro other hmem last hlast heq
    obtain rfl := List.mem_singleton.mp hlast
    subst heq
    obtain ⟨hcarried, -⟩ := hlays other hmem
    have hnone := List.countP_eq_zero.mp hcarried _ (List.mem_of_getElem? hstage)
    simp [Stage.carries?] at hnone
  | _ => exact (List.append_nil (Event.registeredIn log)).symm ▸ h

end Roster

end BeeProtocol
