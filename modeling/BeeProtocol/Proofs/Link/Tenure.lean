import BeeProtocol.Proofs.Link.Moves
import BeeProtocol.Proofs.Lists

/-!
# The tenure of a handler

A handler is in one place at a time: with the call that has not registered it yet, in the queue, or
in the hands of the reader. It is nowhere any more once what it stands for has ended, and the
handler of a statement is somewhere as long as the statement goes on.
-/

namespace BeeProtocol

namespace Roster

/-- How many calls have a handler that they have not registered yet. -/
def carried (r : Roster) (handler : Handler) : Nat :=
  r.stages.countP fun stage => stage.carries? == some handler

/-- How often the reader holds a handler. -/
def held (r : Roster) (handler : Handler) : Nat := (r.reading.held? == some handler).toNat

/-- In how many places a handler is. -/
def places (r : Roster) (handler : Handler) : Nat :=
  r.carried handler + r.pending.count handler + r.held handler

/-- Whether what a handler stands for goes on. -/
def goesOn (r : Roster) : Handler → Bool
  | .statement key => (r.channels[key]?).any fun c => !c.isDone
  | .reply key => (r.replies[key]?).any fun h => !h.promise.isComplete

/-- A statement goes on until its channel is done. -/
theorem goesOn_statement_iff {r : Roster} {key : Nat} :
    r.goesOn (.statement key) ↔ ∃ c, r.channels[key]? = some c ∧ c.isDone = false := by
  simp [goesOn, Option.any_eq_true]

/-- A reply goes on until its promise has an outcome. -/
theorem goesOn_reply_iff {r : Roster} {key : Nat} :
    r.goesOn (.reply key) ↔ ∃ h, r.replies[key]? = some h ∧ h.promise.outcome = none := by
  simp [goesOn, Option.any_eq_true, Promise.isComplete]

/-- A handler of what goes on is in one place, that of a statement in exactly one. -/
structure Tenure (r : Roster) (handler : Handler) : Prop where
  /-- The handler is in one place at most. -/
  unique : r.places handler ≤ 1
  /-- What a handler stands for goes on as long as the handler is somewhere. -/
  live : 0 < r.places handler → r.goesOn handler
  /-- The handler of a statement that goes on is somewhere. -/
  kept : ∀ key, handler = .statement key → r.goesOn handler → 0 < r.places handler

variable {r r' : Roster} {handler other : Handler}

namespace Tenure

/-- Tenure is a matter of where the handler is and whether what it stands for goes on. -/
theorem of_same (h : r.Tenure handler) (hplaces : r'.places handler = r.places handler)
    (hgoesOn : r'.goesOn handler = r.goesOn handler) : r'.Tenure handler := by
  constructor
  · rw [hplaces]
    exact h.unique
  · rw [hplaces, hgoesOn]
    exact h.live
  · rw [hplaces, hgoesOn]
    exact h.kept

/-- A handler that stays where it was. -/
theorem of_stays (h : r.Tenure handler) (hcarried : r'.carried handler = r.carried handler)
    (hpending : r'.pending.count handler = r.pending.count handler)
    (hheld : r'.held handler = r.held handler) (hgoesOn : r'.goesOn handler = r.goesOn handler) :
    r'.Tenure handler :=
  h.of_same (by rw [places, places, hcarried, hpending, hheld]) hgoesOn

/-- A handler that is nowhere has tenure if what it stood for has ended. -/
theorem of_ended (hplaces : r'.places handler = 0) (hgoesOn : r'.goesOn handler = false) :
    r'.Tenure handler := by
  constructor
  · omega
  · omega
  · intro key _ h
    rw [hgoesOn] at h
    cases h

/-- A handler in one place has tenure if what it stands for goes on. -/
theorem of_opened (hplaces : r'.places handler = 1) (hgoesOn : r'.goesOn handler) :
    r'.Tenure handler := by
  constructor
  · omega
  · exact fun _ => hgoesOn
  · omega

/-- The handler of a single reply may be taken away early. -/
theorem of_unregistered (h : r.Tenure handler) (hplaces : r'.places handler ≤ r.places handler)
    (hgoesOn : r'.goesOn handler = r.goesOn handler) (hreply : ∀ key, handler ≠ .statement key) :
    r'.Tenure handler := by
  constructor
  · have := h.unique
    omega
  · intro hpos
    rw [hgoesOn]
    exact h.live (by omega)
  · exact fun key hkey => absurd hkey (hreply key)

end Tenure

/-! ### What goes on after a change -/

/-- A reply that is settled is complete. -/
theorem settle_isComplete (h : ReplyHandler) (outcome : Outcome Message) :
    (h.settle outcome).promise.isComplete = true := by
  unfold ReplyHandler.settle Promise.complete Promise.isComplete
  cases houtcome : h.promise.outcome <;> simp [houtcome]

/-- A change under which a statement neither ends nor starts again. -/
theorem goesOn_change {key : Nat} {change : Channel → Channel}
    (hsame : ∀ c, r.channels[key]? = some c → (change c).isDone = c.isDone) (handler : Handler) :
    (r.change key change).goesOn handler = r.goesOn handler := by
  cases handler with
  | reply other => rfl
  | statement other =>
    unfold goesOn Roster.change
    dsimp only
    rw [Lists.any_modify]
    cases hchannel : r.channels[other]? with
    | none => rfl
    | some c =>
      by_cases hkey : key = other
      · subst hkey
        simp [hsame c hchannel]
      · simp [hkey]

/-- After a change that ends a statement, all handlers that went on still do but its own. -/
theorem goesOn_change_end {key : Nat} {change : Channel → Channel}
    (hends : ∀ c, r.channels[key]? = some c → (change c).isDone = true) (handler : Handler) :
    (r.change key change).goesOn handler = (r.goesOn handler && handler != .statement key) := by
  cases handler with
  | reply other => simp [goesOn, Roster.change]
  | statement other =>
    unfold goesOn Roster.change
    dsimp only
    rw [Lists.any_modify]
    cases hchannel : r.channels[other]? with
    | none => rfl
    | some c =>
      by_cases hkey : key = other
      · subst hkey
        simp [hends c hchannel]
      · simp [hkey, Ne.symm hkey]

/-- A response that is dropped ends nothing. -/
theorem goesOn_drop (r : Roster) (key : Nat) (handler : Handler) :
    (r.change key Channel.drop).goesOn handler = r.goesOn handler := by
  have hsame : ∀ c, r.channels[key]? = some c → c.drop.isDone = c.isDone := fun _ _ => rfl
  exact goesOn_change hsame handler

/-- A change that completes a single reply. -/
theorem goesOn_changeReply_end {key : Nat} {change : ReplyHandler → ReplyHandler}
    (hends : ∀ h : ReplyHandler, (change h).promise.isComplete = true) (handler : Handler) :
    (r.changeReply key change).goesOn handler = (r.goesOn handler && handler != .reply key) := by
  cases handler with
  | statement other => simp [goesOn, Roster.changeReply]
  | reply other =>
    unfold goesOn Roster.changeReply
    dsimp only
    rw [Lists.any_modify]
    by_cases hkey : key = other
    · simp [hkey, hends]
    · simp [hkey, Ne.symm hkey]

/-- Letting go of a handler ends what it stands for. -/
theorem goesOn_letGo (r : Roster) (other handler : Handler) :
    (r.letGo other).goesOn handler = (r.goesOn handler && handler != other) := by
  cases other with
  | statement key => exact goesOn_change_end (fun c _ => c.finish_isDone _) handler
  | reply key => exact goesOn_changeReply_end (fun h => settle_isComplete h _) handler

/-- Letting go of handlers ends all that they stand for. -/
theorem goesOn_foldl_letGo (handlers : List Handler) (r : Roster) (handler : Handler) :
    (handlers.foldl letGo r).goesOn handler = (r.goesOn handler && !handlers.contains handler) := by
  induction handlers generalizing r with
  | nil => simp
  | cons first handlers ih =>
    rw [List.foldl_cons, ih, goesOn_letGo, List.contains_cons, Bool.and_assoc, Bool.not_or]
    rfl

/-- What has a new key goes on, and the others stay as they were. -/
theorem goesOn_openStatement (r : Roster) (id : UInt32) (capacity : Nat) (bound : Duration)
    (handler : Handler) :
    ({ r with channels := r.channels ++ [Channel.fresh id capacity bound] } : Roster).goesOn
        handler =
      (r.goesOn handler || handler == .statement r.channels.length) := by
  cases handler with
  | reply key => simp [goesOn]
  | statement key =>
    unfold goesOn
    dsimp only
    rw [Lists.any_append_singleton, Bool.eq_iff_iff]
    simp [Channel.fresh, Channel.isDone]

/-- A new reply goes on, and the others stay as they were. -/
theorem goesOn_openReply (r : Roster) (kind : MessageKind) (handler : Handler) :
    ({ r with replies := r.replies ++ [ReplyHandler.ofKind kind] } : Roster).goesOn handler =
      (r.goesOn handler || handler == .reply r.replies.length) := by
  cases handler with
  | statement key => simp [goesOn]
  | reply key =>
    unfold goesOn
    dsimp only
    rw [Lists.any_append_singleton, Bool.eq_iff_iff]
    simp [ReplyHandler.ofKind, Promise.empty, Promise.isComplete]

/-! ### Where handlers are after a change -/

/-- A call that moves takes with it what it carries. -/
theorem carried_move {t : Nat} {stage : Stage} (h : r.stages[t]? = some stage) (new : Stage)
    (handler : Handler) :
    (r.move t new).carried handler + (stage.carries? == some handler).toNat =
      r.carried handler + (new.carries? == some handler).toNat :=
  Stage.countP_set h new _

/-- A call that moves with what it carries leaves every handler where it is. -/
theorem carried_move_of_same {t : Nat} {stage : Stage} (h : r.stages[t]? = some stage) (new : Stage)
    (hsame : new.carries? = stage.carries?) (handler : Handler) :
    (r.move t new).carried handler = r.carried handler := by
  have hmoved := carried_move h new handler
  rw [hsame] at hmoved
  omega

/-- A new call brings the handler that it carries. -/
theorem carried_append (stages : List Stage) (new : Stage) (handler : Handler) :
    ({ r with stages := stages ++ [new] } : Roster).carried handler =
      ({ r with stages := stages } : Roster).carried handler +
        (new.carries? == some handler).toNat := by
  unfold carried
  rw [List.countP_append, List.countP_singleton]
  cases new.carries? == some handler <;> rfl

/-- What goes on is a matter of the channels and the replies. -/
theorem goesOn_congr (hchannels : r'.channels = r.channels) (hreplies : r'.replies = r.replies)
    (handler : Handler) : r'.goesOn handler = r.goesOn handler := by
  cases handler with
  | statement key => rw [goesOn, hchannels, goesOn]
  | reply key => rw [goesOn, hreplies, goesOn]

/-- Whether the reader holds a handler is a matter of what it does. -/
theorem held_congr (h : r'.reading.held? = r.reading.held?) (handler : Handler) :
    r'.held handler = r.held handler := by rw [held, h, held]

/-- A reader without a handler holds none. -/
theorem held_of_empty (h : r.reading.held? = none) (handler : Handler) : r.held handler = 0 := by
  rw [held, h]
  rfl

/-- A reader with a handler holds it and no other. -/
theorem held_eq (h : r.reading.held? = some other) (handler : Handler) :
    r.held handler = if other = handler then 1 else 0 := by
  rw [held, h]
  by_cases hother : other = handler <;> simp [hother]

/-! ### Ends of calls -/

/-- A call that ends changes the queue only by taking off the handler that it has registered for
itself, and neither the line nor what the reader does. -/
theorem quit_eq (r : Roster) (t : Nat) (stage : Stage) (response : Option Nat) :
    ∃ channels replies, channels.length = r.channels.length ∧ r.quit t stage response =
      { r with
        stages := r.stages.set t .ended
        pending := stage.asks?.elim r.pending fun key => r.pending.filter (· != .reply key)
        channels := channels
        replies := replies } := by
  refine ⟨(r.quit t stage response).channels, (r.quit t stage response).replies, ?_, ?_⟩
  · unfold quit release
    rcases stage.carries? with - | key | key <;> cases stage.asks? <;> cases response <;>
      simp [letGo, dropResponse, move, unregister, change, changeReply]
  · unfold quit release
    rcases stage.carries? with - | key | key <;> cases stage.asks? <;> cases response <;> rfl

section Quit

variable (r : Roster) (t : Nat) (stage : Stage) (response : Option Nat)

/-- The call that ends is the only one that moves. -/
theorem quit_stages : (r.quit t stage response).stages = r.stages.set t .ended := by
  obtain ⟨channels, replies, -, hquit⟩ := r.quit_eq t stage response
  rw [hquit]

/-- The line stays as it is. -/
theorem quit_line : (r.quit t stage response).line = r.line := by
  obtain ⟨channels, replies, -, hquit⟩ := r.quit_eq t stage response
  rw [hquit]

/-- The reader goes on with what it does. -/
theorem quit_reading : (r.quit t stage response).reading = r.reading := by
  obtain ⟨channels, replies, -, hquit⟩ := r.quit_eq t stage response
  rw [hquit]

/-- The reader is told nothing. -/
theorem quit_isAborted : (r.quit t stage response).isAborted = r.isAborted := by
  obtain ⟨channels, replies, -, hquit⟩ := r.quit_eq t stage response
  rw [hquit]

/-- The link is not closed. -/
theorem quit_isClosed : (r.quit t stage response).isClosed = r.isClosed := by
  obtain ⟨channels, replies, -, hquit⟩ := r.quit_eq t stage response
  rw [hquit]

/-- At most the handler of the reply that the call waits for leaves the queue. -/
theorem quit_pending :
    (r.quit t stage response).pending =
      stage.asks?.elim r.pending fun key => r.pending.filter (· != .reply key) := by
  obtain ⟨channels, replies, -, hquit⟩ := r.quit_eq t stage response
  rw [hquit]

/-- No statement is added. -/
theorem quit_channels_length :
    (r.quit t stage response).channels.length = r.channels.length := by
  obtain ⟨channels, replies, hlength, hquit⟩ := r.quit_eq t stage response
  rw [hquit]
  exact hlength

end Quit

/-- What a call carried that ends has ended. -/
theorem goesOn_quit (r : Roster) (t : Nat) (stage : Stage) (response : Option Nat)
    (handler : Handler) :
    (r.quit t stage response).goesOn handler =
      (r.goesOn handler && stage.carries? != some handler) := by
  have hdropped (r : Roster) : (r.dropResponse response).goesOn handler = r.goesOn handler := by
    cases response with
    | none => rfl
    | some key => exact goesOn_drop r key handler
  have hunregistered (r : Roster) :
      (stage.asks?.elim r fun key => r.unregister (.reply key)).goesOn handler =
        r.goesOn handler := by
    cases stage.asks? <;> cases handler <;> rfl
  have hmoved (r : Roster) : (r.move t .ended).goesOn handler = r.goesOn handler :=
    goesOn_congr rfl rfl handler
  rw [quit, hmoved, hdropped, release, hunregistered]
  cases stage.carries? with
  | none => simp
  | some other =>
    rw [Option.elim_some, goesOn_letGo]
    simp [bne, eq_comm, Bool.beq_eq_decide_eq]

/-- What the call has carried is carried no longer. -/
theorem carried_quit {t : Nat} {stage : Stage} (hstage : r.stages[t]? = some stage)
    (response : Option Nat) (handler : Handler) :
    (r.quit t stage response).carried handler + (stage.carries? == some handler).toNat =
      r.carried handler := by
  have hmoved := carried_move hstage .ended handler
  rw [carried, quit_stages]
  exact hmoved

/-- No handler joins the queue. -/
theorem count_quit_le (r : Roster) (t : Nat) (stage : Stage) (response : Option Nat)
    (handler : Handler) :
    (r.quit t stage response).pending.count handler ≤ r.pending.count handler := by
  rw [quit_pending]
  cases stage.asks? with
  | none => exact Nat.le_refl _
  | some key => exact List.filter_sublist.count_le handler

/-- A call that ends leaves what it carried nowhere. -/
theorem Tenure.quit (h : r.Tenure handler) {t : Nat} {stage : Stage}
    (hstage : r.stages[t]? = some stage) (response : Option Nat) :
    (r.quit t stage response).Tenure handler := by
  have hgoesOn := goesOn_quit r t stage response handler
  have hcarried := carried_quit hstage response handler
  have hheld := held_congr (congrArg _ (quit_reading r t stage response)) handler
  have hpending := count_quit_le r t stage response handler
  by_cases hcarries : stage.carries? = some handler
  · have hunique := h.unique
    refine .of_ended ?_ ?_
    · rw [hcarries, beq_self_eq_true, Bool.toNat_true] at hcarried
      unfold places at hunique ⊢
      omega
    · rw [hgoesOn, hcarries]
      simp
  · rw [beq_false_of_ne hcarries, Bool.toNat_false] at hcarried
    have hsame : (r.quit t stage response).goesOn handler = r.goesOn handler := by
      rw [hgoesOn]
      simp [hcarries]
    cases handler with
    | reply key =>
      refine h.of_unregistered ?_ hsame (by simp)
      unfold places
      omega
    | statement key =>
      refine h.of_same ?_ hsame
      have hkept : (r.quit t stage response).pending.count (.statement key) =
          r.pending.count (.statement key) := by
        rw [quit_pending]
        cases stage.asks? with
        | none => rfl
        | some other => exact List.count_filter (by simp)
      unfold places
      omega

/-- Closing ends all that waits. -/
theorem Tenure.shut (h : r.Tenure handler) : r.shut.Tenure handler := by
  unfold Roster.shut
  split
  · exact h
  · let closed : Roster := { r with isClosed := true, pending := [] }
    obtain ⟨channels, replies, hfold⟩ := foldl_letGo_eq r.pending closed
    have hsame : closed.goesOn handler = r.goesOn handler := goesOn_congr rfl rfl handler
    have hgoesOn : (r.pending.foldl letGo closed).goesOn handler =
        (r.goesOn handler && !r.pending.contains handler) := by
      rw [goesOn_foldl_letGo, hsame]
    have hplaces : (r.pending.foldl letGo closed).places handler =
        r.carried handler + r.held handler := by
      rw [hfold]
      rfl
    by_cases hmem : handler ∈ r.pending
    · have hcount := List.count_pos_iff.mpr hmem
      have hunique := h.unique
      unfold places at hunique
      refine .of_ended (by rw [hplaces]; omega) ?_
      rw [hgoesOn]
      simp [hmem]
    · have hcount := List.count_eq_zero.mpr hmem
      refine h.of_same ?_ ?_
      · rw [hplaces, places]
        omega
      · rw [hgoesOn]
        simp [hmem]

/-- A handler that is taken off the queue is in the hands of the reader. -/
theorem places_take (hempty : r.reading.held? = none) (hmem : other ∈ r.pending)
    (payload : List UInt8) (handler : Handler) :
    ({ r with
        pending := r.pending.erase other
        reading := .decoding other payload } : Roster).places handler = r.places handler := by
  have hcount := List.count_pos_iff.mpr hmem
  have hheld : (ReaderStage.decoding other payload).held? = some other := rfl
  unfold places
  rw [held_of_empty hempty handler, held_eq hheld handler]
  dsimp only
  rw [List.count_erase]
  by_cases hother : other = handler
  · subst hother
    simp only [beq_self_eq_true, if_true, carried]
    omega
  · simp only [beq_false_of_ne hother, if_neg hother, carried]
    rfl

/-- A handler that is put back in the queue leaves the hands of the reader. -/
theorem places_putBack (hheld : r.reading.held? = some other) (handler : Handler) :
    ({ r with pending := other :: r.pending, reading := .reading } : Roster).places handler =
      r.places handler := by
  unfold places
  have hempty : ReaderStage.reading.held? = none := rfl
  rw [held_eq hheld handler, held_of_empty hempty]
  dsimp only
  rw [List.count_cons]
  by_cases hother : other = handler
  · simp only [hother, beq_self_eq_true, if_true, carried]
    omega
  · simp only [beq_false_of_ne hother, if_neg hother, carried]
    rfl

/-- What is opened was nowhere before. -/
theorem Tenure.opened (h : r.Tenure handler) (other : Handler) (hunknown : r.goesOn other = false)
    (hcarried : r'.carried handler = r.carried handler + (some other == some handler).toNat)
    (hpending : r'.pending = r.pending) (hreading : r'.reading = r.reading)
    (hgoesOn : r'.goesOn handler = (r.goesOn handler || handler == other)) :
    r'.Tenure handler := by
  have hheld := held_congr (congrArg ReaderStage.held? hreading) handler
  by_cases hother : other = handler
  · subst hother
    have hnowhere : r.places other = 0 := by
      by_contra hplaces
      have hlive := h.live (by omega)
      rw [hunknown] at hlive
      cases hlive
    refine .of_opened ?_ ?_
    · rw [beq_self_eq_true, Bool.toNat_true] at hcarried
      unfold places at hnowhere ⊢
      rw [hpending]
      omega
    · rw [hgoesOn]
      simp
  · refine h.of_stays ?_ (by rw [hpending]) hheld ?_
    · rw [hcarried, beq_false_of_ne (by simpa using hother)]
      rfl
    · rw [hgoesOn, beq_false_of_ne (Ne.symm hother), Bool.or_false]

/-- What the reader forgets has ended. -/
theorem Tenure.forget (h : r.Tenure handler) (hheld : r.reading.held? = some other)
    (hstages : r'.stages = r.stages) (hpending : r'.pending = r.pending)
    (hempty : r'.reading.held? = none)
    (hgoesOn : r'.goesOn handler = (r.goesOn handler && handler != other)) :
    r'.Tenure handler := by
  have hcarried : r'.carried handler = r.carried handler := by rw [carried, hstages, carried]
  have hbefore := held_eq hheld handler
  have hafter := held_of_empty hempty handler
  by_cases hother : other = handler
  · have hunique := h.unique
    rw [if_pos hother] at hbefore
    refine .of_ended ?_ ?_
    · unfold places at hunique ⊢
      rw [hpending]
      omega
    · rw [hgoesOn]
      simp [hother]
  · rw [if_neg hother] at hbefore
    refine h.of_stays hcarried (by rw [hpending]) (by omega) ?_
    rw [hgoesOn]
    simp [Ne.symm hother]

/-! ### Moves -/

section Moves

variable {t key : Nat} {stage : Stage} {line : List Nat} {payload : List UInt8}

/-- A call that brings no handler leaves every handler where it is. -/
theorem Tenure.begun (h : r.Tenure handler) (hplain : stage.IsPlain) :
    ({ r with stages := r.stages ++ [stage] } : Roster).Tenure handler := by
  have hcarried := carried_append (r := r) r.stages stage handler
  rw [hplain.carries] at hcarried
  exact h.of_stays hcarried rfl rfl (goesOn_congr rfl rfl handler)

/-- A call that brings the handler of a reply leaves the handlers of statements where they are. -/
theorem Tenure.offered (h : r.Tenure (.statement key)) (frame : Frame) (reply : Nat)
    (replies : List ReplyHandler) :
    ({ r with
        replies := replies
        stages := r.stages ++ [.called (.send frame (some (.reply reply)))] } : Roster).Tenure
      (.statement key) := by
  have hcarried := carried_append (r := r) r.stages (.called (.send frame (some (.reply reply))))
    (.statement key)
  exact h.of_stays hcarried rfl rfl rfl

/-- The owner opens a statement whose handler a new call brings. -/
theorem Tenure.begunStatement (h : r.Tenure handler) (frame : Frame) (id : UInt32)
    (capacity : Nat) (bound : Duration) :
    ({ r with
        channels := r.channels ++ [.fresh id capacity bound]
        stages := r.stages ++
          [.called (.send frame (some (.statement r.channels.length)))] } : Roster).Tenure
      handler :=
  h.opened (.statement r.channels.length) (by simp [goesOn])
    (carried_append r.stages _ handler) rfl rfl (goesOn_openStatement r id capacity bound handler)

/-- A call opens a reply and brings its handler. -/
theorem Tenure.openReply (h : r.Tenure handler) (hstage : r.stages[t]? = some stage)
    (hplain : stage.IsPlain) (kind : MessageKind) (frame : Frame) (bound : Duration)
    (use : ReplyUse) :
    ({ r with replies := r.replies ++ [ReplyHandler.ofKind kind], line := line }.move t
      (.sending (.reply r.replies.length bound use)
        (.inLine frame (some (.reply r.replies.length))))).Tenure handler := by
  have hcarried := carried_move hstage (.sending (.reply r.replies.length bound use)
    (.inLine frame (some (.reply r.replies.length)))) handler
  rw [hplain.carries] at hcarried
  exact h.opened (.reply r.replies.length) (by simp [goesOn]) hcarried rfl rfl
    (goesOn_openReply r kind handler)

/-- A call opens a statement and brings its handler. -/
theorem Tenure.openStatement (h : r.Tenure handler) (hstage : r.stages[t]? = some stage)
    (hplain : stage.IsPlain) (id : UInt32) (capacity : Nat) (bound : Duration) (frame : Frame) :
    ({ r with channels := r.channels ++ [Channel.fresh id capacity bound], line := line }.move t
      (.sending (.statement r.channels.length)
        (.inLine frame (some (.statement r.channels.length))))).Tenure handler := by
  have hcarried := carried_move hstage (.sending (.statement r.channels.length)
    (.inLine frame (some (.statement r.channels.length)))) handler
  rw [hplain.carries] at hcarried
  exact h.opened (.statement r.channels.length) (by simp [goesOn]) hcarried rfl rfl
    (goesOn_openStatement r id capacity bound handler)

/-- A call that moves on with what it carries leaves every handler where it is. -/
theorem Tenure.goOn (h : r.Tenure handler) (hstage : r.stages[t]? = some stage) {new : Stage}
    (hsame : new.carries? = stage.carries?) :
    ({ r with line := line }.move t new).Tenure handler :=
  h.of_stays (carried_move_of_same hstage new hsame handler) rfl rfl (goesOn_congr rfl rfl handler)

/-- A call that registers its handler moves it from itself into the queue. -/
theorem Tenure.register (h : r.Tenure handler) {purpose : Purpose} {frame : Frame}
    (hstage : r.stages[t]? = some (.sending purpose (.inLine frame (some other)))) :
    ({ r with pending := r.pending ++ [other] }.move t
      (.sending purpose (.holding frame))).Tenure handler := by
  refine h.of_same ?_ (goesOn_congr rfl rfl handler)
  have hcarried := carried_move hstage (.sending purpose (.holding frame)) handler
  change (r.move t _).carried handler + (some other == some handler).toNat =
    r.carried handler + 0 at hcarried
  have hpending : (r.pending ++ [other]).count handler =
      r.pending.count handler + (some other == some handler).toNat := by
    rw [List.count_append, List.count_singleton]
    by_cases hother : other = handler <;> simp [hother]
  have hsame : (r.move t (.sending purpose (.holding frame))).carried handler +
      (r.pending ++ [other]).count handler = r.carried handler + r.pending.count handler := by
    omega
  exact congrArg (· + r.held handler) hsame

/-- A link that closes ends what waits, whatever becomes of the reader. -/
theorem Tenure.close (h : r.Tenure handler) {reader : ReaderStage}
    (hheld : reader.held? = r.reading.held?) (isAborted : Bool) :
    ({ r.shut with reading := reader, isAborted := isAborted } : Roster).Tenure handler := by
  refine h.shut.of_stays rfl rfl (held_congr ?_ handler) (goesOn_congr rfl rfl handler)
  rw [shut_reading]
  exact hheld

/-- A statement that hands out rows goes on as it did. -/
theorem Tenure.giveOut (h : r.Tenure handler) {c c' : Channel} {rows : List Row}
    (hchannel : r.channels[key]? = some c) (hgives : c.GivesOut rows c') :
    ({ r with channels := r.channels.set key c' } : Roster).Tenure handler := by
  have hdone := Channel.isDone_of_answer hgives.answer
  have hgoesOn : (r.change key fun _ => c').goesOn handler = r.goesOn handler := by
    refine goesOn_change (fun before hbefore => ?_) handler
    rw [hchannel, Option.some.injEq] at hbefore
    rw [← hbefore, hdone]
  rw [change_eq hchannel] at hgoesOn
  exact h.of_same rfl hgoesOn

/-- The handler that takes a frame moves from the queue into the hands of the reader. -/
theorem Tenure.take (h : r.Tenure handler) {frame : Frame} (hreading : r.reading = .reading)
    (hfind : r.pending.find? (r.accepts frame) = some other) :
    ({ r with
        pending := r.pending.erase other
        reading := .decoding other frame.payload } : Roster).Tenure handler := by
  have hmem := List.mem_of_find?_eq_some hfind
  have hempty : r.reading.held? = none := by
    rw [hreading]
    rfl
  exact h.of_same (places_take hempty hmem _ handler) (goesOn_congr rfl rfl handler)

/-- The reader settles a reply and forgets its handler. -/
theorem Tenure.answer (h : r.Tenure handler)
    (hreading : r.reading = .decoding (.reply key) payload) :
    ({ r.changeReply key fun h => ((h.decode payload).complete).drop with
        reading := .reading } : Roster).Tenure handler := by
  refine h.forget (by rw [hreading]; rfl) rfl rfl rfl ?_
  have hends : ∀ h : ReplyHandler, ((h.decode payload).complete).drop.promise.isComplete = true :=
    fun h => settle_isComplete _ _
  rw [← goesOn_changeReply_end hends handler]
  exact goesOn_congr rfl rfl handler

/-- The reader keeps the handler of a statement that goes on after a payload. -/
theorem Tenure.hear (h : r.Tenure handler) (row : Row)
    (hreading : r.reading = .decoding (.statement key) payload)
    (hlive : ∀ c, r.channels[key]? = some c → (c.receive payload).1.isDone = false) :
    ({ r.change key fun c => (c.receive payload).1 with
        reading := .storing key row } : Roster).Tenure handler := by
  refine h.of_stays rfl rfl (held_congr (by rw [hreading]; rfl) handler) ?_
  have hsame : ∀ c, r.channels[key]? = some c → (c.receive payload).1.isDone = c.isDone := by
    intro c hc
    have hafter := hlive c hc
    cases hdone : c.isDone with
    | false => exact hafter
    | true =>
      rw [Channel.receive_eq, Channel.hear_isDone hdone] at hafter
      cases hafter
  rw [← goesOn_change hsame handler]
  exact goesOn_congr rfl rfl handler

/-- The reader forgets the handler of a statement that ends with a payload. -/
theorem Tenure.hearEnd (h : r.Tenure handler) {c : Channel}
    (hreading : r.reading = .decoding (.statement key) payload)
    (hchannel : r.channels[key]? = some c) (hdone : (c.receive payload).1.isDone = true) :
    ({ r.change key fun c => (c.receive payload).1 with
        reading := .reading } : Roster).Tenure handler := by
  refine h.forget (by rw [hreading]; rfl) rfl rfl rfl ?_
  have hends : ∀ c, r.channels[key]? = some c → (c.receive payload).1.isDone = true := by
    intro c' hc'
    rw [hchannel, Option.some.injEq] at hc'
    rw [← hc', hdone]
  rw [← goesOn_change_end hends handler]
  exact goesOn_congr rfl rfl handler

/-- A row that is stored ends nothing. -/
theorem Tenure.store (h : r.Tenure handler) (key : Nat) (row : Row) :
    (r.change key fun c => (c.store row).1).Tenure handler := by
  refine h.of_same rfl (goesOn_change (fun c _ => ?_) handler)
  exact Channel.isDone_of_answer (c.store_answer row)

/-- The reader puts the handler of a statement back into the queue. -/
theorem Tenure.putBack (h : r.Tenure handler) {row : Row}
    (hreading : r.reading = .storing key row) :
    ({ r with pending := .statement key :: r.pending, reading := .reading } : Roster).Tenure
      handler := by
  have hheld : r.reading.held? = some (.statement key) := by
    rw [hreading]
    rfl
  exact h.of_same (places_putBack hheld handler) (goesOn_congr rfl rfl handler)

/-- A reader that is cut off forgets the handler of a statement, which it ends. -/
theorem Tenure.forgetStatement (h : r.Tenure handler) {change : Channel → Channel}
    {reader : ReaderStage} (hheld : r.reading.held? = some (.statement key))
    (hlost : ∀ c : Channel, c.IsLost (change c)) (hempty : reader.held? = none) :
    ({ r.change key change with reading := reader } : Roster).Tenure handler := by
  refine h.forget hheld rfl rfl hempty ?_
  have hends : ∀ c, r.channels[key]? = some c → (change c).isDone = true := by
    intro c _
    rw [Channel.isDone_of_answer (hlost c).answer, Channel.finish_isDone]
  rw [← goesOn_change_end hends handler]
  exact goesOn_congr rfl rfl handler

/-- A reader that is cut off forgets the handler of a reply, which it fails. -/
theorem Tenure.forgetReply (h : r.Tenure handler) {reader : ReaderStage}
    (hheld : r.reading.held? = some (.reply key)) (hempty : reader.held? = none) :
    ({ r.letGo (.reply key) with reading := reader } : Roster).Tenure handler := by
  refine h.forget hheld rfl rfl hempty ?_
  rw [← goesOn_letGo]
  exact goesOn_congr rfl rfl handler

/-- A reader without a handler ends. -/
theorem Tenure.halt (h : r.Tenure handler) (hempty : r.reading.held? = none) :
    ({ r with reading := .stopped } : Roster).Tenure handler := by
  refine h.of_stays rfl rfl (held_congr ?_ handler) (goesOn_congr rfl rfl handler)
  rw [hempty]
  rfl

end Moves

/-- Every move keeps the tenure of a handler, as long as nobody brings the handler of a reply that
others wait for. -/
theorem Move.tenure {event : Option Event} (hmove : r.Move event r')
    (hown : ∀ key, event = some (.offered key) → ∃ k, handler = .statement k)
    (h : r.Tenure handler) : r'.Tenure handler := by
  cases hmove with
  | begin stage hplain => exact h.begun hplain
  | beginStatement frame id capacity bound => exact h.begunStatement frame id capacity bound
  | beginReply frame key added =>
    obtain ⟨k, rfl⟩ := hown key rfl
    exact h.offered frame key _
  | goOn new hstage hgoesOn hline => exact h.goOn hstage hgoesOn.carries
  | openReply kind frame bound use hstage hplain hentered hline =>
    exact h.openReply hstage hplain kind frame bound use
  | openStatement id capacity bound frame hstage hplain hentered hline =>
    exact h.openStatement hstage hplain id capacity bound frame
  | enter hstage hwriter => exact h.goOn hstage rfl
  | register hstage hwriter hopen => exact h.register hstage
  | encode hstage => exact h.goOn hstage rfl
  | @quit t stage response line hstage hline =>
    have hmoved : ({ r with line := line } : Roster).Tenure handler :=
      h.of_same rfl (goesOn_congr rfl rfl handler)
    exact hmoved.quit hstage response
  | close reader isAborted hheld hstops => exact h.close hheld isAborted
  | giveOut hchannel hgives => exact h.giveOut hchannel hgives
  | drop key => exact h.of_same rfl (goesOn_drop r key handler)
  | take hreading hgoesOn hfind => exact h.take hreading hfind
  | answer hreading hgoesOn => exact h.answer hreading
  | hear row hreading hgoesOn hlive => exact h.hear row hreading hlive
  | hearEnd hreading hgoesOn hchannel hdone => exact h.hearEnd hreading hchannel hdone
  | @store key row hreading hgoesOn => exact h.store key row
  | putBack hreading hgoesOn hopen => exact h.putBack hreading
  | forgetStatement reader hheld hlost hempty => exact h.forgetStatement hheld hlost hempty
  | forgetReply reader hheld hempty => exact h.forgetReply hheld hempty
  | halt hempty => exact h.halt hempty

/-- Whatever is done with a link keeps the tenure of a handler. -/
theorem Moves.tenure {events : List Event} (hmoves : r.Moves events r')
    (hown : ∀ key, .offered key ∈ events → ∃ k, handler = .statement k) (h : r.Tenure handler) :
    r'.Tenure handler :=
  hmoves.invariant (P := fun r _ => r.Tenure handler) []
    (fun hevent hmove h => hmove.tenure (fun key hkey => hown key (hevent _ hkey)) h) h

/-- A link that is fresh has no handlers. -/
theorem tenure_fresh (config : Config) (handler : Handler) :
    (Link.fresh config).roster.Tenure handler := by
  refine .of_ended rfl ?_
  cases handler <;> rfl

end Roster

end BeeProtocol
