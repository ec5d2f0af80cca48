import BeeProtocol.Proofs.Link.Replies
import BeeProtocol.Proofs.Promise.FirstCause

/-!
# Whose reply it is

The handler of a single reply that only the call brings which wants the reply waits on behalf of
that call alone. What the reply comes to is what the reader has heard for it, or a failure.
-/

namespace BeeProtocol

/-- The single reply that a handler stands for. -/
def Handler.reply? : Handler → Option Nat
  | statement _ => none
  | reply key => some key

/-- The single replies whose handlers are in a list. -/
def replyKeys (handlers : List Handler) : List Nat := handlers.filterMap Handler.reply?

/-- The keys of replies are those of their handlers. -/
theorem mem_replyKeys {handlers : List Handler} {key : Nat} :
    key ∈ replyKeys handlers ↔ .reply key ∈ handlers := by
  rw [replyKeys, List.mem_filterMap]
  constructor
  · rintro ⟨handler, hmem, hkey⟩
    cases handler with
    | statement other => cases hkey
    | reply other =>
      obtain rfl := Option.some.inj hkey
      exact hmem
  · exact fun hmem => ⟨_, hmem, rfl⟩

namespace ReplyHandler

/-- Letting go of a handler never brings a message. -/
theorem ok_of_abandon {h : ReplyHandler} {reason : ClientError} {message : Message}
    (hok : (h.abandon reason).promise.outcome = some (.ok message)) :
    h.promise.outcome = some (.ok message) := by
  rw [abandon, outcome_settle] at hok
  cases houtcome : h.promise.outcome with
  | none => simp [houtcome] at hok
  | some outcome => simpa [houtcome] using hok

/-- A payload brings the message that it holds. -/
theorem ok_of_answer {h : ReplyHandler} {payload : List UInt8} {message : Message}
    (hok : ((h.decode payload).complete).drop.promise.outcome = some (.ok message)) :
    h.promise.outcome = some (.ok message) ∨ Message.decode h.kind payload = .ok message := by
  have hcompleted := ok_of_abandon hok
  unfold complete at hcompleted
  dsimp only [decode] at hcompleted
  rw [outcome_settle] at hcompleted
  cases houtcome : h.promise.outcome with
  | some outcome =>
    left
    simpa [houtcome] using hcompleted
  | none =>
    right
    cases hdecode : Message.decode h.kind payload <;> simp_all

end ReplyHandler

namespace Roster

variable {r r' : Roster} {event : Option Event} {events : List Event} {key : Nat}

/-! ### Handlers of one's own -/

/-- The handler of a single reply is brought only by the call that wants the reply. -/
def CarriedFor (r : Roster) (key : Nat) : Prop :=
  ∀ stage ∈ r.stages, stage.carries? = some (.reply key) → stage.asks? = some key

/-- A call that is begun or moves brings nothing but its own handler. -/
theorem Move.carriedFor (hmove : r.Move event r') (hoffered : event ≠ some (.offered key))
    (h : r.CarriedFor key) : r'.CarriedFor key := by
  have hset {t : Nat} {new : Stage}
      (hnew : new.carries? = some (.reply key) → new.asks? = some key) :
      ∀ stage ∈ r.stages.set t new, stage.carries? = some (.reply key) →
        stage.asks? = some key := by
    intro stage hmem
    rcases List.mem_or_eq_of_mem_set hmem with hmem | rfl
    · exact h stage hmem
    · exact hnew
  have hadd {new : Stage} (hnew : new.carries? = some (.reply key) → new.asks? = some key) :
      ∀ stage ∈ r.stages ++ [new], stage.carries? = some (.reply key) →
        stage.asks? = some key := by
    intro stage hmem
    rcases List.mem_append.mp hmem with hmem | hmem
    · exact h stage hmem
    · rw [List.mem_singleton.mp hmem]
      exact hnew
  cases hmove with
  | begin stage hplain => exact hadd (by simp [hplain.carries])
  | beginStatement frame id capacity bound => exact hadd (by simp [Stage.carries?])
  | beginReply frame other added =>
    refine hadd fun hcarries => absurd ?_ hoffered
    rw [Handler.reply.inj (Option.some.inj hcarries)]
  | goOn new hstage hgoesOn hline =>
    refine hset fun hcarries => ?_
    rw [hgoesOn.carries] at hcarries
    rw [hgoesOn.asks]
    exact h _ (List.mem_of_getElem? hstage) hcarries
  | openReply kind frame bound use hstage hplain hentered hline =>
    refine hset fun hcarries => ?_
    rw [Stage.asks?, Handler.reply.inj (Option.some.inj hcarries)]
  | openStatement id capacity bound frame hstage hplain hentered hline =>
    exact hset (by simp [Stage.carries?])
  | enter hstage hwriter => exact hset (by simp [Stage.carries?])
  | register hstage hwriter hopen => exact hset (by simp [Stage.carries?])
  | encode hstage => exact hset (by simp [Stage.carries?])
  | quit response hstage hline =>
    rw [CarriedFor, quit_stages]
    exact hset (by simp [Stage.carries?])
  | close reader isAborted hheld hstops =>
    rw [CarriedFor, shut_stages]
    exact h
  | _ => exact h

/-- Whatever is done with a link, the handler of a reply that nobody offers stays with its call. -/
theorem Moves.claimedFor (hmoves : r.Moves events r') (hoffered : .offered key ∉ events)
    (hcarried : r.CarriedFor key) (h : r.ClaimedFor key) :
    r'.CarriedFor key ∧ r'.ClaimedFor key := by
  refine hmoves.invariant (P := fun r _ => r.CarriedFor key ∧ r.ClaimedFor key) [] ?_ ⟨hcarried, h⟩
  rintro r r' event - hevent hmove ⟨hcarried, h⟩
  exact ⟨hmove.carriedFor (fun hoffers => hoffered (hevent _ hoffers)) hcarried,
    hmove.claimedFor hcarried h⟩

/-! ### Who waits -/

/-- Only registration brings the handler of a single reply into the queue. -/
theorem Move.replyKeys_pending (hmove : r.Move event r') :
    (replyKeys r'.pending).Sublist
      (replyKeys r.pending ++ replyKeys (Event.registeredIn event.toList)) := by
  have hthin {pending : List Handler} (h : pending.Sublist r.pending) :
      (replyKeys pending).Sublist
        (replyKeys r.pending ++ replyKeys (Event.registeredIn event.toList)) :=
    (h.filterMap _).trans (List.sublist_append_left ..)
  cases hmove with
  | @register t purpose frame handler hstage hwriter hopen =>
    have hjoined : replyKeys (r.pending ++ [handler]) =
        replyKeys r.pending ++ replyKeys [handler] := List.filterMap_append ..
    change (replyKeys (r.pending ++ [handler])).Sublist _
    rw [hjoined]
    exact .refl _
  | @quit t stage response line hstage hline =>
    refine hthin ?_
    rw [quit_pending]
    cases stage.asks? with
    | none => exact .refl _
    | some other => exact List.filter_sublist
  | close reader isAborted hheld hstops => exact hthin r.shut_pending_sublist
  | take hreading hgoesOn hfind => exact hthin List.erase_sublist
  | putBack hreading hgoesOn hopen => exact List.sublist_append_left ..
  | _ => exact hthin (.refl _)

/-- Only replies whose handlers are registered join the queue. -/
theorem Moves.replyKeys_pending (hmoves : r.Moves events r') :
    (replyKeys r'.pending).Sublist
      (replyKeys r.pending ++ replyKeys (Event.registeredIn events)) := by
  refine hmoves.invariant (P := fun r' log => (replyKeys r'.pending).Sublist
    (replyKeys r.pending ++ replyKeys (Event.registeredIn log))) [] ?_ ?_
  · intro r r' event log _ hmove h
    have hmore : replyKeys (Event.registeredIn (log ++ event.toList)) =
        replyKeys (Event.registeredIn log) ++ replyKeys (Event.registeredIn event.toList) := by
      rw [Event.registeredIn_append]
      exact List.filterMap_append ..
    rw [hmore, ← List.append_assoc]
    exact hmove.replyKeys_pending.trans (h.append_right _)
  · exact List.sublist_append_left ..

/-! ### What is heard -/

/-- A reply that there is already stays, with the kind of message that it takes. -/
theorem Moves.settles {h : ReplyHandler} (hmoves : r.Moves events r')
    (hreply : r.replies[key]? = some h) : r'.Settles key h :=
  hmoves.invariant (P := fun r _ => r.Settles key h) []
    (fun _ hmove hsettles => hsettles.trans fun _ hreply' => hmove.settles hreply')
    (settles_self hreply)

/-- What the reader decodes for a single reply, and what the reply has come to, was heard. -/
structure Told (r : Roster) (key : Nat) (heard : List UInt8 → Prop) : Prop where
  /-- The payload that the reader has in its hands was heard. -/
  decoding : ∀ payload, r.isAborted = false → r.reading = .decoding (.reply key) payload →
    heard payload
  /-- The message that has decided the reply is a payload that was heard. -/
  outcome : ∀ h message, r.replies[key]? = some h → h.promise.outcome = some (.ok message) →
    ∃ payload, heard payload ∧ Message.decode h.kind payload = .ok message

variable {heard : List UInt8 → Prop}

/-- What was heard is heard where more is. -/
theorem Told.mono {more : List UInt8 → Prop} (h : r.Told key heard)
    (hmore : ∀ payload, heard payload → more payload) : r.Told key more where
  decoding payload hgoesOn hreading := hmore payload (h.decoding payload hgoesOn hreading)
  outcome reply message hreply hok := by
    obtain ⟨payload, hheard, hdecode⟩ := h.outcome reply message hreply hok
    exact ⟨payload, hmore payload hheard, hdecode⟩

/-- A change that brings no message but what was heard. -/
theorem Told.changeReply (h : r.Told key heard) (other : Nat) {change : ReplyHandler → ReplyHandler}
    (hkind : ∀ h : ReplyHandler, (change h).kind = h.kind)
    (hok : ∀ h message, other = key → (change h).promise.outcome = some (.ok message) →
      h.promise.outcome = some (.ok message) ∨
        ∃ payload, heard payload ∧ Message.decode h.kind payload = .ok message) :
    (r.changeReply other change).Told key heard := by
  refine ⟨h.decoding, fun after message hafter houtcome => ?_⟩
  simp only [Roster.changeReply, List.getElem?_modify, Option.map_eq_map,
    Option.map_eq_some_iff] at hafter
  obtain ⟨before, hbefore, rfl⟩ := hafter
  by_cases hkey : other = key
  · rw [if_pos hkey] at houtcome ⊢
    rw [hkind]
    rcases hok before message hkey houtcome with hsame | hheard
    · exact h.outcome before message hbefore hsame
    · exact hheard
  · rw [if_neg hkey] at houtcome ⊢
    exact h.outcome before message hbefore houtcome

/-- What a reply is told was heard, also when a handler is let go of. -/
theorem Told.letGo (h : r.Told key heard) (handler : Handler) :
    (r.letGo handler).Told key heard := by
  cases handler with
  | statement other => exact ⟨h.decoding, h.outcome⟩
  | reply other =>
    exact h.changeReply other (fun _ => rfl) fun _ _ _ hok => .inl (ReplyHandler.ok_of_abandon hok)

/-- What a reply is told was heard, also when the link is closed. -/
theorem Told.shut (h : r.Told key heard) : r.shut.Told key heard :=
  shut_invariant (P := fun r => r.Told key heard) h ⟨h.decoding, h.outcome⟩
    fun _ handler h => h.letGo handler

/-- What a reply is told was heard, also when a call ends. -/
theorem Told.quit (h : r.Told key heard) (t : Nat) (stage : Stage) (response : Option Nat) :
    (r.quit t stage response).Told key heard := by
  have hreleased : (r.release stage).Told key heard := by
    unfold release
    cases stage.carries? with
    | none => cases stage.asks? <;> exact ⟨h.decoding, h.outcome⟩
    | some handler =>
      have hletGo := h.letGo handler
      cases stage.asks? <;> exact ⟨hletGo.decoding, hletGo.outcome⟩
  cases response <;> exact ⟨hreleased.decoding, hreleased.outcome⟩

/-- A reply that is opened has not come to anything. -/
theorem Told.openReply (h : r.Told key heard) (kind : MessageKind)
    (hreading : r'.reading = r.reading) (haborted : r'.isAborted = r.isAborted)
    (hreplies : r'.replies = r.replies ++ [ReplyHandler.ofKind kind]) : r'.Told key heard := by
  refine ⟨fun payload hgoesOn hdecoding =>
    h.decoding payload (haborted ▸ hgoesOn) (hreading ▸ hdecoding), ?_⟩
  intro after message hafter hok
  rw [hreplies, List.getElem?_append] at hafter
  split at hafter
  · exact h.outcome after message hafter hok
  · have hnew := List.mem_of_getElem? hafter
    rw [List.mem_singleton.mp hnew] at hok
    cases hok

/-- As long as nothing is matched to a reply, it comes to no other message than what was heard. -/
theorem Move.told (hmove : r.Move event r') (hoffered : ∀ other, event ≠ some (.offered other))
    (hmatched : event ≠ some (.matched (.reply key))) (h : r.Told key heard) :
    r'.Told key heard := by
  have hsilent {next : Roster} (hreplies : next.replies = r.replies)
      (hreading : ∀ payload, next.reading ≠ .decoding (.reply key) payload) :
      next.Told key heard := by
    refine ⟨fun payload _ hdecoding => absurd hdecoding (hreading payload), ?_⟩
    rw [hreplies]
    exact h.outcome
  cases hmove with
  | beginReply frame other added => exact absurd rfl (hoffered other)
  | openReply kind frame bound use hstage hplain hentered hline =>
    exact h.openReply kind rfl rfl rfl
  | @quit t stage response line hstage hline =>
    have hline : ({ r with line := line } : Roster).Told key heard := ⟨h.decoding, h.outcome⟩
    exact hline.quit t stage response
  | close reader isAborted hheld hstops =>
    -- A reader that has to end decodes nothing more.
    refine ⟨fun payload hgoesOn hdecoding => ?_, h.shut.outcome⟩
    dsimp only at hgoesOn hdecoding
    rw [hgoesOn, hdecoding] at hstops
    rcases hstops with hstopped | haborted
    · cases hstopped
    · cases haborted
  | @take frame handler hreading hgoesOn hfind =>
    refine hsilent rfl fun payload hdecoding => hmatched ?_
    rw [(ReaderStage.decoding.inj hdecoding).1]
  | @answer other payload hreading hgoesOn =>
    have hkind (h : ReplyHandler) : ((h.decode payload).complete).drop.kind = h.kind :=
      (h.comesTo_answer payload).kind
    have hchanged := h.changeReply other hkind fun before message hkey hok => by
      refine (ReplyHandler.ok_of_answer hok).imp id fun hdecode => ⟨payload, ?_, hdecode⟩
      subst hkey
      exact h.decoding payload hgoesOn hreading
    exact ⟨fun payload _ hdecoding => (by cases hdecoding), hchanged.outcome⟩
  | hear row hreading hgoesOn hlive => exact hsilent rfl (by simp)
  | hearEnd hreading hgoesOn hchannel hdone => exact hsilent rfl (by simp)
  | putBack hreading hgoesOn hopen => exact hsilent rfl (by simp)
  | forgetStatement reader hheld hlost hempty =>
    refine hsilent rfl fun payload hdecoding => ?_
    dsimp only at hdecoding
    rw [hdecoding] at hempty
    cases hempty
  | @forgetReply other reader hheld hempty =>
    refine ⟨fun payload _ hdecoding => ?_, (h.letGo (.reply other)).outcome⟩
    dsimp only at hdecoding
    rw [hdecoding] at hempty
    cases hempty
  | halt hempty => exact hsilent rfl (by simp)
  | _ => exact ⟨h.decoding, h.outcome⟩

/-- As long as nothing is matched to a reply, it comes to no other message than what was heard. -/
theorem Moves.told (hmoves : r.Moves events r') (hoffered : ∀ other, .offered other ∉ events)
    (hmatched : .matched (.reply key) ∉ events) (h : r.Told key heard) : r'.Told key heard :=
  hmoves.invariant (P := fun r _ => r.Told key heard) []
    (fun hevent hmove h => hmove.told (fun other hoffers => hoffered other (hevent _ hoffers))
      (fun hmatches => hmatched (hevent _ hmatches)) h) h

end Roster

end BeeProtocol
