import BeeProtocol.Proofs.Link.Registration

/-!
# Single replies

The handler of a single reply waits in the queue on behalf of the one call that wants the reply.
That call takes it off the queue when it ends, and until then it waits or is in the hands of the
reader, unless the reply has been decided.
-/

namespace BeeProtocol

namespace Stage

/-- A call that has nothing to do with a handler claims no reply. -/
theorem IsPlain.not_claims {stage : Stage} (h : stage.IsPlain) (key : Nat) :
    stage.claims? ≠ some key := by
  intro hclaims
  have hasks := asks_of_claims hclaims
  rw [h.asks] at hasks
  cases hasks

/-- A call that carries the handler of a reply for itself wants that reply. -/
theorem asks_of_isOwn {stage : Stage} {key : Nat} (h : stage.IsOwn)
    (hcarries : stage.carries? = some (.reply key)) : stage.asks? = some key := by
  cases stage with
  | called call =>
    cases call with
    | send frame handler =>
      cases hcarries
      cases h
    | _ => cases hcarries
  | sending purpose step =>
    cases step with
    | inLine frame handler =>
      cases hcarries
      obtain ⟨bound, use, rfl⟩ := h
      rfl
    | _ => cases hcarries
  | _ => cases hcarries

/-- What a call wants does not depend on how far it has come with writing. -/
theorem asks_sending (purpose : Purpose) (step step' : SendStep) :
    (sending purpose step).asks? = (sending purpose step').asks? := by cases purpose <;> rfl

end Stage

namespace Roster

variable {r r' : Roster} {event : Option Event} {key : Nat}

/-- How many calls want a single reply. -/
def asked (r : Roster) (key : Nat) : Nat := r.stages.countP fun stage => stage.asks? == some key

/-- Each single reply is wanted by at most one call. -/
def AskedOnce (r : Roster) : Prop :=
  ∀ key, r.asked key ≤ 1 ∧ (0 < r.asked key → r.Knows (.reply key))

/-- A call that moves asks for what its new stage does. -/
theorem asked_move {t : Nat} {stage : Stage} (h : r.stages[t]? = some stage) (new : Stage)
    (key : Nat) :
    (r.move t new).asked key + (stage.asks? == some key).toNat =
      r.asked key + (new.asks? == some key).toNat :=
  Stage.countP_set h new _

/-- A new call asks for what its stage does. -/
theorem asked_append (stages : List Stage) (new : Stage) (key : Nat) :
    ({ r with stages := stages ++ [new] } : Roster).asked key =
      ({ r with stages := stages } : Roster).asked key + (new.asks? == some key).toNat := by
  unfold asked
  rw [List.countP_append, List.countP_singleton]
  cases new.asks? == some key <;> rfl

/-- What a call asks for is asked for. -/
theorem asked_pos {t : Nat} {stage : Stage} (h : r.stages[t]? = some stage)
    (hasks : stage.asks? = some key) : 0 < r.asked key :=
  List.countP_pos_iff.mpr ⟨stage, List.mem_of_getElem? h, by simp [hasks]⟩

/-- Nobody starts to want a single reply, unless it is a new one. -/
theorem Move.asked_cases (hmove : r.Move event r') (key : Nat) :
    r'.asked key ≤ r.asked key ∨
      key = r.replies.length ∧ r'.asked key ≤ r.asked key + 1 ∧ r'.Knows (.reply key) := by
  cases hmove with
  | begin stage hplain =>
    have hasked := asked_append (r := r) r.stages stage key
    rw [hplain.asks] at hasked
    exact .inl (Nat.le_of_eq hasked)
  | beginStatement frame id capacity bound =>
    have hasked := asked_append (r := r) r.stages
      (.called (.send frame (some (.statement r.channels.length)))) key
    exact .inl (Nat.le_of_eq hasked)
  | beginReply frame other added =>
    have hasked := asked_append (r := r) r.stages (.called (.send frame (some (.reply other)))) key
    exact .inl (Nat.le_of_eq hasked)
  | goOn new hstage hgoesOn hline =>
    have hasked := asked_move hstage new key
    rw [hgoesOn.asks] at hasked
    exact .inl (Nat.le_of_eq (Nat.add_right_cancel hasked))
  | @openReply t stage kind frame bound use line hstage hplain hentered hline =>
    have hasked := asked_move hstage (.sending (.reply r.replies.length bound use)
      (.inLine frame (some (.reply r.replies.length)))) key
    rw [hplain.asks] at hasked
    by_cases hkey : key = r.replies.length
    · subst hkey
      rw [Stage.asks?, beq_self_eq_true, Bool.toNat_true] at hasked
      exact .inr ⟨rfl, Nat.le_of_eq hasked, by simp [Knows, move]⟩
    · have hother : (some r.replies.length == some key) = false := by simp [Ne.symm hkey]
      rw [Stage.asks?, hother] at hasked
      exact .inl (Nat.le_of_eq hasked)
  | @openStatement t stage id capacity bound frame line hstage hplain hentered hline =>
    have hasked := asked_move hstage (.sending (.statement r.channels.length)
      (.inLine frame (some (.statement r.channels.length)))) key
    rw [hplain.asks] at hasked
    exact .inl (Nat.le_of_eq hasked)
  | @enter t purpose frame hstage hwriter =>
    have hasked := asked_move hstage (.sending purpose (.holding frame)) key
    rw [Stage.asks_sending purpose (.holding frame) (.inLine frame none)] at hasked
    exact .inl (Nat.le_of_eq (Nat.add_right_cancel hasked))
  | @register t purpose frame handler hstage hwriter hopen =>
    have hasked := asked_move hstage (.sending purpose (.holding frame)) key
    rw [Stage.asks_sending purpose (.holding frame) (.inLine frame (some handler))] at hasked
    exact .inl (Nat.le_of_eq (Nat.add_right_cancel hasked))
  | @encode t purpose frame hstage =>
    have hasked := asked_move hstage (.sending purpose .flushing) key
    rw [Stage.asks_sending purpose .flushing (.holding frame)] at hasked
    exact .inl (Nat.le_of_eq (Nat.add_right_cancel hasked))
  | @quit t stage response line hstage hline =>
    have hasked := asked_move hstage .ended key
    left
    rw [asked, quit_stages]
    exact Nat.le.intro hasked
  | close reader isAborted hheld hstops =>
    left
    change r.shut.stages.countP _ ≤ _
    rw [shut_stages]
    exact Nat.le_refl _
  | _ => exact .inl (Nat.le_refl _)

/-- Nobody starts to want a single reply that there is already. -/
theorem Move.asked_le (hmove : r.Move event r') (hknows : r.Knows (.reply key)) :
    r'.asked key ≤ r.asked key :=
  (hmove.asked_cases key).resolve_right fun ⟨hnew, _⟩ => Nat.ne_of_lt hknows hnew

/-- No call wants what another one wants already. -/
theorem Move.askedOnce (hmove : r.Move event r') (h : r.AskedOnce) : r'.AskedOnce := by
  intro key
  obtain ⟨honce, hknows⟩ := h key
  rcases hmove.asked_cases key with hle | ⟨rfl, hone, hknown⟩
  · exact ⟨hle.trans honce, fun hpos => hmove.knows (hknows (Nat.lt_of_lt_of_le hpos hle))⟩
  · -- The reply is new, so nobody wanted it before.
    have hnone : r.asked r.replies.length = 0 := by
      by_contra hpos
      exact Nat.lt_irrefl _ (hknows (Nat.pos_of_ne_zero hpos))
    exact ⟨by omega, fun _ => hknown⟩

/-- Whatever is done with a link, each single reply is wanted by at most one call. -/
theorem Moves.askedOnce {events : List Event} (hmoves : r.Moves events r') (h : r.AskedOnce) :
    r'.AskedOnce :=
  hmoves.invariant (P := fun r _ => r.AskedOnce) [] (fun _ hmove h => hmove.askedOnce h) h

/-! ### Replies that are wanted -/

/-- The handler of a reply that goes on waits or is in the hands of the reader. -/
def Awaits (r : Roster) (key : Nat) : Prop :=
  r.goesOn (.reply key) → .reply key ∈ r.pending ∨ r.reading.held? = some (.reply key)

/-- The handler of a reply that a call has registered for itself waits, or is in the hands of the
reader, until the reply is decided. -/
def Answered (r : Roster) : Prop :=
  ∀ stage ∈ r.stages, ∀ key, stage.claims? = some key → r.Awaits key

/-- Closing decides all replies that wait. -/
theorem awaits_shut (h : r.Awaits key) : r.shut.Awaits key := by
  unfold shut
  split
  · exact h
  · intro hgoesOn
    obtain ⟨channels, replies, hfold⟩ :=
      foldl_letGo_eq r.pending { r with isClosed := true, pending := [] }
    have hsame : ({ r with isClosed := true, pending := [] } : Roster).goesOn (.reply key) =
        r.goesOn (.reply key) := rfl
    rw [goesOn_foldl_letGo, hsame, Bool.and_eq_true, Bool.not_eq_true', List.contains_eq_mem,
      decide_eq_false_iff_not] at hgoesOn
    rcases h hgoesOn.1 with hmem | hheld
    · exact absurd hmem hgoesOn.2
    · right
      rw [hfold]
      exact hheld

/-- What is taken off the queue for another purpose leaves the reply awaited. -/
theorem Awaits.of_kept (h : r.Awaits key)
    (hgoesOn : r'.goesOn (.reply key) → r.goesOn (.reply key))
    (hpending : .reply key ∈ r.pending → .reply key ∈ r'.pending)
    (hheld : r.reading.held? = some (.reply key) → r'.reading.held? = some (.reply key)) :
    r'.Awaits key :=
  fun h' => (h (hgoesOn h')).imp hpending hheld

/-- The reply whose handler the reader has done with is decided. -/
theorem Awaits.of_decided (h : r.Awaits key) {other : Nat}
    (hheld : r.reading.held? = some (.reply other)) (hpending : r'.pending = r.pending)
    (hgoesOn : r'.goesOn (.reply key) =
      (r.goesOn (.reply key) && Handler.reply key != .reply other)) : r'.Awaits key := by
  intro h'
  rw [hgoesOn, Bool.and_eq_true, bne_iff_ne] at h'
  rcases h h'.1 with hmem | hsame
  · exact .inl (hpending ▸ hmem)
  · rw [hheld, Option.some.injEq] at hsame
    exact absurd hsame.symm h'.2

/-- A reply stays awaited as long as the call that wants it goes on. -/
theorem Move.awaits (hmove : r.Move event r') (honce : r.AskedOnce) (hwanted : 0 < r'.asked key)
    (hknows : r.Knows (.reply key)) (h : r.Awaits key) : r'.Awaits key := by
  have hgoesOn := hmove.goesOn_of_goesOn hknows
  cases hmove with
  | register hstage hwriter hopen =>
    exact h.of_kept hgoesOn (fun hmem => List.mem_append_left _ hmem) id
  | @quit t stage response line hstage hline =>
    have hother : stage.asks? ≠ some key := by
      intro hasks
      have hasked := asked_move hstage .ended key
      rw [hasks, beq_self_eq_true, Bool.toNat_true] at hasked
      have hleft : r.asked key = (r.move t .ended).asked key + 1 := hasked.symm
      have hafter : (({ r with line := line } : Roster).quit t stage response).asked key =
          (r.move t .ended).asked key := by
        rw [asked, quit_stages]
        rfl
      have hone := (honce key).1
      omega
    refine h.of_kept hgoesOn (fun hmem => ?_) (fun hheld => by rw [quit_reading]; exact hheld)
    rw [quit_pending]
    cases hasks : stage.asks? with
    | none => exact hmem
    | some other =>
      rw [hasks] at hother
      refine List.mem_filter.mpr ⟨hmem, ?_⟩
      simpa using fun heq => hother (by rw [heq])
  | close reader isAborted hheld hstops =>
    refine (awaits_shut h).of_kept id id fun hheld' => ?_
    rw [shut_reading] at hheld'
    rw [← hheld']
    exact hheld
  | @take frame handler hreading hnotAborted hfind =>
    intro h'
    rcases h (hgoesOn h') with hmem | hheld
    · by_cases hhandler : handler = .reply key
      · subst hhandler
        exact .inr rfl
      · exact .inl ((List.mem_erase_of_ne (Ne.symm hhandler)).mpr hmem)
    · rw [hreading] at hheld
      cases hheld
  | @answer other payload hreading hnotAborted =>
    have hheld : r.reading.held? = some (.reply other) := by
      rw [hreading]
      rfl
    refine h.of_decided hheld rfl ?_
    have hends : ∀ h : ReplyHandler, ((h.decode payload).complete).drop.promise.isComplete = true :=
      fun h => settle_isComplete _ _
    exact goesOn_changeReply_end hends (.reply key)
  | hear row hreading hnotAborted hlive =>
    exact h.of_kept hgoesOn id fun hheld => by rw [hreading] at hheld; cases hheld
  | hearEnd hreading hnotAborted hchannel hdone =>
    exact h.of_kept hgoesOn id fun hheld => by rw [hreading] at hheld; cases hheld
  | putBack hreading hnotAborted hopen =>
    exact h.of_kept hgoesOn (List.mem_cons_of_mem _)
      fun hheld => by rw [hreading] at hheld; cases hheld
  | forgetStatement reader hheld hlost hempty =>
    exact h.of_kept hgoesOn id fun hheld' => by rw [hheld] at hheld'; cases hheld'
  | @forgetReply other reader hheld hempty =>
    exact h.of_decided hheld rfl (goesOn_letGo r (.reply other) (.reply key))
  | halt hempty => exact h.of_kept hgoesOn id fun hheld => by rw [hempty] at hheld; cases hheld
  | _ => exact h.of_kept hgoesOn id id

/-- A call claims a reply from when it registers the handler. -/
theorem CallMove.claims {stages : List Stage} {line : List Nat}
    (hmove : r.CallMove event stages line) (hconsistent : ∀ stage ∈ r.stages, stage.IsConsistent)
    {stage : Stage} (hmem : stage ∈ stages) (hclaims : stage.claims? = some key) :
    (∃ before ∈ r.stages, before.claims? = some key) ∨
      ∃ t, event = some (.registered t (.reply key)) := by
  cases hmove with
  | begin _ added hwrites hnone hadded hown hsilent =>
    rcases List.mem_append.mp hmem with hmem | hmem
    · exact .inl ⟨stage, hmem, hclaims⟩
    · rw [hnone stage hmem] at hclaims
      cases hclaims
  | @goOn t before new _ hstage hwrites hkept hnew hown hentered hline =>
    rcases List.mem_or_eq_of_mem_set hmem with hmem | rfl
    · exact .inl ⟨stage, hmem, hclaims⟩
    · exact .inl ⟨before, List.mem_of_getElem? hstage, hkept key hclaims⟩
  | @enter t purpose frame hstage hwriter =>
    rcases List.mem_or_eq_of_mem_set hmem with hmem | rfl
    · exact .inl ⟨stage, hmem, hclaims⟩
    · have hcarries := hconsistent _ (List.mem_of_getElem? hstage)
      cases purpose with
      | reply other bound use => cases hcarries
      | _ => cases hclaims
  | @register t purpose frame handler hstage hwriter =>
    rcases List.mem_or_eq_of_mem_set hmem with hmem | rfl
    · exact .inl ⟨stage, hmem, hclaims⟩
    · have hcarries := hconsistent _ (List.mem_of_getElem? hstage)
      cases purpose with
      | reply other bound use =>
        rw [Option.some.inj hcarries, ← Option.some.inj hclaims]
        exact .inr ⟨t, rfl⟩
      | _ => cases hclaims
  | @encode t purpose frame hstage =>
    rcases List.mem_or_eq_of_mem_set hmem with hmem | rfl
    · exact .inl ⟨stage, hmem, hclaims⟩
    · refine .inl ⟨_, List.mem_of_getElem? hstage, ?_⟩
      cases purpose with
      | reply other bound use => exact hclaims
      | _ => cases hclaims

/-- Every move keeps the replies answered that are asked for. -/
theorem Move.answered (hmove : r.Move event r')
    (hconsistent : ∀ stage ∈ r.stages, stage.IsConsistent) (honce : r.AskedOnce)
    (h : r.Answered) : r'.Answered := by
  intro stage hmem key hclaims
  have hwanted : 0 < r'.asked key :=
    List.countP_pos_iff.mpr ⟨stage, hmem, by simp [Stage.asks_of_claims hclaims]⟩
  rcases hmove.callMove.claims hconsistent hmem hclaims with ⟨before, hbefore, hclaims'⟩ | ⟨t, rfl⟩
  · have hasked : 0 < r.asked key :=
      List.countP_pos_iff.mpr ⟨before, hbefore, by simp [Stage.asks_of_claims hclaims']⟩
    exact hmove.awaits honce hwanted ((honce key).2 hasked) (h before hbefore key hclaims')
  · -- The handler has just joined the queue.
    intro _
    cases hmove with
    | register hstage hwriter hopen =>
      exact .inl (List.mem_append_right _ (List.mem_singleton_self _))

/-- Whatever is done with a link, claimed replies stay awaited. -/
theorem Moves.answered {events log : List Event} (hmoves : r.Moves events r')
    (hwire : WireOrder r.stages r.line log) (honce : r.AskedOnce) (h : r.Answered) :
    r'.Answered := by
  refine (hmoves.invariant (P := fun r log =>
    WireOrder r.stages r.line log ∧ r.AskedOnce ∧ r.Answered) log ?_ ⟨hwire, honce, h⟩).2.2
  rintro r r' event log - hmove ⟨hwire, honce, h⟩
  exact ⟨hmove.callMove.wireOrder hwire, hmove.askedOnce honce,
    hmove.answered hwire.consistent honce h⟩

/-! ### Handlers that wait for a call -/

/-- The handler of a single reply waits only on behalf of a call. -/
def ClaimedFor (r : Roster) (key : Nat) : Prop :=
  .reply key ∈ r.pending → ∃ stage ∈ r.stages, stage.claims? = some key

/-- A handler of a single reply waits on behalf of a call. -/
def Claimed (r : Roster) : Prop :=
  ∀ key, .reply key ∈ r.pending → ∃ stage ∈ r.stages, stage.claims? = some key

/-- The handler of a reply is carried by the call that wants it, unless somebody brings one. -/
theorem CallMove.own {stages : List Stage} {line : List Nat} (hmove : r.CallMove event stages line)
    (hown : ∀ key, event ≠ some (.offered key)) (h : ∀ stage ∈ r.stages, stage.IsOwn) :
    ∀ stage ∈ stages, stage.IsOwn := by
  intro stage hmem
  cases hmove with
  | begin _ added hwrites hclaims hadded hnew hsilent =>
    rcases List.mem_append.mp hmem with hmem | hmem
    · exact h stage hmem
    · exact hnew hown stage hmem
  | @goOn t before new _ hstage hwrites hclaims hnew hkept hentered hline =>
    rcases List.mem_or_eq_of_mem_set hmem with hmem | rfl
    · exact h stage hmem
    · exact hkept (h before (List.mem_of_getElem? hstage))
  | _ =>
    rcases List.mem_or_eq_of_mem_set hmem with hmem | rfl
    · exact h stage hmem
    · trivial

/-- A call that moves keeps what it claims. -/
theorem ClaimedFor.move (h : r.ClaimedFor key) {t : Nat} {before new : Stage}
    (hbefore : r.stages[t]? = some before)
    (hkept : before.claims? = some key → new.claims? = some key) (hmem : .reply key ∈ r.pending) :
    ∃ stage ∈ r.stages.set t new, stage.claims? = some key := by
  obtain ⟨claimant, hclaimant, hclaims⟩ := h hmem
  rcases Lists.mem_set_of_mem hbefore new hclaimant with hstays | rfl
  · exact ⟨claimant, hstays, hclaims⟩
  · exact ⟨new, List.mem_of_getElem? (Lists.getElem?_set_of_some hbefore new), hkept hclaims⟩

/-- A reply that is claimed stays so when calls begin. -/
theorem ClaimedFor.begin (h : r.ClaimedFor key) (hmem : .reply key ∈ r.pending)
    (added : List Stage) : ∃ stage ∈ r.stages ++ added, stage.claims? = some key := by
  obtain ⟨claimant, hclaimant, hclaims⟩ := h hmem
  exact ⟨claimant, List.mem_append_left _ hclaimant, hclaims⟩

/-- Every move leaves the handler of a reply claimed, as long as only the call brings it that wants
the reply. -/
theorem Move.claimedFor (hmove : r.Move event r')
    (hown : ∀ stage ∈ r.stages, stage.carries? = some (.reply key) → stage.asks? = some key)
    (h : r.ClaimedFor key) : r'.ClaimedFor key := by
  intro hmem
  cases hmove with
  | begin stage hplain => exact h.begin hmem [stage]
  | beginStatement frame id capacity bound => exact h.begin hmem [_]
  | beginReply frame other added => exact h.begin hmem [_]
  | goOn new hstage hgoesOn hline =>
    exact h.move hstage (fun hclaims => hgoesOn.claims.trans hclaims) hmem
  | openReply kind frame bound use hstage hplain hentered hline =>
    exact h.move hstage (fun hclaims => absurd hclaims (hplain.not_claims key)) hmem
  | openStatement id capacity bound frame hstage hplain hentered hline =>
    exact h.move hstage (fun hclaims => absurd hclaims (hplain.not_claims key)) hmem
  | @enter t purpose frame hstage hwriter =>
    refine h.move hstage (fun hclaims => ?_) hmem
    cases purpose <;> cases hclaims
  | @register t purpose frame handler hstage hwriter hopen =>
    rcases List.mem_append.mp hmem with hmem | hmem
    · refine h.move hstage (fun hclaims => ?_) hmem
      cases purpose <;> cases hclaims
    · obtain rfl := List.mem_singleton.mp hmem
      have hasks := hown _ (List.mem_of_getElem? hstage) rfl
      refine ⟨_, List.mem_of_getElem? (Lists.getElem?_set_of_some hstage _), ?_⟩
      cases purpose with
      | reply other bound use => exact hasks
      | _ => cases hasks
  | @encode t purpose frame hstage =>
    refine h.move hstage (fun hclaims => ?_) hmem
    cases purpose with
    | reply other bound use => exact hclaims
    | _ => cases hclaims
  | @quit t stage response line hstage hline =>
    rw [quit_pending] at hmem
    rw [quit_stages]
    cases hasks : stage.asks? with
    | none =>
      rw [hasks] at hmem
      refine h.move hstage (fun hclaims => ?_) hmem
      rw [Stage.asks_of_claims hclaims] at hasks
      cases hasks
    | some other =>
      rw [hasks] at hmem
      obtain ⟨hmem, hother⟩ := List.mem_filter.mp hmem
      refine h.move hstage (fun hclaims => ?_) hmem
      rw [Stage.asks_of_claims hclaims] at hasks
      simp [Option.some.inj hasks] at hother
  | close reader isAborted hheld hstops =>
    have hclaims := h (r.shut_pending_sublist.subset hmem)
    dsimp only
    rw [shut_stages]
    exact hclaims
  | take hreading hgoesOn hfind => exact h (List.mem_of_mem_erase hmem)
  | putBack hreading hgoesOn hopen =>
    rcases List.mem_cons.mp hmem with heq | hmem
    · cases heq
    · exact h hmem
  | _ => exact h hmem

/-- Every move leaves the handlers of replies claimed, as long as calls bring only their own. -/
theorem Move.claimed (hmove : r.Move event r') (hown : ∀ stage ∈ r.stages, stage.IsOwn)
    (h : r.Claimed) : r'.Claimed := fun key =>
  hmove.claimedFor (fun stage hmem => Stage.asks_of_isOwn (hown stage hmem)) (h key)

end Roster

end BeeProtocol
