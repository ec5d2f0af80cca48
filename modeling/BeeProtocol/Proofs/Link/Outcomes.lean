import BeeProtocol.Proofs.Link.Docket
import BeeProtocol.Proofs.Link.Hearing
import BeeProtocol.Proofs.Link.OpenReader

/-!
# What single replies come to

A single reply is decided by the payload that its handler is handed, or fails because nobody will
hand it one any more: the link was closed, or the call that asked for it has ended. As long as that
call goes on, what has come of the reply tells whether a payload was handed over, and which one.
-/

namespace BeeProtocol

namespace Roster

variable {r r' r'' : Roster} {event : Option Event} {events : List Event} {key other : Nat}

/-! ### Replies that fail -/

/-- What has come of the reply under a key. -/
def outcome? (r : Roster) (key : Nat) : Option (Outcome Message) :=
  (r.replies[key]?).bind (·.promise.outcome)

/-- A reply stays as it is, or fails if nothing has come of it. -/
def Loses (r r' : Roster) (key : Nat) : Prop :=
  r'.outcome? key = r.outcome? key ∨
    r'.outcome? key = some ((r.outcome? key).getD (.error .connectionClosed))

/-- Changes that only lose a reply add up. -/
theorem Loses.trans (h : r.Loses r' key) (h' : r'.Loses r'' key) : r.Loses r'' key := by
  unfold Loses at *
  rcases h with h | h
  · rwa [h] at h'
  · right
    simpa [h] using h'

/-- A reply with an outcome is there. -/
theorem knows_of_outcome {outcome : Outcome Message} (h : r.outcome? key = some outcome) :
    r.Knows (.reply key) := by
  obtain ⟨reply, hreply, -⟩ := Option.bind_eq_some_iff.mp h
  exact (List.getElem?_eq_some_iff.mp hreply).1

/-- A change of another reply leaves the outcome. -/
theorem outcome_changeReply_of_ne (h : other ≠ key) (change : ReplyHandler → ReplyHandler) :
    (r.changeReply other change).outcome? key = r.outcome? key := by
  simp [outcome?, changeReply, h]

/-- Letting go of another handler leaves the outcome. -/
theorem outcome_letGo_of_ne {handler : Handler} (h : handler ≠ .reply key) :
    (r.letGo handler).outcome? key = r.outcome? key := by
  cases handler with
  | statement other => rfl
  | reply other => exact outcome_changeReply_of_ne (fun hkey => h (congrArg _ hkey)) _

/-- Letting go of a handler loses what it stands for at most. -/
theorem loses_letGo (r : Roster) (handler : Handler) (key : Nat) :
    r.Loses (r.letGo handler) key := by
  by_cases h : handler = .reply key
  · subst h
    unfold Loses outcome?
    rw [letGo, changeReply, List.getElem?_modify_eq]
    cases r.replies[key]? with
    | none => exact .inl rfl
    | some reply => exact .inr (reply.outcome_settle _)
  · exact .inl (outcome_letGo_of_ne h)

/-- Closing a link loses the replies that wait. -/
theorem loses_shut (r : Roster) (key : Nat) : r.Loses r.shut key :=
  shut_invariant (P := fun next => r.Loses next key) (.inl rfl) (.inl rfl)
    fun next handler h => h.trans (next.loses_letGo handler key)

/-- Nothing has come of a reply that is new. -/
theorem outcome_append (r : Roster) (kind : MessageKind) (key : Nat) :
    ({ r with replies := r.replies ++ [.ofKind kind] } : Roster).outcome? key =
      r.outcome? key := by
  unfold outcome?
  dsimp only
  rw [List.getElem?_append]
  split
  · rfl
  · rename_i hnew
    rw [List.getElem?_eq_none_iff.mpr (Nat.le_of_not_lt hnew), List.getElem?_singleton]
    split <;> rfl

/-- A call that ends fails no reply but the one whose handler it carries. -/
theorem outcome_quit (r : Roster) (t : Nat) (stage : Stage) (response : Option Nat) (key : Nat) :
    (r.quit t stage response).outcome? key = (stage.carries?.elim r r.letGo).outcome? key := by
  unfold quit release
  cases response <;> cases stage.asks? <;> rfl

/-! ### Replies of which nothing is known -/

/-- Nothing has come of a reply, or it has failed and nobody waits for it: the link is closed, or no
call asks for it. -/
def Unheard (r : Roster) (key : Nat) : Prop :=
  r.outcome? key = none ∨
    r.outcome? key = some (.error .connectionClosed) ∧ (r.isClosed ∨ r.asked key = 0)

/-- A reply stays unheard if its outcome stays and no other call asks for it. -/
theorem Unheard.of_same (h : r.Unheard key) (houtcome : r'.outcome? key = r.outcome? key)
    (hclosed : r.isClosed → r'.isClosed)
    (hasked : r.Knows (.reply key) → r'.asked key ≤ r.asked key) : r'.Unheard key := by
  unfold Unheard
  rw [houtcome]
  refine h.imp id fun ⟨hfailed, hover⟩ => ⟨hfailed, hover.imp hclosed fun hnone => ?_⟩
  have := hasked (knows_of_outcome hfailed)
  omega

/-- A reply that is lost stays unheard if the link is closed or nobody asks for it. -/
theorem Unheard.of_loses (h : r.Unheard key) (hloses : r.Loses r' key)
    (hover : r'.isClosed ∨ r'.asked key = 0) : r'.Unheard key := by
  unfold Unheard
  rcases hloses with hsame | hfailed
  · rw [hsame]
    exact h.imp id fun h => ⟨h.1, hover⟩
  · refine .inr ⟨?_, hover⟩
    rw [hfailed]
    rcases h with hnone | ⟨hlost, -⟩
    · rw [hnone, Option.getD_none]
    · rw [hlost, Option.getD_some]

/-- A reply stays unheard when a call ends, even one that has asked for it. -/
theorem Unheard.quit (h : r.Unheard key) {t : Nat} {stage : Stage}
    (hstage : r.stages[t]? = some stage) (hown : stage.IsOwn) (honce : r.asked key ≤ 1)
    (response : Option Nat) : (r.quit t stage response).Unheard key := by
  have hasked := asked_move hstage .ended key
  have hmoved : (r.quit t stage response).asked key = (r.move t .ended).asked key := by
    unfold asked
    rw [quit_stages]
    rfl
  rw [show (Stage.ended.asks? == some key) = false from rfl, Bool.toNat_false] at hasked
  by_cases hcarries : stage.carries? = some (.reply key)
  · refine h.of_loses ?_ (.inr ?_)
    · unfold Loses
      rw [outcome_quit, hcarries]
      exact r.loses_letGo (.reply key) key
    · -- The call that carries the handler is the one that asks for the reply.
      rw [hmoved]
      rw [Stage.asks_of_isOwn hown hcarries, beq_self_eq_true, Bool.toNat_true] at hasked
      omega
  · refine h.of_same ?_ (fun hclosed => (quit_isClosed ..).trans hclosed) fun _ => ?_
    · rw [outcome_quit]
      cases hcarried : stage.carries? with
      | none => rfl
      | some handler => exact outcome_letGo_of_ne fun hkey => hcarries (hkey ▸ hcarried)
    · omega

/-- Who is held after a move was held before it, or was taken off the queue. -/
theorem Move.held_cases (hmove : r.Move event r') {handler : Handler}
    (hheld : r'.reading.held? = some handler) :
    r.reading.held? = some handler ∨ event = some (.matched handler) := by
  cases hmove with
  | quit response hstage hline =>
    rw [quit_reading] at hheld
    exact .inl hheld
  | close reader isAborted hsame hstops => exact .inl (hsame ▸ hheld)
  | take hreading hgoesOn hfind =>
    obtain rfl := Option.some.inj hheld
    exact .inr rfl
  | hear row hreading hgoesOn hlive =>
    rw [hreading]
    exact .inl hheld
  | forgetStatement reader hholds hlost hempty => cases hempty.symm.trans hheld
  | forgetReply reader hholds hempty => cases hempty.symm.trans hheld
  | answer hreading hgoesOn => cases hheld
  | hearEnd hreading hgoesOn hchannel hdone => cases hheld
  | putBack hreading hgoesOn hopen => cases hheld
  | halt hempty => cases hheld
  | _ => exact .inl hheld

/-- The reader holds a handler that it held before or that was matched since. -/
theorem Moves.held_cases (hmoves : r.Moves events r') {handler : Handler}
    (hheld : r'.reading.held? = some handler) :
    r.reading.held? = some handler ∨ .matched handler ∈ events := by
  induction hmoves with
  | nil r => exact .inl hheld
  | cons hmove hrest ih =>
    rcases ih hheld with hheld | hmatched
    · exact (hmove.held_cases hheld).imp id fun hmatched => by simp [hmatched]
    · exact .inr (List.mem_append_right _ hmatched)

/-- The reader of an open link decides the reply whose handler it holds. -/
def Decides (r r' : Roster) (key : Nat) : Prop :=
  r.isClosed = false ∧ r.reading.held? = some (.reply key) ∧
    r'.reading.held? ≠ some (.reply key)

/-- Only the reader decides a reply for which a call still waits on an open link. -/
theorem Move.unheard (hmove : r.Move event r') (hoffered : ∀ other, event ≠ some (.offered other))
    (hshut : r.IsShut) (hown : ∀ stage ∈ r.stages, stage.IsOwn) (honce : r.AskedOnce)
    (h : r.Unheard key) : r'.Unheard key ∨ r.Decides r' key := by
  have hasked (hknows : r.Knows (.reply key)) : r'.asked key ≤ r.asked key :=
    hmove.asked_le hknows
  cases hmove with
  | beginReply frame other added => exact absurd rfl (hoffered other)
  | openReply kind frame bound use hstage hplain hentered hline =>
    exact .inl (h.of_same (r.outcome_append kind key) id hasked)
  | @quit t stage response line hstage hline =>
    refine .inl (Unheard.quit (r := { r with line := line }) h hstage ?_ (honce key).1 response)
    exact hown stage (List.mem_of_getElem? hstage)
  | close reader isAborted hheld hstops =>
    exact .inl (h.of_loses (r.loses_shut key) (.inl r.shut_isClosed))
  | @answer other payload hreading hgoesOn =>
    by_cases hkey : other = key
    · refine .inr ⟨hshut.isClosed_eq_false hgoesOn (by rw [hreading]; rfl), ?_, nofun⟩
      rw [hreading, hkey]
      rfl
    · exact .inl (h.of_same (outcome_changeReply_of_ne hkey _) id hasked)
  | @forgetReply other reader hheld hempty =>
    by_cases hkey : other = key
    · subst hkey
      cases hclosed : r.isClosed with
      | true => exact .inl (h.of_loses (r.loses_letGo (.reply other) other) (.inl hclosed))
      | false => exact .inr ⟨hclosed, hheld, by rw [hempty]; nofun⟩
    · exact .inl (h.of_same (outcome_changeReply_of_ne hkey _) id hasked)
  | _ => exact .inl (h.of_same rfl id hasked)

/-- A reply stays unheard unless its handler is matched or the reader decides it. -/
theorem Moves.unheard (hmoves : r.Moves events r') (hoffered : ∀ other, .offered other ∉ events)
    (hshut : r.IsShut) (hown : ∀ stage ∈ r.stages, stage.IsOwn) (honce : r.AskedOnce)
    (h : r.Unheard key) : r'.Unheard key ∨
      r.isClosed = false ∧ (.matched (.reply key) ∈ events ∨ r.Decides r' key) := by
  induction hmoves with
  | nil r => exact .inl h
  | @cons r next last event events hmove hrest ih =>
    have hfirst (other : Nat) : event ≠ some (.offered other) := by
      rintro rfl
      exact hoffered other (List.mem_append_left _ (List.mem_singleton_self _))
    have hlater (other : Nat) : .offered other ∉ events := fun hmem =>
      hoffered other (List.mem_append_right _ hmem)
    have hopens (hopen : next.isClosed = false) : r.isClosed = false := by
      by_contra hclosed
      rw [hmove.isClosed (by simpa using hclosed)] at hopen
      cases hopen
    rcases hmove.unheard hfirst hshut hown honce h with hnext | ⟨hopen, hheld, hnot⟩
    · rcases ih hlater (hmove.isShut hshut) (hmove.callMove.own hfirst hown)
        (hmove.askedOnce honce) hnext with hlast | ⟨hopen, hmatched | ⟨-, hheld, hnot⟩⟩
      · exact .inl hlast
      · exact .inr ⟨hopens hopen, .inl (List.mem_append_right _ hmatched)⟩
      · refine .inr ⟨hopens hopen, ?_⟩
        rcases hmove.held_cases hheld with hbefore | hmatched
        · exact .inr ⟨hopens hopen, hbefore, hnot⟩
        · exact .inl (by simp [hmatched])
    · refine .inr ⟨hopen, ?_⟩
      by_cases hlast : last.reading.held? = some (.reply key)
      · exact .inl (List.mem_append_right _ ((hrest.held_cases hlast).resolve_left hnot))
      · exact .inr ⟨hopen, hheld, hlast⟩

section

variable {codec : Codec} {f f' : Feed} {goesOn : Bool}

/-- A reader that holds no payload for a reply decides it only by closing the link. -/
theorem ReaderStep.unheard (hstep : ReaderStep codec r f r' f' goesOn)
    (hnot : ∀ payload, r.reading ≠ .decoding (.reply key) payload) (h : r.Unheard key) :
    r'.Unheard key := by
  cases hstep with
  | close hreading hdecode hover => exact h.of_loses (r.loses_shut key) (.inl r.shut_isClosed)
  | @answer other payload hreading =>
    have hkey : other ≠ key := by
      rintro rfl
      exact hnot payload hreading
    exact h.of_same (outcome_changeReply_of_ne hkey _) id fun _ => le_rfl
  | _ => exact h.of_same rfl id fun _ => le_rfl

/-- A reader that holds a payload for a reply decides it by that. -/
theorem ReaderStep.answers (hstep : ReaderStep codec r f r' f' goesOn) {payload : List UInt8}
    (hreading : r.reading = .decoding (.reply key) payload) :
    r'.replies = r.replies.modify key fun h => ((h.decode payload).complete).drop := by
  cases hstep with
  | answer hholds =>
    rw [hreading] at hholds
    cases hholds
    rfl
  | skip hholds | take hholds | wait hholds | chunk hholds | ended hholds | close hholds
  | hearRow hholds | hear hholds | store hholds | stall hholds | rest hholds =>
    rw [hreading] at hholds
    cases hholds

end

end Roster

/-- The payloads that a reader at this stage hands to the handler of a reply. -/
def ReaderStage.payloadsFor (key : Nat) : ReaderStage → List (List UInt8)
  | decoding (.reply other) payload => if other = key then [payload] else []
  | _ => []

namespace Link

variable {s : Link} {action : Action} {key : Nat} {log : List Event} {handed : List (List UInt8)}

/-! ### What a handler is handed -/

/-- The payloads that are handed to the handler of a reply in an action. -/
def handedAt (s : Link) (key : Nat) : Action → List (List UInt8)
  | .turn .reader => if s.reader.isAborted then [] else s.reader.stage.payloadsFor key
  | _ => []

/-- The payloads that are handed to the handler of a reply in a run. -/
def handedIn (s : Link) (key : Nat) : List Action → List (List UInt8)
  | [] => []
  | action :: actions => s.handedAt key action ++ (s.act action).handedIn key actions

/-- What a reply is handed in two parts of a run adds up. -/
theorem handedIn_append (s : Link) (key : Nat) (actions more : List Action) :
    s.handedIn key (actions ++ more) =
      s.handedIn key actions ++ (actions.foldl act s).handedIn key more := by
  induction actions generalizing s with
  | nil => rfl
  | cons action actions ih =>
    rw [List.cons_append, handedIn, ih, ← List.append_assoc, handedIn, List.foldl_cons]

/-- Only the reader hands payloads to replies. -/
theorem handedAt_of_ne (h : action ≠ .turn .reader) : s.handedAt key action = [] := by
  cases action with
  | turn actor =>
    cases actor with
    | reader => exact absurd rfl h
    | task t => rfl
  | _ => rfl

/-- The reader of a closed link hands out nothing more. -/
theorem handedAt_of_isClosed (hshut : s.roster.IsShut) (hclosed : s.isClosed) :
    s.handedAt key action = [] := by
  by_cases hreader : action = .turn .reader
  · subst hreader
    unfold handedAt
    dsimp only
    split
    · rfl
    · rename_i hgoesOn
      have hstopped := (hshut.reader hclosed).resolve_right hgoesOn
      change s.reader.stage.isStopped at hstopped
      cases hstage : s.reader.stage with
      | stopped => rfl
      | _ =>
        rw [hstage] at hstopped
        cases hstopped
  · exact handedAt_of_ne hreader

/-- What has come of a reply shows what its handler was handed: nothing, as long as a call waits on
an open link, or the one payload that it is. -/
inductive Reckons (s : Link) (key : Nat) : List (List UInt8) → Prop
  | unheard (h : s.roster.Unheard key) : Reckons s key []
  | heard {h : ReplyHandler} {payload : List UInt8} (hreply : s.replies[key]? = some h)
    (houtcome : h.promise.outcome = some (h.kind.outcomeOf payload)) : Reckons s key [payload]

/-- What was handed over is settled by it for good. -/
theorem Reckons.silent (h : s.Reckons key handed) (hnone : s.handedAt key action = [])
    (hunheard : s.roster.Unheard key → (s.act action).roster.Unheard key) :
    (s.act action).Reckons key (handed ++ s.handedAt key action) := by
  rw [hnone, List.append_nil]
  cases h with
  | unheard h => exact .unheard (hunheard h)
  | heard hreply houtcome =>
    obtain ⟨h', hreply', hcomes⟩ :=
      (s.act_moves action).settles (show s.roster.replies[key]? = some _ from hreply)
    refine .heard hreply' ?_
    rw [hcomes.complete (Option.isSome_iff_exists.mpr ⟨_, houtcome⟩), hcomes.kind, houtcome]

/-- What is done beside the reader, or on a closed link, decides no reply for which a call waits. -/
theorem unheard_act (h : s.roster.Unheard key) (horder : s.InOrder log)
    (hown : ∀ stage ∈ s.roster.stages, stage.IsOwn) (hbrings : action.bringsReply = false)
    (hbeside : action ≠ .turn .reader ∨ s.isClosed) : (s.act action).roster.Unheard key := by
  rcases (s.act_moves action).unheard (offered_notMem_eventsAt hbrings) horder.shut hown
    horder.asked h with hafter | ⟨hopen, hdecides⟩
  · exact hafter
  have hother := hbeside.resolve_right (Bool.eq_false_iff.mp hopen)
  rcases hdecides with hmatched | ⟨-, hheld, hnot⟩
  · exact absurd (exists_frame_of_matched hmatched).1 hother
  · obtain ⟨isHeld, hyields⟩ := s.yields_act hother
    rw [hyields.reading] at hnot
    exact absurd hheld hnot

/-- The reader of an open link hands a payload to the handler of a reply that is not decided yet. -/
theorem Reckons.turn (h : s.Reckons key handed) (hwork : s.AtWork) (horder : s.InOrder log)
    (htenure : s.roster.Tenure (.reply key)) :
    (s.act (.turn .reader)).Reckons key (handed ++ s.handedAt key (.turn .reader)) := by
  have hstep := (hwork.turn horder.attended fun _ hheld =>
    (horder.exists_held hheld).imp fun _ => And.left).1.step
  have hhands : s.handedAt key (.turn .reader) = s.reader.stage.payloadsFor key :=
    if_neg (by simp [hwork.goesOn])
  by_cases hholds : ∃ payload, s.reader.stage = .decoding (.reply key) payload
  · obtain ⟨payload, hreading⟩ := hholds
    have hone := Roster.held_eq (r := s.roster) (congrArg ReaderStage.held? hreading) (.reply key)
    rw [if_pos rfl] at hone
    obtain ⟨reply, hreply, hnone⟩ : ∃ reply, s.replies[key]? = some reply ∧
        reply.promise.outcome = none := by
      refine Roster.goesOn_reply_iff.mp (htenure.live ?_)
      unfold Roster.places
      omega
    have hreplies : (s.act (.turn .reader)).replies = _ := hstep.answers hreading
    have hafter : (s.act (.turn .reader)).replies[key]? =
        some ((reply.decode payload).complete).drop := by
      rw [hreplies, List.getElem?_modify_eq, show s.roster.replies[key]? = some reply from hreply]
      rfl
    have hdecided := reply.outcome_answer hnone payload
    rw [hhands, hreading, ReaderStage.payloadsFor, if_pos rfl]
    cases h with
    | unheard h => exact .heard hafter hdecided
    | heard hreply' houtcome =>
      rw [hreply, Option.some.injEq] at hreply'
      subst hreply'
      cases hnone.symm.trans houtcome
  · refine h.silent ?_ (hstep.unheard fun payload hreading => hholds ⟨payload, hreading⟩)
    rw [hhands]
    cases hstage : s.reader.stage with
    | decoding handler payload =>
      cases handler with
      | statement other => rfl
      | reply other => exact if_neg fun hkey : other = key => hholds ⟨payload, hkey ▸ hstage⟩
    | _ => rfl

/-- Every action adds to the payloads of a reply what it hands over. -/
theorem Reckons.act (h : s.Reckons key handed) (horder : s.InOrder log)
    (horderly : s.roster.Orderly log) (hworks : s.IsEnding ∨ s.AtWork)
    (hbrings : action.bringsReply = false) :
    (s.act action).Reckons key (handed ++ s.handedAt key action) := by
  have hbeside (hnone : s.handedAt key action = [])
      (hother : action ≠ .turn .reader ∨ s.isClosed) :
      (s.act action).Reckons key (handed ++ s.handedAt key action) :=
    h.silent hnone fun hunheard => unheard_act hunheard horder horderly.own hbrings hother
  by_cases hreader : action = .turn .reader
  · rcases hworks with hending | hwork
    · exact hbeside (handedAt_of_isClosed horder.shut hending.closed) (.inr hending.closed)
    · subst hreader
      exact h.turn hwork horder (horderly.tenure _)
  · exact hbeside (handedAt_of_ne hreader) (.inl hreader)

/-- A run in which nobody brings the handler of a reply is orderly. -/
theorem orderly_runOf (config : Config) {actions : List Action}
    (hbrings : ∀ action ∈ actions, action.bringsReply = false) :
    (runOf config actions).roster.Orderly (journalOf config actions) :=
  ((fresh config).run_moves actions).orderly (offered_notMem_journal hbrings)
    (Roster.orderly_fresh config)

/-- In every run in which no handlers of replies are brought from outside. -/
theorem reckons_runOf (config : Config) {actions : List Action}
    (hbrings : ∀ action ∈ actions, action.bringsReply = false) (key : Nat) :
    (runOf config actions).Reckons key ((fresh config).handedIn key actions) := by
  induction actions using List.reverseRecOn with
  | nil => exact .unheard (.inl rfl)
  | append_singleton actions action ih =>
    have hbefore := fun action hmem => hbrings action (List.mem_append_left _ hmem)
    have hlast := hbrings action (List.mem_append_right _ (List.mem_singleton_self _))
    rw [handedIn_append, runOf_concat, handedIn, handedIn, List.append_nil]
    exact (ih hbefore).act (inOrder_runOf config actions) (orderly_runOf config hbefore)
      (atWork_runOf config actions) hlast

end Link

end BeeProtocol
