import BeeProtocol.Proofs.Link.DroppedResponses
import BeeProtocol.Proofs.Message.Truncation

/-!
# Payloads that are cut short on a link

The reader hands a payload to a statement for the id at its front. What is left of a response that
was cut short therefore fails the statement that the response was for, and no other; if not even the
id is left, it reaches no statement.
-/

namespace BeeProtocol

/-! ### Whom the reader serves -/

namespace Roster

variable {r r' : Roster} {event : Option Event}

/-- As long as the link is open, a payload that the reader has for a statement is one that the
statement takes. -/
def ServesTakers (r : Roster) : Prop :=
  r.isClosed = false → ∀ key payload, r.reading = .decoding (.statement key) payload →
    ∃ type, r.accepts ⟨type, payload⟩ (.statement key)

/-- A handler that takes a frame stands for something. -/
theorem knows_of_accepts {frame : Frame} {key : Nat} (h : r.accepts frame (.statement key)) :
    r.Knows (.statement key) := by
  by_contra hunknown
  have hnone : r.channels[key]? = none := List.getElem?_eq_none (Nat.le_of_not_lt hunknown)
  simp [accepts, hnone] at h

/-- The reader gets a payload for a statement only when it takes its handler off the queue. -/
theorem Move.servesTakers (hmove : r.Move event r') (h : r.ServesTakers) : r'.ServesTakers := by
  intro hopen key payload hreading
  have hbefore : r.isClosed = false := by
    by_contra hclosed
    rw [hmove.isClosed (by simpa using hclosed)] at hopen
    cases hopen
  have hkept (hsame : r.reading = .decoding (.statement key) payload) :
      ∃ type, r'.accepts ⟨type, payload⟩ (.statement key) := by
    obtain ⟨type, htakes⟩ := h hbefore key payload hsame
    exact ⟨type, by rwa [hmove.accepts (knows_of_accepts htakes)]⟩
  have hnobody {stage : ReaderStage} (hempty : stage.held? = none)
      (hstage : stage = .decoding (.statement key) payload) :
      ∃ type, r'.accepts ⟨type, payload⟩ (.statement key) := by
    rw [hstage] at hempty
    cases hempty
  cases hmove with
  | take hready hgoesOn hfind =>
    obtain ⟨rfl, rfl⟩ := ReaderStage.decoding.inj hreading
    exact ⟨_, List.find?_some hfind⟩
  | close reader isAborted hheld hstops => cases r.shut_isClosed.symm.trans hopen
  | quit response hstage hline => exact hkept (by rwa [quit_reading] at hreading)
  | hear row hdecoding hgoesOn hlive => cases hreading
  | hearEnd hdecoding hgoesOn hchannel hdone => cases hreading
  | answer hdecoding hgoesOn => cases hreading
  | putBack hstoring hgoesOn hlink => cases hreading
  | forgetStatement reader hheld hlost hempty => exact hnobody hempty hreading
  | forgetReply reader hheld hempty => exact hnobody hempty hreading
  | halt hempty => cases hreading
  | _ => exact hkept hreading

/-- The reader has only payloads that their statements take, after all moves. -/
theorem Moves.servesTakers {events : List Event} (hmoves : r.Moves events r')
    (h : r.ServesTakers) : r'.ServesTakers :=
  hmoves.invariant (P := fun r _ => r.ServesTakers) [] (fun _ hmove h => hmove.servesTakers h) h

end Roster

namespace Channel

/-- What a payload leaves of a statement that goes on, if it ends inside a response. -/
theorem receive_of_cut {c : Channel} {payload : List UInt8} (hlive : c.isDone = false)
    (hsound : c.IsSound)
    (hcut : Message.decode .statementResponse payload = .error (.value .unexpectedEnd)) :
    c.receive payload =
      ({ c with
        phase := .done
        failure := some (.decode (ProtocolError.value .unexpectedEnd).message) }, none) := by
  have hnone : c.failure = none := hsound hlive
  rw [receive, hcut]
  dsimp only
  rw [finish, if_neg (by simp [hlive]), hnone]
  rfl

end Channel

namespace Link

variable {s : Link} {log : List Event} {key : Nat}

/-! ### What the reader does with what is left of a response -/

/-- A link deals with the rest of a response that was cut short, a response with this id. -/
structure ReportsCut (s : Link) (id : UInt32) (cut : List UInt8) : Prop where
  /-- It is taken by the statements with the id, and by none if it ends before the id does. -/
  offered : ∀ type key, s.accepts ⟨type, cut⟩ (.statement key) ↔
    type = MessageKind.statementResponse.frameType ∧ 4 ≤ cut.length ∧
      ∃ c, s.channels[key]? = some c ∧ c.id = id
  /-- The reader passes it to the first handler that takes it, or to nobody. -/
  passed : ∀ type rest, s.isClosed = false → s.reader.stage = .reading →
    s.codec.decode s.reader.buffer = (some ⟨type, cut⟩, rest) →
      (s.act (.turn .reader)).isClosed = false ∧
        (s.act (.turn .reader)).channels = s.channels ∧
        (s.act (.turn .reader)).reader.stage =
          (s.pending.find? (s.accepts ⟨type, cut⟩)).elim .reading (.decoding · cut)
  /-- The statement that gets it has its id and goes on until then; it fails, its handler is not put
  back, and the reader goes on. -/
  failed : ∀ key, s.isClosed = false → s.reader.stage = .decoding (.statement key) cut →
    4 ≤ cut.length ∧ s.TakesOn (s.act (.turn .reader)) key ∧
      (s.act (.turn .reader)).reader.stage = .reading ∧
      (s.act (.turn .reader)).pending = s.pending ∧
      ∃ c, s.channels[key]? = some c ∧ c.id = id ∧ c.isDone = false ∧
        (s.act (.turn .reader)).channels[key]? =
          some { c with
            phase := .done
            failure := some (.decode (ProtocolError.value .unexpectedEnd).message) }

/-- The handler of a statement takes the responses with its id. -/
theorem accepts_statement_iff {frame : Frame} :
    s.accepts frame (.statement key) ↔
      frame.type = MessageKind.statementResponse.frameType ∧
        ∃ c, s.channels[key]? = some c ∧ StatementResponse.peekId frame.payload = some c.id := by
  cases hc : s.channels[key]? <;> simp [accepts, hc, Channel.isCandidate]

/-- A frame that the reader takes out of its buffer changes no statement. -/
theorem passes_frame (horder : s.InOrder log) (hwork : s.AtWork) {frame : Frame}
    {rest : List UInt8} (hreading : s.reader.stage = .reading)
    (hdecode : s.codec.decode s.reader.buffer = (some frame, rest)) :
    (s.act (.turn .reader)).isClosed = false ∧
      (s.act (.turn .reader)).channels = s.channels := by
  obtain ⟨hstep, -⟩ := turn_steps horder hwork
  have hsame : s.roster.reading = .reading := hreading
  have hfront : s.codec.decode s.feed.buffer = (some frame, rest) := hdecode
  change (s.act (.turn .reader)).roster.isClosed = false ∧
    (s.act (.turn .reader)).roster.channels = s.roster.channels
  generalize (s.act (.turn .reader)).roster = r' at hstep
  generalize (s.act (.turn .reader)).feed = f' at hstep
  generalize s.readsOn = goesOn at hstep
  cases hstep with
  | skip _ hdecode' hfind => exact ⟨hwork.isOpen, rfl⟩
  | take _ hdecode' hfind => exact ⟨hwork.isOpen, rfl⟩
  | wait _ hdecode' => cases hfront.symm.trans hdecode'
  | chunk _ hdecode' => cases hfront.symm.trans hdecode'
  | ended _ hdecode' => cases hfront.symm.trans hdecode'
  | close _ hdecode' => cases hfront.symm.trans hdecode'
  | _ hother => cases hsame.symm.trans hother

/-- In every run the rest of a response that was cut short fails its statement, or it is for
nobody. -/
theorem reportsCut_of_cut (config : Config) (actions : List Action)
    {response : StatementResponse} {cut missing : List UInt8}
    (hencode : (Message.statementResponse response).encode = .ok (cut ++ missing))
    (hmissing : missing ≠ []) : (runOf config actions).ReportsCut response.id cut := by
  have horder := inOrder_runOf config actions
  have hworks := atWork_runOf config actions
  have hserves : (runOf config actions).roster.ServesTakers :=
    ((fresh config).run_moves actions).servesTakers fun _ _ _ h => by cases h
  generalize runOf config actions = s at horder hworks hserves ⊢
  have hwork (hopen : s.isClosed = false) : s.AtWork :=
    hworks.resolve_left fun hending => by cases hopen.symm.trans hending.closed
  have hpeek := StatementResponse.peekId_of_cut hencode
  have hoffered (type : UInt8) (key : Nat) : s.accepts ⟨type, cut⟩ (.statement key) ↔
      type = MessageKind.statementResponse.frameType ∧ 4 ≤ cut.length ∧
        ∃ c, s.channels[key]? = some c ∧ c.id = response.id := by
    rw [accepts_statement_iff, hpeek]
    refine and_congr_right fun _ => ?_
    by_cases hlength : 4 ≤ cut.length <;> simp [hlength, eq_comm]
  refine ⟨hoffered, ?_, ?_⟩
  · intro type rest hopen hreading hdecode
    obtain ⟨hstays, hchannels⟩ := passes_frame horder (hwork hopen) hreading hdecode
    exact ⟨hstays, hchannels,
      ((dispatches_of_works horder hworks).next _ rest hopen hreading hdecode).2.2⟩
  · intro key hopen hstage
    obtain ⟨type, htakes⟩ := hserves hopen key cut hstage
    rw [accepts_roster] at htakes
    obtain ⟨-, hlength, same, hsame, hid⟩ := (hoffered type key).mp htakes
    obtain ⟨htakesOn, c, hc, hafter, hresult⟩ := decodes_payload horder (hwork hopen) hstage
    obtain rfl := Option.some.inj (hsame.symm.trans hc)
    obtain ⟨c', hc', hlive⟩ := horder.exists_held (congrArg ReaderStage.held? hstage)
    obtain rfl := Option.some.inj (hsame.symm.trans hc')
    have hkind : (Message.statementResponse response).kind ≠ .ping := nofun
    have hcut := Message.decode_of_cut hkind hencode hmissing
    have hreceive := Channel.receive_of_cut hlive
      (horder.sound same (List.mem_of_getElem? hc)) hcut
    rw [hreceive] at hafter hresult
    rcases hresult with ⟨-, hreading, after, hafter', hpending⟩ | ⟨row, hrow, -⟩
    · obtain rfl := Option.some.inj (hafter.symm.trans hafter')
      exact ⟨hlength, htakesOn, hreading, hpending, same, hc, hid, hlive, hafter⟩
    · cases hrow

/-- What is left of a message that is cut short decodes to no message. If it is left of a response
to a statement, then no other statement hears of it, and this one does if the id is left; it fails
then, on every link. -/
theorem neverMistakes_runOf (config : Config) (actions : List Action) {message : Message}
    {bytes cut : List UInt8} (hkind : message.kind ≠ .ping) (hencode : message.encode = .ok bytes)
    (hbegins : cut <+: bytes) (hstrict : cut ≠ bytes) :
    Message.decode message.kind cut = .error (.value .unexpectedEnd) ∧
      ∀ response, message = .statementResponse response →
        StatementResponse.peekId cut = (if 4 ≤ cut.length then some response.id else none) ∧
          (runOf config actions).ReportsCut response.id cut := by
  obtain ⟨missing, rfl⟩ := hbegins
  have hmissing : missing ≠ [] := by
    rintro rfl
    exact hstrict (List.append_nil cut).symm
  refine ⟨Message.decode_of_cut hkind hencode hmissing, ?_⟩
  rintro response rfl
  exact ⟨StatementResponse.peekId_of_cut hencode, reportsCut_of_cut config actions hencode hmissing⟩

/-- A row of one text, without the second byte of its only character. -/
def cutRow : List UInt8 := [0, 0, 0, 7, 1, 1, 1, 0, 0, 0, 2, 0xC3]

/-- The reader has taken the row for a statement that waits for its header. -/
def cutRowTaken : List Action :=
  submission 0 7 ++ .arrive (.bytes (Frame.envelope ⟨3, cutRow⟩)) ::
    List.replicate 2 (.turn .reader)

/-- The statement fails in the reader's next turn. -/
theorem neverMistakes_cutCharacter :
    Message.decode .statementResponse cutRow = .error (.value .unexpectedEnd) ∧
      (runOf (.defaults "" 0) cutRowTaken).reader.stage = .decoding (.statement 0) cutRow ∧
      (((runOf (.defaults "" 0) cutRowTaken).act (.turn .reader)).channels[0]?).map (·.failure) =
        some (some (.decode "Value error: Unexpected end of value data")) := by
  let row : Message := .statementResponse ⟨7, .row [.string "é"]⟩
  have hkind : row.kind ≠ .ping := nofun
  have hencode : row.encode = .ok (cutRow ++ [0xA9]) := rfl
  have hbegins : cutRow <+: cutRow ++ [0xA9] := List.prefix_append ..
  obtain ⟨hdecode, hresponse⟩ :=
    neverMistakes_runOf (.defaults "" 0) cutRowTaken hkind hencode hbegins (by decide)
  obtain ⟨-, hreports⟩ := hresponse _ rfl
  obtain ⟨-, -, -, -, c, -, -, -, hfailed⟩ := hreports.failed 0 rfl rfl
  exact ⟨hdecode, rfl, by rw [hfailed]; rfl⟩

end Link

end BeeProtocol
