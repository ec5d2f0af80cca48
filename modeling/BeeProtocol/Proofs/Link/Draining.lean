import BeeProtocol.Proofs.Link.Closing
import BeeProtocol.Proofs.Link.Intake

/-!
# Draining the stream

On a link that is neither closed nor given up and on which no write fails, the reader reads one
frame of the stream after another. It is idle only if nothing has arrived that it has not read, or
if it waits for a slot that the caller of a response has to make free. Only the reader closes the
link, and then all frames of the stream were read.
-/

namespace BeeProtocol

/-- The frame that is read. -/
def Happening.frame? : Happening → Option Frame
  | read frame => some frame
  | _ => none

namespace Roster

/-- What is known of the handlers and of the statements: every handler is in one place at most, no
call carries one that was registered, nothing waits on a closed link, and a failure ends its
statement. -/
structure Tended (r : Roster) (log : List Event) : Prop where
  /-- Every handler is in one place at most. -/
  tenure : ∀ handler, r.Tenure handler
  /-- No call carries a handler that was registered. -/
  lays : ∀ handler, r.Lays log handler
  /-- Nothing waits on a closed link. -/
  shut : r.IsShut
  /-- A failure ends its statement. -/
  sound : ∀ c ∈ r.channels, c.IsSound

variable {r r' : Roster} {log : List Event} {key : Nat}

/-- The handlers stay tended in moves that offer no reply to others. -/
theorem Moves.tended {events : List Event} (hmoves : r.Moves events r')
    (hown : ∀ key, .offered key ∉ events) (h : r.Tended log) : r'.Tended (log ++ events) := by
  have hown' (handler : Handler) (key : Nat) (hoffered : .offered key ∈ events) :
      ∃ k, handler = .statement k := absurd hoffered (hown key)
  exact
    { tenure := fun handler => hmoves.tenure (hown' handler) (h.tenure handler)
      lays := fun handler => hmoves.lays (hown' handler) (h.tenure handler) (h.lays handler)
      shut := hmoves.isShut h.shut
      sound := hmoves.sound h.sound }

/-- A call is begun with the handler of a new single reply. -/
theorem Tended.beginReply (h : r.Tended log) (frame : Frame) (kind : MessageKind) :
    ({ r with
        replies := r.replies ++ [.ofKind kind]
        stages := r.stages ++ [.called (.send frame (some (.reply r.replies.length)))] } :
      Roster).Tended (log ++ [.offered r.replies.length]) where
  tenure handler :=
    (h.tenure handler).opened (.reply r.replies.length) (by simp [goesOn])
      (carried_append r.stages _ handler) rfl rfl (goesOn_openReply r kind handler)
  lays handler hmem := by
    have hnobody : Event.registeredIn [.offered r.replies.length] = [] := rfl
    rw [Event.registeredIn_append, hnobody, List.append_nil] at hmem
    obtain ⟨hcarried, hknows⟩ := h.lays handler hmem
    have hmore := carried_append (r := r) r.stages
      (.called (.send frame (some (.reply r.replies.length)))) handler
    have hother : Handler.reply r.replies.length ≠ handler := by
      rintro rfl
      exact Nat.lt_irrefl _ hknows
    rw [Stage.carries?, beq_false_of_ne (by simpa using hother)] at hmore
    refine ⟨hmore.trans hcarried, ?_⟩
    cases handler with
    | statement key => exact hknows
    | reply key =>
      have hlonger : key < (r.replies ++ [ReplyHandler.ofKind kind]).length :=
        Nat.lt_of_lt_of_le hknows (by simp)
      exact hlonger
  shut := ⟨h.shut.pending, h.shut.reader⟩
  sound := h.sound

/-- Who stands in the queue goes on. -/
theorem Tended.goesOn_of_pending {handler : Handler} (h : r.Tended log)
    (hmem : handler ∈ r.pending) : r.goesOn handler := by
  have hcount := List.count_pos_iff.mpr hmem
  refine (h.tenure handler).live ?_
  unfold places
  omega

/-- Who is held by the reader goes on. -/
theorem Tended.goesOn_of_held {handler : Handler} (h : r.Tended log)
    (hheld : r.reading.held? = some handler) : r.goesOn handler := by
  have hone := held_eq hheld handler
  rw [if_pos rfl] at hone
  refine (h.tenure handler).live ?_
  unfold places
  omega

/-- The statement whose handler the reader holds is there and goes on. -/
theorem Tended.exists_held (h : r.Tended log) (hheld : r.reading.held? = some (.statement key)) :
    ∃ c, r.channels[key]? = some c ∧ c.isDone = false :=
  goesOn_statement_iff.mp (h.goesOn_of_held hheld)

/-- The handlers of a fresh link are tended. -/
theorem tended_fresh (config : Config) : (Link.fresh config).roster.Tended [] where
  tenure := tenure_fresh config
  lays handler hmem := by cases hmem
  shut := .of_open rfl
  sound c hmem := by cases hmem

/-! ### The work that is left to the reader -/

/-- A bound for the turns that it takes to read what arrives. Every byte may be the last one of a
frame, which takes three turns. -/
def readings : List Inbound → Nat
  | [] => 0
  | .bytes chunk :: items => 3 * chunk.length + 1 + readings items
  | _ :: _ => 1

/-- A bound for the turns in which the reader can go on without anything new. -/
def labour (r : Roster) (f : Feed) : Nat :=
  3 * f.buffer.length + (if f.isAtEnd then 0 else readings f.inbound) +
    match r.reading with
    | .decoding _ _ => 2
    | .storing _ _ => 1
    | _ => 0

/-- A reader that can go on has less to do than before. -/
theorem ReaderStep.labour_lt {codec : Codec} {f f' : Feed} (h : ReaderStep codec r f r' f' true) :
    r'.labour f' < r.labour f := by
  cases h with
  | skip hreading hdecode hfind =>
    have hshorter := (Codec.decode_suffix hdecode).2 rfl
    unfold labour
    dsimp only
    omega
  | take hreading hdecode hfind =>
    have hshorter := (Codec.decode_suffix hdecode).2 rfl
    unfold labour
    rw [hreading]
    dsimp only
    omega
  | chunk hreading hdecode hahead hinbound =>
    have hshorter := (Codec.decode_suffix hdecode).1.length_le
    unfold labour
    rw [hinbound]
    simp only [hahead, List.length_append, readings, Bool.false_eq_true, if_false]
    omega
  | ended hreading hdecode hahead hinbound =>
    have hshorter := (Codec.decode_suffix hdecode).1.length_le
    unfold labour
    rw [hinbound]
    simp only [hahead, readings, Bool.false_eq_true, if_false, if_true]
    omega
  | answer hreading => simp [labour, hreading]
  | hearRow hreading hc hrow => simp [labour, hreading]
  | hear hreading hc hnone => simp [labour, hreading]
  | store hreading hc hstored => simp [labour, hreading]

end Roster

namespace Link

variable {s s' : Link} {action : Action} {log : List Event} {arrived : List Inbound}
  {frames : List Frame}

/-! ### What is known of the handlers -/

/-- What spares the reader brings a reply only if it opens it. -/
theorem bringsReply_of_isSpared (hspared : s.isSpared action) :
    action.bringsReply = false ∨ ∃ label frame kind, action = .reply label frame kind := by
  cases action with
  | call label call hplain =>
    cases call with
    | send frame handler =>
      rcases handler with - | other | other
      · exact .inl rfl
      · cases hspared
      · cases hspared
    | _ => exact .inl rfl
  | reply label frame kind => exact .inr ⟨label, frame, kind, rfl⟩
  | _ => exact .inl rfl

/-- An action that brings no handler of a reply that was there before leaves the handlers in their
places. -/
theorem tended_of_bringsReply (h : s.roster.Tended log)
    (hown : action.bringsReply = false ∨ ∃ label frame kind, action = .reply label frame kind) :
    (s.act action).roster.Tended (log ++ s.eventsAt action) := by
  rcases hown with hown | ⟨label, frame, kind, rfl⟩
  · exact (s.act_moves action).tended (offered_notMem_eventsAt hown) h
  · dsimp only [act, start]
    rw [roster_addTask]
    exact h.beginReply frame kind

/-- Every spared action leaves the handlers in their places. -/
theorem tended_act (h : s.roster.Tended log) (hspared : s.isSpared action) :
    (s.act action).roster.Tended (log ++ s.eventsAt action) :=
  tended_of_bringsReply h (bringsReply_of_isSpared hspared)

/-! ### What is known of the reader -/

/-- The frames that are read in an action. -/
def framesAt (s : Link) (action : Action) : List Frame :=
  (s.happensAt action).toList.filterMap Happening.frame?

/-- A turn of the reader takes the frames that come next. -/
theorem framesAt_reader (hgoesOn : s.reader.isAborted = false) :
    s.framesAt (.turn .reader) = Roster.nextFrames s.codec s.feed s.reader.stage := by
  unfold framesAt happensAt happening?
  dsimp only
  rw [if_neg (by simp [hgoesOn])]
  cases s.reader.stage with
  | reading =>
    change _ = (s.codec.decode s.reader.buffer).1.toList
    cases (s.codec.decode s.reader.buffer).1 <;> rfl
  | decoding handler payload => cases handler <;> rfl
  | _ => rfl

/-- Only the reader takes frames. -/
theorem framesAt_of_ne (h : action ≠ .turn .reader) : s.framesAt action = [] := by
  cases action with
  | turn actor =>
    cases actor with
    | reader => exact absurd rfl h
    | task t =>
      change (s.happening? (.task t)).toList.filterMap Happening.frame? = []
      unfold happening?
      dsimp only
      split
      · cases s.tasks[t]? with
        | none => rfl
        | some task =>
          rw [Option.bind_some]
          split
          · rfl
          · cases task.stage.entering? <;> rfl
      · rfl
  | _ => rfl

/-- How far the reader of a link has come, given what has arrived and the frames that were read. -/
structure Reads (s : Link) (arrived : List Inbound) (frames : List Frame) : Prop where
  /-- The link has its owner. -/
  held : s.isHeld
  /-- The reader was not told to end. -/
  goesOn : s.reader.isAborted = false
  /-- The reader ends when the link is closed. -/
  stopped : s.reader.stage.isStopped = s.isClosed
  /-- The slots of all channels are accounted for. -/
  slots : ∀ c ∈ s.channels, c.HasSlots
  /-- The reader was woken or has nothing to do. -/
  alert : .reader ∈ s.ready ∨ s.roster.Idles s.feed
  /-- On an open link the frames are those at the beginning of what has arrived, and the rest is
  before the reader. -/
  follows : s.isClosed = false → s.feed.Follows s.codec arrived frames
  /-- On a closed link the frames are all that have arrived. -/
  exhausts : s.isClosed → s.codec.Exhausts arrived frames

/-- The codec is part of the configuration. -/
theorem codec_of_config (h : s'.config = s.config) : s'.codec = s.codec := by rw [codec, h, codec]

/-- A reader that is spared waits on, or was woken. -/
theorem Spares.alert (h : s.Spares s') (halert : .reader ∈ s.ready ∨ s.roster.Idles s.feed) :
    .reader ∈ s'.ready ∨ s'.roster.Idles s'.feed := by
  rcases halert with hready | hidles
  · exact .inl (h.woken hready)
  · unfold Roster.Idles at hidles ⊢
    rw [h.reading, h.feed]
    cases hstage : s.roster.reading with
    | storing key row =>
      rw [hstage] at hidles
      obtain ⟨c, hc, hwaits⟩ := hidles
      obtain ⟨c', hc', hheeds⟩ := h.heeds key c hc
      exact (hheeds.waits hwaits).imp And.left fun hstays => ⟨c', hc', hstays.1⟩
    | _ =>
      rw [hstage] at hidles
      exact .inr hidles

/-- What arrives wakes a reader that looks for a frame. -/
theorem reader_ready_of_arrivals (hreading : s.reader.stage = .reading)
    (harrives : action.arrivals ≠ []) : .reader ∈ (s.act action).ready := by
  cases action with
  | arrive item =>
    dsimp only [act, arrive]
    split
    · exact absurd rfl harrives
    · rw [hreading]
      exact mem_ready_wake_self _ _
  | _ => exact absurd rfl harrives

/-- The reader of the link that meets what arrives is still idle, unless it looks for a frame. -/
theorem idles_met (h : s.roster.Idles s.feed)
    (hquiet : s.reader.stage = .reading → action.arrivals = []) :
    (s.met action).roster.Idles (s.met action).feed := by
  have hreading : (s.met action).roster.reading = s.reader.stage := rfl
  unfold Roster.Idles at h ⊢
  rw [hreading]
  cases hstage : s.reader.stage with
  | reading =>
    rw [show s.roster.reading = s.reader.stage from rfl, hstage] at h
    refine ⟨?_, h.2⟩
    change s.inbound ++ action.arrivals = []
    rw [hquiet hstage, List.append_nil]
    exact h.1
  | _ =>
    rw [show s.roster.reading = s.reader.stage from rfl, hstage] at h
    exact h

/-- What is done beside the reader leaves it as far as it has come. -/
theorem Reads.act_of_ne (h : s.Reads arrived frames) (hspared : s.isSpared action)
    (hother : action ≠ .turn .reader) :
    (s.act action).Reads (arrived ++ action.arrivals) frames := by
  have hspares := s.spares_act h.held hspared hother
  have hreader : (s.act action).reader = s.reader := congrArg Outlook.reader hspares.outlook
  have hclosed : (s.act action).isClosed = s.isClosed := hspares.isClosed
  have hfeed : (s.act action).feed = { s.feed with inbound := s.inbound ++ action.arrivals } :=
    hspares.feed
  have hcodec : (s.act action).codec = s.codec := codec_of_config hspares.config
  constructor
  · exact hspares.isHeld.trans h.held
  · rw [hreader, h.goesOn]
  · rw [hreader, hclosed, h.stopped]
  · exact hspares.slots h.slots
  · by_cases hquiet : s.reader.stage = .reading → action.arrivals = []
    · exact hspares.alert (h.alert.imp id fun hidles => idles_met hidles hquiet)
    · rw [Classical.not_imp] at hquiet
      exact .inl (reader_ready_of_arrivals hquiet.1 hquiet.2)
  · intro hopen
    rw [hfeed, hcodec]
    exact (h.follows (hclosed ▸ hopen)).arrive action.arrivals
  · intro hshut
    rw [hcodec]
    exact (h.exhausts (hclosed ▸ hshut)).arrive action.arrivals

/-- A turn of the reader, on a link on which it has come this far. -/
theorem Reads.step (h : s.Reads arrived frames) (htended : s.roster.Tended log) :
    s.ReaderTurns (s.turnOf .reader, s.readsOn) ∧
      (s.readsOn → .reader ∈ (s.turnOf .reader).ready) := by
  refine turnOf_reader h.held h.goesOn (fun hgoesOn => ?_) fun key hheld => ?_
  · rw [← h.stopped, hgoesOn]
  · obtain ⟨c, hc, -⟩ := htended.exists_held hheld
    exact ⟨c, hc⟩

/-- A step of the reader does not tell it to end. -/
theorem step_isAborted {codec : Codec} {r r' : Roster} {f f' : Feed} {goesOn : Bool}
    (h : Roster.ReaderStep codec r f r' f' goesOn) : r'.isAborted = r.isAborted := by
  cases h with
  | close hreading hdecode hover => exact r.shut_isAborted
  | _ => rfl

/-- A closed link stays closed. -/
theorem isClosed_act (h : s.isClosed) (action : Action) : (s.act action).isClosed :=
  (s.act_moves action).isClosed h

/-- A link that is open was so before. -/
theorem isOpen_of_act (h : (s.act action).isClosed = false) : s.isClosed = false := by
  by_contra hclosed
  rw [isClosed_act (by simpa using hclosed) action] at h
  cases h

/-- The reader takes its turn. -/
theorem Reads.turn (h : s.Reads arrived frames) (htended : s.roster.Tended log) :
    (s.turnOf .reader).Reads arrived (frames ++ s.framesAt (.turn .reader)) := by
  obtain ⟨⟨hstep, hheld, hconfig⟩, hready⟩ := h.step htended
  dsimp only at hstep hheld hconfig
  have hcodec := codec_of_config hconfig
  have hstopped := hstep.stopped h.stopped
  rw [framesAt_reader h.goesOn]
  constructor
  · exact hheld.trans h.held
  · exact (step_isAborted hstep).trans h.goesOn
  · exact hstopped
  · exact hstep.slots h.slots
  · cases hreads : s.readsOn with
    | true => exact .inl (hready hreads)
    | false =>
      rw [hreads] at hstep
      exact .inr hstep.idles
  · intro hopen
    rw [hcodec]
    have hopen' : (s.act (.turn .reader)).isClosed = false := hopen
    exact hstep.follows (h.follows (isOpen_of_act hopen')) hopen
  · intro hclosed
    rw [hcodec]
    cases hopen : s.isClosed with
    | true =>
      -- The reader of a closed link has ended and reads nothing.
      have hnone : Roster.nextFrames s.codec s.feed s.reader.stage = [] := by
        refine Roster.nextFrames_of_ne fun hreading => ?_
        have hstopped := h.stopped
        rw [hreading, hopen] at hstopped
        cases hstopped
      rw [hnone, List.append_nil]
      exact h.exhausts hopen
    | false =>
      obtain ⟨-, hnone, hall, -⟩ := hstep.closes hopen hclosed
      rw [show s.reader.stage = s.roster.reading from rfl, hnone, List.append_nil]
      exact hall (h.follows hopen)

/-- Every spared action takes the reader on. -/
theorem Reads.act (h : s.Reads arrived frames) (htended : s.roster.Tended log)
    (hspared : s.isSpared action) :
    (s.act action).Reads (arrived ++ action.arrivals) (frames ++ s.framesAt action) := by
  by_cases hreader : action = .turn .reader
  · rw [hreader, show Action.arrivals (.turn .reader) = [] from rfl, List.append_nil]
    exact h.turn htended
  · rw [framesAt_of_ne hreader, List.append_nil]
    exact h.act_of_ne hspared hreader

/-- The reader of a fresh link has read nothing. -/
theorem reads_fresh (config : Config) : (fresh config).Reads [] [] where
  held := rfl
  goesOn := rfl
  stopped := rfl
  slots c hmem := by cases hmem
  alert := .inl (List.mem_singleton_self _)
  follows _ := Feed.follows_nil _
  exhausts hclosed := by cases hclosed

/-! ### The end -/

/-- The frames that were read are the first ones of the stream. -/
theorem Reads.frames_inOrder (h : s.Reads arrived frames) :
    frames <+: (s.codec.decodeAll (Inbound.streamOf arrived)).1 := by
  cases hclosed : s.isClosed with
  | true => exact (h.exhausts hclosed).all ▸ List.prefix_rfl
  | false => exact (h.follows hclosed).frames_inOrder

end Link

end BeeProtocol
