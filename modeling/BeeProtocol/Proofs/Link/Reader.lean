import BeeProtocol.Proofs.Link.Calls
import Mathlib.Data.List.Pairwise

/-!
# The reader's turns and the custody

A frame is offered to the handlers that wait, in their order. If those that wait for statement
responses belong to statements with distinct ids, the frame goes to the one that it is addressed to,
wherever that one is in the queue. So the reader keeps the custody sound for every handler.
-/

namespace BeeProtocol

namespace Link

/-- The id of the statement that a handler belongs to. -/
def statementId? (s : Link) (handler : Handler) : Option UInt32 :=
  handler.statement?.bind fun key => (s.channels[key]?).map (·.id)

/-- The ids of the statements whose handlers wait. -/
def waitingIds (s : Link) : List UInt32 := s.pending.filterMap s.statementId?

/-- The kind of messages that the handler of a single reply takes. -/
def replyKind? (s : Link) : Handler → Option MessageKind
  | .statement _ => none
  | .reply key => (s.replies[key]?).map (·.kind)

/-- The handlers that wait for statement responses are those of statements with distinct ids. -/
structure Distinct (s : Link) : Prop where
  /-- No two statements that wait have the same id. -/
  ids : s.waitingIds.Nodup
  /-- No single reply waits for a statement response. -/
  replies : ∀ handler ∈ s.pending, s.replyKind? handler ≠ some .statementResponse

instance (s : Link) : Decidable s.Distinct :=
  decidable_of_iff (s.waitingIds.Nodup ∧
    ∀ handler ∈ s.pending, s.replyKind? handler ≠ some .statementResponse)
    ⟨fun h => ⟨h.1, h.2⟩, fun h => ⟨h.1, h.2⟩⟩

variable {s : Link} {key : Nat} {account : Account}

/-! ### Whom a frame goes to -/

/-- The channel of a statement with a given entry. -/
theorem exists_channel {entry : StatementEntry}
    (h : s.custody.entries[key]? = some entry) :
    ∃ c, s.channels[key]? = some c ∧ c.entry = entry := by
  unfold custody at h
  dsimp only at h
  rwa [List.getElem?_map, Option.map_eq_some_iff] at h

/-- The handler of a statement takes the frames that are addressed to the statement. -/
theorem accepts_statement (frame : Frame) {c : Channel} (h : s.channels[key]? = some c) :
    s.accepts frame (.statement key) = frame.isFor c.id := by
  have hpeek : c.isCandidate frame.payload =
      (frame.payload.take 4 == Bytes.ofNat 4 c.id.toNat) := by
    rw [Bool.eq_iff_iff, Channel.isCandidate, beq_iff_eq, beq_iff_eq]
    exact Frame.peekId_eq_some_iff
  unfold accepts Frame.isFor
  dsimp only
  rw [h, Option.any_some, hpeek]
  rfl

/-- Only the handler of a statement that there is takes frames. -/
theorem exists_of_accepts {frame : Frame} (h : s.accepts frame (.statement key)) :
    ∃ c, s.channels[key]? = some c := by
  cases hchannel : s.channels[key]? with
  | none => simp [accepts, hchannel] at h
  | some c => exact ⟨c, rfl⟩

/-- A handler that takes the same frame as the handler of a statement is that handler. -/
theorem Distinct.eq_of_accepts (hdistinct : s.Distinct) {frame : Frame} {handler : Handler}
    (hmem : .statement key ∈ s.pending) (hother : handler ∈ s.pending)
    (haccepts : s.accepts frame (.statement key)) (htakes : s.accepts frame handler) :
    handler = .statement key := by
  obtain ⟨c, hc⟩ := exists_of_accepts haccepts
  rw [accepts_statement frame hc] at haccepts
  unfold Frame.isFor at haccepts
  simp only [Bool.and_eq_true, beq_iff_eq] at haccepts
  cases handler with
  | reply other =>
    have hkind := hdistinct.replies _ hother
    cases hreply : s.replies[other]? with
    | none => simp [accepts, hreply] at htakes
    | some reply =>
      simp only [accepts, hreply, Option.any_some, ReplyHandler.frameType, Bool.and_eq_true,
        beq_iff_eq, haccepts.1] at htakes
      simp only [replyKind?, hreply, Option.map_some] at hkind
      cases hof : reply.kind <;> simp [hof, MessageKind.frameType] at htakes hkind
  | statement other =>
    obtain ⟨c', hc'⟩ := exists_of_accepts htakes
    rw [accepts_statement frame hc'] at htakes
    unfold Frame.isFor at htakes
    simp only [Bool.and_eq_true, beq_iff_eq] at htakes
    have hpeek := Frame.peekId_eq_some_iff.mpr haccepts.2
    rw [Frame.peekId_eq_some_iff.mpr htakes.2, Option.some.injEq] at hpeek
    by_contra hne
    have hsymm : Std.Symm fun first second => ∀ id, s.statementId? first = some id →
        ∀ id', s.statementId? second = some id' → id ≠ id' :=
      ⟨fun first second h id hid id' hid' => (h id' hid' id hid).symm⟩
    have hids := List.pairwise_filterMap.mp hdistinct.ids
    refine hids.forall hother hmem hne c'.id ?_ c.id ?_ hpeek
    · simp [statementId?, Handler.statement?, hc']
    · simp [statementId?, Handler.statement?, hc]

/-- How often the handler of a statement waits. -/
theorem count_waiting (s : Link) (key : Nat) :
    s.custody.waiting.count key = s.pending.count (.statement key) := by
  unfold custody
  induction s.pending with
  | nil => rfl
  | cons handler pending ih =>
    cases handler with
    | statement other =>
      dsimp only at ih ⊢
      rw [List.filterMap_cons, Handler.statement?, List.count_cons, List.count_cons, ih]
      by_cases hkey : other = key
      · simp [hkey]
      · simp [hkey]
    | reply other =>
      dsimp only at ih ⊢
      rw [List.filterMap_cons_none rfl, List.count_cons, ih]
      simp

/-- A frame that the handler of a statement takes goes to it, wherever it is in the queue. -/
theorem takeMatch_own (hdistinct : s.Distinct) {frame : Frame}
    (hmem : .statement key ∈ s.pending) (haccepts : s.accepts frame (.statement key)) :
    s.takeMatch frame =
      (some (.statement key), { s with pending := s.pending.erase (.statement key) }) := by
  have hfind : s.pending.find? (s.accepts frame) = some (.statement key) := by
    cases hfind : s.pending.find? (s.accepts frame) with
    | none => exact absurd haccepts (List.find?_eq_none.mp hfind _ hmem)
    | some handler =>
      have hother := List.mem_of_find?_eq_some hfind
      have htakes := List.find?_some hfind
      rw [hdistinct.eq_of_accepts hmem hother haccepts htakes]
  rw [takeMatch, hfind]

/-- Any other frame leaves the handler where it is. -/
theorem takeMatch_other {frame : Frame}
    (hother : .statement key ∈ s.pending → s.accepts frame (.statement key) = false) :
    ∃ pending, (s.takeMatch frame).2 = { s with pending := pending } ∧
      pending.count (.statement key) = s.pending.count (.statement key) ∧
      (s.takeMatch frame).1 ≠ some (.statement key) := by
  unfold takeMatch
  cases hfind : s.pending.find? (s.accepts frame) with
  | none => exact ⟨s.pending, rfl, rfl, by simp⟩
  | some handler =>
    have hne : handler ≠ .statement key := by
      rintro rfl
      have haccepts := List.find?_some hfind
      rw [hother (List.mem_of_find?_eq_some hfind)] at haccepts
      cases haccepts
    refine ⟨s.pending.erase handler, rfl, ?_, by simpa using hne⟩
    exact List.count_erase_of_ne hne.symm

/-! ### Reading -/

/-- A reader that goes on belongs to an open link. -/
theorem isClosed_eq_false (hc : s.custody.Sound key account)
    (hstage : s.reader.stage.isStopped = false) (haborted : s.reader.isAborted = false) :
    s.isClosed = false := by
  have hreader := hc.reader
  simpa [Custody.goesOn, custody, hstage, haborted] using hreader

/-- The end of the stream is the only thing by which reading more concerns the handlers. -/
theorem readMore_sound (hc : s.custody.Sound key account) (hreading : s.reader.stage = .reading) :
    s.readMore.1.custody.Sound key account := by
  have hclose : (s.shutdown.setReader .stopped).custody.Sound key account := by
    rw [custody_setReader, custody_shutdown]
    exact hc.close hreading
  unfold readMore
  split
  · exact hclose
  · split
    · exact hc
    · exact hc
    · exact hc
    · rw [custody_setReader, custody_shutdown]
      exact hc.close hreading

/-- A frame is taken for the handler that takes it. -/
theorem take_own (hc : s.custody.Sound key account) (hreading : s.reader.stage = .reading)
    (hopen : s.isClosed = false) {frame : Frame} (hmem : .statement key ∈ s.pending)
    (haccepts : s.accepts frame (.statement key)) :
    (({ s with pending := s.pending.erase (.statement key) } : Link).setReader
      (.decoding (.statement key) frame.payload)).custody.Sound key
        (account.note key (.read frame)) := by
  obtain ⟨c, hchannel⟩ := exists_of_accepts haccepts
  have hentry : s.custody.entries[key]? = some c.entry := by simp [custody, hchannel]
  have hcount : s.custody.waiting.count key =
      ({ s with pending := s.pending.erase (.statement key) } : Link).custody.waiting.count key
        + 1 := by
    have hpos := List.count_pos_iff.mpr hmem
    rw [count_waiting, count_waiting, List.count_erase_self]
    omega
  rw [accepts_statement frame hchannel] at haccepts
  exact hc.read_own hreading hopen hcount (if_pos rfl) rfl hentry haccepts

/-- A frame that a handler does not take leaves it where it is. -/
theorem take_other (hc : s.custody.Sound key account) (hreading : s.reader.stage = .reading)
    (hopen : s.isClosed = false) {frame : Frame}
    (hother : .statement key ∈ s.pending → s.accepts frame (.statement key) = false)
    {pending : List Handler}
    (hcount : pending.count (.statement key) = s.pending.count (.statement key))
    {stage : ReaderStage} (hhand : stage.hand key = .empty) (hstage : stage.isStopped = false) :
    (({ s with pending := pending } : Link).setReader stage).custody.Sound key
      (account.note key (.read frame)) := by
  have hsame : ({ s with pending := pending } : Link).custody.waiting.count key =
      s.custody.waiting.count key := by
    rw [count_waiting, count_waiting, hcount]
  have hnot : s.custody.waiting.count key ≠ 0 →
      ∀ entry, s.custody.entries[key]? = some entry → frame.isFor entry.1 = false := by
    intro hwaits entry hentry
    rw [count_waiting] at hwaits
    have hmem := List.count_pos_iff.mp (Nat.pos_of_ne_zero hwaits)
    obtain ⟨c, hchannel, rfl⟩ := exists_channel hentry
    exact (accepts_statement frame hchannel).symm.trans (hother hmem)
  exact hc.read_other hreading hopen hsame hhand hstage hnot

/-- A frame is taken for the handler that it is addressed to and leaves every other one alone. -/
theorem takeFrame_sound (hc : s.custody.Sound key account) (hdistinct : s.Distinct)
    (hreading : s.reader.stage = .reading) (haborted : s.reader.isAborted = false) (frame : Frame) :
    (match s.takeMatch frame with
      | (none, s) => (s, true)
      | (some handler, s) => (s.setReader (.decoding handler frame.payload), true)).1.custody.Sound
        key (account.note key (.read frame)) := by
  have hstage : s.reader.stage.isStopped = false := by
    rw [hreading]
    rfl
  have hopen : s.isClosed = false := isClosed_eq_false hc hstage haborted
  by_cases hown : .statement key ∈ s.pending ∧ s.accepts frame (.statement key)
  · obtain ⟨hmem, haccepts⟩ := hown
    rw [takeMatch_own hdistinct hmem haccepts]
    exact take_own hc hreading hopen hmem haccepts
  · have hother : .statement key ∈ s.pending → s.accepts frame (.statement key) = false := by
      intro hmem
      by_contra htakes
      exact hown ⟨hmem, by simpa using htakes⟩
    obtain ⟨pending, hnext, hcount, hfound⟩ := takeMatch_other hother
    cases htake : s.takeMatch frame with
    | mk found next =>
      rw [htake] at hnext hfound
      subst hnext
      cases found with
      | none =>
        have hhand : s.reader.stage.hand key = .empty := by
          rw [hreading]
          rfl
        exact take_other hc hreading hopen hother hcount hhand hstage
      | some handler =>
        have hne : handler ≠ .statement key := by
          rintro rfl
          exact hfound rfl
        have hhand := ReaderStage.hand_decoding hne frame.payload
        exact take_other hc hreading hopen hother hcount hhand rfl

/-! ### Decoding and storing -/

/-- An open link puts a handler back unless its statement has ended. -/
theorem custody_putBack (hopen : s.isClosed = false) (other : Nat) :
    (s.putBack other).custody =
      if (s.custody.entries[other]?).any (·.2.1 == .done) then
        { s.custody with reading := .reading }
      else { s.custody with waiting := other :: s.custody.waiting, reading := .reading } := by
  have hdone : (s.custody.entries[other]?).any (·.2.1 == .done) =
      ((s.setReader .reading).channels[other]?).any (·.isDone) := by
    have hchannels : (s.setReader .reading).channels = s.channels := rfl
    rw [hchannels]
    unfold custody
    cases hchannel : s.channels[other]? with
    | none => simp [hchannel]
    | some c => simp [hchannel, Channel.entry, Channel.answer, Channel.isDone]
  have hrequeue := custody_requeue (s := s.setReader .reading) hopen other
  unfold putBack
  dsimp only
  rw [hdone]
  split
  · rfl
  · rw [hrequeue]
    rfl

/-- Putting another handler back leaves the handler where it is. -/
theorem putBack_other (hc : s.custody.Sound key account) (hopen : s.isClosed = false) {other : Nat}
    (hother : other ≠ key) (hhand : s.reader.stage.hand key = .empty)
    (hstage : s.reader.stage.isStopped = false) :
    (s.putBack other).custody.Sound key account := by
  rw [custody_putBack hopen]
  split
  · exact hc.elsewhere rfl rfl hhand.symm hstage.symm
  · exact hc.elsewhere (List.count_cons_of_ne hother) rfl hhand.symm hstage.symm

/-- A handler is given the payload that the reader holds. -/
theorem decodePayload_own (hc : s.custody.Sound key account) (hopen : s.isClosed = false)
    {payload : List UInt8} (hreading : s.reader.stage = .decoding (.statement key) payload) :
    (s.decodePayload (.statement key) payload).custody.Sound key
      (account.note key (.handed key payload)) := by
  have hholds : s.custody.reading.hand key ≠ .empty := by
    have hsame : s.custody.reading = .decoding (.statement key) payload := hreading
    simp [hsame, ReaderStage.hand]
  obtain ⟨id, hentry, hgoesOn⟩ := hc.exists_entry hholds
  obtain ⟨c, hchannel, hbefore⟩ := exists_channel hentry
  have hreflects : c.Reflects (account.handed.map Signal.ofPayload) := congrArg Prod.snd hbefore
  obtain ⟨hafter, hrow⟩ := hreflects.hear (.ofPayload payload)
  rw [← Channel.receive_eq] at hafter hrow
  have hnoted : (c.receive payload).1.entry =
      (account.note key (.handed key payload)).entry id := by
    have hid : c.id = id := congrArg Prod.fst hbefore
    rw [Account.note, if_pos rfl, Channel.entry, Channel.receive_id, Account.entry, List.map_append]
    exact Prod.ext hid hafter
  have hchange := s.custody_changeChannel hchannel fun c => (c.receive payload).1
  rw [hnoted] at hchange
  unfold decodePayload
  dsimp only
  rw [hchannel, Option.bind_some]
  cases hnext : (c.receive payload).2 with
  | some row =>
    obtain ⟨-, hends, -⟩ := Signal.of_nextRow? (hrow.symm.trans hnext)
    dsimp only
    rw [custody_setReader, hchange]
    exact hc.hand_row hreading hentry hends row
  | none =>
    dsimp only
    have hstill : (s.changeChannel key fun c => (c.receive payload).1).isClosed = false :=
      (congrArg Custody.isClosed hchange).trans hopen
    rw [custody_putBack hstill, hchange]
    dsimp only
    have hkey := (List.getElem?_eq_some_iff.mp hentry).1
    rw [List.getElem?_set_self hkey, Option.any_some, Account.entry_isDone]
    have hlast : (account.note key (.handed key payload)).handed.any Signal.endsWith =
        Signal.endsWith payload := by
      rw [Account.note, if_pos rfl, List.any_append, hgoesOn]
      simp
    rw [hlast]
    split
    · rename_i hends
      exact hc.hand_end hreading hentry hends
    · rename_i hends
      exact hc.hand_back hopen hreading hentry (by simpa using hends)

/-- A change of another channel leaves the statement alone. -/
theorem custody_changeChannel_other {other : Nat} (hother : other ≠ key)
    (change : Channel → Channel) :
    ∃ entries, (s.changeChannel other change).custody = { s.custody with entries := entries } ∧
      entries[key]? = s.custody.entries[key]? := by
  cases hchannel : s.channels[other]? with
  | none =>
    refine ⟨s.custody.entries, ?_, rfl⟩
    unfold changeChannel
    rw [hchannel]
  | some c =>
    refine ⟨_, s.custody_changeChannel hchannel change, ?_⟩
    exact List.getElem?_set_ne hother

/-- What the reader does with another payload leaves the handler where it is. -/
theorem decodePayload_other (hc : s.custody.Sound key account) (hopen : s.isClosed = false)
    {handler : Handler} {payload : List UInt8} (hother : handler ≠ .statement key)
    (hreading : s.reader.stage = .decoding handler payload) :
    (s.decodePayload handler payload).custody.Sound key account := by
  have hsame : s.custody.reading = .decoding handler payload := hreading
  have hhand : s.custody.reading.hand key = .empty := by
    rw [hsame]
    exact ReaderStage.hand_decoding hother payload
  have hstage : s.custody.reading.isStopped = false := by rw [hsame]; rfl
  cases handler with
  | reply other =>
    unfold decodePayload
    dsimp only
    rw [custody_setReader, custody_changeReply]
    exact hc.elsewhere rfl rfl hhand.symm hstage.symm
  | statement other =>
    have hne : other ≠ key := by
      rintro rfl
      exact hother rfl
    obtain ⟨entries, hchange, hentry⟩ :=
      custody_changeChannel_other (s := s) hne fun c => (c.receive payload).1
    have hafter : Custody.Sound key account { s.custody with entries := entries } :=
      hc.elsewhere rfl hentry rfl rfl
    rw [← hchange] at hafter
    unfold decodePayload
    dsimp only
    split
    · rw [custody_setReader, hchange]
      exact hc.elsewhere rfl hentry ((if_neg hne).trans hhand.symm) hstage.symm
    · have hstill : (s.changeChannel other fun c => (c.receive payload).1).isClosed = false :=
        (congrArg Custody.isClosed hchange).trans hopen
      have hreader := congrArg Custody.reading hchange
      refine putBack_other hafter hstill hne ?_ ?_
      · exact (congrArg (ReaderStage.hand key) hreader).trans hhand
      · exact (congrArg ReaderStage.isStopped hreader).trans hstage

/-- The reader stores a row, or waits until it can. -/
theorem storeRow_sound (hc : s.custody.Sound key account) (hopen : s.isClosed = false)
    {other : Nat} {row : Row} (hreading : s.reader.stage = .storing other row) :
    (s.storeRow other row).1.custody.Sound key account := by
  have hchange : (s.changeChannel other fun c => (c.store row).1).custody = s.custody :=
    s.custody_changeChannel_of_entry other fun c _ => c.store_entry row
  have hafter : (s.changeChannel other fun c => (c.store row).1).custody.Sound key account := by
    rw [hchange]
    exact hc
  have hstill : (s.changeChannel other fun c => (c.store row).1).isClosed = false :=
    (congrArg Custody.isClosed hchange).trans hopen
  have hstage : (s.changeChannel other fun c => (c.store row).1).reader.stage =
      .storing other row :=
    (congrArg Custody.reading hchange).trans hreading
  unfold storeRow
  dsimp only
  split
  · by_cases hkey : other = key
    · subst hkey
      have hholds : s.custody.reading.hand other ≠ .empty := by
        have hsame : s.custody.reading = .storing other row := hreading
        simp [hsame, ReaderStage.hand]
      obtain ⟨id, hentry, hgoesOn⟩ := hc.exists_entry hholds
      rw [custody_putBack hstill, hchange, hentry, Option.any_some, Account.entry_isDone, hgoesOn]
      exact hc.putBack hopen hreading
    · refine putBack_other hafter hstill hkey ?_ ?_
      · rw [hstage]
        exact if_neg hkey
      · rw [hstage]
        rfl
  · exact hafter

/-- A reader that is ended lets go of the handler that it holds. -/
theorem dropReader_sound (hc : s.custody.Sound key account) (haborted : s.reader.isAborted) :
    s.dropReader.custody.Sound key account := by
  have hclosed : s.custody.isClosed = true := by
    rw [hc.reader, Custody.goesOn]
    simp [custody, haborted]
  unfold dropReader
  dsimp only
  split
  · rename_i handler payload hstage
    have hreading : s.custody.reading = .decoding handler payload := hstage
    rw [custody_letGo, custody_setReader]
    cases handler with
    | reply other => exact hc.drop hclosed rfl fun _ => rfl
    | statement other =>
      refine hc.drop hclosed (s.custody.id_letGo other key) ?_
      intro hempty
      have hkey : other ≠ key := by
        rintro rfl
        rw [hreading, ReaderStage.hand, if_pos rfl] at hempty
        cases hempty
      exact Custody.getElem?_letGo hkey
  · rename_i other row hstage
    have hreading : s.custody.reading = .storing other row := hstage
    by_cases hkey : other = key
    · subst hkey
      have hholds : s.custody.reading.hand other ≠ .empty := by simp [hreading, ReaderStage.hand]
      obtain ⟨id, hentry, -⟩ := hc.exists_entry hholds
      obtain ⟨c, hchannel, hbefore⟩ := exists_channel hentry
      have hsame : (s.setReader .stopped).channels[other]? = some c := hchannel
      rw [custody_changeChannel _ hsame, custody_setReader]
      refine hc.drop hclosed ?_ fun hempty => absurd hempty hholds
      have hlength := (List.getElem?_eq_some_iff.mp hentry).1
      rw [List.getElem?_set_self hlength, hentry, ← hbefore]
      exact congrArg some c.letGo_id
    · obtain ⟨entries, hchange, hentry⟩ :=
        custody_changeChannel_other (s := s.setReader .stopped) hkey Channel.letGo
      rw [hchange, custody_setReader]
      exact hc.drop hclosed (congrArg _ hentry) fun _ => hentry
  · rw [custody_setReader]
    exact hc.drop hclosed rfl fun _ => rfl

/-- Every turn of the reader keeps the custody sound. -/
theorem readerTurn_sound (hc : s.custody.Sound key account) (hdistinct : s.Distinct) :
    s.readerTurn.1.custody.Sound key (account.noteAll key (s.happening? .reader)) := by
  unfold readerTurn happening?
  dsimp only
  split
  · rename_i haborted
    exact dropReader_sound hc haborted
  · rename_i haborted
    have hgoesOn : s.reader.isAborted = false := by simpa using haborted
    have hopen (h : s.reader.stage.isStopped = false) : s.isClosed = false :=
      isClosed_eq_false hc h hgoesOn
    cases hstage : s.reader.stage with
    | reading =>
      unfold readFrame
      cases hdecode : s.codec.decode s.reader.buffer with
      | mk frame buffer =>
        cases frame with
        | none =>
          exact readMore_sound (s := { s with reader := { s.reader with buffer := buffer } })
            hc hstage
        | some frame =>
          exact takeFrame_sound (s := { s with reader := { s.reader with buffer := buffer } })
            hc ⟨hdistinct.ids, hdistinct.replies⟩ hstage hgoesOn frame
    | decoding handler payload =>
      have hstill := hopen (by rw [hstage]; rfl)
      cases handler with
      | reply other =>
        exact decodePayload_other hc hstill (by simp) hstage
      | statement other =>
        by_cases hkey : other = key
        · subst hkey
          exact decodePayload_own hc hstill hstage
        · have hsame : account.noteAll key (some (.handed other payload)) = account := if_neg hkey
          rw [hsame]
          exact decodePayload_other hc hstill (by simpa using hkey) hstage
    | storing other row => exact storeRow_sound hc (hopen (by rw [hstage]; rfl)) hstage
    | stopped => exact hc

end Link

end BeeProtocol
