import BeeProtocol.Proofs.Frame.Drawing
import BeeProtocol.Proofs.Link.Sparing

/-!
# The reader's intake

A turn of a reader at work is one of a few steps. It takes the next frame out of its buffer, reads
on if there is none, closes the link at the end of the stream, or goes on with the frame that it
has. So the frames that were read and those that can still be read are together the frames of all
bytes that arrive before the end, and the link is closed only when all of them were read.
-/

namespace BeeProtocol

namespace Inbound

/-- Whether the stream ends with an item. -/
def isEnd : Inbound → Bool
  | bytes _ => false
  | _ => true

/-- Whether the stream has ended with one of the items. -/
def hasEnded (items : List Inbound) : Bool := items.any isEnd

/-- The bytes that arrive before the end of the stream. -/
def streamOf : List Inbound → List UInt8
  | [] => []
  | bytes chunk :: items => chunk ++ streamOf items
  | _ :: _ => []

/-- A stream has ended if it has in one of its parts. -/
theorem hasEnded_append (items more : List Inbound) :
    hasEnded (items ++ more) = (hasEnded items || hasEnded more) := List.any_append

/-- What arrives after the end does not count. -/
theorem streamOf_append_of_hasEnded {items : List Inbound} (h : hasEnded items)
    (more : List Inbound) : streamOf (items ++ more) = streamOf items := by
  induction items with
  | nil => cases h
  | cons item items ih =>
    cases item with
    | bytes chunk => exact congrArg (chunk ++ ·) (ih h)
    | _ => rfl

/-- What comes behind a part that has not ended is part of the stream. -/
theorem streamOf_append {items : List Inbound} (h : hasEnded items = false)
    (more : List Inbound) : streamOf (items ++ more) = streamOf items ++ streamOf more := by
  induction items with
  | nil => rfl
  | cons item items ih =>
    cases item with
    | bytes chunk =>
      rw [List.cons_append, streamOf, ih h, streamOf, List.append_assoc]
    | _ => cases h

end Inbound

/-- What a reader has before it: what arrived and was not read, the bytes that hold no frame yet,
and whether the end was read. -/
structure Feed where
  /-- What has arrived and was not read. -/
  inbound : List Inbound
  /-- The bytes that were read and hold no frame yet. -/
  buffer : List UInt8
  /-- Whether the end was read. -/
  isAtEnd : Bool

/-- The frames that were read are those of the bytes that were taken from what arrived. -/
inductive Feed.Follows (codec : Codec) (f : Feed) (arrived : List Inbound) (frames : List Frame) :
    Prop
  | ahead {taken : List UInt8} (hahead : f.isAtEnd = false)
    (hstream : Inbound.streamOf arrived = taken ++ Inbound.streamOf f.inbound)
    (hended : Inbound.hasEnded arrived = Inbound.hasEnded f.inbound)
    (hdraws : codec.Draws taken frames f.buffer)
  | atEnd (hend : f.isAtEnd = true) (hended : Inbound.hasEnded arrived)
    (hdraws : codec.Draws (Inbound.streamOf arrived) frames f.buffer)

/-- The stream has ended, and all its frames were read. -/
structure Codec.Exhausts (codec : Codec) (arrived : List Inbound) (frames : List Frame) : Prop where
  /-- The end of the stream has arrived. -/
  ended : Inbound.hasEnded arrived
  /-- These are all frames of the stream. -/
  all : frames = (codec.decodeAll (Inbound.streamOf arrived)).1

section Feed

variable {codec : Codec} {f : Feed} {arrived : List Inbound} {frames : List Frame}

/-- In the beginning nothing has arrived. -/
theorem Feed.follows_nil (codec : Codec) : Feed.Follows codec ⟨[], [], false⟩ [] [] :=
  .ahead rfl rfl rfl (.nil codec)

/-- What arrives later leaves the frames as they were drawn. -/
theorem Feed.Follows.arrive (h : f.Follows codec arrived frames) (more : List Inbound) :
    Feed.Follows codec { f with inbound := f.inbound ++ more } (arrived ++ more) frames := by
  cases h with
  | ahead hahead hstream hended hdraws =>
    have hended' : Inbound.hasEnded (arrived ++ more) = Inbound.hasEnded (f.inbound ++ more) := by
      rw [Inbound.hasEnded_append, Inbound.hasEnded_append, hended]
    refine .ahead hahead ?_ hended' hdraws
    cases hover : Inbound.hasEnded f.inbound with
    | true =>
      rw [Inbound.streamOf_append_of_hasEnded (hended.trans hover),
        Inbound.streamOf_append_of_hasEnded hover, hstream]
    | false =>
      rw [Inbound.streamOf_append (hended.trans hover), Inbound.streamOf_append hover, hstream,
        List.append_assoc]
  | atEnd hend hended hdraws =>
    refine .atEnd hend ?_ ?_
    · rw [Inbound.hasEnded_append, hended, Bool.true_or]
    · rwa [Inbound.streamOf_append_of_hasEnded hended]

/-- What arrives after the end changes nothing. -/
theorem Codec.Exhausts.arrive (h : codec.Exhausts arrived frames) (more : List Inbound) :
    codec.Exhausts (arrived ++ more) frames where
  ended := by rw [Inbound.hasEnded_append, h.ended, Bool.true_or]
  all := by rw [Inbound.streamOf_append_of_hasEnded h.ended, h.all]

/-- The frames that were read are the first ones of the stream. -/
theorem Feed.Follows.frames_inOrder (h : f.Follows codec arrived frames) :
    frames <+: (codec.decodeAll (Inbound.streamOf arrived)).1 := by
  cases h with
  | ahead hahead hstream hended hdraws =>
    rw [hstream]
    exact hdraws.isPrefix _
  | atEnd hend hended hdraws =>
    have hpart := hdraws.isPrefix []
    rwa [List.append_nil] at hpart

/-- The end that a reader without a frame in its buffer comes to. -/
def Feed.EndsAt (f : Feed) (inbound : List Inbound) : Prop :=
  f.isAtEnd = true ∧ inbound = f.inbound ∨
    f.isAtEnd = false ∧ ∃ reason, f.inbound = .failed reason :: inbound

/-- At the end all frames were read, whatever is left in the buffer. -/
theorem Feed.Follows.exhausts (h : f.Follows codec arrived frames) {rest : List UInt8}
    (hdecode : codec.decode f.buffer = (none, rest)) {inbound : List Inbound}
    (hover : f.EndsAt inbound) : codec.Exhausts arrived frames := by
  cases h with
  | ahead hahead hstream hended hdraws =>
    obtain ⟨hend, -⟩ | ⟨-, reason, hinbound⟩ := hover
    · rw [hahead] at hend
      cases hend
    · rw [hinbound] at hstream hended
      refine ⟨hended, ?_⟩
      rw [hstream]
      simpa [Inbound.streamOf] using hdraws.eq_decodeAll hdecode
  | atEnd hend hended hdraws => exact ⟨hended, hdraws.eq_decodeAll hdecode⟩

end Feed

namespace Roster

/-! ### The steps of the reader -/

/-- One turn of a reader at work: what it makes of the roster and of what it has before it, and
whether it can go on. -/
inductive ReaderStep (codec : Codec) (r : Roster) (f : Feed) : Roster → Feed → Bool → Prop
  /-- Nobody takes the frame. -/
  | skip {frame : Frame} {rest : List UInt8} (hreading : r.reading = .reading)
    (hdecode : codec.decode f.buffer = (some frame, rest))
    (hfind : r.pending.find? (r.accepts frame) = none) :
    ReaderStep codec r f r { f with buffer := rest } true
  | take {frame : Frame} {rest : List UInt8} {handler : Handler} (hreading : r.reading = .reading)
    (hdecode : codec.decode f.buffer = (some frame, rest))
    (hfind : r.pending.find? (r.accepts frame) = some handler) :
    ReaderStep codec r f
      { r with
        pending := r.pending.erase handler
        reading := .decoding handler frame.payload }
      { f with buffer := rest } true
  | wait {rest : List UInt8} (hreading : r.reading = .reading)
    (hdecode : codec.decode f.buffer = (none, rest)) (hahead : f.isAtEnd = false)
    (hinbound : f.inbound = []) :
    ReaderStep codec r f r { f with buffer := rest } false
  | chunk {rest bytes : List UInt8} {inbound : List Inbound} (hreading : r.reading = .reading)
    (hdecode : codec.decode f.buffer = (none, rest)) (hahead : f.isAtEnd = false)
    (hinbound : f.inbound = .bytes bytes :: inbound) :
    ReaderStep codec r f r { f with inbound := inbound, buffer := rest ++ bytes } true
  | ended {rest : List UInt8} {inbound : List Inbound} (hreading : r.reading = .reading)
    (hdecode : codec.decode f.buffer = (none, rest)) (hahead : f.isAtEnd = false)
    (hinbound : f.inbound = .ended :: inbound) :
    ReaderStep codec r f r ⟨inbound, rest, true⟩ true
  | close {rest : List UInt8} {inbound : List Inbound} (hreading : r.reading = .reading)
    (hdecode : codec.decode f.buffer = (none, rest)) (hover : f.EndsAt inbound) :
    ReaderStep codec r f { r.shut with reading := .stopped }
      { f with inbound := inbound, buffer := rest } false
  | answer {key : Nat} {payload : List UInt8}
    (hreading : r.reading = .decoding (.reply key) payload) :
    ReaderStep codec r f
      { r.changeReply key fun h => ((h.decode payload).complete).drop with reading := .reading } f
      true
  /-- The payload leaves a row to be stored. -/
  | hearRow {key : Nat} {payload : List UInt8} {c : Channel} {row : Row}
    (hreading : r.reading = .decoding (.statement key) payload) (hc : r.channels[key]? = some c)
    (hrow : (c.receive payload).2 = some row) :
    ReaderStep codec r f
      { r.change key fun c => (c.receive payload).1 with reading := .storing key row } f true
  | hear {key : Nat} {payload : List UInt8} {c : Channel}
    (hreading : r.reading = .decoding (.statement key) payload) (hc : r.channels[key]? = some c)
    (hnone : (c.receive payload).2 = none) :
    ReaderStep codec r f
      { r.change key fun c => (c.receive payload).1 with
        pending := if (c.receive payload).1.isDone then r.pending else .statement key :: r.pending
        reading := .reading } f true
  | store {key : Nat} {row : Row} {c : Channel} (hreading : r.reading = .storing key row)
    (hc : r.channels[key]? = some c) (hstored : (c.store row).2 = true) :
    ReaderStep codec r f
      { r.change key fun c => (c.store row).1 with
        pending := if c.isDone then r.pending else .statement key :: r.pending
        reading := .reading } f true
  | stall {key : Nat} {row : Row} {c : Channel} (hreading : r.reading = .storing key row)
    (hc : r.channels[key]? = some c) (hwaits : (c.store row).2 = false) :
    ReaderStep codec r f (r.change key fun c => (c.store row).1) f false
  | rest (hreading : r.reading = .stopped) : ReaderStep codec r f r f false

/-- The frames that a reader at work takes out of its buffer in its next turn. -/
def nextFrames (codec : Codec) (f : Feed) : ReaderStage → List Frame
  | .reading => (codec.decode f.buffer).1.toList
  | _ => []

/-- A reader that does something else reads no frames. -/
theorem nextFrames_of_ne {codec : Codec} {f : Feed} {stage : ReaderStage} (h : stage ≠ .reading) :
    nextFrames codec f stage = [] := by
  cases stage with
  | reading => exact absurd rfl h
  | _ => rfl

/-- A reader that was not woken has nothing to do: nothing has arrived, or it waits for a slot. -/
def Idles (r : Roster) (f : Feed) : Prop :=
  match r.reading with
  | .reading => f.inbound = [] ∧ f.isAtEnd = false
  | .decoding _ _ => False
  | .storing key _ => ∃ c, r.channels[key]? = some c ∧ c.Waits
  | .stopped => True

variable {codec : Codec} {r r' : Roster} {f f' : Feed} {goesOn : Bool}

namespace ReaderStep

/-- A reader that cannot go on has nothing to do. -/
theorem idles (h : ReaderStep codec r f r' f' false) : r'.Idles f' := by
  cases h with
  | wait hreading hdecode hahead hinbound =>
    rw [Idles, hreading]
    exact ⟨hinbound, hahead⟩
  | close hreading hdecode hover => trivial
  | @stall key row c hreading hc hwaits =>
    rw [Idles, show (r.change key fun c => (c.store row).1).reading = r.reading from rfl, hreading]
    refine ⟨(c.store row).1, ?_, ?_⟩
    · rw [change_eq hc]
      exact List.getElem?_set_self (List.getElem?_eq_some_iff.mp hc).1
    · exact c.store_waits hwaits
  | rest hreading =>
    rw [Idles, hreading]
    trivial

/-- The reader ends when it closes the link, and only then. -/
theorem stopped (h : ReaderStep codec r f r' f' goesOn)
    (hstopped : r.reading.isStopped = r.isClosed) : r'.reading.isStopped = r'.isClosed := by
  cases h with
  | skip hreading hdecode hfind => exact hstopped
  | wait hreading hdecode hahead hinbound => exact hstopped
  | chunk hreading hdecode hahead hinbound => exact hstopped
  | ended hreading hdecode hahead hinbound => exact hstopped
  | close hreading hdecode hover => exact r.shut_isClosed.symm
  | stall hreading hc hwaits => exact hstopped
  | rest hreading => exact hstopped
  | _ hreading =>
    rw [hreading] at hstopped
    exact hstopped

/-- Every step of the reader leaves the slots accounted for. -/
theorem slots (h : ReaderStep codec r f r' f' goesOn) (hslots : ∀ c ∈ r.channels, c.HasSlots) :
    ∀ c ∈ r'.channels, c.HasSlots := by
  have hreceive (key : Nat) (payload : List UInt8) :
      ∀ c ∈ (r.change key fun c => (c.receive payload).1).channels, c.HasSlots :=
    forall_change hslots key fun _ _ ⟨capacity, hpos, haccounts⟩ =>
      ⟨capacity, hpos, haccounts.receive payload⟩
  have hstore (key : Nat) (row : Row) :
      ∀ c ∈ (r.change key fun c => (c.store row).1).channels, c.HasSlots :=
    forall_change hslots key fun _ _ ⟨capacity, hpos, haccounts⟩ =>
      ⟨capacity, hpos, haccounts.store row⟩
  cases h with
  | close hreading hdecode hover =>
    exact forall_shut hslots fun _ ⟨capacity, hpos, haccounts⟩ =>
      ⟨capacity, hpos, haccounts.finish _⟩
  | @hearRow key payload c row hreading hc hrow => exact hreceive key payload
  | @hear key payload c hreading hc hnone => exact hreceive key payload
  | @store key row c hreading hc hstored => exact hstore key row
  | @stall key row c hreading hc hwaits => exact hstore key row
  | _ => exact hslots

variable {arrived : List Inbound} {frames : List Frame}

/-- What follows the stream before a step that leaves the link open follows it afterwards. -/
theorem follows (h : ReaderStep codec r f r' f' goesOn) (hfollows : f.Follows codec arrived frames)
    (hopen : r'.isClosed = false) :
    f'.Follows codec arrived (frames ++ nextFrames codec f r.reading) := by
  have hread {frame : Frame} {rest : List UInt8} (hreading : r.reading = .reading)
      (hdecode : codec.decode f.buffer = (some frame, rest)) :
      Feed.Follows codec { f with buffer := rest } arrived
        (frames ++ nextFrames codec f r.reading) := by
    rw [hreading, nextFrames, hdecode]
    cases hfollows with
    | ahead hahead hstream hended hdraws => exact .ahead hahead hstream hended (hdraws.draw hdecode)
    | atEnd hend hended hdraws => exact .atEnd hend hended (hdraws.draw hdecode)
  have hnothing {rest : List UInt8} (hreading : r.reading = .reading)
      (hdecode : codec.decode f.buffer = (none, rest)) :
      frames ++ nextFrames codec f r.reading = frames := by
    rw [hreading, nextFrames, hdecode, Option.toList_none, List.append_nil]
  -- A reader that reads on has not read the end.
  have hahead (hahead : f.isAtEnd = false) :
      ∃ taken, Inbound.streamOf arrived = taken ++ Inbound.streamOf f.inbound ∧
        Inbound.hasEnded arrived = Inbound.hasEnded f.inbound ∧
        codec.Draws taken frames f.buffer := by
    cases hfollows with
    | ahead _ hstream hended hdraws => exact ⟨_, hstream, hended, hdraws⟩
    | atEnd hend =>
      rw [hahead] at hend
      cases hend
  cases h with
  | skip hreading hdecode hfind => exact hread hreading hdecode
  | take hreading hdecode hfind => exact hread hreading hdecode
  | wait hreading hdecode hend hinbound =>
    obtain ⟨taken, hstream, hended, hdraws⟩ := hahead hend
    rw [hnothing hreading hdecode]
    exact .ahead hend hstream hended (hdraws.drop hdecode)
  | @chunk rest bytes inbound hreading hdecode hend hinbound =>
    obtain ⟨taken, hstream, hended, hdraws⟩ := hahead hend
    rw [hinbound] at hstream hended
    rw [hnothing hreading hdecode]
    have hmore : Inbound.streamOf arrived = taken ++ bytes ++ Inbound.streamOf inbound := by
      rw [hstream, List.append_assoc]
      rfl
    exact .ahead hend hmore hended ((hdraws.drop hdecode).arrive bytes)
  | ended hreading hdecode hend hinbound =>
    obtain ⟨taken, hstream, hended, hdraws⟩ := hahead hend
    rw [hinbound] at hstream hended
    rw [hnothing hreading hdecode]
    have hwhole : Inbound.streamOf arrived = taken := hstream.trans (List.append_nil taken)
    refine .atEnd rfl hended ?_
    rw [hwhole]
    exact hdraws.drop hdecode
  | close hreading hdecode hover =>
    have hclosed : r.shut.isClosed = false := hopen
    rw [shut_isClosed] at hclosed
    cases hclosed
  | _ hreading =>
    rw [nextFrames_of_ne (by simp [hreading]), List.append_nil]
    exact hfollows

/-- A step closes an open link only when all frames of the stream were read, and then all that waits
is let go of. -/
theorem closes (h : ReaderStep codec r f r' f' goesOn) (hopen : r.isClosed = false)
    (hclosed : r'.isClosed) :
    r.reading = .reading ∧ nextFrames codec f r.reading = [] ∧
      (f.Follows codec arrived frames → codec.Exhausts arrived frames) ∧
        r' = { r.shut with reading := .stopped } := by
  cases h with
  | close hreading hdecode hover =>
    refine ⟨hreading, ?_, fun hfollows => hfollows.exhausts hdecode hover, rfl⟩
    rw [hreading, nextFrames, hdecode]
    rfl
  | _ => exact absurd (hopen.symm.trans hclosed) (by simp)

end ReaderStep

end Roster

/-- What the reader has before it on a link that looks like this. -/
def Outlook.feed (outlook : Outlook) : Feed :=
  ⟨outlook.inbound, outlook.reader.buffer, outlook.reader.isAtEnd⟩

namespace Link

/-- What the reader of a link has before it. -/
def feed (s : Link) : Feed := s.outlook.feed

variable {s s' : Link}

/-- What spares the reader leaves what it has to read. -/
theorem Spares.feed (h : s.Spares s') : s'.feed = s.feed := congrArg Outlook.feed h.outlook

/-- What a turn of the reader makes of the link, with whether the reader can go on. -/
structure ReaderTurns (s : Link) (next : Link × Bool) : Prop where
  /-- The turn is a step of the reader. -/
  step : Roster.ReaderStep s.codec s.roster s.feed next.1.roster next.1.feed next.2
  /-- The owner is the same. -/
  held : next.1.isHeld = s.isHeld
  /-- The settings are the same. -/
  config : next.1.config = s.config

/-- A step that leaves to the reader what it has before it. -/
theorem ReaderTurns.of_outlook {next : Link} {r' : Roster} {goesOn : Bool}
    (hstep : Roster.ReaderStep s.codec s.roster s.feed r' s.feed goesOn)
    (houtlook : next.outlook = s.outlook) {stage : ReaderStage} {pending : List Handler}
    (hroster : { next.roster with pending := pending, reading := stage } = r') :
    s.ReaderTurns ({ next.setReader stage with pending := pending }, goesOn) where
  step := by
    have hfeed := congrArg Outlook.feed houtlook
    rw [← hroster] at hstep
    have hsame : ({ next.setReader stage with pending := pending } : Link).feed = s.feed := hfeed
    rw [hsame]
    exact hstep
  held := congrArg Outlook.isHeld houtlook
  config := congrArg Outlook.config houtlook

/-- The reader sees of a closing link that it is closed. -/
theorem outlook_shutdown (s : Link) :
    s.shutdown.outlook = { s.outlook with isClosed := true } := by
  have hfold (handlers : List Handler) (next : Link) :
      (handlers.foldl (fun next handler => next.letGo handler) next).outlook = next.outlook := by
    induction handlers generalizing next with
    | nil => rfl
    | cons handler handlers ih =>
      rw [List.foldl_cons, ih, (next.spares_letGo handler).outlook]
  unfold shutdown
  split
  · rename_i hclosed
    rw [← hclosed]
    rfl
  · rw [hfold]
    rfl

/-- An open link puts a handler back unless its statement has ended. -/
theorem putBack_eq (hopen : s.isClosed = false) (key : Nat) :
    s.putBack key =
      { s.setReader .reading with
        pending :=
          if (s.channels[key]?).any (·.isDone) then s.pending
          else .statement key :: s.pending } := by
  have hstill : (s.setReader .reading).isClosed = false := hopen
  unfold putBack
  dsimp only
  by_cases hdone : (s.channels[key]?).any (·.isDone)
  · have hdone' : ((s.setReader .reading).channels[key]?).any (·.isDone) := hdone
    rw [if_pos hdone, if_pos hdone']
    rfl
  · have hdone' : ¬ ((s.setReader .reading).channels[key]?).any (·.isDone) := hdone
    rw [if_neg hdone, if_neg hdone', requeue, if_neg (by simp [hstill])]
    rfl

/-- A reader without a frame in its buffer reads on or closes the link. -/
theorem readMore_turns (hreading : s.reader.stage = .reading) {rest : List UInt8}
    (hdecode : s.codec.decode s.reader.buffer = (none, rest)) :
    s.ReaderTurns ({ s with reader := { s.reader with buffer := rest } } : Link).readMore := by
  have hclose (inbound : List Inbound) (hover : s.feed.EndsAt inbound) :
      s.ReaderTurns ((({ s with
          inbound := inbound
          reader := { s.reader with buffer := rest } } : Link).shutdown.setReader .stopped),
        false) := by
    let spent : Link := { s with inbound := inbound, reader := { s.reader with buffer := rest } }
    have hfeed : spent.shutdown.feed = spent.feed := by
      rw [feed, outlook_shutdown]
      rfl
    have hstep : Roster.ReaderStep s.codec s.roster s.feed
        { s.roster.shut with reading := .stopped }
        { s.feed with inbound := inbound, buffer := rest } false := .close hreading hdecode hover
    refine ⟨?_, congrArg Outlook.isHeld spent.outlook_shutdown,
      congrArg Outlook.config spent.outlook_shutdown⟩
    change Roster.ReaderStep s.codec s.roster s.feed _ spent.shutdown.feed _
    rw [hfeed, roster_setReader, roster_shutdown]
    exact hstep
  unfold readMore
  dsimp only
  by_cases hend : s.reader.isAtEnd = true
  · rw [if_pos hend]
    exact hclose s.inbound (.inl ⟨hend, rfl⟩)
  · rw [if_neg hend]
    rw [Bool.not_eq_true] at hend
    split
    · rename_i hinbound
      exact ⟨.wait (f := s.feed) hreading hdecode hend hinbound, rfl, rfl⟩
    · rename_i hinbound
      exact ⟨.chunk (f := s.feed) hreading hdecode hend hinbound, rfl, rfl⟩
    · rename_i hinbound
      exact ⟨.ended (f := s.feed) hreading hdecode hend hinbound, rfl, rfl⟩
    · rename_i reason inbound hinbound
      exact hclose inbound (.inr ⟨hend, reason, hinbound⟩)

/-- A reader with a frame in its buffer takes off the handler for it, if there is one. -/
theorem takeMatch_turns (hreading : s.reader.stage = .reading) {frame : Frame} {rest : List UInt8}
    (hdecode : s.codec.decode s.reader.buffer = (some frame, rest)) :
    s.ReaderTurns
      (match ({ s with reader := { s.reader with buffer := rest } } : Link).takeMatch frame with
        | (none, s) => (s, true)
        | (some handler, s) => (s.setReader (.decoding handler frame.payload), true)) := by
  have hsame : ({ s with reader := { s.reader with buffer := rest } } : Link).accepts frame =
      s.roster.accepts frame := by
    rw [accepts_roster]
    funext handler
    cases handler <;> rfl
  unfold takeMatch
  dsimp only
  rw [hsame]
  cases hfind : s.pending.find? (s.roster.accepts frame) with
  | none => exact ⟨.skip (r := s.roster) hreading hdecode hfind, rfl, rfl⟩
  | some handler => exact ⟨.take (r := s.roster) hreading hdecode hfind, rfl, rfl⟩

/-- The reader hands the payload that it holds to its handler. -/
theorem decodePayload_turns (hopen : s.isClosed = false) {handler : Handler} {payload : List UInt8}
    (hreading : s.reader.stage = .decoding handler payload)
    (hknown : ∀ key, handler = .statement key → ∃ c, s.channels[key]? = some c) :
    s.ReaderTurns (s.decodePayload handler payload, true) := by
  cases handler with
  | reply key =>
    let answered := s.changeReply key fun h => ((h.decode payload).complete).drop
    have hroster : answered.roster =
        s.roster.changeReply key fun h => ((h.decode payload).complete).drop :=
      s.roster_changeReply key _
    change s.ReaderTurns ({ answered.setReader .reading with pending := answered.pending }, true)
    refine .of_outlook (.answer hreading) (s.spares_changeReply key _).outlook ?_
    rw [← hroster]
    rfl
  | statement key =>
    obtain ⟨c, hc⟩ := hknown key rfl
    let heard := s.changeChannel key fun c => (c.receive payload).1
    have houtlook : heard.outlook = s.outlook := s.outlook_changeChannel key _
    have hroster : heard.roster = s.roster.change key fun c => (c.receive payload).1 :=
      s.roster_changeChannel key _
    have hchannel : heard.channels[key]? = some (c.receive payload).1 := by
      rw [channels_changeChannel, List.getElem?_modify_eq, hc]
      rfl
    have hpending : heard.pending = s.pending := congrArg Roster.pending hroster
    unfold decodePayload
    dsimp only
    rw [hc, Option.bind_some]
    cases hrow : (c.receive payload).2 with
    | some row =>
      change s.ReaderTurns
        ({ heard.setReader (.storing key row) with pending := heard.pending }, true)
      rw [hpending]
      exact .of_outlook (.hearRow hreading hc hrow) houtlook (by rw [hroster]; rfl)
    | none =>
      change s.ReaderTurns (heard.putBack key, true)
      rw [putBack_eq ((congrArg Outlook.isClosed houtlook).trans hopen), hchannel, Option.any_some,
        hpending]
      exact .of_outlook (.hear hreading hc hrow) houtlook (by rw [hroster]; rfl)

/-- The reader tries to store the row that it holds. -/
theorem storeRow_turns (hopen : s.isClosed = false) {key : Nat} {row : Row}
    (hreading : s.reader.stage = .storing key row) {c : Channel} (hc : s.channels[key]? = some c) :
    s.ReaderTurns (s.storeRow key row) := by
  let stored := s.changeChannel key fun c => (c.store row).1
  have houtlook : stored.outlook = s.outlook := s.outlook_changeChannel key _
  have hroster : stored.roster = s.roster.change key fun c => (c.store row).1 :=
    s.roster_changeChannel key _
  have hchannel : stored.channels[key]? = some (c.store row).1 := by
    rw [channels_changeChannel, List.getElem?_modify_eq, hc]
    rfl
  have hpending : stored.pending = s.pending := congrArg Roster.pending hroster
  have hdone : (c.store row).1.isDone = c.isDone := Channel.isDone_of_answer (c.store_answer row)
  unfold storeRow
  dsimp only
  rw [hc, Option.all_some]
  by_cases hstored : (c.store row).2 = true
  · rw [if_pos hstored]
    change s.ReaderTurns (stored.putBack key, true)
    rw [putBack_eq ((congrArg Outlook.isClosed houtlook).trans hopen), hchannel, Option.any_some,
      hpending, hdone]
    exact .of_outlook (.store hreading hc hstored) houtlook (by rw [hroster]; rfl)
  · rw [if_neg hstored]
    have hstep : Roster.ReaderStep s.codec s.roster s.feed
        (s.roster.change key fun c => (c.store row).1) s.feed false :=
      .stall hreading hc (by simpa using hstored)
    have hfeed : stored.feed = s.feed := congrArg Outlook.feed houtlook
    refine ⟨?_, congrArg Outlook.isHeld houtlook, congrArg Outlook.config houtlook⟩
    change Roster.ReaderStep s.codec s.roster s.feed stored.roster stored.feed false
    rw [hroster, hfeed]
    exact hstep

/-- A turn of a reader that was not told to end is one of its steps. -/
theorem readerTurn_turns (hgoesOn : s.reader.isAborted = false)
    (hopen : s.reader.stage.isStopped = false → s.isClosed = false)
    (hknown : ∀ key, s.reader.stage.held? = some (.statement key) →
      ∃ c, s.channels[key]? = some c) : s.ReaderTurns s.readerTurn := by
  unfold readerTurn
  rw [if_neg (by simp [hgoesOn])]
  cases hreading : s.reader.stage with
  | reading =>
    unfold readFrame
    rcases hdecode : s.codec.decode s.reader.buffer with ⟨frame, rest⟩
    cases frame with
    | none => exact readMore_turns hreading hdecode
    | some frame => exact takeMatch_turns hreading hdecode
  | decoding handler payload =>
    refine decodePayload_turns (hopen (by rw [hreading]; rfl)) hreading fun key hkey => ?_
    exact hknown key (by rw [hreading, hkey]; rfl)
  | storing key row =>
    obtain ⟨c, hc⟩ := hknown key (by rw [hreading]; rfl)
    exact storeRow_turns (hopen (by rw [hreading]; rfl)) hreading hc
  | stopped => exact ⟨.rest hreading, rfl, rfl⟩

/-- Whether the reader can go on after its next turn. -/
def readsOn (s : Link) : Bool :=
  ({ s with ready := s.ready.erase .reader } : Link).readerTurn.2

/-- A turn of the reader is one of its steps, after which it stays woken if it can go on. Then the
link may be closed. -/
theorem turned_reader (hgoesOn : s.reader.isAborted = false)
    (hopen : s.reader.stage.isStopped = false → s.isClosed = false)
    (hknown : ∀ key, s.reader.stage.held? = some (.statement key) →
      ∃ c, s.channels[key]? = some c) :
    s.ReaderTurns (s.turned .reader, s.readsOn) ∧
      (s.readsOn → .reader ∈ (s.turned .reader).ready) := by
  let woken : Link := { s with ready := s.ready.erase .reader }
  have hturns : s.ReaderTurns woken.readerTurn := by
    obtain ⟨hstep, hheld, hconfig⟩ := woken.readerTurn_turns hgoesOn hopen hknown
    exact ⟨hstep, hheld, hconfig⟩
  unfold turned readsOn
  dsimp only
  change s.ReaderTurns ((if woken.readerTurn.2 then _ else _ : Link), woken.readerTurn.2) ∧
    (woken.readerTurn.2 → _)
  generalize woken.readerTurn = next at hturns ⊢
  obtain ⟨next, goesOn⟩ := next
  cases goesOn with
  | true => exact ⟨⟨hturns.step, hturns.held, hturns.config⟩, fun _ => List.mem_cons_self⟩
  | false => exact ⟨hturns, fun hgoesOn => by cases hgoesOn⟩

/-- A turn of the reader on a link that its owner holds is one of its steps, after which it stays
woken if it can go on. -/
theorem turnOf_reader (hheld : s.isHeld) (hgoesOn : s.reader.isAborted = false)
    (hopen : s.reader.stage.isStopped = false → s.isClosed = false)
    (hknown : ∀ key, s.reader.stage.held? = some (.statement key) →
      ∃ c, s.channels[key]? = some c) :
    s.ReaderTurns (s.turnOf .reader, s.readsOn) ∧
      (s.readsOn → .reader ∈ (s.turnOf .reader).ready) := by
  have hturned := turned_reader hgoesOn hopen hknown
  rwa [turnOf_eq_release, releaseUnused_of_isHeld _ (hturned.1.held.trans hheld)]

end Link

end BeeProtocol
