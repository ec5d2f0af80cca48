import BeeProtocol.Proofs.Link.Changes
import BeeProtocol.Proofs.Link.Moves
import BeeProtocol.Proofs.Statement.Waking

/-!
# Who is woken

A call that waits for the writer, for a single reply or for a statement is woken when it gets the
writer, when the reply is decided or when the statement ends, and the reader is woken in order to
end. So who was not woken cannot go on: the call waits in line behind another one, or for bytes that
the stream does not take, or for something that has not been decided.
-/

namespace BeeProtocol

namespace Writer

/-- A stream that is stalled takes nothing at the next attempt either. -/
theorem flush_flush {w : Writer} (h : w.flush.2 = .stalled) : w.flush.1.flush.2 = .stalled := by
  unfold flush at h ⊢
  cases hmode : w.mode with
  | limited room =>
    simp only [hmode, ite_eq_right_iff, reduceCtorEq, imp_false] at h
    have hempty : room - min room w.outbox.length = 0 := by omega
    have hleft : 0 ≠ w.outbox.length - min room w.outbox.length := by omega
    simp [give, hempty, hleft]
  | broken reason =>
    cases hout : w.outbox.isEmpty <;> simp [hmode, hout] at h
  | swallowing =>
    cases hout : w.outbox.isEmpty <;> simp [hmode, hout] at h
  | _ => simp [hmode] at h

end Writer

namespace Stage

/-- Whether a call at this stage waits in line for the writer. -/
def isQueueing : Stage → Bool
  | sending _ (.inLine _ _) => true
  | closing => true
  | _ => false

/-- Whether a call at this stage is in the line for the writer. -/
def isInLine (stage : Stage) : Bool := stage.isQueueing || stage.isWriting

end Stage

namespace Roster

/-- A call at a stage cannot go on, unless time passes, more rows arrive or the stream takes more
bytes. -/
def Rests (r : Roster) (w : Writer) (t : Nat) : Stage → Prop
  | .called _ => False
  | .sending _ (.inLine _ _) => r.line.head? ≠ some t
  | .sending _ (.holding _) => w.flush.2 = .stalled
  | .sending _ .flushing => w.flush.2 = .stalled
  | .replying key _ _ _ => ∀ h, r.replies[key]? = some h → h.promise.outcome = none
  | .closing => r.line.head? ≠ some t
  | .pulling key _ => ∃ c, r.channels[key]? = some c ∧ c.isDone = false
  | _ => True

/-- Somebody cannot go on. -/
def Blocked (r : Roster) (w : Writer) : Actor → Prop
  | .reader => r.isAborted → r.reading.isStopped
  | .task t => ∀ stage, r.stages[t]? = some stage → r.Rests w t stage

/-- A call is in the line if its stage says so, and it waits only for statements that there are. -/
structure IsPlaced (r : Roster) (t : Nat) : Prop where
  /-- The call is in the line exactly if its stage says so. -/
  line : t ∈ r.line ↔ ∃ stage, r.stages[t]? = some stage ∧ stage.isInLine
  /-- It waits only for statements that there are. -/
  known : ∀ key call, r.stages[t]? = some (.pulling key call) → key < r.channels.length

/-- Who writes has the writer. -/
def WriterFirst (r : Roster) : Prop :=
  ∀ t stage, r.stages[t]? = some stage → stage.isWriting → r.line.head? = some t

variable {r r' : Roster} {w : Writer} {t : Nat} {stage : Stage} {actor : Actor}

/-- A call rests on if what it waits for is the same and it comes no closer to the writer. -/
theorem Rests.of_same (h : r.Rests w t stage)
    (hhead : r'.line.head? = some t → r.line.head? = some t)
    (hreplies : r'.replies = r.replies) (hchannels : r'.channels = r.channels) :
    r'.Rests w t stage := by
  cases stage with
  | sending purpose step =>
    cases step with
    | inLine frame handler => exact fun hnext => h (hhead hnext)
    | holding frame => exact h
    | flushing => exact h
  | closing => exact fun hnext => h (hhead hnext)
  | replying key bound use deadline =>
    rw [Rests, hreplies]
    exact h
  | pulling key call =>
    rw [Rests, hchannels]
    exact h
  | _ => exact h

/-- A call that waits for a statement waits on as long as the statement does not end. -/
theorem Rests.change (h : r.Rests w t stage) {key : Nat} {change : Channel → Channel}
    (hpulls : stage.isPulling key → ∀ c, r.channels[key]? = some c → c.isDone = false →
      (change c).isDone = false) : (r.change key change).Rests w t stage := by
  cases stage with
  | pulling other call =>
    obtain ⟨c, hc, hlive⟩ := h
    by_cases hkey : other = key
    · subst hkey
      exact ⟨change c, by simp [Roster.change, hc], hpulls (by simp [Stage.isPulling]) c hc hlive⟩
    · refine ⟨c, ?_, hlive⟩
      rw [Roster.change, List.getElem?_modify, hc]
      simp [Ne.symm hkey]
  | sending purpose step => cases step <;> exact h
  | _ => exact h

/-- A call that waits for a single reply waits on as long as the reply is not decided. -/
theorem Rests.changeReply (h : r.Rests w t stage) {key : Nat} {change : ReplyHandler → ReplyHandler}
    (hwaits : stage.isWaitingFor key → ∀ h, r.replies[key]? = some h → h.promise.outcome = none →
      (change h).promise.outcome = none) : (r.changeReply key change).Rests w t stage := by
  cases stage with
  | replying other bound use deadline =>
    intro reply hreply
    rw [Roster.changeReply, List.getElem?_modify] at hreply
    by_cases hkey : key = other
    · subst hkey
      obtain ⟨before, hbefore, rfl⟩ : ∃ before, r.replies[key]? = some before ∧
          change before = reply := by simpa using hreply
      exact hwaits (by simp [Stage.isWaitingFor]) before hbefore (h before hbefore)
    · exact h reply (by simpa [hkey] using hreply)
  | sending purpose step => cases step <;> exact h
  | _ => exact h

/-- What is opened is not decided. -/
theorem Rests.openStatement (h : r.Rests w t stage) (more : List Channel) :
    ({ r with channels := r.channels ++ more } : Roster).Rests w t stage := by
  cases stage with
  | pulling key call =>
    obtain ⟨c, hc, hlive⟩ := h
    refine ⟨c, ?_, hlive⟩
    exact (List.getElem?_append_left (List.getElem?_eq_some_iff.mp hc).1).trans hc
  | sending purpose step => cases step <;> exact h
  | _ => exact h

/-- A call rests on when a new reply is opened. -/
theorem Rests.openReply (h : r.Rests w t stage) (kind : MessageKind) :
    ({ r with replies := r.replies ++ [ReplyHandler.ofKind kind] } : Roster).Rests w t stage := by
  cases stage with
  | replying key bound use deadline =>
    intro reply hreply
    rw [List.getElem?_append] at hreply
    split at hreply
    · exact h reply hreply
    · obtain rfl := List.mem_singleton.mp (List.mem_of_getElem? hreply)
      rfl
  | sending purpose step => cases step <;> exact h
  | _ => exact h

/-- Only a call that writes cares about the stream. -/
theorem Rests.of_not_writing (h : r.Rests w t stage) (hwrites : stage.isWriting = false)
    (w' : Writer) : r.Rests w' t stage := by
  cases stage with
  | sending purpose step =>
    cases step with
    | inLine frame handler => exact h
    | holding frame => cases hwrites
    | flushing => cases hwrites
  | _ => exact h

/-- A call keeps its place if neither the line nor its stage changes. -/
theorem IsPlaced.of_same (h : r.IsPlaced t) (hline : t ∈ r'.line ↔ t ∈ r.line)
    (hstage : r'.stages[t]? = r.stages[t]?) (hchannels : r.channels.length ≤ r'.channels.length) :
    r'.IsPlaced t := by
  refine ⟨by rw [hline, hstage, h.line], fun key call hpulls => ?_⟩
  rw [hstage] at hpulls
  exact Nat.lt_of_lt_of_le (h.known key call hpulls) hchannels

end Roster

namespace Link

variable {s s' : Link} {actor : Actor} {t : Nat}

/-- Somebody was woken or cannot go on. -/
structure Heeded (s : Link) (actor : Actor) : Prop where
  /-- The actor was woken or cannot go on. -/
  woken : actor ∈ s.ready ∨ s.roster.Blocked s.writer actor
  /-- If it is a call it has its place. -/
  placed : ∀ t, actor = .task t → s.roster.IsPlaced t

/-- Who was not woken cannot go on. -/
def Alert (s : Link) : Prop := ∀ actor, s.Heeded actor

namespace Heeded

/-- What only wakes, or changes what nobody waits for, keeps somebody heeded. -/
theorem of_same {pending : List Handler} {isClosed : Bool} (h : s.Heeded actor)
    (hready : actor ∈ s.ready → actor ∈ s'.ready)
    (hroster : s'.roster = { s.roster with pending := pending, isClosed := isClosed })
    (hwriter : s'.writer = s.writer) : s'.Heeded actor := by
  refine ⟨h.woken.imp hready fun hblocked => ?_, fun t ht => ?_⟩
  · rw [hroster, hwriter]
    cases actor with
    | reader => exact hblocked
    | task t => exact fun stage hstage => (hblocked stage hstage).of_same id rfl rfl
  · rw [hroster]
    exact (h.placed t ht).of_same Iff.rfl rfl (Nat.le_refl _)

/-- Waking more actors keeps somebody heeded. -/
theorem wakes (h : s.Heeded actor) (hwakes : s.Wakes s') : s'.Heeded actor :=
  h.of_same hwakes.mem_ready hwakes.roster hwakes.writer

end Heeded

/-! ### Statements and replies -/

/-- A change of a channel leaves the writer alone. -/
@[simp] theorem changeChannel_writer (s : Link) (key : Nat) (change : Channel → Channel) :
    (s.changeChannel key change).writer = s.writer := (s.wakes_changeChannel key change).writer

/-- A change of a channel lets nobody fall asleep. -/
theorem mem_ready_changeChannel (h : actor ∈ s.ready) (key : Nat) (change : Channel → Channel) :
    actor ∈ (s.changeChannel key change).ready := (s.wakes_changeChannel key change).mem_ready h

/-- A call that waits for a statement is woken by what callers are told of. -/
theorem mem_ready_changeChannel_of_tells {stage : Stage} {key : Nat} {c : Channel}
    {change : Channel → Channel} (hstage : s.roster.stages[t]? = some stage)
    (hpulls : stage.isPulling key) (hc : s.channels[key]? = some c)
    (htells : c.tellsCallers (change c)) : .task t ∈ (s.changeChannel key change).ready := by
  have hwoken := mem_ready_wakeTasks_of_test
    (s := { s with channels := s.channels.set key (change c) }) hstage
    (fun stage => stage.isPulling key) hpulls
  unfold changeChannel
  rw [hc]
  dsimp only
  rw [if_pos htells]
  split
  · exact mem_ready_wake hwoken _
  · exact hwoken

/-- A change of a reply leaves the writer alone. -/
@[simp] theorem changeReply_writer (s : Link) (key : Nat) (change : ReplyHandler → ReplyHandler) :
    (s.changeReply key change).writer = s.writer := (s.wakes_changeReply key change).writer

/-- A change of a reply lets nobody fall asleep. -/
theorem mem_ready_changeReply (h : actor ∈ s.ready) (key : Nat)
    (change : ReplyHandler → ReplyHandler) : actor ∈ (s.changeReply key change).ready :=
  (s.wakes_changeReply key change).mem_ready h

/-- A call that waits for a single reply is woken when the reply is decided. -/
theorem mem_ready_changeReply_of_decided {stage : Stage} {key : Nat} {reply : ReplyHandler}
    {change : ReplyHandler → ReplyHandler} (hstage : s.roster.stages[t]? = some stage)
    (hwaits : stage.isWaitingFor key) (hreply : s.replies[key]? = some reply)
    (hbefore : reply.promise.outcome = none) (hafter : (change reply).promise.outcome ≠ none) :
    .task t ∈ (s.changeReply key change).ready := by
  have hdecided : (!reply.promise.isComplete && (change reply).promise.isComplete) = true := by
    simp [Promise.isComplete, hbefore, Option.isSome_iff_ne_none, hafter]
  unfold changeReply
  rw [hreply]
  dsimp only
  rw [if_pos hdecided]
  exact mem_ready_wakeTasks_of_test
    (s := { s with replies := s.replies.set key (change reply) }) hstage _ hwaits

namespace Heeded

/-- A channel that changes tells whom it concerns. -/
theorem changeChannel (h : s.Heeded actor) (key : Nat) (change : Channel → Channel) :
    (s.changeChannel key change).Heeded actor := by
  have hroster := s.roster_changeChannel key change
  refine ⟨?_, fun t ht => ?_⟩
  · rcases h.woken with hready | hblocked
    · exact .inl (mem_ready_changeChannel hready key change)
    · by_cases htold : actor ∈ (s.changeChannel key change).ready
      · exact .inl htold
      · right
        rw [hroster, changeChannel_writer]
        cases actor with
        | reader => exact hblocked
        | task t =>
          intro stage hstage
          refine (hblocked stage hstage).change fun hpulls c hc hlive => ?_
          by_contra hdone
          -- The statement has just ended, of which its callers are told.
          have htells : c.tellsCallers (change c) := by
            simp only [Channel.isDone, beq_eq_false_iff_ne, ne_eq, Decidable.not_not] at hdone hlive
            simp [Channel.tellsCallers, hdone, hlive]
          exact htold (mem_ready_changeChannel_of_tells hstage hpulls hc htells)
  · rw [hroster]
    exact (h.placed t ht).of_same Iff.rfl rfl (by simp [Roster.change])

/-- A reply that is decided tells whom it concerns. -/
theorem changeReply (h : s.Heeded actor) (key : Nat) (change : ReplyHandler → ReplyHandler) :
    (s.changeReply key change).Heeded actor := by
  have hroster := s.roster_changeReply key change
  refine ⟨?_, fun t ht => ?_⟩
  · rcases h.woken with hready | hblocked
    · exact .inl (mem_ready_changeReply hready key change)
    · by_cases htold : actor ∈ (s.changeReply key change).ready
      · exact .inl htold
      · right
        rw [hroster, changeReply_writer]
        cases actor with
        | reader => exact hblocked
        | task t =>
          intro stage hstage
          refine (hblocked stage hstage).changeReply fun hwaits reply hreply hbefore => ?_
          by_contra hafter
          exact htold (mem_ready_changeReply_of_decided hstage hwaits hreply hbefore hafter)
  · rw [hroster]
    exact (h.placed t ht).of_same Iff.rfl rfl (Nat.le_refl _)

/-- A handler that is let go of tells whom it concerns. -/
theorem letGo (h : s.Heeded actor) (handler : Handler) : (s.letGo handler).Heeded actor := by
  cases handler with
  | statement key => exact h.changeChannel key _
  | reply key => exact h.changeReply key _

/-- A handler that is taken off the queue concerns nobody else. -/
theorem unregister (h : s.Heeded actor) (handler : Handler) : (s.unregister handler).Heeded actor :=
  h.of_same id rfl rfl

/-! ### The end of the link -/

/-- A link that is closed tells whom it concerns. -/
theorem shutdown (h : s.Heeded actor) : s.shutdown.Heeded actor := by
  have hfold (handlers : List Handler) (s : Link) (h : s.Heeded actor) :
      (handlers.foldl (fun s handler => s.letGo handler) s).Heeded actor := by
    induction handlers generalizing s with
    | nil => exact h
    | cons handler handlers ih => exact ih (s.letGo handler) (h.letGo handler)
  unfold Link.shutdown
  split
  · exact h
  · exact hfold s.pending _ (h.of_same id rfl rfl)

/-- A reader that is to end is woken. -/
theorem stopReader (h : s.Heeded actor) : s.stopReader.Heeded actor := by
  unfold Link.stopReader
  split
  · exact h
  · let told : Link := { s with reader := { s.reader with isAborted := true } }
    cases actor with
    | reader => exact ⟨.inl (mem_ready_wake_self told .reader), fun t ht => by cases ht⟩
    | task t =>
      have htold : told.Heeded (.task t) := by
        refine ⟨h.woken.imp id fun hblocked => ?_, fun u hu => ?_⟩
        · exact fun stage hstage => (hblocked stage hstage).of_same id rfl rfl
        · exact (h.placed u hu).of_same Iff.rfl rfl (Nat.le_refl _)
      exact htold.wakes (wakes_wake told .reader)

/-- A link that fails tells whom it concerns. -/
theorem fail (h : s.Heeded actor) : s.fail.Heeded actor := h.shutdown.stopReader

/-- The task that sends pings is woken in order to end. -/
theorem stopKeepAlive (h : s.Heeded actor) : s.stopKeepAlive.Heeded actor := by
  rcases s.stopKeepAlive_cases with ⟨-, hsame⟩ | ⟨key, -, hwakes⟩
  · rwa [hsame]
  · exact h.of_same (fun hready => hwakes.mem_ready hready) s.roster_stopKeepAlive hwakes.writer

/-- A link that is closed as nobody uses it wakes whom that concerns. -/
theorem releaseUnused (h : s.Heeded actor) : s.releaseUnused.Heeded actor := by
  rcases s.releaseUnused_cases with hsame | hsame | hsame <;> rw [hsame]
  · exact h
  · exact h.stopKeepAlive
  · exact h.stopKeepAlive.fail

/-! ### What is opened -/

/-- A new statement concerns nobody yet. -/
theorem addChannel (h : s.Heeded actor) (channel : Channel) :
    (s.addChannel channel).Heeded actor := by
  refine ⟨h.woken.imp id fun hblocked => ?_, fun t ht => ?_⟩
  · cases actor with
    | reader => exact hblocked
    | task t => exact fun stage hstage => (hblocked stage hstage).openStatement [channel]
  · refine (h.placed t ht).of_same Iff.rfl rfl ?_
    simp [Link.addChannel, roster]

/-- A new reply concerns nobody yet. -/
theorem addReply (h : s.Heeded actor) (kind : MessageKind) : (s.addReply kind).Heeded actor := by
  refine ⟨h.woken.imp id fun hblocked => ?_, fun t ht => ?_⟩
  · cases actor with
    | reader => exact hblocked
    | task t => exact fun stage hstage => (hblocked stage hstage).openReply kind
  · exact (h.placed t ht).of_same Iff.rfl rfl (Nat.le_refl _)

/-- A task that is added is woken. -/
theorem addTask (h : s.Heeded actor) (label : Option Nat) {stage : Stage}
    (hline : stage.isInLine = false)
    (hknown : ∀ key call, stage = .pulling key call → key < s.channels.length) :
    (s.addTask label stage).Heeded actor := by
  let added : Link := { s with tasks := s.tasks ++ [Task.mk label stage false] }
  have hroster := s.roster_addTask label stage
  have hlength : s.roster.stages.length = s.tasks.length := List.length_map ..
  have hother {t : Nat} (ht : t ≠ s.tasks.length) :
      (s.roster.stages ++ [stage])[t]? = s.roster.stages[t]? := by
    rw [List.getElem?_append]
    split
    · rfl
    · rw [List.getElem?_eq_none (by simp; omega), List.getElem?_eq_none (by omega)]
  constructor
  · rcases h.woken with hready | hblocked
    · exact .inl (mem_ready_wake (s := added) hready _)
    · by_cases hnew : actor = .task s.tasks.length
      · subst hnew
        exact .inl (mem_ready_wake_self added _)
      · right
        rw [hroster, (s.wakes_addTask label stage).writer]
        cases actor with
        | reader => exact hblocked
        | task t =>
          intro stage' hstage
          rw [hother (by simpa using hnew)] at hstage
          exact (hblocked stage' hstage).of_same id rfl rfl
  · intro t ht
    have hplaced := h.placed t ht
    rw [hroster]
    by_cases hnew : t = s.tasks.length
    · subst hnew
      have hlast : (s.roster.stages ++ [stage])[s.tasks.length]? = some stage := by simp [← hlength]
      have hnone : s.roster.stages[s.tasks.length]? = none :=
        List.getElem?_eq_none (Nat.le_of_eq hlength)
      refine ⟨?_, fun key call hpulls => hknown key call ?_⟩
      · dsimp only
        rw [hplaced.line, hnone, hlast]
        simp [hline]
      · rw [hlast] at hpulls
        exact Option.some.inj hpulls
    · exact hplaced.of_same Iff.rfl (hother hnew) (Nat.le_refl _)

/-- Nobody waits for the link to be marked open. -/
theorem markOpen (h : s.Heeded actor) : s.markOpen.Heeded actor := by
  refine h.of_same (fun hready => ?_) s.roster_markOpen ?_
  · rwa [markOpen_eq]
  · rw [markOpen_eq]

end Heeded

end Link

end BeeProtocol
