import BeeProtocol.Proofs.Frame.RoundTrip
import BeeProtocol.Proofs.Link.Exchanges
import BeeProtocol.Proofs.Link.Lifecycle

/-!
# Outgoing frames

Many calls may want to write at a time, each may be cancelled wherever it waits, and the stream may
take any number of bytes at a time. Still the bytes that the stream has taken and those that are in
the out-buffer are the encodings of frames, one whole frame behind another, in the order in which
their calls got the writer. So the peer receives first these frames, and then those that follow.
-/

namespace BeeProtocol

/-- What a call brings to the writer: its frame, and the handler for the answer if there is one. -/
structure Parcel where
  /-- The call that brings it. -/
  task : Nat
  /-- The frame to be written. -/
  frame : Frame
  /-- The handler of the answer. -/
  handler : Option Handler

/-- What happens at the writer. -/
inductive Posting
  /-- A call gets the writer. -/
  | granted (parcel : Parcel)
  /-- A call puts its handler on the queue. -/
  | registered (task : Nat) (handler : Handler)
  /-- The encoding of a call's frame is started. -/
  | encoded (task : Nat) (frame : Frame)

/-- The frames whose encoding was started, oldest first. -/
def Posting.frames (log : List Posting) : List Frame :=
  log.filterMap fun
    | .encoded _ frame => some frame
    | _ => none

/-- How far a parcel has come that was brought to the writer. -/
inductive Extent
  /-- The link was closed. -/
  | refused
  /-- The handler was put on the queue. -/
  | entered
  /-- Then the encoding of the frame was started. -/
  | encoded
  deriving DecidableEq

namespace Parcel

/-- What happens at the writer because of a parcel. -/
def story (parcel : Parcel) : Extent → List Posting
  | .refused => [.granted parcel]
  | .entered => .granted parcel :: parcel.handler.toList.map (.registered parcel.task)
  | .encoded =>
    .granted parcel :: parcel.handler.toList.map (.registered parcel.task)
      ++ [.encoded parcel.task parcel.frame]

/-- What happens at the writer because of parcels that get there one after another. -/
def stories (posts : List (Parcel × Extent)) : List Posting :=
  posts.flatMap fun (parcel, extent) => parcel.story extent

end Parcel

/-- The frame of a call that waits to be encoded. -/
def Stage.frame? : Stage → Option Frame
  | .sending _ (.inLine frame _) => some frame
  | .sending _ (.holding frame) => some frame
  | _ => none

namespace Link

/-! ### What happens at the writer -/

/-- What a call does at the writer in a turn in which it is not ended. -/
def callPostings (s : Link) (t : Nat) : Stage → List Posting
  | .sending _ (.inLine frame handler) =>
    if s.hasWriter t then
      .granted ⟨t, frame, handler⟩ ::
        if s.isClosed then [] else handler.toList.map (.registered t)
    else []
  | .sending _ (.holding frame) =>
    if s.writer.outbox.length < Writer.boundary then [.encoded t frame] else []
  | _ => []

/-- What happens at the writer in an action. -/
def postingsAt (s : Link) : Action → List Posting
  | .turn (.task t) =>
    match s.tasks[t]? with
    | some task => if task.isAborted then [] else s.callPostings t task.stage
    | none => []
  | _ => []

/-- What happens at the writer in a run. -/
def postings (s : Link) : List Action → List Posting
  | [] => []
  | action :: actions => s.postingsAt action ++ (s.act action).postings actions

/-- How something can happen at the writer in an action. -/
inductive Posts (s : Link) : Action → List Posting → Prop
  | nothing {action : Action} (hnone : (s.entryAt action).written = []) : Posts s action []
  | grant {t : Nat} {label : Option Nat} {purpose : Purpose} {frame : Frame}
    {handler : Option Handler}
    (htask : s.tasks[t]? = some ⟨label, .sending purpose (.inLine frame handler), false⟩)
    (hwriter : s.hasWriter t) :
    Posts s (.turn (.task t))
      (Parcel.story ⟨t, frame, handler⟩ (if s.isClosed then .refused else .entered))
  | encode {t : Nat} {label : Option Nat} {purpose : Purpose} {frame : Frame}
    (htask : s.tasks[t]? = some ⟨label, .sending purpose (.holding frame), false⟩)
    (hroom : s.writer.outbox.length < Writer.boundary) :
    Posts s (.turn (.task t)) [.encoded t frame]

/-- Every action posts what is noted of it. -/
theorem posts_act (s : Link) (action : Action) : s.Posts action (s.postingsAt action) := by
  unfold postingsAt
  split
  · rename_i t
    split
    · rename_i task htask
      obtain ⟨label, stage, isAborted⟩ := task
      have hentry : s.entryAt (.turn (.task t)) =
          if isAborted then {} else s.callEntry t label stage := by
        simp only [entryAt, htask]
      cases isAborted with
      | true => exact .nothing (by rw [hentry]; rfl)
      | false =>
        rw [if_neg (by simp)] at hentry ⊢
        dsimp only
        unfold callPostings
        split
        · split
          · rename_i hwriter
            have hgrant := Posts.grant htask hwriter
            cases hclosed : s.isClosed with
            | true => rwa [hclosed] at hgrant
            | false => rwa [hclosed] at hgrant
          · exact .nothing (by rw [hentry]; rfl)
        · split
          · rename_i hroom
            exact .encode htask hroom
          · rename_i hroom
            refine .nothing ?_
            rw [hentry, callEntry, if_neg (by simp [hroom])]
        · rename_i hline hholding
          refine .nothing ?_
          rw [hentry]
          unfold callEntry
          split
          · rfl
          · rfl
          · exact absurd rfl (hholding _ _)
          · split <;> rfl
          · rfl
    · rename_i htask
      refine .nothing ?_
      simp only [entryAt, htask]
  · rename_i hother
    refine .nothing ?_
    unfold entryAt
    split
    · rfl
    · rfl
    · exact absurd rfl (hother _)
    · rfl

/-! ### Frames that are not too large -/

/-- No frame that waits to be encoded is too large. -/
def IsFit (s : Link) : Prop :=
  ∀ stage ∈ s.roster.stages, ∀ frame, stage.frame? = some frame →
    frame.payload.length ≤ s.codec.limit

variable {s : Link} {t : Nat}

/-- The codec never changes. -/
theorem codec_act (s : Link) (action : Action) : (s.act action).codec = s.codec :=
  congrArg (fun config : Config => Codec.withLimit config.frameLimit) (s.config_act action)

/-- A task that sends pings joins the line only with a ping that is not too large. -/
theorem stages_pauseTurn (s : Link) (t : Nat) (period : Duration) (due : Nat) :
    (s.pauseTurn t period due).1.roster.stages = s.roster.stages ∨
      (s.pauseTurn t period due).1.roster.stages = s.roster.stages.set t .ended ∨
        pingFrame.payload.length ≤ s.codec.limit := by
  unfold pauseTurn
  split
  · split
    · exact .inr (.inl (congrArg Roster.stages (s.roster_setStage t .ended)))
    · rcases s.stages_beginSend (.keepAlive period (Clock.next s.now due period)) pingFrame none
        with hended | ⟨hsize, -⟩
      · exact .inr (.inl hended)
      · exact .inr (.inr hsize)
  · exact .inl rfl

/-- A step of its course brings a call no frame that is too large. -/
theorem IsFit.course {label : Option Nat} {stage new : Stage} {frame : Frame} (h : s.IsFit)
    (htask : s.tasks[t]? = some ⟨label, stage, false⟩) (hcourse : s.Course t stage new)
    (hnew : (s.act (.turn (.task t))).roster.stages[t]? = some new)
    (hframe : new.frame? = some frame) : frame.payload.length ≤ s.codec.limit := by
  have hstage : s.roster.stages[t]? = some stage := stage_of_task htask
  have hbefore := h stage (List.mem_of_getElem? hstage)
  cases hcourse with
  | wait => exact hbefore frame hframe
  | queue hwrites hsize =>
    obtain rfl := Option.some.inj hframe
    exact hsize
  | nextPing period due next =>
    obtain rfl := Option.some.inj hframe
    let woken : Link := { s with ready := s.ready.erase (.task t) }
    have hturn : (woken.taskTurn t).1 = (woken.pauseTurn t period due).1 := by
      unfold taskTurn
      rw [show woken.tasks[t]? = some ⟨label, .pausing period due, false⟩ from htask]
      rfl
    have hstages : (s.act (.turn (.task t))).roster.stages =
        (woken.pauseTurn t period due).1.roster.stages := by
      rw [← hturn]
      exact s.stages_turnOf (.task t)
    rw [hstages] at hnew
    rcases woken.stages_pauseTurn t period due with hsame | hended | hsize
    · rw [hsame] at hnew
      cases hstage.symm.trans hnew
    · rw [hended, show woken.roster.stages = s.roster.stages from rfl,
        Lists.getElem?_set_of_some hstage] at hnew
      cases hnew
    · exact hsize
  | enter hwriter hopen => exact hbefore frame hframe
  | _ => cases hframe

/-- The frames in the line fit after every action. -/
theorem IsFit.act (h : s.IsFit) (action : Action) : (s.act action).IsFit := by
  intro new hmem frame hframe
  rw [codec_act]
  obtain ⟨u, hnew⟩ := List.mem_iff_getElem?.mp hmem
  cases s.comes_act hnew with
  | begun hnone hbegins =>
    have hfirst := isFirst_of_begins s hbegins
    cases new <;> cases hfirst <;> cases hframe
  | kept hstage => exact h new (List.mem_of_getElem? hstage) frame hframe
  | stepped haction htask hcourse =>
    subst haction
    exact h.course htask hcourse hnew hframe
  | dropped hended =>
    subst hended
    cases hframe

/-! ### The parcels that were brought to the writer -/

/-- The frames of the parcels that have come as far as to be encoded. -/
def encodedOf (posts : List (Parcel × Extent)) : List Frame :=
  (posts.filter (·.2 = .encoded)).map (·.1.frame)

/-- The frames that were encoded add up. -/
theorem encodedOf_append (posts more : List (Parcel × Extent)) :
    encodedOf (posts ++ more) = encodedOf posts ++ encodedOf more := by
  simp [encodedOf]

/-- The frames whose encoding was started are those of the parcels that have come so far. -/
theorem frames_stories (posts : List (Parcel × Extent)) :
    Posting.frames (Parcel.stories posts) = encodedOf posts := by
  have hstory (parcel : Parcel) (extent : Extent) :
      Posting.frames (parcel.story extent) = encodedOf [(parcel, extent)] := by
    have hnone : (parcel.handler.toList.map (Posting.registered parcel.task)).filterMap
        (fun | .encoded _ frame => some frame | _ => none) = ([] : List Frame) := by
      cases parcel.handler <;> rfl
    cases extent with
    | refused => rfl
    | entered => exact hnone
    | encoded =>
      change List.filterMap _ (_ ++ [_]) = _
      rw [List.filterMap_append]
      exact congrArg (· ++ [parcel.frame]) hnone
  induction posts with
  | nil => rfl
  | cons post posts ih =>
    obtain ⟨parcel, extent⟩ := post
    have hfirst : Posting.frames (Parcel.stories ((parcel, extent) :: posts)) =
        Posting.frames (parcel.story extent) ++ Posting.frames (Parcel.stories posts) :=
      List.filterMap_append ..
    rw [hfirst, hstory, ih, ← encodedOf_append]
    rfl

/-- What has happened at the writer so far, as the stories of the parcels brought there. -/
structure Posted (s : Link) (log : List Posting) (posts : List (Parcel × Extent)) : Prop where
  /-- What has happened is the stories of the parcels one behind another. -/
  told : log = Parcel.stories posts
  /-- The bytes that were written are those of the frames that were encoded. -/
  bytes : s.writer.bytes = Frame.envelopes (encodedOf posts)
  /-- None of these frames is too large. -/
  sizes : ∀ frame ∈ encodedOf posts, frame.payload.length ≤ s.codec.limit
  /-- Who is about to write brought the last parcel. -/
  last : ∀ t purpose frame, s.roster.stages[t]? = some (.sending purpose (.holding frame)) →
    ∃ earlier handler, posts = earlier ++ [(⟨t, frame, handler⟩, .entered)]

/-- A call that puts its frame into the out-buffer does not hold it any more. -/
theorem stage_of_encoded {label : Option Nat} {purpose : Purpose} {frame : Frame}
    (htask : s.tasks[t]? = some ⟨label, .sending purpose (.holding frame), false⟩)
    (hroom : s.writer.outbox.length < Writer.boundary)
    (hsize : frame.payload.length ≤ s.codec.limit) :
    (s.act (.turn (.task t))).roster.stages[t]? = some (.sending purpose .flushing) := by
  let woken : Link := { s with ready := s.ready.erase (.task t) }
  have hstage : s.roster.stages[t]? = some (.sending purpose (.holding frame)) :=
    stage_of_task htask
  have hencoded : s.codec.encode frame = .ok frame.envelope := if_pos hsize
  have hturn : (woken.taskTurn t).1 =
      ({ woken with writer := woken.writer.put frame.envelope } : Link).setStage t
        (.sending purpose .flushing) := by
    unfold taskTurn
    rw [show woken.tasks[t]? = some ⟨label, .sending purpose (.holding frame), false⟩ from htask]
    dsimp only [sendTurn]
    rw [if_neg (by simp), if_pos hroom, show woken.codec.encode frame = .ok frame.envelope
      from hencoded]
  have hstages := s.stages_turnOf (.task t)
  change (s.turnOf (.task t)).roster.stages[t]? = _
  rw [hstages]
  change (woken.taskTurn t).1.roster.stages[t]? = _
  rw [hturn, roster_setStage]
  exact Lists.getElem?_set_of_some hstage _

/-- What is written in an action comes behind what was written before. -/
theorem bytes_act (s : Link) (action : Action) :
    (s.act action).writer.bytes =
      s.writer.bytes ++ Frame.envelopes ((s.entryAt action).written.map (·.2)) := by
  obtain ⟨phase, -, hledger⟩ := s.aged_act action
  exact congrArg Ledger.bytes hledger

section

variable {log : List Posting} {posts : List (Parcel × Extent)} {action : Action}

/-- Who is about to write after an action was so before, or has just got the writer. -/
theorem holding_act {u : Nat} {purpose : Purpose} {frame : Frame}
    (hnew : (s.act action).roster.stages[u]? = some (.sending purpose (.holding frame))) :
    s.roster.stages[u]? = some (.sending purpose (.holding frame)) ∨
      ∃ label handler, action = .turn (.task u) ∧ s.hasWriter u ∧ s.isClosed = false ∧
        s.tasks[u]? = some ⟨label, .sending purpose (.inLine frame handler), false⟩ := by
  cases s.comes_act hnew with
  | begun hnone hbegins => cases isFirst_of_begins s hbegins
  | kept hstage => exact .inl hstage
  | dropped hended => cases hended
  | @stepped label stage haction htask hcourse =>
    cases hcourse with
    | wait => exact .inl (stage_of_task htask)
    | enter hwriter hopen => exact .inr ⟨label, _, haction, hwriter, hopen, htask⟩

/-- Nothing happens at the writer. -/
theorem Posted.of_nothing (h : s.Posted log posts) (hnone : (s.entryAt action).written = [])
    (hsilent : s.postingsAt action = []) : (s.act action).Posted log posts where
  told := h.told
  bytes := by rw [bytes_act, hnone, h.bytes]; exact List.append_nil _
  sizes := by rw [codec_act]; exact h.sizes
  last u purpose frame hnew := by
    rcases holding_act hnew with hstage | ⟨label, handler, rfl, hwriter, hopen, htask⟩
    · exact h.last u purpose frame hstage
    · simp [postingsAt, htask, callPostings, hwriter] at hsilent

/-- A call gets the writer. -/
theorem Posted.grant {label : Option Nat} {purpose : Purpose} {frame : Frame}
    {handler : Option Handler} (h : s.Posted log posts)
    (hwire : ∀ u stage, s.roster.stages[u]? = some stage → stage.isWriting →
      s.roster.line.head? = some u)
    (htask : s.tasks[t]? = some ⟨label, .sending purpose (.inLine frame handler), false⟩)
    (hwriter : s.hasWriter t) :
    let parcel : Parcel := ⟨t, frame, handler⟩
    let extent : Extent := if s.isClosed then .refused else .entered
    (s.act (.turn (.task t))).Posted (log ++ parcel.story extent)
      (posts ++ [(parcel, extent)]) := by
  intro parcel extent
  have hstage : s.roster.stages[t]? = some (.sending purpose (.inLine frame handler)) :=
    stage_of_task htask
  have hnone : (s.entryAt (.turn (.task t))).written = [] := by
    simp [entryAt, htask, callEntry]
  have hsame : encodedOf (posts ++ [(parcel, extent)]) = encodedOf posts := by
    have hlast : encodedOf [(parcel, extent)] = [] := by
      dsimp only [extent]
      split <;> rfl
    rw [encodedOf_append, hlast, List.append_nil]
  constructor
  · simp [h.told, Parcel.stories]
  · rw [bytes_act, hnone, hsame, h.bytes]
    exact List.append_nil _
  · rw [codec_act, hsame]
    exact h.sizes
  · intro u purpose' frame' hnew
    rcases holding_act hnew with hholding | ⟨label', handler', haction, -, hopen, htask'⟩
    · -- Nobody else has the writer.
      have hhead := hwire u _ hholding rfl
      have hline : s.roster.line.head? = some t := by simpa [hasWriter, roster] using hwriter
      obtain rfl : t = u := Option.some.inj (hline.symm.trans hhead)
      cases hstage.symm.trans hholding
    · obtain rfl : t = u := by
        injection haction with hactor
        injection hactor
      obtain ⟨-, hsending⟩ := Task.mk.inj (Option.some.inj (htask.symm.trans htask'))
      cases hsending.1
      refine ⟨posts, handler, ?_⟩
      dsimp only [extent]
      rw [hopen]
      rfl

/-- The call that has the writer puts its frame into the out-buffer. -/
theorem Posted.encode {label : Option Nat} {purpose : Purpose} {frame : Frame}
    (h : s.Posted log posts) (hfit : s.IsFit)
    (hwire : ∀ u stage, s.roster.stages[u]? = some stage → stage.isWriting →
      s.roster.line.head? = some u)
    (htask : s.tasks[t]? = some ⟨label, .sending purpose (.holding frame), false⟩)
    (hroom : s.writer.outbox.length < Writer.boundary) :
    ∃ posts', (s.act (.turn (.task t))).Posted (log ++ [.encoded t frame]) posts' := by
  have hstage : s.roster.stages[t]? = some (.sending purpose (.holding frame)) :=
    stage_of_task htask
  have hsize : frame.payload.length ≤ s.codec.limit :=
    hfit _ (List.mem_of_getElem? hstage) frame rfl
  have hwritten : (s.entryAt (.turn (.task t))).written = [(t, frame)] := by
    simp [entryAt, htask, callEntry, hroom, hsize]
  obtain ⟨earlier, handler, hposts⟩ := h.last t purpose frame hstage
  let parcel : Parcel := ⟨t, frame, handler⟩
  have hframes : encodedOf (earlier ++ [(parcel, .encoded)]) = encodedOf posts ++ [frame] := by
    have hlast : encodedOf [(parcel, Extent.entered)] = [] := rfl
    rw [hposts, encodedOf_append, encodedOf_append, hlast, List.append_nil]
    rfl
  refine ⟨earlier ++ [(parcel, .encoded)], ?_, ?_, ?_, ?_⟩
  · rw [h.told, hposts]
    simp [Parcel.stories, Parcel.story, parcel]
  · rw [bytes_act, hwritten, hframes, h.bytes]
    simp [Frame.envelopes]
  · rw [codec_act, hframes]
    intro written hmem
    rcases List.mem_append.mp hmem with hmem | hmem
    · exact h.sizes written hmem
    · obtain rfl := List.mem_singleton.mp hmem
      exact hsize
  · intro u purpose' frame' hnew
    have hbefore : s.roster.stages[u]? = some (.sending purpose' (.holding frame')) := by
      rcases holding_act hnew with hholding | ⟨label', handler', haction, -, -, htask'⟩
      · exact hholding
      · obtain rfl : t = u := by
          injection haction with hactor
          injection hactor
        cases htask.symm.trans htask'
    obtain rfl : t = u :=
      Option.some.inj ((hwire t _ hstage rfl).symm.trans (hwire u _ hbefore rfl))
    cases (stage_of_encoded htask hroom hsize).symm.trans hnew

/-- Whatever is done with a link, the stories of the parcels go on. -/
theorem Posted.act (h : s.Posted log posts) (hfit : s.IsFit)
    (hwire : ∀ u stage, s.roster.stages[u]? = some stage → stage.isWriting →
      s.roster.line.head? = some u) (action : Action) :
    ∃ posts', (s.act action).Posted (log ++ s.postingsAt action) posts' := by
  have hposts := s.posts_act action
  generalize hpostings : s.postingsAt action = postings at hposts
  cases hposts with
  | nothing hnone =>
    rw [List.append_nil]
    exact ⟨posts, h.of_nothing hnone hpostings⟩
  | grant htask hwriter => exact ⟨_, h.grant hwire htask hwriter⟩
  | encode htask hroom => exact h.encode hfit hwire htask hroom

/-- What has happened at the writer in a run makes up the stories of parcels. -/
theorem Posted.run {events : List Event} (h : s.Posted log posts) (hfit : s.IsFit)
    (hwire : Roster.WireOrder s.roster.stages s.roster.line events) (actions : List Action) :
    ∃ posts', (actions.foldl Link.act s).Posted (log ++ s.postings actions) posts' := by
  induction actions generalizing s log posts events with
  | nil => exact ⟨posts, by rwa [postings, List.append_nil]⟩
  | cons action actions ih =>
    obtain ⟨posts', hnext⟩ := h.act hfit hwire.writer action
    have hlater := ih hnext (hfit.act action) ((s.act_moves action).wireOrder hwire)
    rwa [List.append_assoc] at hlater

end

/-! ### The registration of a handler -/

/-- A link that a call of its owner uses is not closed. -/
theorem releaseUnused_of_isInUse (h : s.isInUse) : s.releaseUnused = s := by
  unfold releaseUnused
  rw [h, Bool.or_true, if_pos rfl]

/-- A call that gets the writer of an open link puts its handler behind the others. -/
theorem pending_of_granted {label : Option Nat} {purpose : Purpose} {frame : Frame}
    {handler : Handler}
    (htask : s.tasks[t]? = some ⟨label, .sending purpose (.inLine frame (some handler)), false⟩)
    (hconsistent : (Stage.sending purpose (.inLine frame (some handler))).IsConsistent)
    (hwriter : s.hasWriter t) (hopen : s.isClosed = false) :
    (s.act (.turn (.task t))).pending = s.pending ++ [handler] := by
  let woken : Link := { s with ready := s.ready.erase (.task t) }
  let entered : Link := ({ woken with pending := s.pending ++ [handler] } : Link).setStage t
    (.sending purpose (.holding frame))
  have hturn : woken.taskTurn t = (entered, true) := by
    unfold taskTurn
    rw [show woken.tasks[t]? =
      some ⟨label, .sending purpose (.inLine frame (some handler)), false⟩ from htask]
    have hwriter' : woken.hasWriter t := hwriter
    have hopen' : woken.isClosed = false := hopen
    dsimp only [sendTurn]
    rw [if_neg (by simp), if_pos hwriter']
    simp only [enter, Option.elim_some, register, hopen', Bool.false_eq_true, if_false]
    rfl
  -- The call that has entered keeps the link in use.
  have htask' : entered.tasks[t]? = some ⟨label, .sending purpose (.holding frame), false⟩ := by
    change (s.tasks.modify t _)[t]? = _
    rw [List.getElem?_modify_eq, htask]
    rfl
  have hcalled : (Stage.sending purpose (.holding frame)).isPinging = false := by
    cases purpose with
    | keepAlive period next => cases hconsistent
    | _ => rfl
  have hinUse (ready : List Actor) : ({ entered with ready := ready } : Link).isInUse := by
    refine List.any_eq_true.mpr ⟨_, List.mem_of_getElem? htask', ?_⟩
    rw [hcalled]
    rfl
  dsimp only [act, turnOf]
  rw [show ({ s with ready := s.ready.erase (.task t) } : Link).taskTurn t = (entered, true)
    from hturn, if_pos rfl, releaseUnused_of_isInUse (hinUse _)]
  rfl

/-- A handler whose registration is noted is the last one on the queue then. -/
theorem pending_of_registered {handler : Handler} {action : Action}
    (hconsistent : ∀ stage ∈ s.roster.stages, stage.IsConsistent)
    (h : .registered t handler ∈ s.postingsAt action) :
    (s.act action).pending = s.pending ++ [handler] := by
  have hposts := s.posts_act action
  generalize s.postingsAt action = postings at h hposts
  cases hposts with
  | nothing hnone => cases h
  | encode htask hroom => simp at h
  | @grant u label purpose frame brought htask hwriter =>
    have hstage : s.roster.stages[u]? = some (.sending purpose (.inLine frame brought)) :=
      stage_of_task htask
    cases hclosed : s.isClosed with
    | true => simp [hclosed, Parcel.story] at h
    | false =>
      obtain ⟨rfl, rfl⟩ : brought = some handler ∧ u = t := by
        simpa [hclosed, Parcel.story] using h
      exact pending_of_granted htask (hconsistent _ (List.mem_of_getElem? hstage)) hwriter hclosed

/-! ### What goes out -/

/-- What a link has sent, given what has happened at the writer and the parcels that were brought
there. -/
structure Sends (s : Link) (log : List Posting) (posts : List (Parcel × Extent)) : Prop where
  /-- The stories of the parcels stand one behind another: a call gets the writer, registers its
  handler if it has one, and then the encoding of its frame is started, before the next call gets
  the writer. -/
  told : log = Parcel.stories posts
  /-- The bytes that the stream has taken and behind them those that it has not are the encodings of
  these frames, of which none was refused. -/
  bytes : s.codec.encodeAllInto [] (Posting.frames log) =
    (.ok (), s.writer.taken ++ s.writer.outbox)
  /-- The peer gets the first of these frames, however the bytes arrive there: those that were taken
  to the last byte. -/
  received : ∃ whole rest part, Posting.frames log = whole ++ rest ∧
    s.writer.taken = Frame.envelopes whole ++ part ∧ Codec.Begins part rest.head? ∧
      ∀ chunks : List (List UInt8), chunks.flatten = s.writer.taken →
        (s.codec.feedAll [] chunks).1 = whole

/-- Whose stories are told in full has sent what it should. -/
theorem Posted.sends {log : List Posting} {posts : List (Parcel × Extent)}
    (h : s.Posted log posts) : s.Sends log posts := by
  have hframes : Posting.frames log = encodedOf posts := by rw [h.told, frames_stories]
  have hbytes : s.writer.taken ++ s.writer.outbox = Frame.envelopes (encodedOf posts) := h.bytes
  refine ⟨h.told, ?_, ?_⟩
  · rw [hframes, Codec.encodeAllInto_of_le h.sizes, hbytes]
    rfl
  · have htaken : s.writer.taken <+: Frame.envelopes (encodedOf posts) := by
      rw [← hbytes]
      exact List.prefix_append ..
    obtain ⟨whole, rest, part, hwhole, hpart, hbegins⟩ := Codec.exists_whole_envelopes htaken
    refine ⟨whole, rest, part, hframes.trans hwhole, hpart, hbegins, ?_⟩
    intro chunks hchunks
    exact Codec.feedAll_envelopes (hwhole ▸ h.sizes) hbegins (hchunks.trans hpart)

/-- Whatever is done with a link, it sends whole frames in the order in which their calls got the
writer, each after its handler was put on the queue. -/
theorem sends_runOf (config : Config) (actions : List Action) :
    (∃ posts, (runOf config actions).Sends ((fresh config).postings actions) posts) ∧
      ∀ before action after, actions = before ++ action :: after → ∀ t handler,
        .registered t handler ∈ (runOf config before).postingsAt action →
          (runOf config (before ++ [action])).pending =
            (runOf config before).pending ++ [handler] := by
  have hposted : (fresh config).Posted [] [] :=
    { told := rfl
      bytes := rfl
      sizes := fun _ hmem => absurd hmem List.not_mem_nil
      last := fun _ _ _ hstage => by cases hstage }
  have hfit : (fresh config).IsFit := fun _ hmem => by cases hmem
  constructor
  · obtain ⟨posts, hrun⟩ := hposted.run hfit Roster.wireOrder_fresh actions
    exact ⟨posts, hrun.sends⟩
  · rintro before action after - t handler hregistered
    have hwire := ((fresh config).run_moves before).wireOrder Roster.wireOrder_fresh
    rw [runOf_concat]
    exact pending_of_registered hwire.consistent hregistered

/-- A ping is cut in the middle and its call is cancelled there. The next frame goes out behind the
rest of it. -/
example :
    let config := Config.defaults "localhost" 6142
    let actions : List Action :=
      [.setMode (.limited 5), .call 0 .ping rfl, .call 1 (.send ⟨7, [1]⟩ none) rfl,
        .turn (.task 0), .turn (.task 0), .turn (.task 0), .turn (.task 0), .turn (.task 1),
        .cancel 0, .setMode (.limited 30), .turn (.task 1), .turn (.task 1), .turn (.task 1)]
    let s := runOf config actions
    Posting.frames ((fresh config).postings actions) = [pingFrame, ⟨7, [1]⟩] ∧
      s.writer.pieces.map List.length = [30, 5] ∧ s.writer.outbox.length = 9 := by
  decide

end Link

end BeeProtocol
