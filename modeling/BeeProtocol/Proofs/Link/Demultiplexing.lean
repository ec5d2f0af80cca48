import BeeProtocol.Proofs.Link.Run

/-!
# Every payload to its statement

The handler of a statement is given the payloads of the frames that are addressed to the statement,
in the order in which they were read and up to the one that ends it, and no others. So frames for
other statements, of other types or for nobody make no difference to it.
-/

namespace BeeProtocol

namespace Link

/-- The link after a run. -/
def runOf (config : Config) (actions : List Action) : Link := actions.foldl act (fresh config)

/-- More actions are done after the others. -/
theorem runOf_append (config : Config) (actions more : List Action) :
    runOf config (actions ++ more) = more.foldl act (runOf config actions) :=
  List.foldl_append ..

/-- One more action is done after the others. -/
theorem runOf_concat (config : Config) (actions : List Action) (action : Action) :
    runOf config (actions ++ [action]) = (runOf config actions).act action :=
  runOf_append config actions [action]

/-- The account of the handler under a key after a run. -/
def accountOf (config : Config) (actions : List Action) (key : Nat) : Account :=
  .ofTrace key ((fresh config).trace actions)

/-- The handler of the statement on a channel was given what is addressed to it. -/
structure Demultiplexes (s : Link) (account : Account) (key : Nat) (c : Channel) : Prop where
  /-- The payloads that were handed over are those of the frames addressed to the statement since
  its handler was registered, up to the one that ends it. On an open link only the payload that the
  reader is about to hand over is missing, and closing a link loses one payload at most. -/
  handed : ∃ rest : List (List UInt8), rest.length ≤ 1 ∧
    account.handed ++ rest = Signal.upToEnd (Frame.addressed c.id account.frames) ∧
    (s.isClosed = false → rest = (s.reader.stage.hand key).payloads)
  /-- A payload that was handed over and can be decoded has the statement's id. -/
  id_eq : ∀ payload ∈ account.handed, ∀ response,
    Message.decode .statementResponse payload = .ok (.statementResponse response) →
      response.id = c.id
  /-- On an open link, a registered handler whose statement goes on is in one place: it waits for
  frames, or the reader holds it. Any other handler is in neither. -/
  placed : s.isClosed = false →
    s.pending.count (.statement key) + (s.reader.stage.hand key).holds.toNat =
      (account.isRegistered && !account.handed.any Signal.endsWith).toNat
  /-- On an open link, the statement of a registered handler is as these payloads leave it. -/
  reflects : s.isClosed = false → account.isRegistered →
    c.Reflects (account.handed.map Signal.ofPayload)

/-- Two handlers were given the same payloads, as far as each of them has come. -/
structure SameEvents (s s' : Link) (account account' : Account) (key key' : Nat)
    (c c' : Channel) : Prop where
  /-- What one was handed is a beginning of what the other was. -/
  comparable : account.handed <+: account'.handed ∨ account'.handed <+: account.handed
  /-- On open links whose readers hold no payload for them, they were given the very same ones. -/
  handed_eq : s.isClosed = false → s'.isClosed = false →
    (s.reader.stage.hand key).payloads = [] → (s'.reader.stage.hand key').payloads = [] →
      account.handed = account'.handed
  /-- If both handlers are registered, the statements have come to the same then. -/
  answer_eq : s.isClosed = false → s'.isClosed = false →
    (s.reader.stage.hand key).payloads = [] → (s'.reader.stage.hand key').payloads = [] →
      account.isRegistered → account'.isRegistered → c.answer = c'.answer

variable {s s' : Link} {key key' : Nat} {account account' : Account} {c c' : Channel}

/-- In a sound custody, a handler was given what is addressed to it. -/
theorem demultiplexes_of_sound (hc : s.custody.Sound key account) (h : s.channels[key]? = some c) :
    s.Demultiplexes account key c := by
  have hentry : s.custody.entries[key]? = some c.entry := by simp [custody, h]
  have hclosed : s.custody.isClosed = s.isClosed := rfl
  have hstanding := hc.standing
  rw [hentry, hclosed] at hstanding
  obtain ⟨rest, hshort, hall, hrest⟩ := hstanding.handed
  constructor
  · exact ⟨rest, hshort, hall, hrest⟩
  · intro payload hpayload response hdecode
    have hcounts : payload ∈ Signal.upToEnd (Frame.addressed c.id account.frames) := by
      have hmem := List.mem_append_left rest hpayload
      rwa [hall] at hmem
    have haddressed := (Signal.upToEnd_prefix _).subset hcounts
    rw [StatementResponse.decode_eq] at hdecode
    cases hparse : StatementResponse.parser.parse payload with
    | error reason =>
      rw [hparse] at hdecode
      cases hdecode
    | ok parsed =>
      rw [hparse] at hdecode
      obtain rfl : parsed = response := by
        cases hdecode
        rfl
      have hpeek := StatementResponse.peekId_of_parse hparse
      rw [Frame.peekId_of_addressed haddressed] at hpeek
      exact (Option.some.inj hpeek).symm
  · intro hopen
    rw [hopen] at hstanding
    rw [← count_waiting]
    exact hstanding.placed
  · intro hopen hregistered
    rw [hopen] at hstanding
    exact congrArg Prod.snd (hstanding.entry_eq hregistered)

/-- What is not addressed to a statement makes no difference to its handler. -/
theorem Demultiplexes.sameEvents (h : s.Demultiplexes account key c)
    (h' : s'.Demultiplexes account' key' c') (hid : c.id = c'.id)
    (hsame : Frame.addressed c.id account.frames = Frame.addressed c.id account'.frames) :
    SameEvents s s' account account' key key' c c' := by
  obtain ⟨rest, -, hall, hrest⟩ := h.handed
  obtain ⟨rest', -, hall', hrest'⟩ := h'.handed
  rw [← hid, ← hsame] at hall'
  have hequal (hopen : s.isClosed = false) (hopen' : s'.isClosed = false)
      (hnone : (s.reader.stage.hand key).payloads = [])
      (hnone' : (s'.reader.stage.hand key').payloads = []) :
      account.handed = account'.handed := by
    rw [hrest hopen, hnone, List.append_nil] at hall
    rw [hrest' hopen', hnone', List.append_nil] at hall'
    rw [hall, hall']
  constructor
  · apply List.prefix_or_prefix_of_prefix (List.prefix_append account.handed rest)
    rw [hall, ← hall']
    exact List.prefix_append account'.handed rest'
  · exact hequal
  · intro hopen hopen' hnone hnone' hregistered hregistered'
    have hreflects := h.reflects hopen hregistered
    have hreflects' := h'.reflects hopen' hregistered'
    rw [hequal hopen hopen' hnone hnone'] at hreflects
    exact hreflects.trans hreflects'.symm

/-- In a run during which the handlers that wait have distinct ids, every handler is given what is
addressed to its statement, and nothing else. In two runs that agree on what is addressed to a
statement, whatever else is different, its handler is given the same. -/
theorem demultiplexes_runOf (config : Config) (actions : List Action)
    (hdistinct : (fresh config).Throughout Distinct actions) :
    (∀ key c, (runOf config actions).channels[key]? = some c →
      (runOf config actions).Demultiplexes (accountOf config actions key) key c) ∧
    ∀ config' actions', (fresh config').Throughout Distinct actions' → ∀ key key' c c',
      (runOf config actions).channels[key]? = some c →
        (runOf config' actions').channels[key']? = some c' → c.id = c'.id →
          Frame.addressed c.id (accountOf config actions key).frames =
            Frame.addressed c.id (accountOf config' actions' key').frames →
              SameEvents (runOf config actions) (runOf config' actions')
                (accountOf config actions key) (accountOf config' actions' key') key key' c c' := by
  have hevery (config : Config) (actions : List Action)
      (hdistinct : (fresh config).Throughout Distinct actions) (key : Nat) (c : Channel)
      (h : (runOf config actions).channels[key]? = some c) :
      (runOf config actions).Demultiplexes (accountOf config actions key) key c := by
    have hsound := sound_run (sound_fresh config key) actions hdistinct
    exact demultiplexes_of_sound hsound h
  constructor
  · exact hevery config actions hdistinct
  · intro config' actions' hdistinct' key key' c c' h h' hid hsame
    have hfirst := hevery config actions hdistinct key c h
    have hsecond := hevery config' actions' hdistinct' key' c' h'
    exact hfirst.sameEvents hsecond hid hsame

/-- A statement is submitted and its frame written. -/
def submission (key : Nat) (id : UInt32) : List Action :=
  .statement key ⟨2, []⟩ id 4 (.ofSeconds 30) :: List.replicate 4 (.turn (.task key))

/-- Frames arrive and are read. -/
def reception (frames : List Frame) : List Action :=
  frames.map (fun frame => .arrive (.bytes frame.envelope)) ++
    List.replicate (3 * frames.length) (.turn .reader)

/-- Two statements, a payload that cannot be decoded for the second one, frames for nobody, and the
abort of the first one. -/
def twoStatements : List Action :=
  submission 0 7 ++ submission 1 9 ++
    reception [⟨3, [0, 0, 0, 9, 9]⟩, ⟨3, [0, 0, 0, 5, 2]⟩, ⟨3, [1]⟩, ⟨3, [0, 0, 0, 7, 2]⟩]

/-- The first of these statements and its abort alone. -/
def oneStatement : List Action := submission 0 7 ++ reception [⟨3, [0, 0, 0, 7, 2]⟩]

/-- The abort ends the first statement with and without all that goes on beside it. -/
theorem demultiplexes_twoStatements :
    (∃ c, (runOf (.defaults "" 0) twoStatements).channels[0]? = some c ∧
      (runOf (.defaults "" 0) twoStatements).Demultiplexes
        (accountOf (.defaults "" 0) twoStatements 0) 0 c) ∧
      (accountOf (.defaults "" 0) twoStatements 1).handed = [[0, 0, 0, 9, 9]] ∧
      (accountOf (.defaults "" 0) oneStatement 0).handed = [[0, 0, 0, 7, 2]] ∧
      (accountOf (.defaults "" 0) twoStatements 0).handed =
        (accountOf (.defaults "" 0) oneStatement 0).handed := by
  obtain ⟨hall, hsame⟩ := demultiplexes_runOf (.defaults "" 0) twoStatements (by decide)
  obtain ⟨c, hc, hid⟩ : ∃ c, (runOf (.defaults "" 0) twoStatements).channels[0]? = some c ∧
      c.id = 7 := ⟨_, rfl, by decide⟩
  obtain ⟨c', hc', hid'⟩ : ∃ c', (runOf (.defaults "" 0) oneStatement).channels[0]? = some c' ∧
      c'.id = 7 := ⟨_, rfl, by decide⟩
  have hevents := hsame (.defaults "" 0) oneStatement (by decide) 0 0 c c' hc hc'
    (by rw [hid, hid']) (by rw [hid]; decide)
  refine ⟨⟨c, hc, hall 0 c hc⟩, by decide, by decide, ?_⟩
  exact hevents.handed_eq (by decide) (by decide) (by decide) (by decide)

end Link

end BeeProtocol
