import BeeProtocol.Proofs.Link.Demultiplexing
import BeeProtocol.Proofs.Link.Ledger
import BeeProtocol.Proofs.Link.Replies

/-!
# Exchanges with the peer

A connect response says nothing of the request that it answers. A peer that answers the connect
requests it receives in order, one by one, answers the one that was written in the place that the
response has among those that are read.
-/

namespace BeeProtocol

/-- Whether a frame carries a connect request. -/
def Frame.isConnectRequest (frame : Frame) : Bool :=
  frame.type == MessageKind.connectRequest.frameType

/-- Whether a frame carries a connect response. -/
def Frame.isConnectResponse (frame : Frame) : Bool :=
  frame.type == MessageKind.connectResponse.frameType

/-- What a link and its peer have said to each other about connecting. -/
structure Exchanges where
  /-- The connect requests that were put into the out-buffer, each with the single reply that its
  call waits for, if it waits for one. -/
  asked : List (Frame × Option Nat) := []
  /-- The payloads of the connect responses that were read. -/
  answered : List (List UInt8) := []
  deriving DecidableEq

namespace Exchanges

/-- The single replies that were asked for. -/
def keys (x : Exchanges) : List Nat := x.asked.filterMap (·.2)

/-- The single replies that were asked for and not answered. -/
def unanswered (x : Exchanges) : List Nat := (x.asked.drop x.answered.length).filterMap (·.2)

/-- A payload was read in answer to the request that asked for a single reply. -/
def Answers (x : Exchanges) (key : Nat) (payload : List UInt8) : Prop :=
  ∃ (n : Nat) (frame : Frame), x.asked[n]? = some (frame, some key) ∧
    x.answered[n]? = some payload

end Exchanges

namespace Link

/-- The connect request that is put into the out-buffer by an action. -/
def asking (s : Link) (action : Action) : List (Frame × Option Nat) :=
  ((s.entryAt action).written.filter (·.2.isConnectRequest)).map fun (t, frame) =>
    (frame, (s.tasks[t]?).bind (·.stage.asks?))

/-- The connect response that is read in an action. -/
def heard? (s : Link) : Action → Option Frame
  | .turn .reader =>
    if s.reader.isAborted then none
    else
      match s.reader.stage with
      | .reading => (s.codec.decode s.reader.buffer).1.filter (·.isConnectResponse)
      | _ => none
  | _ => none

/-- What has been said after an action. -/
def exchange (s : Link) (x : Exchanges) (action : Action) : Exchanges where
  asked := x.asked ++ s.asking action
  answered := x.answered ++ (s.heard? action).toList.map (·.payload)

/-- What has been said after a run. -/
def exchanges (s : Link) (x : Exchanges) : List Action → Exchanges
  | [] => x
  | action :: actions => (s.act action).exchanges (s.exchange x action) actions

/-- A property of all actions of a run, of the link before each of them and of what has been said by
then. -/
def Along (P : Link → Exchanges → Action → Prop) (s : Link) (x : Exchanges) : List Action → Prop
  | [] => True
  | action :: actions => P s x action ∧ (s.act action).Along P (s.exchange x action) actions

/-- Whether something holds along a run can be tested. -/
instance decidableAlong (P : Link → Exchanges → Action → Prop)
    [∀ s x action, Decidable (P s x action)] (s : Link) (x : Exchanges) :
    (actions : List Action) → Decidable (s.Along P x actions)
  | [] => inferInstanceAs (Decidable True)
  | action :: actions =>
    have := decidableAlong P (s.act action) (s.exchange x action) actions
    inferInstanceAs
      (Decidable (P s x action ∧ (s.act action).Along P (s.exchange x action) actions))

/-- The connect requests that the peer has received. -/
def received (s : Link) : List Frame :=
  (s.codec.decodeAll s.writer.taken).1.filter (·.isConnectRequest)

/-! ### The wire -/

/-- Only frames are put into the out-buffer, and the connect requests among them are those that were
asked. -/
def IsWired (s : Link) (x : Exchanges) : Prop :=
  ∃ frames : List Frame, (∀ frame ∈ frames, frame.payload.length ≤ s.codec.limit) ∧
    s.writer.bytes = Frame.envelopes frames ∧
      x.asked.map (·.1) = frames.filter (·.isConnectRequest)

/-- A frame that is put into the out-buffer is not too large. -/
theorem length_of_written {s : Link} {action : Action} {t : Nat} {frame : Frame}
    (h : (t, frame) ∈ (s.entryAt action).written) : frame.payload.length ≤ s.codec.limit := by
  unfold entryAt at h
  split at h
  · cases h
  · cases h
  · split at h
    · split at h
      · cases h
      · unfold callEntry at h
        split at h
        · cases h
        · cases h
        · split at h
          · rename_i hwrites
            obtain ⟨rfl, rfl⟩ := Prod.mk.inj (List.mem_singleton.mp h)
            exact hwrites.2
          · cases h
        · split at h <;> cases h
        · cases h
    · cases h
  · cases h

variable {s : Link} {x : Exchanges}

/-- The configuration never changes. -/
theorem config_act (s : Link) (action : Action) : (s.act action).config = s.config := by
  obtain ⟨phase, -, hledger⟩ := s.aged_act action
  exact congrArg Ledger.config hledger

/-- The configuration of a run is the one that it starts with. -/
theorem config_runOf (config : Config) (actions : List Action) :
    (runOf config actions).config = config := by
  induction actions using List.reverseRecOn with
  | nil => rfl
  | append_singleton actions action ih =>
    rw [runOf_concat]
    exact (config_act _ action).trans ih

/-- The requests on the wire are those that were exchanged, after every action. -/
theorem IsWired.act (h : s.IsWired x) (action : Action) :
    (s.act action).IsWired (s.exchange x action) := by
  obtain ⟨frames, hsize, hbytes, hasked⟩ := h
  obtain ⟨phase, -, hledger⟩ := s.aged_act action
  refine ⟨frames ++ (s.entryAt action).written.map (·.2), ?_, ?_, ?_⟩
  · intro frame hmem
    rw [codec, config_act]
    rcases List.mem_append.mp hmem with hmem | hmem
    · exact hsize frame hmem
    · obtain ⟨⟨t, frame⟩, hwritten, rfl⟩ := List.mem_map.mp hmem
      exact length_of_written hwritten
  · have hafter : (s.act action).writer.bytes = s.writer.bytes ++
        Frame.envelopes ((s.entryAt action).written.map (·.2)) := congrArg Ledger.bytes hledger
    rw [hafter, hbytes, Frame.envelopes, Frame.envelopes, Frame.envelopes, List.flatMap_append]
  · have hasking : (s.asking action).map (·.1) =
        ((s.entryAt action).written.map (·.2)).filter (·.isConnectRequest) := by
      rw [asking, List.map_map, List.filter_map]
      rfl
    rw [exchange, List.map_append, hasked, hasking, List.filter_append]

/-- Nothing is on the wire in the beginning. -/
theorem isWired_fresh (config : Config) : (fresh config).IsWired {} :=
  ⟨[], by simp, rfl, rfl⟩

/-- What the peer has received comes first among what was asked. -/
theorem IsWired.received (h : s.IsWired x) : s.received <+: x.asked.map (·.1) := by
  obtain ⟨frames, hsize, hbytes, hasked⟩ := h
  rw [hasked]
  -- The frames of a beginning of a stream are the first ones.
  have htaken := s.codec.leaves_decodeAll s.writer.taken
  have hrest := s.codec.leaves_decodeAll ((s.codec.decodeAll s.writer.taken).2 ++ s.writer.outbox)
  have hwhole := htaken.append hrest
  have hframes := s.codec.leaves_decodeAll (Frame.envelopes frames)
  rw [Codec.decodeAll_envelopes hsize] at hframes
  rw [Writer.bytes] at hbytes
  rw [hbytes] at hwhole
  have hsame : _ = frames := (hwhole.unique hframes).1
  rw [Link.received, ← hsame, List.filter_append]
  exact List.prefix_append ..

end Link

end BeeProtocol
