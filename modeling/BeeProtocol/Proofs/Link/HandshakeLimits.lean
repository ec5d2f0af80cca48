import BeeProtocol.Proofs.Config
import BeeProtocol.Proofs.Link.Handshakes

/-!
# The limit of a handshake

A call that asks to connect takes its limit from the settings in its first turn. Since a second is
added to the connect timeout even where a limit was set, the call breaks off on the overflow of that
sum whatever the limit.
-/

namespace BeeProtocol.Link

open Config

/-- What the limit for the handshake reply comes to under some settings, and what becomes of the
calls that take it. -/
structure LimitsHandshakes (host : String) (port : UInt16) (settings : List Setting) : Prop where
  /-- It is out of range exactly if a second more than the connect timeout is. -/
  overflows : (build host port settings).handshakeTimeout = .error .durationOverflow ↔
    Duration.limit ≤ (connectTimeoutOf settings).nanos + Duration.perSecond
  /-- Otherwise it is the one that was set last, whatever the connect timeout. -/
  explicit : (connectTimeoutOf settings).nanos + Duration.perSecond < Duration.limit →
    ∀ span, handshakeTimeoutOf settings = some span →
      (build host port settings).handshakeTimeout = .ok span
  /-- If none was set, it is a second more than the connect timeout. -/
  implied : handshakeTimeoutOf settings = none →
    ∀ hlt : (connectTimeoutOf settings).nanos + Duration.perSecond < Duration.limit,
      (build host port settings).handshakeTimeout =
        .ok ⟨(connectTimeoutOf settings).nanos + Duration.perSecond, hlt⟩
  /-- In every run of a connection, a call that asks to connect breaks off on an overflow in its
  first turn if the limit is out of range, and never otherwise. -/
  breaks : ∀ actions, (∀ action ∈ actions, action.isOfConnection) → ∀ t label stage,
    (runOf (build host port settings) actions).tasks[t]? = some ⟨some label, stage, false⟩ →
    stage.isHandshake →
      (((runOf (build host port settings) actions).act (.turn (.task t))).finished =
          (runOf (build host port settings) actions).finished ++
            [(label, .overflow .durationOverflow)] ↔
        (∃ application url, stage = .called (.handshake application url)) ∧
          Duration.limit ≤ (connectTimeoutOf settings).nanos + Duration.perSecond)

variable {config : Config} {actions : List Action} {t label : Nat} {stage : Stage}

/-- A call that asks to connect breaks off on an overflow in its first turn if there is no limit to
take. -/
theorem finished_act_overflow_iff (hown : ∀ action ∈ actions, action.isOfConnection)
    (htask : (runOf config actions).tasks[t]? = some ⟨some label, stage, false⟩)
    (hhandshake : stage.isHandshake) :
    ((runOf config actions).act (.turn (.task t))).finished =
        (runOf config actions).finished ++ [(label, .overflow .durationOverflow)] ↔
      (∃ application url, stage = .called (.handshake application url)) ∧
        config.handshakeTimeout = .error .durationOverflow := by
  have hbrings := fun action hmem => bringsReply_of_isOfConnection (hown action hmem)
  rw [finished_act_handshake_iff hbrings htask hhandshake]
  constructor
  · rintro (hbound | _)
    exact ⟨⟨_, _, rfl⟩, (config_runOf config actions) ▸ hbound⟩
  · rintro ⟨⟨application, url, rfl⟩, hbound⟩
    exact .unbounded ((config_runOf config actions).symm ▸ hbound)

/-- The limit for the handshake reply is the one that was set last, or a second more than the
connect timeout, unless that sum is out of range. -/
theorem limitsHandshakes_build (host : String) (port : UInt16) (settings : List Setting) :
    LimitsHandshakes host port settings := by
  have hconnect := connectTimeout_build host port settings
  have hset := handshakeTimeoutSet_build host port settings
  have hoverflows : (build host port settings).handshakeTimeout = .error .durationOverflow ↔
      Duration.limit ≤ (connectTimeoutOf settings).nanos + Duration.perSecond := by
    rw [handshakeTimeout_eq_error_iff, hconnect]
  constructor
  · exact hoverflows
  · intro hlt span hspan
    rw [← hconnect] at hlt
    rw [handshakeTimeout_of_lt hlt, hset, hspan, Option.getD_some]
  · intro hnone hlt
    simp only [← hconnect] at hlt ⊢
    rw [handshakeTimeout_of_lt hlt, hset, hnone, Option.getD_none]
  · intro actions hown t label stage htask hhandshake
    rw [finished_act_overflow_iff hown htask hhandshake, hoverflows]

/-- With the largest connect timeout a handshake breaks off, although a limit was set for it. -/
theorem handshakeTimeout_overflows :
    (build "db" 7000 [.connectTimeout .max,
        .handshakeTimeout ⟨500000000, by decide⟩]).handshakeTimeout = .error .durationOverflow ∧
      (runOf (build "db" 7000 [.connectTimeout .max, .handshakeTimeout ⟨500000000, by decide⟩])
        [.call 0 (.handshake "" "") rfl, .turn (.task 0)]).finished =
          [(0, .overflow .durationOverflow)] :=
  ⟨rfl, rfl⟩

end BeeProtocol.Link
