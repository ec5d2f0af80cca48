import BeeProtocol.Config
import Mathlib.Data.List.Induction

/-!
# What settings come to

Of the changes of one setting the last one counts. The limit for the handshake reply is out of range
exactly if a second more than the connect timeout is, and only then is it anything but what was set
or that sum. The statement timeout that goes with a script that is executed is cut to whole seconds.
-/

namespace BeeProtocol

namespace Duration

/-- A second has its nanoseconds. -/
theorem ofSeconds_one_nanos : (ofSeconds 1).nanos = perSecond := by
  simp [ofSeconds]

/-- Adding a second fails exactly if the sum is out of range. -/
theorem add?_second_eq_none_iff {span : Duration} :
    span.add? (.ofSeconds 1) = none ↔ limit ≤ span.nanos + perSecond := by
  unfold add? ofNanos?
  rw [ofSeconds_one_nanos]
  split <;> simp <;> omega

/-- A second is added where there is room for it. -/
theorem add?_second {span : Duration} (h : span.nanos + perSecond < limit) :
    span.add? (.ofSeconds 1) = some ⟨span.nanos + perSecond, h⟩ := by
  unfold add? ofNanos?
  simp only [ofSeconds_one_nanos, dif_pos h]

end Duration

namespace Config

/-- The connect timeout that a change sets. -/
def Setting.connectTimeout? : Setting → Option Duration
  | .connectTimeout span => some span
  | _ => none

/-- The limit for the handshake reply that a change sets. -/
def Setting.handshakeTimeout? : Setting → Option Duration
  | .handshakeTimeout span => some span
  | _ => none

variable (host : String) (port : UInt16) (settings : List Setting)

/-- The connect timeout that was set last, or 30 seconds. -/
def connectTimeoutOf : Duration :=
  (settings.filterMap Setting.connectTimeout?).getLast?.getD (.ofSeconds 30)

/-- The limit for the handshake reply that was set last, if one was. -/
def handshakeTimeoutOf : Option Duration :=
  (settings.filterMap Setting.handshakeTimeout?).getLast?

/-- The last setting is made on top of the others. -/
theorem build_concat (setting : Setting) :
    build host port (settings ++ [setting]) = (build host port settings).set setting := by
  simp [build]

/-- The connect timeout is the one that was set last, or its default. -/
theorem connectTimeout_build :
    (build host port settings).connectTimeout = connectTimeoutOf settings := by
  induction settings using List.reverseRecOn with
  | nil => rfl
  | append_singleton settings setting ih =>
    rw [build_concat, connectTimeoutOf, List.filterMap_append, List.getLast?_append]
    cases setting with
    | connectTimeout span => rfl
    | _ => exact ih

/-- The handshake timeout is the one that was set last, if any was. -/
theorem handshakeTimeoutSet_build :
    (build host port settings).handshakeTimeoutSet = handshakeTimeoutOf settings := by
  induction settings using List.reverseRecOn with
  | nil => rfl
  | append_singleton settings setting ih =>
    rw [build_concat, handshakeTimeoutOf, List.filterMap_append, List.getLast?_append]
    cases setting with
    | handshakeTimeout span => rfl
    | _ => exact ih

/-! ### The limit for the handshake reply -/

variable {host port settings} {config : Config}

/-- The limit is out of range if the sum is. Otherwise it is the one that was set, or the sum. -/
theorem handshakeTimeout_eq_elim (config : Config) :
    config.handshakeTimeout = (config.connectTimeout.add? (.ofSeconds 1)).elim
      (.error .durationOverflow) fun span => .ok (config.handshakeTimeoutSet.getD span) := by
  -- Opened at given settings, the definition would be run on the sum, nanosecond by nanosecond.
  refine (congrFun (?opened : handshakeTimeout = ?rule) config).trans ?_
  case opened =>
    delta handshakeTimeout
    exact rfl
  generalize config.connectTimeout.add? (.ofSeconds 1) = sum
  cases sum <;> rfl

/-- There is no handshake timeout if a second more is too long a time. -/
theorem handshakeTimeout_eq_error_iff {reason : DurationOverflow} :
    config.handshakeTimeout = .error reason ↔
      Duration.limit ≤ config.connectTimeout.nanos + Duration.perSecond := by
  rw [← Duration.add?_second_eq_none_iff, handshakeTimeout_eq_elim]
  cases config.connectTimeout.add? (.ofSeconds 1) <;> simp

/-- The handshake timeout is the one that was set, or a second more than for connecting. -/
theorem handshakeTimeout_of_lt
    (h : config.connectTimeout.nanos + Duration.perSecond < Duration.limit) :
    config.handshakeTimeout =
      .ok (config.handshakeTimeoutSet.getD
        ⟨config.connectTimeout.nanos + Duration.perSecond, h⟩) := by
  rw [handshakeTimeout_eq_elim, Duration.add?_second h, Option.elim_some]

/-! ### The statement timeout of a script that is executed -/

/-- The bound for the waits on the response to a script that is executed: the statement timeout in
the whole seconds that are sent along, or all of it if there are none. -/
def executionLimit (config : Config) : Duration :=
  if config.statementTimeoutSeconds = 0 then config.statementTimeout
  else .ofSeconds config.statementTimeoutSeconds.toUInt64

/-- The statement timeout goes out in whole seconds, as far as 32 bits hold them. -/
theorem statementTimeoutSeconds_toNat (config : Config) :
    config.statementTimeoutSeconds.toNat =
      min config.statementTimeout.seconds (UInt32.size - 1) := by
  refine UInt32.toNat_ofNat_of_lt' ?_
  have hsmall := Nat.min_le_right config.statementTimeout.seconds (UInt32.size - 1)
  have hbound : UInt32.size - 1 < 2 ^ 32 := by decide
  exact Nat.lt_of_le_of_lt hsmall hbound

/-- Below a second it is the statement timeout. -/
theorem executionLimit_of_subsecond (h : config.statementTimeout.seconds = 0) :
    config.executionLimit = config.statementTimeout := by
  have hseconds : config.statementTimeoutSeconds = 0 := by
    rw [← UInt32.toNat_inj, statementTimeoutSeconds_toNat, h]
    rfl
  exact if_pos hseconds

/-- From a second on it has as many seconds as the statement timeout, as far as 32 bits reach. -/
theorem executionLimit_of_ne_zero (h : config.statementTimeout.seconds ≠ 0) :
    config.executionLimit.nanos =
      min config.statementTimeout.seconds (UInt32.size - 1) * Duration.perSecond := by
  have hseconds := config.statementTimeoutSeconds_toNat
  have hsome : config.statementTimeoutSeconds ≠ 0 := by
    intro hnone
    rw [hnone, UInt32.toNat_zero] at hseconds
    have hlast : UInt32.size - 1 ≠ 0 := by decide
    omega
  calc config.executionLimit.nanos
    _ = (Duration.ofSeconds config.statementTimeoutSeconds.toUInt64).nanos :=
      congrArg Duration.nanos (if_neg hsome)
    _ = config.statementTimeoutSeconds.toNat * Duration.perSecond :=
      congrArg (· * Duration.perSecond) (UInt32.toNat_toUInt64 _)
    _ = min config.statementTimeout.seconds (UInt32.size - 1) * Duration.perSecond :=
      congrArg (· * Duration.perSecond) hseconds

/-- It is never more than the statement timeout. -/
theorem executionLimit_le (config : Config) :
    config.executionLimit.nanos ≤ config.statementTimeout.nanos := by
  by_cases hzero : config.statementTimeout.seconds = 0
  · exact Nat.le_of_eq (congrArg Duration.nanos (executionLimit_of_subsecond hzero))
  · rw [executionLimit_of_ne_zero hzero]
    calc min config.statementTimeout.seconds (UInt32.size - 1) * Duration.perSecond
      _ ≤ config.statementTimeout.seconds * Duration.perSecond :=
        Nat.mul_le_mul_right _ (Nat.min_le_left _ _)
      _ ≤ config.statementTimeout.nanos := Nat.div_mul_le_self _ _

/-- It is all of the statement timeout exactly if that is below a second, or a number of whole
seconds that can be sent along. -/
theorem executionLimit_eq_iff (config : Config) :
    config.executionLimit.nanos = config.statementTimeout.nanos ↔
      config.statementTimeout.seconds = 0 ∨
        config.statementTimeout.seconds < UInt32.size ∧
          config.statementTimeout.nanos % Duration.perSecond = 0 := by
  by_cases hzero : config.statementTimeout.seconds = 0
  · simp [executionLimit_of_subsecond hzero, hzero]
  · rw [executionLimit_of_ne_zero hzero]
    simp only [Duration.seconds, Duration.perSecond, UInt32.size] at hzero ⊢
    omega

/-- A limit that is less than the statement timeout is a number of whole seconds. -/
theorem exists_seconds_of_lt (h : config.executionLimit.nanos < config.statementTimeout.nanos) :
    ∃ whole < UInt32.size, config.executionLimit.nanos = whole * Duration.perSecond := by
  have hsome : config.statementTimeout.seconds ≠ 0 := fun hzero =>
    Nat.ne_of_lt h (congrArg Duration.nanos (executionLimit_of_subsecond hzero))
  refine ⟨_, ?_, executionLimit_of_ne_zero hsome⟩
  exact Nat.lt_of_le_of_lt (Nat.min_le_right _ _) (by decide)

/-- A statement timeout whose seconds can be sent along loses less than a second. -/
theorem lt_executionLimit_add (h : config.statementTimeout.seconds < UInt32.size) :
    config.statementTimeout.nanos < config.executionLimit.nanos + Duration.perSecond := by
  by_cases hzero : config.statementTimeout.seconds = 0
  · rw [executionLimit_of_subsecond hzero]
    exact Nat.lt_add_of_pos_right (by decide)
  · rw [executionLimit_of_ne_zero hzero]
    simp only [Duration.seconds, Duration.perSecond, UInt32.size] at h ⊢
    omega

end Config

end BeeProtocol
