import RtcBase.Library.Runs
import Mathlib.Order.MinMax

/-! The severity thresholds of `LogMessage`. The logging macros consult a cached minimum before they
build a message; the debug output and the registered streams each have a threshold of their own.
-/

namespace RtcBase.Logging

open Library

/-- `LoggingSeverity`, from the most verbose one on. -/
inductive LoggingSeverity where
  | lsDebug
  | lsTrace
  | lsNotice
  | lsWarning
  | lsFatal
  | lsNone
  deriving DecidableEq, Repr

/-- The value of an enumerator. -/
def LoggingSeverity.value : LoggingSeverity → Nat
  | .lsDebug => 0
  | .lsTrace => 1
  | .lsNotice => 2
  | .lsWarning => 3
  | .lsFatal => 4
  | .lsNone => 5

theorem LoggingSeverity.value_injective : Function.Injective LoggingSeverity.value := by
  intro a b same
  cases a <;> cases b <;> first | rfl | cases same

/-- Severities are compared by their values. -/
instance : LinearOrder LoggingSeverity :=
  LinearOrder.lift' LoggingSeverity.value LoggingSeverity.value_injective

-----------------------------------------------------------------------------------------
-- LogMessage
-----------------------------------------------------------------------------------------

variable {Sink : Type} [DecidableEq Sink]

/-- What is registered: the debug threshold and the streams with theirs, in order. -/
structure Sinks (Sink : Type) where
  dbgSev : LoggingSeverity
  streams : List (Sink × LoggingSeverity)
  deriving DecidableEq, Repr

/-- The static fields of `LogMessage` that decide where a message goes. -/
structure LogMessage (Sink : Type) extends Sinks Sink where
  minSev : LoggingSeverity
  logToStderr : Bool
  deriving DecidableEq, Repr

/-- Where a text is written. -/
inductive Output (Sink : Type) where
  | stderr (text : String)
  | onLogMessage (sink : Sink) (text : String) (severity : LoggingSeverity)
  deriving DecidableEq, Repr

namespace LogMessage

/-- The fields at the start of the program, by whether `NDEBUG` is defined. -/
def initial (ndebug : Bool) : LogMessage Sink :=
  let sev := if ndebug then .lsNone else .lsNotice
  { dbgSev := sev, streams := [], minSev := sev, logToStderr := true }

def loggable (log : LogMessage Sink) (sev : LoggingSeverity) : Bool := log.minSev ≤ sev

/-- `LogMessage::update_min_log_severity`. -/
def updateMinLogSeverity (log : LogMessage Sink) : LogMessage Sink :=
  let minSev := log.streams.foldl (fun _ kv => min log.dbgSev kv.2) log.dbgSev
  { log with minSev := minSev }

/-- `LogMessage::log_to_debug`. -/
def logToDebug (log : LogMessage Sink) (minSev : LoggingSeverity) : LogMessage Sink :=
  updateMinLogSeverity { log with dbgSev := minSev }

/-- `LogMessage::add_log_to_stream`. -/
def addLogToStream (log : LogMessage Sink) (stream : Sink) (minSev : LoggingSeverity)
    : LogMessage Sink :=
  updateMinLogSeverity { log with streams := log.streams ++ [(stream, minSev)] }

/-- `LogMessage::remove_log_to_stream`, which erases the first entry of the stream. -/
def removeLogToStream (log : LogMessage Sink) (stream : Sink) : LogMessage Sink :=
  updateMinLogSeverity { log with streams := log.streams.eraseP fun kv => stream = kv.1 }

/-- `LogMessage::output_to_debug`. -/
def outputToDebug (log : LogMessage Sink) (str : String) : List (Output Sink) :=
  if log.logToStderr then [.stderr str] else []

/-- The destructor of a message, which writes its text to every sink whose threshold it reaches. -/
def destruct (log : LogMessage Sink) (severity : LoggingSeverity) (str : String)
    : List (Output Sink) :=
  (if severity ≥ log.dbgSev then log.outputToDebug str else [])
    ++ log.streams.flatMap fun kv =>
      if severity ≥ kv.2 then [.onLogMessage kv.1 str severity] else []

/-- The macro `LOG`: the message is made, and written when it is destroyed, if it is loggable. -/
def logMacro (log : LogMessage Sink) (sev : LoggingSeverity) (str : String)
    : List (Output Sink) :=
  if !log.loggable sev then [] else log.destruct sev str

end LogMessage

/-- A call that changes the thresholds. -/
inductive Call (Sink : Type) where
  | logToDebug (minSev : LoggingSeverity)
  | addLogToStream (stream : Sink) (minSev : LoggingSeverity)
  | removeLogToStream (stream : Sink)
  deriving DecidableEq, Repr

def LogMessage.step (log : LogMessage Sink) : Call Sink → LogMessage Sink
  | .logToDebug minSev => log.logToDebug minSev
  | .addLogToStream stream minSev => log.addLogToStream stream minSev
  | .removeLogToStream stream => log.removeLogToStream stream

-----------------------------------------------------------------------------------------
-- What is registered
-----------------------------------------------------------------------------------------

/-- What is registered at the start of the program. -/
def Sinks.initial (ndebug : Bool) : Sinks Sink := ⟨if ndebug then .lsNone else .lsNotice, []⟩

/-- What is registered after a call. -/
def Sinks.register (sinks : Sinks Sink) : Call Sink → Sinks Sink
  | .logToDebug minSev => { sinks with dbgSev := minSev }
  | .addLogToStream stream minSev =>
      { sinks with streams := sinks.streams ++ [(stream, minSev)] }
  | .removeLogToStream stream =>
      { sinks with streams := sinks.streams.eraseP fun kv => stream = kv.1 }

/-- Some sink takes messages of the severity. -/
def Sinks.Take (sinks : Sinks Sink) (sev : LoggingSeverity) : Prop :=
  sev ≥ sinks.dbgSev ∨ ∃ kv ∈ sinks.streams, kv.2 ≤ sev

/-- No stream has a threshold below both the debug threshold and that of the stream registered
last.
-/
def Sinks.LastIsLowest (sinks : Sinks Sink) : Prop :=
  ∀ last ∈ sinks.streams.getLast?, ∀ kv ∈ sinks.streams, min sinks.dbgSev last.2 ≤ kv.2

/-- The fast path lets through the messages that a sink takes, and the macro writes all that the
message would have written.
-/
structure FastPathAgrees (log : LogMessage Sink) : Prop where
  loggable_iff : ∀ sev, log.loggable sev = true ↔ log.toSinks.Take sev
  logMacro_eq : ∀ sev str, log.logMacro sev str = log.destruct sev str

omit [DecidableEq Sink] in
/-- A message that no sink takes is written nowhere. -/
theorem destruct_eq_nil {log : LogMessage Sink} {sev : LoggingSeverity}
    (refused : ¬ log.toSinks.Take sev) (str : String)
    : log.destruct sev str = [] := by
  rw [Sinks.Take, not_or, not_exists] at refused
  obtain ⟨debug, streams⟩ := refused
  rw [LogMessage.destruct, if_neg debug, List.nil_append, List.flatMap_eq_nil_iff]
  intro kv member
  exact if_neg fun taken => streams kv ⟨member, taken⟩

omit [DecidableEq Sink] in
/-- Nothing is lost when the fast path lets through what a sink takes. -/
theorem fastPathAgrees_iff (log : LogMessage Sink)
    : FastPathAgrees log ↔ ∀ sev, log.minSev ≤ sev ↔ log.toSinks.Take sev := by
  have same (sev : LoggingSeverity) : log.loggable sev = true ↔ log.minSev ≤ sev :=
    decide_eq_true_iff
  constructor
  · intro agrees sev
    rw [← same, agrees.loggable_iff]
  · intro precise
    refine ⟨fun sev => (same sev).trans (precise sev), ?_⟩
    intro sev str
    by_cases taken : log.toSinks.Take sev
    · have passes := (same sev).mpr ((precise sev).mpr taken)
      rw [LogMessage.logMacro, passes, if_neg (by simp)]
    · have stops : log.loggable sev = false := by
        rw [← Bool.not_eq_true, same, precise sev]
        exact taken
      rw [LogMessage.logMacro, stops, if_pos (by simp), destruct_eq_nil taken]

omit [DecidableEq Sink] in
/-- The loop of `update_min_log_severity` keeps only the last stream, as each round starts again
from the debug threshold.
-/
theorem minSev_updateMinLogSeverity (log : LogMessage Sink)
    : log.updateMinLogSeverity.minSev
      = match log.streams.getLast? with
        | none => log.dbgSev
        | some last => min log.dbgSev last.2 := by
  rcases List.eq_nil_or_concat log.streams with empty | ⟨earlier, last, split⟩
  · simp [LogMessage.updateMinLogSeverity, empty]
  · simp [LogMessage.updateMinLogSeverity, split]

omit [DecidableEq Sink] in
/-- Right after an update the fast path agrees exactly when the last stream is the lowest. -/
theorem agrees_updateMinLogSeverity_iff (log : LogMessage Sink)
    : FastPathAgrees log.updateMinLogSeverity ↔ log.toSinks.LastIsLowest := by
  rw [fastPathAgrees_iff, minSev_updateMinLogSeverity]
  change (∀ sev, _ ≤ sev ↔ log.toSinks.Take sev) ↔ _
  rcases List.eq_nil_or_concat log.streams with empty | ⟨earlier, last, split⟩
  · simp [Sinks.Take, Sinks.LastIsLowest, empty]
  · have final : log.streams.getLast? = some last := by simp [split]
    have registered : last ∈ log.streams := by simp [split]
    simp only [final, Sinks.LastIsLowest, Option.mem_some_iff, forall_eq']
    constructor
    · intro precise kv member
      exact (precise kv.2).mpr (.inr ⟨kv, member, le_rfl⟩)
    · intro lowest sev
      constructor
      · intro reached
        rcases min_le_iff.mp reached with debug | stream
        · exact .inl debug
        · exact .inr ⟨last, registered, stream⟩
      · rintro (debug | ⟨kv, member, stream⟩)
        · exact (min_le_left _ _).trans debug
        · exact (lowest kv member).trans stream

-----------------------------------------------------------------------------------------
-- Runs
-----------------------------------------------------------------------------------------

/-- Every call registers its change and then updates the minimum. -/
theorem step_eq (log : LogMessage Sink) (call : Call Sink)
    : log.step call
      = LogMessage.updateMinLogSeverity { log with toSinks := log.toSinks.register call } := by
  cases call <;> rfl

/-- In a run the sinks are those that the calls register, by induction on the calls. -/
theorem toSinks_run (log : LogMessage Sink) (calls : List (Call Sink))
    : (runFrom LogMessage.step log calls).toSinks = runFrom Sinks.register log.toSinks calls := by
  induction calls generalizing log with
  | nil => rfl
  | cons call rest ih =>
      rw [runFrom_cons, runFrom_cons, ih, step_eq]
      rfl

/-- In a run the cached minimum is always the one of an update. -/
theorem run_eq_updated (ndebug : Bool) (calls : List (Call Sink))
    : runFrom LogMessage.step (.initial ndebug) calls
      = (runFrom LogMessage.step (.initial ndebug) calls).updateMinLogSeverity := by
  rcases List.eq_nil_or_concat calls with rfl | ⟨earlier, call, rfl⟩
  · rfl
  · rw [runFrom, List.concat_eq_append, List.foldl_append, List.foldl_cons, List.foldl_nil, step_eq]
    rfl

/-- The fast path agrees with the sinks after every call of a run exactly when, after every call, no
stream has a threshold below both the debug threshold and that of the stream registered last.
-/
theorem fast_path_agrees_iff (ndebug : Bool) (calls : List (Call Sink))
    : (∀ reached, reached <+: calls
        → FastPathAgrees (runFrom LogMessage.step (.initial ndebug) reached))
      ↔ ∀ reached, reached <+: calls
        → (runFrom Sinks.register (.initial ndebug) reached).LastIsLowest := by
  have each (reached : List (Call Sink))
      : FastPathAgrees (runFrom LogMessage.step (.initial ndebug) reached)
        ↔ (runFrom Sinks.register (.initial ndebug) reached).LastIsLowest := by
    rw [run_eq_updated, agrees_updateMinLogSeverity_iff, toSinks_run]
    rfl
  simp only [each]

/-- With a stream for everything and then one for fatal messages only, a debug message that the first
one takes is not let through.
-/
theorem fast_path_drops_debug_message
    : ¬ ∀ (ndebug : Bool) (calls : List (Call Nat)),
        FastPathAgrees (runFrom LogMessage.step (.initial ndebug) calls) := by
  intro always
  have agrees := always false [.addLogToStream 0 .lsDebug, .addLogToStream 1 .lsFatal]
  have taken : LogMessage.loggable _ .lsDebug = true :=
    (agrees.loggable_iff .lsDebug).mpr (.inr ⟨(0, .lsDebug), by decide, by decide⟩)
  revert taken
  decide

end RtcBase.Logging
