import RtcBase.Library.Runs
import Mathlib.Data.Finset.Basic
import Mathlib.Data.BitVec
import Mathlib.Data.Fintype.Basic

/-! IO watchers of the event loop. A watcher keeps its interest in two places, the active flag and
the stored events; starting and stopping events is compared with a plain set of events.
-/

namespace RtcBase.EventLoop

open Library

-----------------------------------------------------------------------------------------
-- The watcher
-----------------------------------------------------------------------------------------

/-- An `int` event mask. -/
abbrev Mask := BitVec 32

/-- The events of the `EventLoop` enumeration. -/
inductive IoEvent
  | read
  | write
deriving DecidableEq, Repr

instance : Fintype IoEvent := ⟨{.read, .write}, fun event => by cases event <;> simp⟩

/-- `EventLoop::READ` and `EventLoop::WRITE`. -/
def IoEvent.mask : IoEvent → Mask
  | .read => 0x1
  | .write => 0x2

/-- libev's `EV_READ` and `EV_WRITE`. -/
def IoEvent.evMask : IoEvent → Mask
  | .read => 0x01
  | .write => 0x02

/-- `EventLoop::NONE`. -/
def none : Mask := 0x0

/-- libev's `EV_NONE`. -/
def evNone : Mask := 0x00

/-- `TRANS_TO_EV_MASK`. -/
def transToEvMask (mask : Mask) : Mask :=
  (if mask &&& IoEvent.read.mask ≠ 0 then IoEvent.read.evMask else evNone)
  ||| (if mask &&& IoEvent.write.mask ≠ 0 then IoEvent.write.evMask else evNone)

/-- `TRANS_FROM_EV_MASK`. -/
def transFromEvMask (evMask : Mask) : Mask :=
  (if evMask &&& IoEvent.read.evMask ≠ 0 then IoEvent.read.mask else none)
  ||| (if evMask &&& IoEvent.write.evMask ≠ 0 then IoEvent.write.mask else none)

/-- The `ev_io` of a watcher. -/
structure IOWatcher where
  active : Bool
  fd : Int
  events : Mask
deriving DecidableEq, Repr

namespace IOWatcher

/-- libev's `ev_io_set` stores the descriptor and the events. -/
def evIoSet (watcher : IOWatcher) (fd : Int) (events : Mask) : IOWatcher :=
  { watcher with fd := fd, events := events }

/-- libev's `ev_io_start` activates the watcher with the stored events. -/
def evIoStart (watcher : IOWatcher) : IOWatcher := { watcher with active := true }

/-- libev's `ev_io_stop` deactivates the watcher and leaves the stored fields unchanged. -/
def evIoStop (watcher : IOWatcher) : IOWatcher := { watcher with active := false }

/-- `EventLoop::start_io_event`. -/
def startIoEvent (io : IOWatcher) (fd : Int) (mask : Mask) : IOWatcher :=
  if io.active then
    let activeEvents := transFromEvMask io.events
    let events := activeEvents ||| mask
    if activeEvents = events then io
    else (io.evIoStop.evIoSet fd (transToEvMask events)).evIoStart
  else (io.evIoSet fd (transToEvMask mask)).evIoStart

/-- `EventLoop::stop_io_event`. It does not look at the active flag. -/
def stopIoEvent (io : IOWatcher) (fd : Int) (mask : Mask) : IOWatcher :=
  let activeEvents := transFromEvMask io.events
  let events := activeEvents &&& ~~~mask
  if activeEvents = events then io
  else
    let evEvents := transToEvMask events
    if evEvents ≠ evNone then (io.evIoStop.evIoSet fd evEvents).evIoStart else io.evIoStop

end IOWatcher

/-- The calls on one watcher. -/
inductive Request
  | start (fd : Int) (mask : Mask)
  | stop (fd : Int) (mask : Mask)
deriving DecidableEq, Repr

/-- One call on the watcher. -/
def IOWatcher.request (io : IOWatcher) : Request → IOWatcher
  | .start fd mask => io.startIoEvent fd mask
  | .stop fd mask => io.stopIoEvent fd mask

-----------------------------------------------------------------------------------------
-- Masks as sets of events
-----------------------------------------------------------------------------------------

/-- The events of a mask. -/
def eventsOf (mask : Mask) : Finset IoEvent :=
  Finset.univ.filter (fun event => mask &&& event.mask ≠ 0)

/-- The events that the watcher is actively watching. -/
def IOWatcher.watched (io : IOWatcher) : Finset IoEvent :=
  if io.active then eventsOf io.events else ∅

/-- What one call does to a plain set of events. -/
def interest (events : Finset IoEvent) : Request → Finset IoEvent
  | .start _ mask => events ∪ eventsOf mask
  | .stop _ mask => events \ eventsOf mask

/-- The place of an event's bit. -/
def IoEvent.place : IoEvent → Nat
  | .read => 0
  | .write => 1

theorem and_mask_ne_zero_iff (mask : Mask) (event : IoEvent)
    : mask &&& event.mask ≠ 0 ↔ mask.getLsbD event.place = true := by
  have power : event.mask = BitVec.twoPow 32 event.place := by cases event <;> rfl
  rw [power, BitVec.and_twoPow]
  cases event <;> cases mask.getLsbD _ <;> decide

theorem mem_eventsOf {mask : Mask} {event : IoEvent}
    : event ∈ eventsOf mask ↔ mask.getLsbD event.place = true := by
  rw [eventsOf, Finset.mem_filter, and_mask_ne_zero_iff]
  simp

theorem eventsOf_or (first second : Mask)
    : eventsOf (first ||| second) = eventsOf first ∪ eventsOf second := by
  ext event
  simp [mem_eventsOf]

theorem eventsOf_and_not (first second : Mask)
    : eventsOf (first &&& ~~~second) = eventsOf first \ eventsOf second := by
  ext event
  have inside : event.place < 32 := by cases event <;> decide
  simp [mem_eventsOf, inside]

/-- The translations keep exactly the two event bits. -/
theorem getLsbD_transToEvMask (mask : Mask) (place : Nat)
    : (transToEvMask mask).getLsbD place = (decide (place < 2) && mask.getLsbD place) := by
  have readBit : mask &&& IoEvent.read.mask ≠ 0 ↔ mask.getLsbD 0 = true :=
    and_mask_ne_zero_iff mask .read
  have writeBit : mask &&& IoEvent.write.mask ≠ 0 ↔ mask.getLsbD 1 = true :=
    and_mask_ne_zero_iff mask .write
  have small : (transToEvMask mask).toNat < 2 ^ 2 := by
    simp only [transToEvMask, readBit, writeBit]
    cases mask.getLsbD 0 <;> cases mask.getLsbD 1 <;> decide
  rcases place with _ | _ | place
  · simp only [transToEvMask, readBit, writeBit]
    cases mask.getLsbD 0 <;> cases mask.getLsbD 1 <;> decide
  · simp only [transToEvMask, readBit, writeBit]
    cases mask.getLsbD 0 <;> cases mask.getLsbD 1 <;> decide
  · have high : 2 ^ 2 ≤ 2 ^ (place + 1 + 1) := Nat.pow_le_pow_right (by decide) (by omega)
    rw [BitVec.getLsbD, Nat.testBit_lt_two_pow (lt_of_lt_of_le small high)]
    simp

/-- The two enumerations use the same bits. -/
theorem transFromEvMask_eq (mask : Mask) : transFromEvMask mask = transToEvMask mask := by
  rw [transFromEvMask, transToEvMask]
  rfl

@[simp] theorem eventsOf_transToEvMask (mask : Mask)
    : eventsOf (transToEvMask mask) = eventsOf mask := by
  ext event
  have place : event.place < 2 := by cases event <;> decide
  simp [mem_eventsOf, getLsbD_transToEvMask, place]

/-- Masks with the same events and the same other bits are equal. -/
theorem mask_ext {first second : Mask} (events : eventsOf first = eventsOf second)
    (others : ∀ place, 2 ≤ place → first.getLsbD place = second.getLsbD place)
    : first = second := by
  have bit (event : IoEvent) : first.getLsbD event.place = second.getLsbD event.place := by
    rw [Bool.eq_iff_iff, ← mem_eventsOf, ← mem_eventsOf, events]
  apply BitVec.eq_of_getLsbD_eq
  intro place _
  rcases place with _ | _ | place
  · exact bit .read
  · exact bit .write
  · exact others _ (by omega)

theorem getLsbD_transToEvMask_of_le {place : Nat} (high : 2 ≤ place) (mask : Mask)
    : (transToEvMask mask).getLsbD place = false := by
  rw [getLsbD_transToEvMask, decide_eq_false (by omega), Bool.false_and]

/-- A translated mask is empty when it has no event. -/
theorem transToEvMask_ne_evNone_iff (mask : Mask)
    : transToEvMask mask ≠ evNone ↔ (eventsOf mask).Nonempty := by
  have nothing : eventsOf evNone = ∅ := by decide
  rw [Finset.nonempty_iff_ne_empty, ne_eq, ne_eq, not_iff_not]
  constructor
  · intro empty
    rw [← eventsOf_transToEvMask, empty, nothing]
  · intro empty
    apply mask_ext
    · rw [eventsOf_transToEvMask, empty, nothing]
    · intro place high
      rw [getLsbD_transToEvMask_of_le high]
      simp [evNone]

/-- Taking a mask away changes nothing exactly when no event is in both. -/
theorem transToEvMask_eq_and_not_iff (events mask : Mask)
    : transToEvMask events = transToEvMask events &&& ~~~mask
      ↔ Disjoint (eventsOf events) (eventsOf mask) := by
  rw [← Finset.sdiff_eq_self_iff_disjoint]
  constructor
  · intro same
    have sets := congrArg eventsOf same
    rw [eventsOf_and_not, eventsOf_transToEvMask] at sets
    exact sets.symm
  · intro sets
    apply mask_ext
    · rw [eventsOf_and_not, eventsOf_transToEvMask, sets]
    · intro place high
      rw [BitVec.getLsbD_and, getLsbD_transToEvMask_of_le high, Bool.false_and]

-----------------------------------------------------------------------------------------
-- What one call does
-----------------------------------------------------------------------------------------

/-- A stop call finds the watcher inactive, with stored events of which the mask takes away some
but not all: the watcher is set to the rest and started again.
-/
def Reactivates (io : IOWatcher) : Request → Prop
  | .start _ _ => False
  | .stop _ mask =>
      io.active = false
      ∧ (eventsOf io.events ∩ eventsOf mask).Nonempty
      ∧ (eventsOf io.events \ eventsOf mask).Nonempty

instance (io : IOWatcher) (request : Request) : Decidable (Reactivates io request) :=
  match request with
  | .start _ _ => isFalse id
  | .stop _ mask =>
      inferInstanceAs (Decidable (io.active = false
        ∧ (eventsOf io.events ∩ eventsOf mask).Nonempty
        ∧ (eventsOf io.events \ eventsOf mask).Nonempty))

/-- Starting events adds them to the watched ones. -/
theorem IOWatcher.watched_startIoEvent (io : IOWatcher) (fd : Int) (mask : Mask)
    : (io.startIoEvent fd mask).watched = io.watched ∪ eventsOf mask := by
  cases running : io.active with
  | false => simp [startIoEvent, watched, running, evIoSet, evIoStart]
  | true =>
      simp only [startIoEvent, running, if_true, transFromEvMask_eq]
      by_cases unchanged : transToEvMask io.events = transToEvMask io.events ||| mask
      · have sets := congrArg eventsOf unchanged
        rw [eventsOf_or, eventsOf_transToEvMask] at sets
        rw [if_pos unchanged]
        simpa [watched, running] using sets
      · rw [if_neg unchanged]
        simp [watched, evIoStop, evIoSet, evIoStart, eventsOf_or, running]

/-- What a stop call leaves watched: it takes the mask's events away, unless it starts an inactive
watcher again.
-/
theorem IOWatcher.watched_stopIoEvent (io : IOWatcher) (fd : Int) (mask : Mask)
    : (io.stopIoEvent fd mask).watched
      = if Reactivates io (.stop fd mask) then eventsOf io.events \ eventsOf mask
        else io.watched \ eventsOf mask := by
  simp only [stopIoEvent, transFromEvMask_eq, transToEvMask_eq_and_not_iff,
    transToEvMask_ne_evNone_iff, eventsOf_and_not, eventsOf_transToEvMask, Reactivates,
    ← Finset.not_disjoint_iff_nonempty_inter]
  by_cases apart : Disjoint (eventsOf io.events) (eventsOf mask)
  · have same := Finset.sdiff_eq_self_iff_disjoint.mpr apart
    cases running : io.active <;> simp [watched, running, apart, same]
  · by_cases rest : (eventsOf io.events \ eventsOf mask).Nonempty
    · cases running : io.active <;>
        simp [watched, running, apart, rest, evIoStop, evIoSet, evIoStart, eventsOf_and_not]
    · have empty := Finset.not_nonempty_iff_eq_empty.mp rest
      cases running : io.active <;> simp [watched, running, apart, evIoStop, empty]

/-- One call keeps the watched events in step with the plain set exactly when it does not start an
inactive watcher again.
-/
theorem IOWatcher.watched_request_iff (io : IOWatcher) (request : Request)
    : (io.request request).watched = interest io.watched request ↔ ¬ Reactivates io request := by
  cases request with
  | start fd mask => simp [IOWatcher.request, interest, watched_startIoEvent, Reactivates]
  | stop fd mask =>
      rw [IOWatcher.request, interest, watched_stopIoEvent]
      by_cases again : Reactivates io (.stop fd mask)
      · have ⟨idle, _, rest⟩ := again
        have some := Finset.nonempty_iff_ne_empty.mp rest
        simp [again, watched, idle, some]
      · simp [again]

/-- The set of watched events is the plain set after every call of a sequence exactly when no stop
call of the sequence finds the watcher inactive with stored events of which it takes away some but
not all.
-/
theorem io_interest_iff_never_reactivated (io : IOWatcher) (new : io.active = false)
    (requests : List Request)
    : (∀ reached, reached <+: requests
        → (runFrom IOWatcher.request io reached).watched = runFrom interest ∅ reached)
      ↔ Along IOWatcher.request (fun io request => ¬ Reactivates io request) io requests := by
  have nothing : io.watched = ∅ := by simp [IOWatcher.watched, new]
  rw [← nothing, forall_prefix_view_iff_along]
  exact @along_congr _ _ _ _ (fun _ => True) _ (fun _ _ _ _ => trivial)
    (fun io request _ => io.watched_request_iff request) io trivial requests

/-- Witness: interest is added and taken away, also twice in a row. -/
theorem io_interest_iff_never_reactivated_five_calls
    : (runFrom IOWatcher.request ⟨false, 0, 0⟩
        [.start 5 1, .start 5 2, .stop 5 2, .stop 5 1, .stop 5 3]).watched
      = runFrom interest ∅ [.start 5 1, .start 5 2, .stop 5 2, .stop 5 1, .stop 5 3] :=
  (io_interest_iff_never_reactivated ⟨false, 0, 0⟩ rfl _).mpr (by decide) _ List.prefix_rfl

/-- After both events are stopped at once, stopping one of them again starts the watcher for the
other.
-/
theorem io_interest_stop_after_stop
    : ¬ ∀ reached,
          reached <+: [.start 5 3, .stop 5 3, Request.stop 5 1]
          → (runFrom IOWatcher.request ⟨false, 0, 0⟩ reached).watched
            = runFrom interest ∅ reached := by
  intro always
  have final := always _ List.prefix_rfl
  revert final
  decide

end RtcBase.EventLoop
