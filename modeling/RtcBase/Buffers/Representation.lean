import Mathlib.Logic.Function.Basic
import RtcBase.Buffers.Buffer

/-! Runs of calls on buffers, which stay consistent and follow a model of lists. A setter is given
room by the sum of two sizes, which wraps around: the room is missing where the sum does not fit.
-/

namespace RtcBase.Buffers

open Library

variable {ι α : Type}

-----------------------------------------------------------------------------------------
-- Methods of one buffer
-----------------------------------------------------------------------------------------

/-- A call that concerns one buffer, with the memory that it is given. -/
inductive Method (α : Type) where
  | construct
  | constructSized (memory : NewArray α) (size capacity : Nat)
  | constructFrom (memory : NewArray α) (data : List α) (capacity : Nat)
  | setData (memory : NewArray α) (data : List α)
  | setDataBySetter (memory : NewArray α) (setter : Setter α)
  | appendData (memory : NewArray α) (data : List α)
  | appendDataBySetter (memory : NewArray α) (setter : Setter α)
  | setSize (memory : NewArray α) (size : Nat)
  | ensureCapacity (memory : NewArray α) (capacity : Nat)
  | clear

namespace Method

def perform (buffer : BufferT α) : Method α → Option (BufferT α)
  | .construct => some .empty
  | .constructSized memory size capacity => some (.construct memory size capacity)
  | .constructFrom memory data capacity => BufferT.constructFrom memory data capacity
  | .setData memory data => buffer.setData memory data
  | .setDataBySetter memory setter => (buffer.setDataBySetter memory setter).map Prod.snd
  | .appendData memory data => buffer.appendData memory data
  | .appendDataBySetter memory setter => (buffer.appendDataBySetter memory setter).map Prod.snd
  | .setSize memory size => buffer.setSize memory size
  | .ensureCapacity memory capacity => buffer.ensureCapacity memory capacity
  | .clear => some buffer.clear

/-- The method does not look at the elements in use, so that it may be called on a buffer that has
been moved from.
-/
def resets : Method α → Bool
  | .construct | .constructSized .. | .constructFrom .. => true
  | .setData .. | .setDataBySetter .. | .clear => true
  | .appendData .. | .appendDataBySetter .. | .setSize .. | .ensureCapacity .. => false

/-- What the method does to a list: new elements of a larger size can be any. -/
def Yields (before after : List α) : Method α → Prop
  | .construct | .clear => after = []
  | .constructSized _ size _ => after.length = size
  | .constructFrom _ data _ | .setData _ data => after = data
  | .setDataBySetter _ setter => after = setter.written
  | .appendData _ data => after = before ++ data
  | .appendDataBySetter _ setter => after = before ++ setter.written
  | .setSize _ size => after.length = size ∧ before.take size <+: after
  | .ensureCapacity .. => after = before

theorem Yields.of_resets {before other after : List α} {method : Method α}
    (h : method.Yields before after) (resets : method.resets = true)
    : method.Yields other after := by
  cases method with
  | appendData | appendDataBySetter | setSize | ensureCapacity => cases resets
  | _ => exact h

/-- The room that a setter is given can be asked for, or what it writes fits anyway. -/
def Fits (buffer : BufferT α) : Method α → Prop
  | .appendDataBySetter _ setter =>
      buffer.size + setter.maxElements < 2 ^ 64
      ∨ buffer.size + setter.written.length ≤ buffer.capacity
  | _ => True

/-- A method whose room fits stays inside the memory, keeps it as large as the capacity and does what
it does to a list.
-/
theorem perform_of_fits {buffer : BufferT α} {method : Method α}
    (allocated : buffer.data.length = buffer.capacity)
    (usable : method.resets = true ∨ buffer.size ≤ buffer.capacity) (fits : method.Fits buffer)
    : ∃ after,
        method.perform buffer = some after
        ∧ after.WellFormed
        ∧ method.Yields buffer.contents after.contents := by
  cases method with
  | construct => exact ⟨.empty, rfl, ⟨rfl, Nat.le_refl _⟩, rfl⟩
  | constructSized memory size capacity =>
      have wellFormed := BufferT.wellFormed_construct memory size capacity
      exact ⟨_, rfl, wellFormed, wellFormed.length_contents⟩
  | constructFrom memory data capacity => exact BufferT.constructFrom_spec memory data capacity
  | setData memory data => exact BufferT.setData_spec memory allocated data
  | setDataBySetter memory setter =>
      obtain ⟨after, sets, wellFormed, same⟩ :=
        BufferT.setDataBySetter_spec memory allocated setter
      exact ⟨after, by rw [perform, sets]; rfl, wellFormed, same⟩
  | appendData memory data =>
      exact BufferT.appendData_spec memory ⟨allocated, usable.resolve_left Bool.false_ne_true⟩ data
  | appendDataBySetter memory setter =>
      obtain ⟨after, appends, wellFormed, same⟩ := BufferT.appendDataBySetter_spec memory
        ⟨allocated, usable.resolve_left Bool.false_ne_true⟩ setter fits
      exact ⟨after, by rw [perform, appends]; rfl, wellFormed, same⟩
  | setSize memory size =>
      have inUse : buffer.WellFormed := ⟨allocated, usable.resolve_left Bool.false_ne_true⟩
      obtain ⟨after, sets, wellFormed, sized, same, -⟩ := BufferT.setSize_spec memory inUse size
      have length := wellFormed.length_contents
      rw [sized] at length
      refine ⟨after, sets, wellFormed, length, ?_⟩
      rw [← same, BufferT.contents, sized, List.take_take]
      exact List.take_prefix_take_left (Nat.min_le_left _ _)
  | ensureCapacity memory capacity =>
      have inUse : buffer.WellFormed := ⟨allocated, usable.resolve_left Bool.false_ne_true⟩
      obtain ⟨after, ensures, wellFormed, -, same, -⟩ :=
        BufferT.ensureCapacityWithHeadroom_spec memory inUse capacity false
      exact ⟨after, ensures, wellFormed, same⟩
  | clear => exact ⟨buffer.clear, rfl, ⟨allocated, Nat.zero_le _⟩, List.take_zero⟩

/-- A method whose room does not fit leaves the memory. -/
theorem fits_of_perform {buffer : BufferT α} {method : Method α}
    (allocated : buffer.data.length = buffer.capacity)
    (usable : method.resets = true ∨ buffer.size ≤ buffer.capacity) {after : BufferT α}
    (performs : method.perform buffer = some after)
    : method.Fits buffer := by
  cases method with
  | appendDataBySetter memory setter =>
      by_contra noRoom
      obtain ⟨wraps, behind⟩ := not_or.mp noRoom
      have outside := BufferT.appendDataBySetter_eq_none memory
        ⟨allocated, usable.resolve_left Bool.false_ne_true⟩ (Nat.not_lt.mp wraps)
        (Nat.not_le.mp behind)
      rw [perform, outside] at performs
      cases performs
  | _ => trivial

end Method

-----------------------------------------------------------------------------------------
-- Calls on many buffers
-----------------------------------------------------------------------------------------

/-- A buffer, and whether it has been moved from since it was last brought back. -/
structure Object (α : Type) where
  buffer : BufferT α
  movedFrom : Bool

/-- The elements in use; a buffer that has been moved from stands for no list. -/
def Object.list (object : Object α) : Option (List α) :=
  if object.movedFrom then none else some object.buffer.contents

/-- The buffers by name. -/
abbrev World (ι α : Type) := ι → Object α

/-- The buffers are default constructed first. -/
def World.start : World ι α := fun _ => ⟨.empty, false⟩

/-- The lists that the buffers stand for. -/
def World.lists (world : World ι α) : ι → Option (List α) := fun i => (world i).list

/-- The memory is as large as the capacity, and the elements in use fit unless they were moved. -/
structure Object.Sound (object : Object α) : Prop where
  length_data : object.buffer.data.length = object.buffer.capacity
  size_le : object.movedFrom = false → object.buffer.size ≤ object.buffer.capacity

theorem Object.Sound.wellFormed {object : Object α} (h : object.Sound)
    (inUse : object.movedFrom = false)
    : object.buffer.WellFormed :=
  ⟨h.length_data, h.size_le inUse⟩

def World.Sound (world : World ι α) : Prop := ∀ i, (world i).Sound

/-- `BufferT::is_consistent` holds of all buffers that have not been moved from. -/
def World.Consistent (world : World ι α) : Prop :=
  ∀ i, (world i).movedFrom = false → (world i).buffer.isConsistent = true

namespace World

theorem Sound.consistent {world : World ι α} (h : world.Sound) : world.Consistent :=
  fun i inUse => ((h i).wellFormed inUse).isConsistent

theorem sound_start : (start : World ι α).Sound := fun _ => ⟨rfl, fun _ => Nat.le_refl _⟩

/-- A buffer in use stands for the elements in use. -/
theorem lists_of_inUse {world : World ι α} {i : ι} (inUse : (world i).movedFrom = false)
    : world.lists i = some (world i).buffer.contents := by
  rw [lists, Object.list, inUse, if_neg Bool.false_ne_true]

/-- What a buffer in use holds is read from its memory. -/
theorem Sound.read {world : World ι α} (h : world.Sound) {source : ι}
    (inUse : (world source).movedFrom = false)
    : readMemory (world source).buffer.data 0 (world source).buffer.size
      = some (world source).buffer.contents := by
  have wellFormed := (h source).wellFormed inUse
  have length := wellFormed.length_contents
  rw [wellFormed.read_front (Nat.le_refl _), List.take_of_length_le (Nat.le_of_eq length)]

end World

inductive BufferCall (ι α : Type) where
  | invoke (i : ι) (method : Method α)
  | setDataOf (i source : ι) (memory : NewArray α)
  | appendDataOf (i source : ι) (memory : NewArray α)
  | swap (i j : ι)
  | move (target source : ι)

variable [DecidableEq ι]

/-- A call, by whether `NDEBUG` is defined. What another buffer holds is passed on as its pointer
and size.
-/
def World.perform (ndebug : Bool) (world : World ι α) : BufferCall ι α → Option (World ι α)
  | .invoke i method => do
      let buffer ← method.perform (world i).buffer
      return Function.update world i ⟨buffer, false⟩
  | .setDataOf i source memory => do
      let other := (world source).buffer
      let data ← readMemory other.data 0 other.size
      let buffer ← (world i).buffer.setData memory data
      return Function.update world i ⟨buffer, false⟩
  | .appendDataOf i source memory => do
      let other := (world source).buffer
      let data ← readMemory other.data 0 other.size
      let buffer ← (world i).buffer.appendData memory data
      return Function.update world i ⟨buffer, false⟩
  | .swap i j =>
      let (first, second) := (world i).buffer.swap (world j).buffer
      some (Function.update (Function.update world i ⟨first, (world j).movedFrom⟩) j
        ⟨second, (world i).movedFrom⟩)
  | .move target source =>
      let (moved, left) := (world source).buffer.moveOut ndebug
      some (Function.update (Function.update world target ⟨moved, false⟩) source ⟨left, true⟩)

namespace BufferCall

/-- Only what resets a buffer is called on one that has been moved from, and data comes from outside
of the buffer.
-/
def Permitted (world : World ι α) : BufferCall ι α → Prop
  | .invoke i method => method.resets = true ∨ (world i).movedFrom = false
  | .setDataOf i source _ => source ≠ i ∧ (world source).movedFrom = false
  | .appendDataOf i source _ =>
      source ≠ i ∧ (world source).movedFrom = false ∧ (world i).movedFrom = false
  | .swap .. => True
  | .move target source => source ≠ target ∧ (world source).movedFrom = false

/-- The room of a setter fits. -/
def Fits (world : World ι α) : BufferCall ι α → Prop
  | .invoke i method => method.Fits (world i).buffer
  | _ => True

/-- What a call does to the lists. -/
def Yields (before after : ι → Option (List α)) : BufferCall ι α → Prop
  | .invoke i method =>
      ∃ elements,
        method.Yields ((before i).getD []) elements
        ∧ after = Function.update before i (some elements)
  | .setDataOf i source _ => after = Function.update before i (before source)
  | .appendDataOf i source _ =>
      after = Function.update before i
        (some ((before i).getD [] ++ (before source).getD []))
  | .swap i j => after = Function.update (Function.update before i (before j)) j (before i)
  | .move target source =>
      after = Function.update (Function.update before target (before source)) source none

end BufferCall

namespace World

theorem Sound.update {world : World ι α} (h : world.Sound) (i : ι) {object : Object α}
    (sound : object.Sound)
    : Sound (Function.update world i object) :=
  (Function.forall_update_iff world fun _ object => object.Sound).mpr ⟨sound, fun j _ => h j⟩

theorem lists_update (world : World ι α) (i : ι) (object : Object α)
    : lists (Function.update world i object) = Function.update world.lists i object.list :=
  Function.comp_update Object.list world i object

/-- A buffer that a call has filled is in use. -/
theorem Sound.refill {world : World ι α} (h : world.Sound) (i : ι) {buffer : BufferT α}
    (wellFormed : buffer.WellFormed)
    : Sound (Function.update world i ⟨buffer, false⟩) :=
  h.update i ⟨wellFormed.length_data, fun _ => wellFormed.size_le⟩

theorem lists_refill (world : World ι α) (i : ι) (buffer : BufferT α)
    : lists (Function.update world i ⟨buffer, false⟩)
      = Function.update world.lists i (some buffer.contents) :=
  lists_update world i _

/-- A step of a run, by the kinds of calls. -/
theorem Sound.perform_of_fits (ndebug : Bool) {world : World ι α} (h : world.Sound)
    {call : BufferCall ι α} (permitted : call.Permitted world) (fits : call.Fits world)
    : ∃ after,
        world.perform ndebug call = some after
        ∧ after.Sound
        ∧ call.Yields world.lists after.lists := by
  cases call with
  | invoke i method =>
      have usable := permitted.imp_right (h i).size_le
      obtain ⟨buffer, performs, wellFormed, yields⟩ :=
        Method.perform_of_fits (h i).length_data usable fits
      refine ⟨_, ?_, h.refill i wellFormed, buffer.contents, ?_, lists_refill world i buffer⟩
      · rw [perform, performs]
        rfl
      · rcases permitted with resets | inUse
        · exact yields.of_resets resets
        · rwa [lists_of_inUse inUse]
  | setDataOf i source memory =>
      obtain ⟨-, inUse⟩ := permitted
      obtain ⟨buffer, sets, wellFormed, same⟩ :=
        BufferT.setData_spec memory (h i).length_data (world source).buffer.contents
      refine ⟨_, ?_, h.refill i wellFormed, ?_⟩
      · simp only [perform, h.read inUse, sets, Option.bind_eq_bind, Option.bind_some,
          Option.pure_def]
      · rw [BufferCall.Yields, lists_refill, same, lists_of_inUse inUse]
  | appendDataOf i source memory =>
      obtain ⟨-, inUse, target⟩ := permitted
      obtain ⟨buffer, appends, wellFormed, same⟩ :=
        BufferT.appendData_spec memory ((h i).wellFormed target) (world source).buffer.contents
      refine ⟨_, ?_, h.refill i wellFormed, ?_⟩
      · simp only [perform, h.read inUse, appends, Option.bind_eq_bind, Option.bind_some,
          Option.pure_def]
      · rw [BufferCall.Yields, lists_refill, same, lists_of_inUse inUse, lists_of_inUse target]
        rfl
  | swap i j =>
      refine ⟨_, rfl, (h.update i ?_).update j ?_, ?_⟩
      · exact ⟨(h j).length_data, (h j).size_le⟩
      · exact ⟨(h i).length_data, (h i).size_le⟩
      · rw [BufferCall.Yields, lists_update, lists_update]
        rfl
  | move target source =>
      obtain ⟨-, inUse⟩ := permitted
      refine ⟨_, rfl, (h.update target ?_).update source ?_, ?_⟩
      · exact ⟨(h source).length_data, fun _ => (h source).size_le inUse⟩
      · exact ⟨rfl, fun inUse => by cases inUse⟩
      · rw [BufferCall.Yields, lists_update, lists_update, lists_of_inUse inUse]
        rfl

/-- A call whose room does not fit leaves the memory. -/
theorem Sound.fits_of_perform (ndebug : Bool) {world after : World ι α} (h : world.Sound)
    {call : BufferCall ι α} (permitted : call.Permitted world)
    (performs : world.perform ndebug call = some after)
    : call.Fits world := by
  cases call with
  | invoke i method =>
      obtain ⟨buffer, performs, -⟩ := Option.bind_eq_some_iff.mp performs
      exact Method.fits_of_perform (h i).length_data (permitted.imp_right (h i).size_le) performs
  | _ => trivial

end World

-----------------------------------------------------------------------------------------
-- Runs
-----------------------------------------------------------------------------------------

/-- The buffers after a run whose setters all had room. -/
inductive Reachable (ndebug : Bool) : World ι α → Prop
  | start : Reachable ndebug .start
  | step {world after : World ι α} {call : BufferCall ι α} (reached : Reachable ndebug world)
      (permitted : call.Permitted world) (fits : call.Fits world)
      (performs : world.perform ndebug call = some after)
      : Reachable ndebug after

/-- Every run keeps the memory as large as the capacities, by induction on the run. -/
theorem Reachable.sound {ndebug : Bool} {world : World ι α} (h : Reachable ndebug world)
    : world.Sound := by
  induction h with
  | start => exact World.sound_start
  | step _ permitted fits performs ih =>
      obtain ⟨next, same, sound, -⟩ := ih.perform_of_fits ndebug permitted fits
      rw [performs] at same
      rwa [Option.some.inj same]

/-- After every run the buffers in use are consistent, and the next call stays inside of the memory,
leaves consistent buffers and does to the lists what it is to do, exactly where the room of a setter
fits. A buffer that has been moved from is in use again once it is cleared or set.
-/
theorem buffers_follow_lists {ndebug : Bool} {world : World ι α} (h : Reachable ndebug world)
    : world.Consistent
      ∧ ∀ call : BufferCall ι α,
          call.Permitted world
          → (call.Fits world
            ↔ ∃ after,
                world.perform ndebug call = some after
                ∧ after.Consistent
                ∧ call.Yields world.lists after.lists) := by
  refine ⟨h.sound.consistent, fun call permitted => ⟨fun fits => ?_, ?_⟩⟩
  · obtain ⟨after, performs, sound, yields⟩ := h.sound.perform_of_fits ndebug permitted fits
    exact ⟨after, performs, sound.consistent, yields⟩
  · rintro ⟨after, performs, -⟩
    exact h.sound.fits_of_perform ndebug permitted performs

/-- Memory that is zeroed. -/
def NewArray.zeroed : NewArray Nat := ⟨fun n => List.replicate n 0, fun _ => List.length_replicate⟩

/-- A buffer is filled, moved from and set again. -/
theorem buffers_follow_lists_after_move
    : ∃ world : World Bool Nat,
        Reachable false world
        ∧ (world true).movedFrom = true
        ∧ ∃ after,
            world.perform false (.invoke true (.setData .zeroed [3])) = some after
            ∧ after.Consistent
            ∧ BufferCall.Yields world.lists after.lists (.invoke true (.setData .zeroed [3])) := by
  have filled : Reachable false _ :=
    @Reachable.step Bool Nat _ _ _ _ (.invoke true (.constructFrom .zeroed [1, 2] 0)) .start
      (Or.inl rfl) trivial rfl
  have moved : Reachable false _ :=
    @Reachable.step Bool Nat _ _ _ _ (.move false true) filled ⟨by decide, rfl⟩ trivial rfl
  have next := (buffers_follow_lists moved).2 (.invoke true (.setData .zeroed [3])) (Or.inl rfl)
  exact ⟨_, moved, rfl, next.mp trivial⟩

/-- The sum of the sizes wraps around, and the setter writes behind the memory. -/
theorem setter_leaves_memory
    : let setter : Setter Nat := ⟨2 ^ 64 - 1, [8], by decide, by decide⟩
      ∃ world : World Unit Nat,
        Reachable false world
        ∧ (world ()).buffer = ⟨1, 1, some [7]⟩
        ∧ BufferCall.Permitted world (.invoke () (.appendDataBySetter .zeroed setter))
        ∧ world.perform false (.invoke () (.appendDataBySetter .zeroed setter)) = none := by
  intro setter
  obtain ⟨world, filled, holds, inUse⟩
      : ∃ world : World Unit Nat,
          Reachable false world
          ∧ (world ()).buffer = ⟨1, 1, some [7]⟩
          ∧ (world ()).movedFrom = false :=
    ⟨_, @Reachable.step Unit Nat _ _ _ _ (.invoke () (.constructFrom .zeroed [7] 0)) .start
      (Or.inl rfl) trivial rfl, rfl, rfl⟩
  have outside : BufferT.appendDataBySetter .zeroed ⟨1, 1, some [7]⟩ setter = none :=
    BufferT.appendDataBySetter_eq_none .zeroed ⟨rfl, Nat.le_refl 1⟩ (by decide) (by decide)
  refine ⟨world, filled, holds, Or.inr inUse, ?_⟩
  rw [World.perform, Method.perform, holds, outside]
  rfl

end RtcBase.Buffers
