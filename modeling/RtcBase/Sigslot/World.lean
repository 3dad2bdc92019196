import Mathlib.Data.List.Sort
import RtcBase.Library.Runs
import RtcBase.Library.IterList

/-! Signals and receivers of `sigslot.h`, with the connection lists on one side and the sender
sets on the other. Objects are named by their addresses, which may be used again after an
object is gone; member function pointers are opaque.
-/

namespace RtcBase.Sigslot

open RtcBase.Library

variable {Method : Type}

abbrev SignalId := Nat

abbrev ReceiverId := Nat

/-- `_OpaqueConnection`: the destination object and its member function. -/
structure Connection (Method : Type) where
  dest : ReceiverId
  method : Method
  deriving DecidableEq

/-- `_OpaqueConnection::duplicate`. -/
def Connection.duplicate (connection : Connection Method) (newtarget : ReceiverId)
    : Connection Method :=
  { connection with dest := newtarget }

/-- `_SignalBase`: the nodes are `m_connected_slots`, the iterator is `m_current_iterator`. -/
abbrev SignalBase (Method : Type) := IterList (Connection Method)

/-- `HasSlots`: `m_senders`, ordered by address as in `std::set`. -/
structure HasSlots where
  senders : List SignalId := []

/-- `HasSlots::do_signal_connect`. -/
def HasSlots.doSignalConnect (self : HasSlots) (sender : SignalId) : HasSlots :=
  if sender ∈ self.senders then self
  else { self with senders := self.senders.orderedInsert (· ≤ ·) sender }

/-- `HasSlots::do_signal_disconnect`. -/
def HasSlots.doSignalDisconnect (self : HasSlots) (sender : SignalId) : HasSlots :=
  { self with senders := self.senders.filter (fun other => other ≠ sender) }

/-- The live objects, and the identity of the next list node to be allocated. -/
structure World (Method : Type) where
  signals : SignalId → Option (SignalBase Method) := fun _ => none
  receivers : ReceiverId → Option HasSlots := fun _ => none
  nextNode : Nat := 0

namespace World

-----------------------------------------------------------------------------------------
-- Access to one object
-----------------------------------------------------------------------------------------

/-- Change a signal, if it is alive. -/
def modifySignal (w : World Method) (s : SignalId)
    (change : SignalBase Method → SignalBase Method)
    : World Method :=
  { w with signals := Function.update w.signals s ((w.signals s).map change) }

/-- Change a receiver, if it is alive. -/
def modifyReceiver (w : World Method) (r : ReceiverId) (change : HasSlots → HasSlots)
    : World Method :=
  { w with receivers := Function.update w.receivers r ((w.receivers r).map change) }

/-- `m_connected_slots.push_back` with a newly allocated node. -/
def pushBack (w : World Method) (s : SignalId) (connection : Connection Method) : World Method :=
  { w.modifySignal s (fun sig => sig.pushBack ⟨w.nextNode, connection⟩) with
    nextNode := w.nextNode + 1 }

-----------------------------------------------------------------------------------------
-- `_SignalBase`, `HasSlots` and `SignalWithThreadPolicy::connect`
-----------------------------------------------------------------------------------------

/-- `connect`. -/
def connect (w : World Method) (s : SignalId) (pclass : ReceiverId) (pmemfun : Method)
    : World Method :=
  (w.pushBack s ⟨pclass, pmemfun⟩).modifyReceiver pclass (fun self => self.doSignalConnect s)

/-- `disconnect`: erase the first connection to the receiver and stop there. -/
def disconnect (w : World Method) (s : SignalId) (pclass : ReceiverId) : World Method :=
  match w.signals s with
  | none => w
  | some sig =>
      match sig.nodes.find? (fun node => node.value.dest = pclass) with
      | none => w
      | some it =>
          (w.modifySignal s (fun sig => sig.erase it.id)).modifyReceiver pclass
            (fun self => self.doSignalDisconnect s)

/-- `disconnect_all` of a signal: unlink from the front until nothing is left, then set the
iterator to the end.
-/
def disconnectAll (w : World Method) (s : SignalId) : World Method :=
  match w.signals s with
  | none => w
  | some sig =>
      let emptied :=
        sig.nodes.foldl
          (fun w front =>
            (w.modifySignal s IterList.popFront).modifyReceiver front.value.dest
              (fun self => self.doSignalDisconnect s))
          w
      emptied.modifySignal s IterList.toEnd

/-- `do_slot_disconnect`: erase every connection to the receiver. The receiver is not told. -/
def slotDisconnect (w : World Method) (s : SignalId) (pslot : ReceiverId) : World Method :=
  w.modifySignal s (fun sig =>
    sig.nodes.foldl
      (fun self it => if it.value.dest = pslot then self.erase it.id else self) sig)

/-- `do_slot_duplicate`: push a copy of every connection to the old target. The loop also meets
the copies, whose target is the new one and which are not copied again.
-/
def slotDuplicate (w : World Method) (s : SignalId) (oldtarget newtarget : ReceiverId)
    : World Method :=
  match w.signals s with
  | none => w
  | some sig =>
      sig.nodes.foldl
        (fun w it =>
          if it.value.dest = oldtarget then w.pushBack s (it.value.duplicate newtarget) else w)
        w

/-- `do_disconnect_all` of a receiver: the senders are taken out at once, and none of them adds
itself again while it is told.
-/
def doDisconnectAll (w : World Method) (p : ReceiverId) : World Method :=
  match w.receivers p with
  | none => w
  | some self =>
      self.senders.foldl (fun w s => w.slotDisconnect s p)
        (w.modifyReceiver p (fun self => { self with senders := [] }))

/-- The copy constructor of `_SignalBase`, for a new signal. -/
def copySignal (w : World Method) (o new : SignalId) : World Method :=
  match w.signals o with
  | none => w
  | some sig =>
      sig.nodes.foldl
        (fun w connection =>
          (w.modifyReceiver connection.value.dest (fun self => self.doSignalConnect new)).pushBack
            new connection.value)
        { w with signals := Function.update w.signals new (some IterList.empty) }

/-- The copy constructor of `HasSlots`, for a new receiver. -/
def copyReceiver (w : World Method) (o new : ReceiverId) : World Method :=
  match w.receivers o with
  | none => w
  | some self =>
      self.senders.foldl
        (fun w sender =>
          (w.slotDuplicate sender o new).modifyReceiver new
            (fun self => self.doSignalConnect sender))
        { w with receivers := Function.update w.receivers new (some {}) }

/-- `~_SignalBase`. -/
def destroySignal (w : World Method) (s : SignalId) : World Method :=
  { w.disconnectAll s with signals := Function.update (w.disconnectAll s).signals s none }

/-- `~HasSlots`. -/
def destroyReceiver (w : World Method) (r : ReceiverId) : World Method :=
  { w.doDisconnectAll r with receivers := Function.update (w.doDisconnectAll r).receivers r none }

end World

-----------------------------------------------------------------------------------------
-- Runs
-----------------------------------------------------------------------------------------

/-- What a program can do with its signals and receivers, short of emitting. -/
inductive Op (Method : Type) where
  | createSignal (s : SignalId)
  | createReceiver (r : ReceiverId)
  | connect (s : SignalId) (pclass : ReceiverId) (pmemfun : Method)
  | disconnect (s : SignalId) (pclass : ReceiverId)
  | disconnectAll (s : SignalId)
  | doDisconnectAll (r : ReceiverId)
  | copySignal (o new : SignalId)
  | copyReceiver (o new : ReceiverId)
  | destroySignal (s : SignalId)
  | destroyReceiver (r : ReceiverId)

/-- One operation. A program creates objects at addresses that are free and connects objects
that are alive; anything else is not a step.
-/
def World.step (w : World Method) : Op Method → World Method
  | .createSignal s =>
      if (w.signals s).isSome then w
      else { w with signals := Function.update w.signals s (some IterList.empty) }
  | .createReceiver r =>
      if (w.receivers r).isSome then w
      else { w with receivers := Function.update w.receivers r (some {}) }
  | .connect s pclass pmemfun =>
      if (w.signals s).isSome ∧ (w.receivers pclass).isSome then w.connect s pclass pmemfun
      else w
  | .disconnect s pclass => w.disconnect s pclass
  | .disconnectAll s => w.disconnectAll s
  | .doDisconnectAll r => w.doDisconnectAll r
  | .copySignal o new => if (w.signals new).isSome then w else w.copySignal o new
  | .copyReceiver o new => if (w.receivers new).isSome then w else w.copyReceiver o new
  | .destroySignal s => w.destroySignal s
  | .destroyReceiver r => w.destroyReceiver r

/-- The world after a sequence of operations on an empty one. -/
def World.run (ops : List (Op Method)) : World Method :=
  runFrom World.step {} ops

end RtcBase.Sigslot
