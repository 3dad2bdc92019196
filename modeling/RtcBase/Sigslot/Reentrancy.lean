import RtcBase.Sigslot.Emission

/-! Re-entrant emission. All active calls of `emit` share one iterator, and a nested call leaves
it at the end. The outer call then has nothing left to do, so every call reaches every slot
exactly when nested calls are made only from the last slot.
-/

namespace RtcBase.Sigslot

open RtcBase.Library IterList

variable {Method Args : Type}

/-- The action emits or returns, and leaves the connections alone. -/
def Action.Emits : Action Method Args → Prop
  | .edit _ => False
  | _ => True

namespace Emission

/-- The slots invoked by one call of `emit`, in order. -/
def logOf (e : Emission Method Args) (call : Nat) : List (Invocation Method Args) :=
  e.log.filter (fun entry => entry.call = call)

/-- Every slot once, in list order, with the arguments of the call. -/
def delivery (slots : List (Node (Connection Method))) (call : Nat) (args : Args)
    : List (Invocation Method Args) :=
  slots.map (fun node => ⟨call, args, node⟩)

/-- Every call of `emit` so far, outer or nested, has invoked every slot exactly once, in order
and with its own arguments.
-/
def AllDelivered (slots : List (Node (Connection Method))) (e : Emission Method Args) : Prop :=
  ∀ call args, e.issued[call]? = some args → e.logOf call = delivery slots call args

/-- A nested call is made only while the innermost active call has no slot left to invoke. -/
def NestsLast (s : SignalId) (e : Emission Method Args) : Action Method Args → Prop
  | .emit _ => e.stack ≠ [] → ∀ sig, e.world.signals s = some sig → sig.current = none
  | _ => True

/-- An invocation by one call leaves the log of any other as it is. -/
theorem filter_append_other {log : List (Invocation Method Args)}
    {entry : Invocation Method Args} {call : Nat} (different : entry.call ≠ call)
    : (log ++ [entry]).filter (fun entry => entry.call = call)
      = log.filter (fun entry => entry.call = call) := by
  simp [List.filter_append, different]

/-- A new call has a number of its own. -/
theorem nodup_push {stack : List (Frame Args)} {calls : Nat}
    (below : ∀ frame ∈ stack, frame.call < calls) (distinct : (stack.map Frame.call).Nodup)
    (args : Args)
    : ((⟨calls, args⟩ :: stack).map Frame.call).Nodup := by
  rw [List.map_cons, List.nodup_cons]
  refine ⟨?_, distinct⟩
  intro member
  obtain ⟨frame, present, sameCall⟩ := List.mem_map.mp member
  have within := below frame present
  dsimp only at sameCall
  omega

-----------------------------------------------------------------------------------------
-- Calls nested in the last slot
-----------------------------------------------------------------------------------------

/-- The calls are in turn: the innermost has invoked the slots that the iterator has passed, the
outer ones and those that have returned have invoked all.
-/
structure InTurn (s : SignalId) (slots : List (Node (Connection Method)))
    (e : Emission Method Args)
    : Prop where
  list
    : ∃ sig passed pending,
        e.world.signals s = some sig
        ∧ sig.nodes = slots
        ∧ sig.WellFormed e.world.nextNode
        ∧ sig.Split passed pending
        ∧ ∀ frame outer,
            e.stack = frame :: outer
            → e.logOf frame.call = delivery passed frame.call frame.args
  outer
    : ∀ frame outer,
        e.stack = frame :: outer
        → ∀ other ∈ outer, e.logOf other.call = delivery slots other.call other.args
  returned
    : ∀ call args,
        e.issued[call]? = some args
        → (∀ frame ∈ e.stack, frame.call ≠ call)
        → e.logOf call = delivery slots call args
  issued : ∀ frame ∈ e.stack, e.issued[frame.call]? = some frame.args
  distinct : (e.stack.map Frame.call).Nodup
  logged : ∀ entry ∈ e.log, entry.call < e.issued.length
  live : ∀ node ∈ slots, e.world.isLive node = true

/-- Without an active call, calls in turn have all delivered. -/
theorem InTurn.allDelivered {s : SignalId} {slots : List (Node (Connection Method))}
    {e : Emission Method Args} (h : e.InTurn s slots) (idle : e.stack = [])
    : e.AllDelivered slots := by
  intro call args wasIssued
  exact h.returned call args wasIssued (by simp [idle])

/-- When the innermost call returns, having invoked everything, so has the next one, and the
iterator is where that one left it.
-/
theorem InTurn.returns {s : SignalId} {slots : List (Node (Connection Method))}
    {e : Emission Method Args} (h : e.InTurn s slots) {sig : SignalBase Method}
    {passed : List (Node (Connection Method))} (alive : e.world.signals s = some sig)
    (nodes : sig.nodes = slots) (wellFormed : sig.WellFormed e.world.nextNode)
    (split : sig.Split passed []) {frame : Frame Args} {outer : List (Frame Args)}
    (active : e.stack = frame :: outer)
    (delivered : e.logOf frame.call = delivery passed frame.call frame.args)
    : InTurn s slots { e with stack := outer } := by
  have whole : passed = slots := by rw [← nodes, split.nodes, List.append_nil]
  refine {
    list := ⟨sig, passed, [], alive, nodes, wellFormed, split, ?_⟩
    outer := ?_
    returned := ?_
    issued := fun other member => h.issued other (by rw [active]; simp [member])
    distinct := by
      have distinct := h.distinct
      rw [active, List.map_cons, List.nodup_cons] at distinct
      exact distinct.2
    logged := h.logged
    live := h.live
  }
  · intro next others below
    rw [whole]
    exact h.outer frame outer active next (by rw [show outer = next :: others from below]; simp)
  · intro next others below other member
    exact h.outer frame outer active other (by
      rw [show outer = next :: others from below]
      simp [member])
  · intro call args wasIssued inactive
    by_cases isFrame : frame.call = call
    · have sameArgs := h.issued frame (by simp [active])
      rw [isFrame] at delivered sameArgs
      rw [wasIssued] at sameArgs
      rw [Option.some.inj sameArgs, ← whole]
      exact delivered
    · refine h.returned call args wasIssued ?_
      rw [active]
      exact List.forall_mem_cons.mpr ⟨isFrame, inactive⟩

/-- When the innermost call invokes the designated slot, the others have invoked what they had. -/
theorem InTurn.invokes {s : SignalId} {slots : List (Node (Connection Method))}
    {e : Emission Method Args} (h : e.InTurn s slots) {sig : SignalBase Method}
    {passed rest : List (Node (Connection Method))} {conn : Node (Connection Method)}
    (alive : e.world.signals s = some sig) (nodes : sig.nodes = slots)
    (wellFormed : sig.WellFormed e.world.nextNode) (split : sig.Split passed (conn :: rest))
    {frame : Frame Args} {outer : List (Frame Args)} (active : e.stack = frame :: outer)
    (soFar : e.logOf frame.call = delivery passed frame.call frame.args)
    : InTurn s slots
        {
          e with
          world := e.world.modifySignal s IterList.advance
          log := e.log ++ [⟨frame.call, frame.args, conn⟩]
        } := by
  have distinct := h.distinct
  rw [active, List.map_cons, List.nodup_cons] at distinct
  have invoking : frame.call < e.issued.length :=
    (List.getElem?_eq_some_iff.mp (h.issued frame (by simp [active]))).1
  have unchanged {call : Nat} (different : frame.call ≠ call)
      : (e.log ++ [(⟨frame.call, frame.args, conn⟩ : Invocation Method Args)]).filter
          (fun entry => entry.call = call) = e.logOf call :=
    filter_append_other different
  refine {
    list := ⟨sig.advance, passed ++ [conn], rest, by simp [alive], nodes, ?_,
      split.advance wellFormed.distinct, ?_⟩
    outer := ?_
    returned := ?_
    issued := h.issued
    distinct := h.distinct
    logged := ?_
    live := h.live
  }
  · exact ⟨wellFormed.distinct, wellFormed.used, _, _, split.advance wellFormed.distinct⟩
  · intro current others isTop
    obtain ⟨rfl, -⟩ := List.cons_eq_cons.mp (active.symm.trans isTop)
    simp only [logOf] at soFar
    simp [logOf, delivery, List.filter_append, soFar]
  · intro current others isTop other member
    obtain ⟨rfl, rfl⟩ := List.cons_eq_cons.mp (active.symm.trans isTop)
    have different : frame.call ≠ other.call := fun sameCall =>
      distinct.1 (sameCall ▸ List.mem_map_of_mem member)
    rw [logOf, unchanged different]
    exact h.outer frame outer active other member
  · intro call args wasIssued inactive
    have different : frame.call ≠ call := inactive frame (by simp [active])
    rw [logOf, unchanged different]
    exact h.returned call args wasIssued inactive
  · intro entry member
    rcases List.mem_append.mp member with earlier | isNew
    · exact h.logged entry earlier
    · rw [List.mem_singleton.mp isNew]
      exact invoking

/-- The loop of `emit` keeps the calls in turn. -/
theorem InTurn.resume {s : SignalId} {slots : List (Node (Connection Method))}
    {e : Emission Method Args} (h : e.InTurn s slots)
    : (e.resume s).InTurn s slots := by
  obtain ⟨sig, passed, pending, alive, nodes, wellFormed, split, top⟩ := h.list
  rcases resume_cases alive wellFormed.distinct split
    with ⟨-, same⟩ | ⟨frame, outer, active, rfl, same⟩
      | ⟨frame, outer, conn, rest, active, rfl, -, same⟩
      | ⟨frame, outer, conn, rest, active, rfl, dead, -⟩
  · rw [same]
    exact h
  · rw [same]
    exact h.returns alive nodes wellFormed split active (top frame outer active)
  · rw [same]
    exact h.invokes alive nodes wellFormed split active (top frame outer active)
  · have live := h.live conn (by simp [← nodes, split.nodes])
    rw [dead] at live
    contradiction

/-- Entering a call from outside, or from the last slot, keeps the calls in turn. -/
theorem InTurn.entered {s : SignalId} {slots : List (Node (Connection Method))}
    {e : Emission Method Args} (h : e.InTurn s slots) {args : Args}
    (nestsLast : e.NestsLast s (.emit args))
    : (e.entered s args).InTurn s slots := by
  obtain ⟨sig, passed, pending, alive, nodes, wellFormed, split, top⟩ := h.list
  have below (frame : Frame Args) (member : frame ∈ e.stack) : frame.call < e.issued.length :=
    (List.getElem?_eq_some_iff.mp (h.issued frame member)).1
  refine {
    list := ⟨sig.begin, [], sig.nodes, by simp [Emission.entered, alive], nodes,
      ⟨wellFormed.distinct, wellFormed.used, _, _, sig.begin_split⟩, sig.begin_split, ?_⟩
    outer := ?_
    returned := ?_
    issued := ?_
    distinct := ?_
    logged := ?_
    live := h.live
  }
  · -- The number of the new call has not been used.
    intro frame outer isTop
    obtain ⟨rfl, -⟩ := List.cons_eq_cons.mp isTop
    change e.log.filter _ = []
    rw [List.filter_eq_nil_iff]
    intro entry member
    have earlier := h.logged entry member
    simpa using Nat.ne_of_lt earlier
  · intro frame outer isTop other member
    obtain ⟨rfl, rfl⟩ := List.cons_eq_cons.mp isTop
    change e.logOf other.call = _
    cases active : e.stack with
    | nil => simp [active] at member
    | cons innermost others =>
        rw [active] at member
        rcases List.mem_cons.mp member with rfl | outerMember
        · have ended := split.current_eq_none.mp (nestsLast (by simp [active]) sig alive)
          have whole : passed = slots := by rw [← nodes, split.nodes, ended, List.append_nil]
          rw [← whole]
          exact top other others active
        · exact h.outer innermost others active other outerMember
  · intro call callArgs wasIssued inactive
    have notNew : e.issued.length ≠ call := inactive ⟨e.issued.length, args⟩ (by
      simp [Emission.entered])
    refine h.returned call callArgs ?_ (fun frame member => inactive frame (by
      simp [Emission.entered, member]))
    have earlier : call < e.issued.length := by
      have within := (List.getElem?_eq_some_iff.mp wasIssued).1
      simp only [Emission.entered, List.length_append, List.length_singleton] at within
      omega
    simpa [Emission.entered, List.getElem?_append, earlier] using wasIssued
  · intro frame member
    rcases List.mem_cons.mp member with rfl | earlier
    · simp [Emission.entered]
    · have within := below frame earlier
      simpa [Emission.entered, List.getElem?_append, within] using h.issued frame earlier
  · exact nodup_push below h.distinct args
  · intro entry member
    have earlier := h.logged entry member
    simp only [Emission.entered, List.length_append, List.length_singleton]
    omega

/-- Every action that emits from the last slot, or returns, keeps the calls in turn. -/
theorem InTurn.step {s : SignalId} {slots : List (Node (Connection Method))}
    {e : Emission Method Args} (h : e.InTurn s slots) {action : Action Method Args}
    (emits : action.Emits) (nestsLast : e.NestsLast s action)
    : (e.step s action).InTurn s slots := by
  cases action with
  | edit op => exact absurd emits not_false
  | emit args =>
      obtain ⟨sig, -, -, alive, -⟩ := h.list
      have same : e.step s (.emit args) = (e.entered s args).resume s := by
        simp [Emission.step, Emission.emit, alive]
      rw [same]
      exact (h.entered nestsLast).resume
  | returns => exact h.resume

-----------------------------------------------------------------------------------------
-- Calls cut short
-----------------------------------------------------------------------------------------

/-- The call will invoke no further slot: unless the iterator is at the end, it is not the
innermost one.
-/
structure CutShort (s : SignalId) (call : Nat) (e : Emission Method Args) : Prop where
  list
    : ∃ sig,
        e.world.signals s = some sig
        ∧ sig.WellFormed e.world.nextNode
        ∧ ∀ frame outer, e.stack = frame :: outer → frame.call = call → sig.current = none
  wasIssued : call < e.issued.length
  issued : ∀ frame ∈ e.stack, frame.call < e.issued.length
  distinct : (e.stack.map Frame.call).Nodup

/-- The loop of `emit` invokes nothing for a call that is cut short, and leaves it so. -/
theorem CutShort.resume {s : SignalId} {call : Nat} {e : Emission Method Args}
    (h : e.CutShort s call)
    : (e.resume s).CutShort s call ∧ (e.resume s).logOf call = e.logOf call := by
  obtain ⟨sig, alive, wellFormed, ended⟩ := h.list
  obtain ⟨passed, pending, split⟩ := wellFormed.split
  rcases resume_cases alive wellFormed.distinct split
    with ⟨-, same⟩ | ⟨frame, outer, active, rfl, same⟩
      | ⟨frame, outer, conn, rest, active, rfl, -, same⟩ | ⟨frame, outer, conn, rest, -, -, -, same⟩
  · rw [same]
    exact ⟨h, rfl⟩
  · have distinct := h.distinct
    rw [active, List.map_cons, List.nodup_cons] at distinct
    rw [same]
    refine ⟨⟨⟨sig, alive, wellFormed, fun _ _ _ _ => split.current_eq_none.mpr rfl⟩,
      h.wasIssued, fun other member => h.issued other (by rw [active]; simp [member]),
      distinct.2⟩, rfl⟩
  · have different : frame.call ≠ call := by
      intro isCall
      have atEnd := split.current_eq_none.mp (ended frame outer active isCall)
      contradiction
    rw [same]
    refine ⟨⟨⟨sig.advance, by simp [alive], ?_, ?_⟩, h.wasIssued, h.issued, h.distinct⟩,
      filter_append_other different⟩
    · exact ⟨wellFormed.distinct, wellFormed.used, _, _, split.advance wellFormed.distinct⟩
    · intro current others isTop isCall
      obtain ⟨rfl, -⟩ := List.cons_eq_cons.mp (active.symm.trans isTop)
      exact absurd isCall different
  · rw [same]
    exact ⟨⟨h.list, h.wasIssued, h.issued, h.distinct⟩, rfl⟩

/-- Whatever was going on, entering a nested call cuts all earlier calls short. -/
theorem cutShort_entered {s : SignalId} {call : Nat} {e : Emission Method Args}
    {sig : SignalBase Method} (alive : e.world.signals s = some sig)
    (wellFormed : sig.WellFormed e.world.nextNode) (wasIssued : call < e.issued.length)
    (issued : ∀ frame ∈ e.stack, frame.call < e.issued.length)
    (distinct : (e.stack.map Frame.call).Nodup) (args : Args)
    : (e.entered s args).CutShort s call := by
  refine ⟨⟨sig.begin, by simp [entered, alive], ?_, ?_⟩, ?_, ?_, ?_⟩
  · exact ⟨wellFormed.distinct, wellFormed.used, _, _, sig.begin_split⟩
  · intro frame outer isTop isCall
    obtain ⟨rfl, -⟩ := List.cons_eq_cons.mp isTop
    dsimp only at isCall
    omega
  · simp only [entered, List.length_append, List.length_singleton]
    omega
  · intro frame member
    simp only [entered, List.length_append, List.length_singleton]
    rcases List.mem_cons.mp member with rfl | earlier
    · simp
    · have within := issued frame earlier
      omega
  · exact nodup_push issued distinct args

/-- No action that emits or returns invokes a slot for a call that is cut short. -/
theorem CutShort.step {s : SignalId} {call : Nat} {e : Emission Method Args}
    (h : e.CutShort s call) {action : Action Method Args} (emits : action.Emits)
    : (e.step s action).CutShort s call ∧ (e.step s action).logOf call = e.logOf call := by
  cases action with
  | edit op => exact absurd emits not_false
  | emit args =>
      obtain ⟨sig, alive, wellFormed, -⟩ := h.list
      have same : e.step s (.emit args) = (e.entered s args).resume s := by
        simp [Emission.step, Emission.emit, alive]
      rw [same]
      exact (cutShort_entered alive wellFormed h.wasIssued h.issued h.distinct args).resume
  | returns => exact h.resume

/-- A call that is cut short stays so, by induction on the actions. -/
theorem CutShort.runFrom {s : SignalId} {call : Nat} {e : Emission Method Args}
    (h : e.CutShort s call) {actions : List (Action Method Args)}
    (emit : ∀ action ∈ actions, action.Emits)
    : (runFrom (Emission.step s) e actions).CutShort s call
      ∧ (runFrom (Emission.step s) e actions).logOf call = e.logOf call := by
  induction actions generalizing e with
  | nil => exact ⟨h, rfl⟩
  | cons action rest ih =>
      obtain ⟨head, tail⟩ := List.forall_mem_cons.mp emit
      obtain ⟨next, same⟩ := h.step head
      obtain ⟨final, sameLater⟩ := ih next tail
      exact ⟨final, sameLater.trans same⟩

/-- A call that nests before its last slot is cut short with slots still pending. -/
theorem InTurn.nested_early {s : SignalId} {slots : List (Node (Connection Method))}
    {e : Emission Method Args} (h : e.InTurn s slots) {action : Action Method Args}
    (early : ¬ e.NestsLast s action)
    : ∃ call,
        (e.logOf call).length < slots.length
        ∧ (e.step s action).CutShort s call
        ∧ (e.step s action).logOf call = e.logOf call := by
  cases action with
  | edit op => exact absurd trivial early
  | returns => exact absurd trivial early
  | emit args =>
      obtain ⟨sig, passed, pending, alive, nodes, wellFormed, split, top⟩ := h.list
      have below (frame : Frame Args) (member : frame ∈ e.stack)
          : frame.call < e.issued.length :=
        (List.getElem?_eq_some_iff.mp (h.issued frame member)).1
      have same : e.step s (.emit args) = (e.entered s args).resume s := by
        simp [Emission.step, Emission.emit, alive]
      simp only [NestsLast, not_forall] at early
      obtain ⟨active, other, otherAlive, notEnded⟩ := early
      rw [alive] at otherAlive
      obtain rfl := Option.some.inj otherAlive
      cases stacked : e.stack with
      | nil => exact absurd stacked active
      | cons frame outer =>
          have cut : (e.entered s args).CutShort s frame.call :=
            cutShort_entered alive wellFormed (below frame (by simp [stacked])) below h.distinct
              args
          obtain ⟨stays, sameLog⟩ := cut.resume
          rw [same]
          refine ⟨frame.call, ?_, stays, sameLog⟩
          have pendingSlots : pending ≠ [] := fun none =>
            notEnded (split.current_eq_none.mpr none)
          rw [top frame outer stacked, ← nodes, split.nodes]
          simpa [delivery] using List.length_pos_iff.mpr pendingSlots

/-- From a state with the calls in turn: once all calls have returned, all have delivered if and
only if nested calls were made only from the last slot, by induction on the actions.
-/
theorem InTurn.allDelivered_iff {s : SignalId} {slots : List (Node (Connection Method))}
    {e : Emission Method Args} (h : e.InTurn s slots) {actions : List (Action Method Args)}
    (emit : ∀ action ∈ actions, action.Emits)
    (idle : (runFrom (Emission.step s) e actions).stack = [])
    : (runFrom (Emission.step s) e actions).AllDelivered slots
      ↔ Along (Emission.step s) (NestsLast s) e actions := by
  induction actions generalizing e with
  | nil => exact iff_of_true (h.allDelivered idle) trivial
  | cons action rest ih =>
      obtain ⟨head, tail⟩ := List.forall_mem_cons.mp emit
      by_cases nestsLast : e.NestsLast s action
      · rw [runFrom_cons, ih (h.step head nestsLast) tail idle, along_cons]
        exact (and_iff_right nestsLast).symm
      · refine iff_of_false ?_ (fun along => nestsLast along.1)
        intro delivered
        obtain ⟨call, short, cut, same⟩ := h.nested_early nestsLast
        obtain ⟨final, sameLater⟩ := cut.runFrom tail
        have complete := delivered call _ (List.getElem?_eq_getElem final.wasIssued)
        rw [runFrom_cons, sameLater, same] at complete
        rw [complete] at short
        simp [delivery] at short

end Emission

open Emission in
/-- From any reachable world, for any signal whose connections all lead to receivers that are alive
and any nesting of its calls of `emit` that leaves the connections alone and has returned: every
call, outer or nested, has invoked every connected slot exactly once, in order and with its own
arguments, if and only if nested calls were made only from the last slot.
-/
theorem allDelivered_iff_nestsLast (s : SignalId) (history : List (Action Method Args))
    {sig : SignalBase Method} (alive : (run s history).world.signals s = some sig)
    (receivers : ∀ node ∈ sig.nodes, (run s history).world.isLive node = true)
    (actions : List (Action Method Args)) (emit : ∀ action ∈ actions, action.Emits)
    (idle : (runFrom (step s) { world := (run s history).world } actions).stack = [])
    : (runFrom (step s) { world := (run s history).world } actions).AllDelivered sig.nodes
      ↔ Along (step s) (NestsLast s) { world := (run s history).world } actions := by
  have wellFormed := run_wellFormed s history s sig alive
  obtain ⟨passed, pending, split⟩ := wellFormed.split
  have start
      : ({ world := (run s history).world } : Emission Method Args).InTurn s sig.nodes := {
    list := ⟨sig, passed, pending, alive, rfl, wellFormed, split, by simp⟩
    outer := by simp
    returned := by simp
    issued := by simp
    distinct := List.nodup_nil
    logged := by simp
    live := receivers
  }
  exact start.allDelivered_iff emit idle

/-- Two receivers, each connected once to one signal. -/
def twoConnected : List (Action Unit Bool) :=
  [.edit (.createSignal 0), .edit (.createReceiver 0), .edit (.createReceiver 1),
    .edit (.connect 0 0 ()), .edit (.connect 0 1 ())]

/-- The second slot emits the signal again, with other arguments; then everything returns. -/
def nestsInSecond : List (Action Unit Bool) :=
  [.emit true, .returns, .emit false, .returns, .returns, .returns]

open Emission in
/-- In that nesting both calls reach both slots. -/
theorem nestsInSecond_allDelivered
    : (runFrom (step 0) { world := (run 0 twoConnected).world } nestsInSecond).AllDelivered
        [⟨0, ⟨0, ()⟩⟩, ⟨1, ⟨1, ()⟩⟩] := by
  refine (allDelivered_iff_nestsLast 0 twoConnected rfl (by decide) nestsInSecond
    (by simp [nestsInSecond, Action.Emits]) rfl).mpr ?_
  refine ⟨?_, trivial, ?_, trivial, trivial, trivial, trivial⟩
  · intro active
    exact absurd rfl active
  · intro _ sig present
    rw [← Option.some.inj present]
    rfl

/-- The first slot emits the signal again, with other arguments; then everything returns. -/
def nestsInFirst : List (Action Unit Bool) :=
  [.emit true, .emit false, .returns, .returns, .returns]

open Emission in
/-- In that nesting the outer call never reaches the second slot. -/
theorem nestsInFirst_cutShort
    : (runFrom (step 0) { world := (run 0 twoConnected).world } nestsInFirst).stack.isEmpty
        = true
      ∧ ((runFrom (step 0) { world := (run 0 twoConnected).world } nestsInFirst).logOf 0).map
          (fun entry => entry.node.id) = [0]
      ∧ ¬ (runFrom (step 0) { world := (run 0 twoConnected).world } nestsInFirst).AllDelivered
            [⟨0, ⟨0, ()⟩⟩, ⟨1, ⟨1, ()⟩⟩] := by
  refine ⟨by decide, by decide, ?_⟩
  intro delivered
  have outer := congrArg List.length (delivered 0 true rfl)
  revert outer
  decide

end RtcBase.Sigslot
