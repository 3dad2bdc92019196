import RtcBase.Sigslot.Emission
import RtcBase.Sigslot.Symmetry

/-! Delivery under mutation. While a signal is emitted its slots may edit the connection list at
will, short of emitting the signal again or destroying it: the iterator never dangles, and every
connection that was there at the start is invoked once, in order, unless it was removed before
its turn. This holds as long as no receiver is called that is gone, which is so where
`disconnect` is never asked to remove one of several connections.
-/

namespace RtcBase.Sigslot

open RtcBase.Library IterList

variable {Method Args : Type}

/-- The action neither emits the signal again nor destroys it. -/
def Action.Calm (s : SignalId) : Action Method Args → Prop
  | .edit op => op.destroyed ≠ some s
  | .emit _ => False
  | .returns => True

namespace Emission

/-- The emission at its start: the first slot, if there is one, has been invoked. -/
def start (w : World Method) (s : SignalId) (args : Args) : Emission Method Args :=
  emit s { world := w } args

/-- At some point of the actions the connection was gone and had not been invoked. -/
def RemovedBeforeTurn (s : SignalId) (e : Emission Method Args)
    (actions : List (Action Method Args)) (id : Nat)
    : Prop :=
  ∃ reached,
    reached <+: actions
    ∧ id ∉ (runFrom (step s) e reached).connected s
    ∧ id ∉ (runFrom (step s) e reached).invoked

/-- The delivery of the initial connections, as far as the actions have taken it: the iterator
designates a live node or the end, nothing dead was used, no slot was invoked twice, the initial
connections were invoked in list order, those removed before their turn were not, and once the
emission is over all others have been.
-/
structure Delivered (s : SignalId) (initial : List Nat) (e : Emission Method Args)
    (actions : List (Action Method Args))
    : Prop where
  iterator
    : ∃ now,
        (runFrom (step s) e actions).world.signals s = some now
        ∧ ∀ id, now.current = some id → id ∈ now.ids
  safe : (runFrom (step s) e actions).dangling = false
  distinct : (runFrom (step s) e actions).invoked.Nodup
  ordered
    : ((runFrom (step s) e actions).invoked.filter (fun id => id ∈ initial)).Sublist initial
  removed
    : ∀ id ∈ initial,
        RemovedBeforeTurn s e actions id → (runFrom (step s) e actions).invoked.count id = 0
  kept
    : ∀ id ∈ initial,
        ¬ RemovedBeforeTurn s e actions id
        → (runFrom (step s) e actions).stack = []
        → (runFrom (step s) e actions).invoked.count id = 1

-----------------------------------------------------------------------------------------
-- Calls of receivers
-----------------------------------------------------------------------------------------

/-- Every receiver that the action calls is alive: those that an edit calls, or the destination of
the connection that `emit` comes to, which is the first one for a new call and else the one that
the iterator designates.
-/
def callsLive (s : SignalId) (e : Emission Method Args) : Action Method Args → Bool
  | .edit op => e.world.callsLive op
  | .emit _ => (e.world.signals s).all (fun sig => sig.nodes.head?.all e.world.isLive)
  | .returns =>
      e.stack.isEmpty || (e.world.signals s).all (fun sig => sig.deref.all e.world.isLive)

/-- If the loop of `emit` uses nothing dead, the destination that it comes to is alive. -/
theorem live_of_resume_safe {s : SignalId} {e : Emission Method Args} {sig : SignalBase Method}
    (active : e.stack ≠ []) (alive : e.world.signals s = some sig)
    (safe : (e.resume s).dangling = false)
    : sig.deref.all e.world.isLive = true := by
  cases stacked : e.stack with
  | nil => exact absurd stacked active
  | cons frame outer =>
      cases designated : sig.deref with
      | none => rfl
      | some conn =>
          cases current : sig.current with
          | none => simp [IterList.deref, current] at designated
          | some id =>
              by_contra dead
              simp only [Option.all_some] at dead
              simp [resume, stacked, alive, current, designated, dead] at safe

/-- An action that uses nothing dead calls receivers that are alive. -/
theorem callsLive_of_safe {s : SignalId} {e : Emission Method Args} {action : Action Method Args}
    (safe : (e.step s action).dangling = false)
    : e.callsLive s action = true := by
  cases action with
  | edit op =>
      by_contra dead
      simp only [callsLive] at dead
      simp [step, dead] at safe
  | emit args =>
      cases alive : e.world.signals s with
      | none => simp [callsLive, alive]
      | some sig =>
          have begun : (e.entered s args).world.signals s = some sig.begin := by
            simp [entered, alive]
          have resumed : ((e.entered s args).resume s).dangling = false := by
            simpa [step, emit, alive] using safe
          have live := live_of_resume_safe (by simp [entered]) begun resumed
          rw [begin_deref] at live
          simpa [callsLive, alive] using live
  | returns =>
      by_cases idle : e.stack = []
      · simp [callsLive, idle]
      · cases alive : e.world.signals s with
        | none => simp [callsLive, alive]
        | some sig => simpa [callsLive, alive, idle] using live_of_resume_safe idle alive safe

-----------------------------------------------------------------------------------------
-- The invariant of an emission
-----------------------------------------------------------------------------------------

/-- The iteration over the connections is under way, safely, and ends with the call. -/
structure Delivering (s : SignalId) (initial : List Nat) (e : Emission Method Args) : Prop where
  iteration
    : ∃ sig,
        e.world.signals s = some sig
        ∧ Iteration initial e.world.nextNode sig e.invoked
        ∧ (e.stack = [] → sig.current = none)
  safe : e.dangling = false
  single : e.stack = [] ∨ ∃ frame, e.stack = [frame]

/-- The loop of `emit` keeps the delivery: it returns at the end of the list, or visits the
designated node, whose destination is alive.
-/
theorem Delivering.resume {s : SignalId} {initial : List Nat} {e : Emission Method Args}
    {sig : SignalBase Method} (alive : e.world.signals s = some sig)
    (iteration : Iteration initial e.world.nextNode sig e.invoked)
    (ended : e.stack = [] → sig.current = none) (safe : e.dangling = false)
    (single : e.stack = [] ∨ ∃ frame, e.stack = [frame])
    (live : e.stack ≠ [] → sig.deref.all e.world.isLive = true)
    : (e.resume s).Delivering s initial := by
  obtain ⟨passed, pending, split, -⟩ := iteration.split
  rcases resume_cases alive iteration.distinct split
    with ⟨-, same⟩ | ⟨frame, outer, active, rfl, same⟩
      | ⟨frame, outer, conn, rest, active, rfl, -, same⟩
      | ⟨frame, outer, conn, rest, active, rfl, dead, -⟩
  · rw [same]
    exact ⟨⟨sig, alive, iteration, ended⟩, safe, single⟩
  · rw [same]
    have last : outer = [] := by
      rcases single with idle | ⟨only, one⟩
      · simp [active] at idle
      · simpa using (List.cons_eq_cons.mp (active.symm.trans one)).2
    have atEnd := split.current_eq_none.mpr rfl
    exact ⟨⟨sig, alive, iteration, fun _ => atEnd⟩, safe, Or.inl last⟩
  · rw [same]
    refine ⟨⟨sig.advance, ?_, ?_, ?_⟩, safe, single⟩
    · simp [alive]
    · simpa [invoked] using iteration.visit (split.deref iteration.distinct)
    · simp [active]
  · have called := live (by simp [active])
    rw [split.deref iteration.distinct, Option.all_some, dead] at called
    contradiction

/-- An emission of a live signal starts a delivery of its connections, if the first receiver is
alive.
-/
theorem start_delivering {w : World Method} (wellFormed : w.WellFormed) {s : SignalId}
    {sig : SignalBase Method} (alive : w.signals s = some sig) {args : Args}
    (live : callsLive s { world := w } (.emit args) = true)
    : (start w s args).Delivering s sig.ids := by
  have listed := wellFormed s sig alive
  have begun : (w.modifySignal s IterList.begin).signals s = some sig.begin := by simp [alive]
  unfold start emit entered
  refine .resume begun (Iteration.start listed.distinct listed.used) ?_ rfl ?_ ?_
  · simp
  · exact Or.inr ⟨_, rfl⟩
  · intro _
    rw [begin_deref]
    simpa [callsLive, alive] using live

/-- Edits leave an iterator at the end where it is, by induction on them. -/
theorem edits_current_none {bound later : Nat} {sig sig' : SignalBase Method}
    (edits : Edits bound sig later sig') (ended : sig.current = none)
    : sig'.current = none := by
  induction edits with
  | refl => exact ended
  | pushBack _ _ _ _ ih => exact ih
  | erase _ id ih => simp [erase, ih]
  | clear => rfl

/-- Every calm action that calls live receivers keeps the delivery. -/
theorem Delivering.step {s : SignalId} {initial : List Nat} {e : Emission Method Args}
    (h : e.Delivering s initial) {action : Action Method Args} (calm : action.Calm s)
    (live : e.callsLive s action = true)
    : (e.step s action).Delivering s initial := by
  obtain ⟨sig, alive, iteration, ended⟩ := h.iteration
  cases action with
  | edit op =>
      obtain ⟨sig', alive', edits⟩ := (World.evolves_step e.world op).survives calm alive
      have edited : e.step s (.edit op) = { e with world := e.world.step op } := if_pos live
      rw [edited]
      exact ⟨⟨sig', alive', iteration.edits edits,
        fun idle => edits_current_none edits (ended idle)⟩, h.safe, h.single⟩
  | emit args => exact absurd calm not_false
  | returns =>
      refine .resume alive iteration ended h.safe h.single ?_
      intro active
      simpa [callsLive, alive, active] using live

/-- What is gone before its turn is not invoked by any calm action. -/
theorem Delivering.step_absent {s : SignalId} {initial : List Nat} {e : Emission Method Args}
    (h : e.Delivering s initial) {action : Action Method Args} (calm : action.Calm s) {id : Nat}
    (isInitial : id ∈ initial) (gone : id ∉ e.connected s) (waiting : id ∉ e.invoked)
    : id ∉ (e.step s action).connected s ∧ id ∉ (e.step s action).invoked := by
  obtain ⟨sig, alive, iteration, -⟩ := h.iteration
  have absent : id ∉ sig.ids := by simpa [connected, alive] using gone
  cases action with
  | edit op =>
      simp only [Emission.step]
      split_ifs
      · obtain ⟨sig', alive', edits⟩ := (World.evolves_step e.world op).survives calm alive
        refine ⟨?_, waiting⟩
        simpa [connected, alive'] using edits.absent (iteration.initialUsed id isInitial) absent
      · exact ⟨gone, waiting⟩
  | emit args => exact absurd calm not_false
  | returns =>
      change id ∉ (e.resume s).connected s ∧ id ∉ (e.resume s).invoked
      obtain ⟨passed, pending, split, -⟩ := iteration.split
      rcases resume_cases alive iteration.distinct split
        with ⟨-, same⟩ | ⟨frame, outer, -, -, same⟩ | ⟨frame, outer, conn, rest, -, rfl, -, same⟩
          | ⟨frame, outer, conn, rest, -, -, -, same⟩
      · rw [same]
        exact ⟨gone, waiting⟩
      · rw [same]
        exact ⟨gone, waiting⟩
      · have different : id ≠ conn.id := by
          rintro rfl
          exact absent (by simp [IterList.ids, split.nodes])
        rw [same]
        constructor
        · simpa [connected, alive] using absent
        · simpa [invoked, different] using waiting
      · rw [same]
        exact ⟨gone, waiting⟩

/-- The action is calm and calls live receivers. -/
def Safe (s : SignalId) (e : Emission Method Args) (action : Action Method Args) : Prop :=
  action.Calm s ∧ e.callsLive s action = true

/-- Once gone before its turn, a connection is not invoked for the rest of the emission, by
induction on the remaining actions.
-/
theorem Delivering.runFrom_absent {s : SignalId} {initial : List Nat} {e : Emission Method Args}
    (h : e.Delivering s initial) {actions : List (Action Method Args)}
    (along : Along (Emission.step s) (Safe s) e actions) {id : Nat} (isInitial : id ∈ initial)
    (gone : id ∉ e.connected s) (waiting : id ∉ e.invoked)
    : id ∉ (runFrom (Emission.step s) e actions).invoked := by
  induction actions generalizing e with
  | nil => exact waiting
  | cons action rest ih =>
      obtain ⟨⟨calm, live⟩, later⟩ := along
      obtain ⟨stillGone, stillWaiting⟩ := h.step_absent calm isInitial gone waiting
      exact ih (h.step calm live) later stillGone stillWaiting

/-- Calm actions that call live receivers keep the delivery. -/
theorem Delivering.runFrom {s : SignalId} {initial : List Nat} {e : Emission Method Args}
    (h : e.Delivering s initial) {actions : List (Action Method Args)}
    (along : Along (Emission.step s) (Safe s) e actions)
    : (runFrom (Emission.step s) e actions).Delivering s initial := by
  have preserved (e : Emission Method Args) (action : Action Method Args)
      (delivering : e.Delivering s initial) (safe : e.Safe s action)
      : (e.step s action).Delivering s initial :=
    delivering.step safe.1 safe.2
  exact runFrom_invariant_along preserved h along

/-- What the invariant says of the connections at the end of the actions. -/
theorem Delivering.delivered {s : SignalId} {initial : List Nat} {e : Emission Method Args}
    (started : e.Delivering s initial) {actions : List (Action Method Args)}
    (along : Along (Emission.step s) (Safe s) e actions)
    : Delivered s initial e actions := by
  have final := started.runFrom along
  obtain ⟨now, present, iteration, ended⟩ := final.iteration
  obtain ⟨passed, pending, split, -⟩ := iteration.split
  obtain ⟨distinct, ordered⟩ := iteration.visited_in_order
  refine {
    iterator := ⟨now, present, split.live⟩
    safe := final.safe
    distinct := distinct
    ordered := ordered
    removed := ?_
    kept := ?_
  }
  · rintro id isInitial ⟨reached, ⟨remaining, rfl⟩, gone, waiting⟩
    obtain ⟨before, after⟩ := (along_append e reached remaining).mp along
    rw [List.count_eq_zero, Library.runFrom, List.foldl_append]
    exact (started.runFrom before).runFrom_absent after isInitial gone waiting
  · intro id isInitial notRemoved idle
    rcases iteration.finished (ended idle) isInitial with visited | gone
    · exact List.count_eq_one_of_mem distinct visited
    · by_contra notOnce
      refine notRemoved ⟨actions, List.prefix_refl _, ?_, ?_⟩
      · simpa [connected, present] using gone
      · intro visited
        exact notOnce (List.count_eq_one_of_mem distinct visited)

-----------------------------------------------------------------------------------------
-- Where no receiver is called that is gone
-----------------------------------------------------------------------------------------

/-- The action is no `disconnect` of one connection among several. -/
def DisconnectsLast (e : Emission Method Args) : Action Method Args → Prop
  | .edit op => e.world.DisconnectsLast op
  | _ => True

/-- In a symmetric world every connection has a live destination. -/
theorem isLive_of_symmetric {w : World Method} (h : w.Symmetric) {s : SignalId}
    {sig : SignalBase Method} (alive : w.signals s = some sig) {conn : Node (Connection Method)}
    (member : conn ∈ sig.nodes)
    : w.isLive conn = true := by
  by_contra dead
  have gone : w.receivers conn.value.dest = none := by simpa [World.isLive] using dead
  exact h.destroyed _ gone s ⟨sig, alive, conn, member, rfl⟩

/-- In a symmetric world every operation calls live receivers. -/
theorem operation_callsLive {w : World Method} (h : w.Symmetric) (op : Op Method)
    : w.callsLive op = true := by
  have allLive (s : SignalId) : (w.signals s).all (fun sig => sig.nodes.all w.isLive) = true := by
    rw [Option.all_eq_true]
    intro sig alive
    exact List.all_eq_true.mpr (fun conn member => isLive_of_symmetric h alive member)
  cases op with
  | disconnect s pclass =>
      simp only [World.callsLive, Option.all_eq_true]
      intro sig alive conn found
      exact isLive_of_symmetric h alive (List.mem_of_find?_eq_some found)
  | disconnectAll s => exact allLive s
  | destroySignal s => exact allLive s
  | copySignal o new => simp [World.callsLive, allLive o]
  | _ => rfl

/-- Moving an iterator changes neither side of the connection relation. -/
theorem symmetric_modifySignal {w : World Method} (h : w.Symmetric) (s : SignalId)
    {change : SignalBase Method → SignalBase Method}
    (moves : ∀ sig, (change sig).nodes = sig.nodes)
    : (w.modifySignal s change).Symmetric := by
  have agree := (World.symmetric_iff w).mp h
  rw [World.symmetric_iff]
  intro r other
  rw [World.knows_modifySignal, agree r other]
  unfold World.Linked
  rw [World.modifySignal_signals]
  split_ifs with same
  · rw [same]
    cases w.signals s <;> simp [moves]
  · rfl

/-- The loop of `emit` keeps the symmetry. -/
theorem symmetric_resume {s : SignalId} {e : Emission Method Args} (h : e.world.Symmetric)
    : (e.resume s).world.Symmetric := by
  rcases e.resume_world s with same | advanced
  · rw [same]
    exact h
  · rw [advanced]
    exact symmetric_modifySignal h s (fun _ => rfl)

/-- Every action but a `disconnect` of one connection among several keeps the symmetry. -/
theorem symmetric_step {s : SignalId} {e : Emission Method Args} (h : e.world.Symmetric)
    (wellFormed : e.world.WellFormed) {action : Action Method Args}
    (last : e.DisconnectsLast action)
    : (e.step s action).world.Symmetric := by
  cases action with
  | edit op =>
      simp only [step]
      split_ifs
      · exact (World.symmetric_step_iff h wellFormed op).mpr last
      · exact h
  | emit args =>
      simp only [step]
      split_ifs
      · exact symmetric_resume (symmetric_modifySignal h s (fun _ => rfl))
      · exact h
  | returns => exact symmetric_resume h

/-- In a symmetric world every action calls live receivers. -/
theorem callsLive_of_symmetric {s : SignalId} {e : Emission Method Args} (h : e.world.Symmetric)
    (action : Action Method Args)
    : e.callsLive s action = true := by
  cases action with
  | edit op => exact operation_callsLive h op
  | emit args =>
      simp only [callsLive, Option.all_eq_true]
      intro sig alive node first
      exact isLive_of_symmetric h alive (List.mem_of_mem_head? first)
  | returns =>
      simp only [callsLive, Bool.or_eq_true, Option.all_eq_true]
      refine Or.inr ?_
      intro sig alive node designated
      exact isLive_of_symmetric h alive (deref_mem designated)

end Emission

open Emission in
/-- Where `disconnect` is called only on receivers that have at most one connection to the signal,
before the emission and during it, no receiver is called that is gone.
-/
theorem callsLive_of_disconnectsLast (s : SignalId) {history actions : List (Action Method Args)}
    (before : Along (step s) DisconnectsLast {} history)
    (during : Along (step s) DisconnectsLast { world := (run s history).world } actions)
    : Along (step s) (fun e action => e.callsLive s action = true)
        { world := (run s history).world } actions := by
  have preserved (e : Emission Method Args) (action : Action Method Args)
      (invariant : e.world.Symmetric ∧ e.world.WellFormed) (last : e.DisconnectsLast action)
      : (e.step s action).world.Symmetric ∧ (e.step s action).world.WellFormed :=
    ⟨symmetric_step invariant.1 invariant.2 last, wellFormed_step invariant.2 action⟩
  have initial
      : ({} : Emission Method Args).world.Symmetric
        ∧ ({} : Emission Method Args).world.WellFormed := by
    refine ⟨?_, World.wellFormed_empty_world⟩
    rw [World.symmetric_iff]
    simp [World.Knows, World.Linked]
  have reached := runFrom_invariant_along preserved initial before
  exact during.imp reached preserved
    (fun _ action invariant _ => callsLive_of_symmetric invariant.1 action)

open Emission in
/-- Whatever happened before and whatever its slots do, short of emitting the signal again or
destroying it: an emission delivers its connections, at every moment, if and only if none of its
steps calls a receiver that is gone.
-/
theorem delivered_iff_callsLive (s : SignalId) (history : List (Action Method Args))
    {sig : SignalBase Method} (alive : (run s history).world.signals s = some sig) (args : Args)
    (actions : List (Action Method Args)) (calm : ∀ action ∈ actions, action.Calm s)
    : (∀ reached,
        reached <+: actions
        → Delivered s sig.ids (start (run s history).world s args) reached)
      ↔ Along (step s) (fun e action => e.callsLive s action = true)
          { world := (run s history).world } (.emit args :: actions) := by
  have entering
      : step s { world := (run s history).world } (.emit args)
        = start (run s history).world s args := by
    simp [step, start, alive]
  rw [along_cons, entering]
  constructor
  · intro delivered
    have safe (reached : List (Action Method Args)) (isPrefix : reached <+: actions)
        : (runFrom (step s) (start (run s history).world s args) reached).dangling = false :=
      (delivered reached isPrefix).safe
    have stepSafe (e : Emission Method Args) (action : Action Method Args) (_ : True)
        (safe : (e.step s action).dangling = false)
        : e.callsLive s action = true :=
      callsLive_of_safe safe
    have everywhere := @forall_prefix_iff_along _ _ (step s) (fun e => e.dangling = false)
      (start (run s history).world s args) actions
    obtain ⟨first, later⟩ := everywhere.mp safe
    refine ⟨callsLive_of_safe (by rw [entering]; exact first), ?_⟩
    exact later.imp trivial (fun _ _ _ _ => trivial) stepSafe
  · rintro ⟨first, later⟩ reached ⟨remaining, whole⟩
    have started := start_delivering (run_wellFormed s history) alive first
    have calmAlong : Along (step s) (fun _ action => action.Calm s)
        (start (run s history).world s args) actions :=
      along_of_forall_mem (fun action member _ => calm action member) _
    have along := along_and calmAlong later
    rw [← whole, along_append] at along
    exact started.delivered along.1

/-- Three receivers, each connected once to one signal. -/
def threeConnected : List (Action Unit Unit) :=
  [.edit (.createSignal 0), .edit (.createReceiver 0), .edit (.createReceiver 1),
    .edit (.createReceiver 2), .edit (.connect 0 0 ()), .edit (.connect 0 1 ()),
    .edit (.connect 0 2 ())]

/-- The first slot disconnects the second receiver; then both remaining slots return. -/
def disconnectsSecond : List (Action Unit Unit) :=
  [.edit (.disconnect 0 1), .returns, .returns]

/-- In that emission the first and the third connection are invoked, and the call returns. -/
theorem disconnectsSecond_delivers
    : (runFrom (Emission.step 0) (Emission.start (Emission.run 0 threeConnected).world 0 ())
          disconnectsSecond).invoked = [0, 2]
      ∧ (runFrom (Emission.step 0) (Emission.start (Emission.run 0 threeConnected).world 0 ())
          disconnectsSecond).stack.isEmpty = true
      ∧ ∀ reached,
          reached <+: disconnectsSecond
          → Emission.Delivered 0 [0, 1, 2]
              (Emission.start (Emission.run 0 threeConnected).world 0 ()) reached := by
  refine ⟨by decide, by decide, ?_⟩
  exact (delivered_iff_callsLive 0 threeConnected rfl () disconnectsSecond
    (by simp [disconnectsSecond, Action.Calm, Op.destroyed])).mpr (by decide)

/-- Two receivers, the second connected twice to one signal. -/
def secondTwice : List (Action Unit Unit) :=
  [.edit (.createSignal 0), .edit (.createReceiver 0), .edit (.createReceiver 1),
    .edit (.connect 0 0 ()), .edit (.connect 0 1 ()), .edit (.connect 0 1 ())]

/-- The first slot disconnects the second receiver, destroys it, and returns. -/
def destroysSecond : List (Action Unit Unit) :=
  [.edit (.disconnect 0 1), .edit (.destroyReceiver 1), .returns]

open Emission in
/-- In that emission the third connection is still there when `emit` comes to it, and its receiver
is gone.
-/
theorem destroysSecond_dangles
    : (runFrom (step 0) (start (run 0 secondTwice).world 0 ()) destroysSecond).connected 0 = [0, 2]
      ∧ (runFrom (step 0) (start (run 0 secondTwice).world 0 ()) destroysSecond).invoked = [0]
      ∧ ((runFrom (step 0) (start (run 0 secondTwice).world 0 ()) destroysSecond).world.receivers
          1).isNone = true
      ∧ (runFrom (step 0) (start (run 0 secondTwice).world 0 ()) destroysSecond).dangling = true
      ∧ ¬ ∀ reached,
            reached <+: destroysSecond
            → Delivered 0 [0, 1, 2] (start (run 0 secondTwice).world 0 ()) reached := by
  refine ⟨by decide, by decide, by decide, by decide, ?_⟩
  intro delivered
  have safe := (delivered destroysSecond (List.prefix_refl _)).safe
  revert safe
  decide

end RtcBase.Sigslot
