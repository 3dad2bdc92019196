import RtcBase.Sigslot.Evolution

/-! Emission of one signal, call by call. A slot that is executing may use any operation, emit
the signal again, or return; `emit` then goes on with whatever `m_current_iterator` designates.
The iterator is one member shared by all active calls. A connection holds a bare pointer to its
receiver, so a receiver may be called that is gone.
-/

namespace RtcBase.Sigslot

open RtcBase.Library IterList

variable {Method Args : Type}

/-- An active call of `emit`, with its number and its arguments. -/
structure Frame (Args : Type) where
  call : Nat
  args : Args

/-- A slot invoked by a call of `emit`. -/
structure Invocation (Method Args : Type) where
  call : Nat
  args : Args
  node : Node (Connection Method)

/-- The world while a signal is emitted: the active calls, innermost first, every slot invoked so
far, the arguments of every call so far, and whether a dead iterator, signal or receiver was used.
-/
structure Emission (Method Args : Type) where
  world : World Method := {}
  stack : List (Frame Args) := []
  log : List (Invocation Method Args) := []
  issued : List Args := []
  dangling : Bool := false

/-- What the program does while a slot is executing, or between emissions. -/
inductive Action (Method Args : Type) where
  | edit (op : Op Method)
  | emit (args : Args)
  | returns

namespace World

/-- The destination of a connection is alive. -/
def isLive (w : World Method) (conn : Node (Connection Method)) : Bool :=
  (w.receivers conn.value.dest).isSome

/-- Every receiver that the operation calls is alive. `disconnect` and `disconnect_all` call
`signal_disconnect` of the destinations that they unlink, and a signal that is copied has
`signal_connect` called of all its destinations.
-/
def callsLive (w : World Method) : Op Method → Bool
  | .disconnect s pclass =>
      (w.signals s).all (fun sig =>
        (sig.nodes.find? (fun node => node.value.dest = pclass)).all w.isLive)
  | .disconnectAll s => (w.signals s).all (fun sig => sig.nodes.all w.isLive)
  | .destroySignal s => (w.signals s).all (fun sig => sig.nodes.all w.isLive)
  | .copySignal o new =>
      (w.signals new).isSome || (w.signals o).all (fun sig => sig.nodes.all w.isLive)
  | _ => true

@[simp] theorem isLive_modifySignal (w : World Method) (s : SignalId)
    (change : SignalBase Method → SignalBase Method)
    : (w.modifySignal s change).isLive = w.isLive := rfl

end World

namespace Emission

/-- The loop of `emit` in the innermost active call, up to the next slot: return when the
iterator is at the end, else advance it and invoke the slot that it designated.
-/
def resume (s : SignalId) (e : Emission Method Args) : Emission Method Args :=
  match e.stack with
  | [] => e
  | frame :: outer =>
      match e.world.signals s with
      | none => { e with dangling := true }
      | some sig =>
          match sig.current with
          | none => { e with stack := outer }
          | some _ =>
              match sig.deref with
              | none => { e with dangling := true }
              | some conn =>
                  if e.world.isLive conn then
                    {
                      e with
                      world := e.world.modifySignal s IterList.advance
                      log := e.log ++ [⟨frame.call, frame.args, conn⟩]
                    }
                  else { e with dangling := true }

/-- The state of a call of `emit` as it enters its loop, with the iterator at the beginning. -/
def entered (s : SignalId) (e : Emission Method Args) (args : Args) : Emission Method Args :=
  {
    e with
    world := e.world.modifySignal s IterList.begin
    stack := ⟨e.issued.length, args⟩ :: e.stack
    issued := e.issued ++ [args]
  }

/-- A call of `emit`, up to its first slot. -/
def emit (s : SignalId) (e : Emission Method Args) (args : Args) : Emission Method Args :=
  (e.entered s args).resume s

/-- One action. Only a live signal is emitted. -/
def step (s : SignalId) (e : Emission Method Args) : Action Method Args → Emission Method Args
  | .edit op =>
      if e.world.callsLive op then { e with world := e.world.step op }
      else { e with dangling := true }
  | .emit args => if (e.world.signals s).isSome then e.emit s args else e
  | .returns => e.resume s

/-- The state after a sequence of actions on an empty world. -/
def run (s : SignalId) (history : List (Action Method Args)) : Emission Method Args :=
  runFrom (step s) {} history

/-- The identities of the slots invoked so far, in order. -/
def invoked (e : Emission Method Args) : List Nat := e.log.map (fun entry => entry.node.id)

/-- The identities of the signal's connections. -/
def connected (s : SignalId) (e : Emission Method Args) : List Nat :=
  match e.world.signals s with
  | none => []
  | some sig => sig.ids

@[simp] theorem isLive_entered (s : SignalId) (e : Emission Method Args) (args : Args)
    : (e.entered s args).world.isLive = e.world.isLive := rfl

/-- The loop of `emit` leaves the world as it is, or advances the iterator. -/
theorem resume_world (s : SignalId) (e : Emission Method Args)
    : (e.resume s).world = e.world
      ∨ (e.resume s).world = e.world.modifySignal s IterList.advance := by
  unfold resume
  split
  · exact Or.inl rfl
  · split
    · exact Or.inl rfl
    · split
      · exact Or.inl rfl
      · split
        · exact Or.inl rfl
        · split_ifs
          · exact Or.inr rfl
          · exact Or.inl rfl

/-- All that the loop of `emit` can do in a live signal, with the nodes passed and pending: nothing
without an active call, return at the end, or invoke the first pending slot, if its receiver is
alive.
-/
theorem resume_cases {s : SignalId} {e : Emission Method Args} {sig : SignalBase Method}
    {passed pending : List (Node (Connection Method))} (alive : e.world.signals s = some sig)
    (distinct : sig.ids.Nodup) (split : sig.Split passed pending)
    : (e.stack = [] ∧ e.resume s = e)
      ∨ (∃ frame outer,
          e.stack = frame :: outer ∧ pending = [] ∧ e.resume s = { e with stack := outer })
      ∨ (∃ frame outer conn rest,
          e.stack = frame :: outer
          ∧ pending = conn :: rest
          ∧ e.world.isLive conn = true
          ∧ e.resume s
            = {
                e with
                world := e.world.modifySignal s IterList.advance
                log := e.log ++ [⟨frame.call, frame.args, conn⟩]
              })
      ∨ ∃ frame outer conn rest,
          e.stack = frame :: outer
          ∧ pending = conn :: rest
          ∧ e.world.isLive conn = false
          ∧ e.resume s = { e with dangling := true } := by
  cases active : e.stack with
  | nil => exact Or.inl ⟨rfl, by simp [resume, active]⟩
  | cons frame outer =>
      cases pending with
      | nil =>
          have ended := split.current_eq_none.mpr rfl
          exact Or.inr (Or.inl ⟨frame, outer, rfl, rfl, by simp [resume, active, alive, ended]⟩)
      | cons conn rest =>
          have designated := split.deref distinct
          have current : sig.current = some conn.id := split.current
          cases live : e.world.isLive conn with
          | true =>
              refine Or.inr (Or.inr (Or.inl ⟨frame, outer, conn, rest, rfl, rfl, live, ?_⟩))
              simp [resume, active, alive, current, designated, live]
          | false =>
              refine Or.inr (Or.inr (Or.inr ⟨frame, outer, conn, rest, rfl, rfl, live, ?_⟩))
              simp [resume, active, alive, current, designated, live]

-----------------------------------------------------------------------------------------
-- Every reachable connection list is well formed
-----------------------------------------------------------------------------------------

/-- A change of one signal that keeps its list well formed. -/
theorem wellFormed_modifySignal {w : World Method} (h : w.WellFormed) {s : SignalId}
    {change : SignalBase Method → SignalBase Method}
    (keeps : ∀ sig, w.signals s = some sig → (change sig).WellFormed w.nextNode)
    : (w.modifySignal s change).WellFormed := by
  intro other sig present
  rw [World.modifySignal_signals] at present
  split_ifs at present
  · obtain ⟨before, found, rfl⟩ := Option.map_eq_some_iff.mp present
    exact keeps before found
  · exact h other sig present

/-- The loop of `emit` keeps all lists well formed. -/
theorem wellFormed_resume {s : SignalId} {e : Emission Method Args}
    (h : e.world.WellFormed)
    : (e.resume s).world.WellFormed := by
  cases alive : e.world.signals s with
  | none =>
      cases active : e.stack with
      | nil => simpa [resume, active] using h
      | cons frame outer => simpa [resume, active, alive] using h
  | some sig =>
      have wellFormed := h s sig alive
      obtain ⟨passed, pending, split⟩ := wellFormed.split
      rcases resume_cases alive wellFormed.distinct split
        with ⟨-, same⟩ | ⟨frame, outer, -, -, same⟩ | ⟨frame, outer, conn, rest, -, rfl, -, same⟩
          | ⟨frame, outer, conn, rest, -, -, -, same⟩
      · rw [same]
        exact h
      · rw [same]
        exact h
      · rw [same]
        refine wellFormed_modifySignal h ?_
        intro before found
        rw [alive] at found
        obtain rfl := Option.some.inj found
        exact ⟨wellFormed.distinct, wellFormed.used, _, _, split.advance wellFormed.distinct⟩
      · rw [same]
        exact h

/-- Setting an iterator to the beginning keeps all lists well formed. -/
theorem wellFormed_begin {w : World Method} (h : w.WellFormed) (s : SignalId)
    : (w.modifySignal s IterList.begin).WellFormed := by
  refine wellFormed_modifySignal h ?_
  intro sig present
  have wellFormed := h s sig present
  exact ⟨wellFormed.distinct, wellFormed.used, _, _, sig.begin_split⟩

/-- Every action keeps all lists well formed. -/
theorem wellFormed_step {s : SignalId} {e : Emission Method Args} (h : e.world.WellFormed)
    (action : Action Method Args)
    : (e.step s action).world.WellFormed := by
  cases action with
  | edit op =>
      simp only [step]
      split_ifs
      · exact h.step op
      · exact h
  | emit args =>
      simp only [step]
      split_ifs
      · exact wellFormed_resume (wellFormed_begin h s)
      · exact h
  | returns => exact wellFormed_resume h

/-- After every history all lists are well formed. -/
theorem run_wellFormed (s : SignalId) (history : List (Action Method Args))
    : (run s history).world.WellFormed := by
  have initial : ({} : Emission Method Args).world.WellFormed := World.wellFormed_empty_world
  have preserved (e : Emission Method Args) (action : Action Method Args)
      (h : e.world.WellFormed)
      : (e.step s action).world.WellFormed :=
    wellFormed_step h action
  exact runFrom_invariant preserved initial history

end Emission

end RtcBase.Sigslot
