import RtcBase.Sigslot.World

/-! What any operation can do to one signal's connection list: nothing but the edits that repair
the iterator. Hence every list of every run is well formed.
-/

namespace RtcBase.Sigslot

open RtcBase.Library IterList

variable {Method : Type} {doomed : Option SignalId}

/-- The signal that an operation destroys. -/
def Op.destroyed : Op Method → Option SignalId
  | .destroySignal s => some s
  | _ => none

namespace World

@[simp] theorem modifySignal_nextNode (w : World Method) (s : SignalId)
    (change : SignalBase Method → SignalBase Method)
    : (w.modifySignal s change).nextNode = w.nextNode := rfl

@[simp] theorem modifySignal_signals (w : World Method) (s other : SignalId)
    (change : SignalBase Method → SignalBase Method)
    : (w.modifySignal s change).signals other
      = if other = s then (w.signals s).map change else w.signals other := by
  simp [modifySignal, Function.update_apply]

@[simp] theorem modifyReceiver_signals (w : World Method) (r : ReceiverId)
    (change : HasSlots → HasSlots)
    : (w.modifyReceiver r change).signals = w.signals := rfl

@[simp] theorem modifyReceiver_receivers (w : World Method) (r other : ReceiverId)
    (change : HasSlots → HasSlots)
    : (w.modifyReceiver r change).receivers other
      = if other = r then (w.receivers r).map change else w.receivers other := by
  simp [modifyReceiver, Function.update_apply]

@[simp] theorem pushBack_receivers (w : World Method) (s : SignalId)
    (connection : Connection Method)
    : (w.pushBack s connection).receivers = w.receivers := rfl

@[simp] theorem pushBack_signals (w : World Method) (s other : SignalId)
    (connection : Connection Method)
    : (w.pushBack s connection).signals other
      = if other = s then
          (w.signals s).map (fun sig => IterList.pushBack sig ⟨w.nextNode, connection⟩)
        else w.signals other :=
  modifySignal_signals w s other _

-----------------------------------------------------------------------------------------
-- Evolution of the connection lists
-----------------------------------------------------------------------------------------

/-- Every signal of the later world comes from the same signal of the earlier one, or from an
empty list, by edits, and no signal has gone but the doomed one.
-/
structure Evolves (doomed : Option SignalId) (earlier later : World Method) : Prop where
  grows : earlier.nextNode ≤ later.nextNode
  alive
    : ∀ s, doomed ≠ some s → (earlier.signals s).isSome = true → (later.signals s).isSome = true
  edits
    : ∀ s sig,
        later.signals s = some sig
        → Edits earlier.nextNode ((earlier.signals s).getD IterList.empty) later.nextNode sig

/-- A live signal that is not doomed lives on, with its list edited. -/
theorem Evolves.survives {earlier later : World Method}
    (h : Evolves doomed earlier later) {s : SignalId} (spared : doomed ≠ some s)
    {sig : SignalBase Method} (alive : earlier.signals s = some sig)
    : ∃ sig',
        later.signals s = some sig' ∧ Edits earlier.nextNode sig later.nextNode sig' := by
  obtain ⟨sig', alive'⟩ := Option.isSome_iff_exists.mp (h.alive s spared (by simp [alive]))
  have edits := h.edits s sig' alive'
  rw [alive, Option.getD_some] at edits
  exact ⟨sig', alive', edits⟩

/-- A world with the same signals has evolved. -/
theorem Evolves.of_signals {earlier later : World Method}
    (signals : later.signals = earlier.signals) (nextNode : later.nextNode = earlier.nextNode)
    : Evolves doomed earlier later where
  grows := Nat.le_of_eq nextNode.symm
  alive := by simp [signals]
  edits := by
    intro s sig present
    rw [signals] at present
    rw [present, nextNode]
    exact .refl (Nat.le_refl _)

theorem Evolves.refl (w : World Method) : Evolves doomed w w := .of_signals rfl rfl

/-- Evolution composes. A list that was not there in between starts again from empty. -/
theorem Evolves.trans {first second third : World Method} (h : Evolves doomed first second)
    (next : Evolves doomed second third)
    : Evolves doomed first third where
  grows := Nat.le_trans h.grows next.grows
  alive := fun s spared present => next.alive s spared (h.alive s spared present)
  edits := by
    intro s sig present
    have later := next.edits s sig present
    cases between : second.signals s with
    | some middle =>
        rw [between] at later
        exact (h.edits s middle between).trans later
    | none =>
        rw [between] at later
        exact (Edits.clear (.refl h.grows)).trans later

/-- A fold of evolving steps evolves, by induction on the list. -/
theorem Evolves.foldl {β : Type} {step : World Method → β → World Method}
    (each : ∀ w element, Evolves doomed w (step w element)) (w : World Method) (elements : List β)
    : Evolves doomed w (elements.foldl step w) := by
  induction elements generalizing w with
  | nil => exact .refl w
  | cons element rest ih => exact (each w element).trans (ih (step w element))

/-- A change of one signal by edits is an evolution. -/
theorem evolves_modifySignal (w : World Method) (s : SignalId)
    {change : SignalBase Method → SignalBase Method}
    (edits : ∀ sig, w.signals s = some sig → Edits w.nextNode sig w.nextNode (change sig))
    : Evolves doomed w (w.modifySignal s change) where
  grows := Nat.le_refl _
  alive := by
    intro other _ present
    rw [modifySignal_signals]
    split_ifs with same
    · rw [Option.isSome_map, ← same]
      exact present
    · exact present
  edits := by
    intro other sig present
    rw [modifySignal_signals] at present
    split_ifs at present with same
    · subst same
      obtain ⟨before, found, rfl⟩ := Option.map_eq_some_iff.mp present
      rw [found]
      exact edits before found
    · rw [present]
      exact .refl (Nat.le_refl _)

theorem evolves_modifyReceiver (w : World Method) (r : ReceiverId)
    (change : HasSlots → HasSlots)
    : Evolves doomed w (w.modifyReceiver r change) :=
  .of_signals rfl rfl

theorem evolves_pushBack (w : World Method) (s : SignalId) (connection : Connection Method)
    : Evolves doomed w (w.pushBack s connection) where
  grows := Nat.le_succ _
  alive := by
    intro other _ present
    rw [pushBack_signals]
    split_ifs with same
    · rw [Option.isSome_map, ← same]
      exact present
    · exact present
  edits := by
    intro other sig present
    rw [pushBack_signals] at present
    split_ifs at present with same
    · subst same
      obtain ⟨before, found, rfl⟩ := Option.map_eq_some_iff.mp present
      rw [found]
      exact .pushBack (.refl (Nat.le_refl _)) _ (Nat.le_refl _) (Nat.lt_succ_self _)
    · rw [present]
      exact .refl (Nat.le_succ _)

theorem evolves_connect (w : World Method) (s : SignalId) (pclass : ReceiverId)
    (pmemfun : Method)
    : Evolves doomed w (w.connect s pclass pmemfun) :=
  (evolves_pushBack w s _).trans (evolves_modifyReceiver _ _ _)

theorem evolves_disconnect (w : World Method) (s : SignalId) (pclass : ReceiverId)
    : Evolves doomed w (w.disconnect s pclass) := by
  unfold disconnect
  split
  · exact .refl w
  · split
    · exact .refl w
    · refine (evolves_modifySignal w s ?_).trans (evolves_modifyReceiver _ _ _)
      exact fun sig _ => .erase (.refl (Nat.le_refl _)) _

/-- Erasing every connection to a receiver is a sequence of edits, by induction on the nodes. -/
theorem edits_eraseAll (bound : Nat) (pslot : ReceiverId)
    (nodes : List (Node (Connection Method))) (sig : SignalBase Method)
    : Edits bound sig bound
        (nodes.foldl
          (fun self it => if it.value.dest = pslot then self.erase it.id else self) sig) := by
  induction nodes generalizing sig with
  | nil => exact .refl (Nat.le_refl _)
  | cons it rest ih =>
      rw [List.foldl_cons]
      split_ifs
      · exact (Edits.erase (.refl (Nat.le_refl _)) it.id).trans (ih _)
      · exact ih _

theorem evolves_slotDisconnect (w : World Method) (s : SignalId) (pslot : ReceiverId)
    : Evolves doomed w (w.slotDisconnect s pslot) :=
  evolves_modifySignal w s (fun sig _ => edits_eraseAll w.nextNode pslot sig.nodes sig)

theorem evolves_slotDuplicate (w : World Method) (s : SignalId)
    (oldtarget newtarget : ReceiverId)
    : Evolves doomed w (w.slotDuplicate s oldtarget newtarget) := by
  unfold slotDuplicate
  split
  · exact .refl w
  · refine Evolves.foldl ?_ w _
    intro w it
    split_ifs
    · exact evolves_pushBack w s _
    · exact .refl w

theorem evolves_doDisconnectAll (w : World Method) (p : ReceiverId)
    : Evolves doomed w (w.doDisconnectAll p) := by
  unfold doDisconnectAll
  split
  · exact .refl w
  · exact (evolves_modifyReceiver w p _).trans
      (Evolves.foldl (fun w s => evolves_slotDisconnect w s p) _ _)

/-- Unlinking the nodes of a signal from the front, by induction on the nodes: what is left of
the list, the other signals, and the receivers that were told.
-/
theorem foldl_popFront (s : SignalId) (nodes : List (Node (Connection Method)))
    {w : World Method} {sig : SignalBase Method} (present : w.signals s = some sig)
    : (nodes.foldl
          (fun w front =>
            (w.modifySignal s IterList.popFront).modifyReceiver front.value.dest
              (fun self => self.doSignalDisconnect s)) w).signals
        = Function.update w.signals s
            (some { sig with nodes := sig.nodes.drop nodes.length })
      ∧ (nodes.foldl
          (fun w front =>
            (w.modifySignal s IterList.popFront).modifyReceiver front.value.dest
              (fun self => self.doSignalDisconnect s)) w).nextNode = w.nextNode := by
  induction nodes generalizing w sig with
  | nil =>
      refine ⟨?_, rfl⟩
      rw [List.foldl_nil, List.length_nil, List.drop_zero, ← present, Function.update_eq_self]
  | cons front rest ih =>
      have popped
          : ((w.modifySignal s IterList.popFront).modifyReceiver front.value.dest
              (fun self => self.doSignalDisconnect s)).signals s = some sig.popFront := by
        simp [present]
      obtain ⟨signals, nextNode⟩ := ih popped
      refine ⟨?_, nextNode⟩
      rw [List.foldl_cons, signals]
      funext other
      by_cases same : other = s
      · subst same
        simp [popFront]
      · simp [same]

/-- `disconnect_all` leaves the signal with an empty list and its iterator at the end, and the
other signals as they were.
-/
theorem disconnectAll_signals (w : World Method) (s : SignalId)
    : (w.disconnectAll s).signals
        = Function.update w.signals s ((w.signals s).map (fun _ => IterList.empty))
      ∧ (w.disconnectAll s).nextNode = w.nextNode := by
  unfold disconnectAll
  split
  case h_1 absent =>
    refine ⟨?_, rfl⟩
    rw [absent, Option.map_none, ← absent, Function.update_eq_self]
  case h_2 sig present =>
    obtain ⟨signals, nextNode⟩ := foldl_popFront s sig.nodes present
    refine ⟨?_, nextNode⟩
    funext other
    rw [modifySignal_signals, signals]
    by_cases same : other = s
    · subst same
      simp [present, toEnd, IterList.empty]
    · simp [same]

theorem evolves_disconnectAll (w : World Method) (s : SignalId)
    : Evolves doomed w (w.disconnectAll s) := by
  obtain ⟨signals, nextNode⟩ := disconnectAll_signals w s
  refine ⟨Nat.le_of_eq nextNode.symm, ?_, ?_⟩
  · intro other _ present
    rw [signals, Function.update_apply]
    split_ifs with same
    · rw [Option.isSome_map, ← same]
      exact present
    · exact present
  intro other sig present
  rw [nextNode]
  rw [signals, Function.update_apply] at present
  split_ifs at present with same
  · obtain ⟨before, -, rfl⟩ := Option.map_eq_some_iff.mp present
    exact .clear (.refl (Nat.le_refl _))
  · rw [present]
    exact .refl (Nat.le_refl _)

/-- A new, empty signal evolves from nothing. -/
theorem evolves_newSignal {w : World Method} {new : SignalId} (free : w.signals new = none)
    : Evolves doomed w { w with signals := Function.update w.signals new (some IterList.empty) } where
  grows := Nat.le_refl _
  alive := by
    intro other _ present
    dsimp only
    rw [Function.update_apply]
    split_ifs
    · rfl
    · exact present
  edits := by
    intro other sig present
    dsimp only at present
    rw [Function.update_apply] at present
    split_ifs at present with same
    · subst same
      obtain rfl := Option.some.inj present
      rw [free]
      exact .refl (Nat.le_refl _)
    · rw [present]
      exact .refl (Nat.le_refl _)

theorem evolves_copySignal {w : World Method} {o new : SignalId} (free : w.signals new = none)
    : Evolves doomed w (w.copySignal o new) := by
  unfold copySignal
  split
  · exact .refl w
  · refine (evolves_newSignal free).trans (Evolves.foldl ?_ _ _)
    intro w connection
    exact (evolves_modifyReceiver w _ _).trans (evolves_pushBack _ new _)

theorem evolves_copyReceiver (w : World Method) (o new : ReceiverId)
    : Evolves doomed w (w.copyReceiver o new) := by
  unfold copyReceiver
  split
  · exact .refl w
  · refine Evolves.trans (.of_signals ?_ ?_) (Evolves.foldl ?_ _ _)
    · rfl
    · rfl
    intro w sender
    exact (evolves_slotDuplicate w sender o new).trans (evolves_modifyReceiver _ _ _)

theorem evolves_destroySignal (w : World Method) (s : SignalId)
    : Evolves (some s) w (w.destroySignal s) := by
  refine (evolves_disconnectAll w s).trans ⟨Nat.le_refl _, ?_, ?_⟩
  · intro other spared present
    have different : other ≠ s := fun same => spared (by rw [same])
    simpa [destroySignal, Function.update_apply, different] using present
  intro other sig present
  simp only [destroySignal, Function.update_apply] at present
  split_ifs at present with same
  rw [present]
  exact .refl (Nat.le_refl _)

theorem evolves_destroyReceiver (w : World Method) (r : ReceiverId)
    : Evolves doomed w (w.destroyReceiver r) :=
  (evolves_doDisconnectAll w r).trans (.of_signals rfl rfl)

/-- Every operation changes the connection lists by edits only, and only destroys a signal on
request.
-/
theorem evolves_step (w : World Method) (op : Op Method)
    : Evolves op.destroyed w (w.step op) := by
  cases op with
  | createSignal s =>
      simp only [step]
      split_ifs with alive
      · exact .refl w
      · exact evolves_newSignal (by simpa using alive)
  | createReceiver r =>
      simp only [step]
      split_ifs
      · exact .refl w
      · exact .of_signals rfl rfl
  | connect s pclass pmemfun =>
      simp only [step]
      split_ifs
      · exact evolves_connect w s pclass pmemfun
      · exact .refl w
  | disconnect s pclass => exact evolves_disconnect w s pclass
  | disconnectAll s => exact evolves_disconnectAll w s
  | doDisconnectAll r => exact evolves_doDisconnectAll w r
  | copySignal o new =>
      simp only [step]
      split_ifs with alive
      · exact .refl w
      · exact evolves_copySignal (by simpa using alive)
  | copyReceiver o new =>
      simp only [step]
      split_ifs
      · exact .refl w
      · exact evolves_copyReceiver w o new
  | destroySignal s => exact evolves_destroySignal w s
  | destroyReceiver r => exact evolves_destroyReceiver w r

-----------------------------------------------------------------------------------------
-- Well-formed connection lists
-----------------------------------------------------------------------------------------

/-- Every connection list is well formed, with node identities that have been allocated. -/
def WellFormed (w : World Method) : Prop :=
  ∀ s sig, w.signals s = some sig → IterList.WellFormed w.nextNode sig

/-- Evolution keeps the lists well formed. -/
theorem WellFormed.evolves {earlier later : World Method} (h : earlier.WellFormed)
    (evolution : Evolves doomed earlier later)
    : later.WellFormed := by
  intro s sig present
  have edits := evolution.edits s sig present
  cases before : earlier.signals s with
  | none =>
      rw [before] at edits
      exact (wellFormed_empty _).edits edits
  | some old =>
      rw [before] at edits
      exact (h s old before).edits edits

theorem WellFormed.step {w : World Method} (h : w.WellFormed) (op : Op Method)
    : (w.step op).WellFormed :=
  h.evolves (evolves_step w op)

theorem wellFormed_empty_world : ({} : World Method).WellFormed := by
  intro s sig present
  contradiction

end World

end RtcBase.Sigslot
