import RtcBase.Sigslot.Evolution

/-! The two halves of the connection relation. A receiver's sender set and the signals'
connection lists agree as long as `disconnect` is not asked to remove one of several
connections of a receiver to a signal: it removes one and forgets them all.
-/

namespace RtcBase.Sigslot

open RtcBase.Library IterList

variable {Method : Type}

namespace World

/-- The receiver has the signal among its senders. -/
def Knows (w : World Method) (r : ReceiverId) (s : SignalId) : Prop :=
  ∃ self, w.receivers r = some self ∧ s ∈ self.senders

/-- The signal has a connection to the receiver. -/
def Linked (w : World Method) (s : SignalId) (r : ReceiverId) : Prop :=
  ∃ sig, w.signals s = some sig ∧ ∃ node ∈ sig.nodes, node.value.dest = r

/-- A receiver has a signal among its senders exactly when the signal has a connection to it, and
no signal has a connection to a receiver that is gone.
-/
structure Symmetric (w : World Method) : Prop where
  senders : ∀ r self, w.receivers r = some self → ∀ s, s ∈ self.senders ↔ w.Linked s r
  destroyed : ∀ r, w.receivers r = none → ∀ s, ¬ w.Linked s r

/-- Symmetry as one equivalence. -/
theorem symmetric_iff (w : World Method)
    : w.Symmetric ↔ ∀ r s, w.Knows r s ↔ w.Linked s r := by
  constructor
  · intro h r s
    cases present : w.receivers r with
    | none =>
        have unlinked := h.destroyed r present s
        simp [Knows, present, unlinked]
    | some self =>
        rw [← h.senders r self present s]
        simp [Knows, present]
  · intro agree
    constructor
    · intro r self present s
      rw [← agree r s]
      simp [Knows, present]
    · intro r gone s
      rw [← agree r s]
      simp [Knows, gone]

-----------------------------------------------------------------------------------------
-- The two relations under each operation
-----------------------------------------------------------------------------------------

@[simp] theorem knows_modifySignal (w : World Method) (changed s : SignalId) (r : ReceiverId)
    (change : SignalBase Method → SignalBase Method)
    : (w.modifySignal changed change).Knows r s ↔ w.Knows r s := Iff.rfl

@[simp] theorem knows_pushBack (w : World Method) (pushed s : SignalId) (r : ReceiverId)
    (connection : Connection Method)
    : (w.pushBack pushed connection).Knows r s ↔ w.Knows r s := Iff.rfl

@[simp] theorem linked_modifyReceiver (w : World Method) (s : SignalId)
    (changed r : ReceiverId) (change : HasSlots → HasSlots)
    : (w.modifyReceiver changed change).Linked s r ↔ w.Linked s r := Iff.rfl

theorem doSignalConnect_senders (self : HasSlots) (sender other : SignalId)
    : other ∈ (self.doSignalConnect sender).senders
      ↔ other ∈ self.senders ∨ other = sender := by
  unfold HasSlots.doSignalConnect
  split_ifs with present
  · constructor
    · exact Or.inl
    · intro either
      rcases either with known | rfl
      · exact known
      · exact present
  · simp [or_comm]

/-- Telling a live receiver of a sender. -/
theorem knows_signalConnect (w : World Method) (told r : ReceiverId) (sender s : SignalId)
    : (w.modifyReceiver told (fun self => self.doSignalConnect sender)).Knows r s
      ↔ w.Knows r s ∨ (r = told ∧ s = sender ∧ (w.receivers told).isSome = true) := by
  unfold Knows
  rw [modifyReceiver_receivers]
  by_cases same : r = told
  · subst same
    cases present : w.receivers r with
    | none => simp
    | some self => simp [doSignalConnect_senders]
  · simp [same]

/-- Telling a receiver that a sender is gone. -/
theorem knows_signalDisconnect (w : World Method) (told r : ReceiverId) (sender s : SignalId)
    : (w.modifyReceiver told (fun self => self.doSignalDisconnect sender)).Knows r s
      ↔ w.Knows r s ∧ ¬ (r = told ∧ s = sender) := by
  unfold Knows
  rw [modifyReceiver_receivers]
  by_cases same : r = told
  · subst same
    cases present : w.receivers r with
    | none => simp
    | some self => simp [HasSlots.doSignalDisconnect]
  · simp [same]

/-- Pushing a connection links its destination. -/
theorem linked_pushBack (w : World Method) (pushed s : SignalId) (r : ReceiverId)
    (connection : Connection Method)
    : (w.pushBack pushed connection).Linked s r
      ↔ w.Linked s r
        ∨ (s = pushed ∧ r = connection.dest ∧ (w.signals pushed).isSome = true) := by
  unfold Linked
  rw [pushBack_signals]
  by_cases same : s = pushed
  · subst same
    cases present : w.signals s with
    | none => simp
    | some sig =>
        simp only [Option.map_some, Option.some.injEq, exists_eq_left', if_true,
          IterList.pushBack, List.mem_append, List.mem_singleton, or_and_right, exists_or,
          exists_eq_left, true_and, Option.isSome_some, and_true]
        exact or_congr Iff.rfl eq_comm
  · simp [same]

/-- Connecting live objects adds the pair on both sides. -/
theorem symmetric_connect {w : World Method} (h : w.Symmetric) {s : SignalId}
    {pclass : ReceiverId} (pmemfun : Method) (signalAlive : (w.signals s).isSome = true)
    (receiverAlive : (w.receivers pclass).isSome = true)
    : (w.connect s pclass pmemfun).Symmetric := by
  rw [symmetric_iff] at h ⊢
  intro r other
  rw [connect, knows_signalConnect, linked_modifyReceiver, linked_pushBack, knows_pushBack,
    h r other]
  simp [signalAlive, receiverAlive, and_comm]

/-- How many connections the signal has to the receiver. -/
def connections (w : World Method) (s : SignalId) (r : ReceiverId) : Nat :=
  match w.signals s with
  | none => 0
  | some sig => sig.nodes.countP (fun node => node.value.dest = r)

/-- Distinct nodes: erasing one of them leaves exactly the others. -/
theorem mem_erase_nodes {sig : SignalBase Method} (distinct : sig.ids.Nodup)
    {it node : Node (Connection Method)} (present : it ∈ sig.nodes)
    : node ∈ (sig.erase it.id).nodes ↔ node ∈ sig.nodes ∧ node ≠ it := by
  have unique (other : Node (Connection Method)) (member : other ∈ sig.nodes)
      : other.id = it.id ↔ other = it := by
    constructor
    · exact fun same => List.inj_on_of_nodup_map distinct member present same
    · exact fun same => congrArg Node.id same
  simp only [erase, List.mem_filter, ne_eq, decide_not, Bool.not_eq_true', decide_eq_false_iff_not]
  exact and_congr_right (fun member => not_congr (unique node member))

/-- An element of a list without duplicates is the only one with a property exactly when at most
one element has it.
-/
theorem countP_le_one_iff {α : Type} {elements : List α} (distinct : elements.Nodup)
    (property : α → Bool) {one : α} (member : one ∈ elements) (holds : property one = true)
    : elements.countP property ≤ 1
      ↔ ¬ ∃ other ∈ elements, other ≠ one ∧ property other = true := by
  obtain ⟨before, after, rfl⟩ := List.append_of_mem member
  have outside : one ∉ before ∧ one ∉ after := by
    rw [List.nodup_append, List.nodup_cons] at distinct
    refine ⟨fun earlier => ?_, distinct.2.1.1⟩
    exact distinct.2.2 one earlier one (by simp) rfl
  have total : (before ++ one :: after).countP property
      = before.countP property + after.countP property + 1 := by
    simp [List.countP_append, holds, Nat.add_assoc]
  rw [total]
  constructor
  · intro few ⟨other, present, different, otherHolds⟩
    have positive : 0 < before.countP property + after.countP property := by
      rcases List.mem_append.mp present with earlier | later
      · have counted := List.countP_pos_iff.mpr ⟨other, earlier, otherHolds⟩
        omega
      · have inAfter := (List.mem_cons.mp later).resolve_left different
        have counted := List.countP_pos_iff.mpr ⟨other, inAfter, otherHolds⟩
        omega
    omega
  · intro alone
    have noneBefore : before.countP property = 0 := by
      rw [List.countP_eq_zero]
      intro other earlier otherHolds
      exact alone ⟨other, by simp [earlier], fun same => outside.1 (same ▸ earlier), otherHolds⟩
    have noneAfter : after.countP property = 0 := by
      rw [List.countP_eq_zero]
      intro other later otherHolds
      exact alone ⟨other, by simp [later], fun same => outside.2 (same ▸ later), otherHolds⟩
    omega

/-- `disconnect` keeps the symmetry exactly when the receiver has at most one connection to the
signal. A second connection stays, and the receiver no longer knows of it.
-/
theorem symmetric_disconnect_iff {w : World Method} (h : w.Symmetric) (wellFormed : w.WellFormed)
    (s : SignalId) (pclass : ReceiverId)
    : (w.disconnect s pclass).Symmetric ↔ w.connections s pclass ≤ 1 := by
  cases present : w.signals s with
  | none => simp [disconnect, connections, present, h]
  | some sig =>
      cases found : sig.nodes.find? (fun node => node.value.dest = pclass) with
      | none =>
          have nobody : sig.nodes.countP (fun node => node.value.dest = pclass) = 0 := by
            rw [List.countP_eq_zero]
            exact List.find?_eq_none.mp found
          simp [disconnect, connections, present, found, h, nobody]
      | some it =>
          have member : it ∈ sig.nodes := List.mem_of_find?_eq_some found
          have hit : it.value.dest = pclass := by simpa using List.find?_some found
          have distinct := (wellFormed s sig present).distinct
          have alone := countP_le_one_iff distinct.of_map
            (fun node => decide (node.value.dest = pclass)) member (by simpa using hit)
          have few : w.connections s pclass
              = sig.nodes.countP (fun node => node.value.dest = pclass) := by
            simp [connections, present]
          have removed
              : w.disconnect s pclass
                = (w.modifySignal s (fun sig => sig.erase it.id)).modifyReceiver pclass
                    (fun self => self.doSignalDisconnect s) := by
            simp [disconnect, present, found]
          have linked (other : SignalId) (r : ReceiverId)
              : (w.disconnect s pclass).Linked other r
                ↔ (other = s ∧ ∃ node ∈ sig.nodes, node ≠ it ∧ node.value.dest = r)
                  ∨ (other ≠ s ∧ w.Linked other r) := by
            rw [removed]
            unfold Linked
            rw [modifyReceiver_signals, modifySignal_signals]
            by_cases same : other = s
            · simp [same, present, mem_erase_nodes distinct member, and_assoc]
            · simp [same]
          have knows (r : ReceiverId) (other : SignalId)
              : (w.disconnect s pclass).Knows r other
                ↔ w.Linked other r ∧ ¬ (r = pclass ∧ other = s) := by
            rw [removed, knows_signalDisconnect, ← (symmetric_iff w).mp h r other]
            exact Iff.rfl
          rw [few, alone, symmetric_iff]
          constructor
          · -- A second connection would be one that the receiver does not know of.
            intro agree ⟨node, other, different, dest⟩
            have kept := (linked s pclass).mpr
              (Or.inl ⟨rfl, node, other, different, by simpa using dest⟩)
            exact ((knows pclass s).mp ((agree pclass s).mpr kept)).2 ⟨rfl, rfl⟩
          · intro only r other
            rw [knows, linked]
            by_cases same : other = s
            · subst same
              simp only [true_and, ne_eq, not_true_eq_false, false_and, or_false, and_true]
              constructor
              · intro ⟨⟨sig', present', node, nodeMember, dest⟩, different⟩
                rw [present] at present'
                obtain rfl := Option.some.inj present'
                refine ⟨node, nodeMember, fun isIt => different ?_, dest⟩
                rw [← dest, isIt, hit]
              · intro ⟨node, nodeMember, different, dest⟩
                refine ⟨⟨sig, present, node, nodeMember, dest⟩, fun isTarget => only ?_⟩
                exact ⟨node, nodeMember, different, by simp [dest, isTarget]⟩
            · simp [same]

/-- The receivers told by `disconnect_all` are those of the unlinked nodes, by induction on the
nodes.
-/
theorem knows_foldl_popFront (s : SignalId) (nodes : List (Node (Connection Method)))
    (w : World Method) (r : ReceiverId) (other : SignalId)
    : (nodes.foldl
          (fun w front =>
            (w.modifySignal s IterList.popFront).modifyReceiver front.value.dest
              (fun self => self.doSignalDisconnect s)) w).Knows r other
      ↔ w.Knows r other ∧ ¬ (other = s ∧ ∃ node ∈ nodes, node.value.dest = r) := by
  induction nodes generalizing w with
  | nil => simp
  | cons front rest ih =>
      rw [List.foldl_cons, ih, knows_signalDisconnect, knows_modifySignal,
        List.exists_mem_cons_iff, and_assoc]
      refine and_congr Iff.rfl ?_
      rw [and_or_left, not_or]
      refine and_congr (not_congr ?_) Iff.rfl
      rw [and_comm]
      exact and_congr Iff.rfl eq_comm

/-- `disconnect_all` of a signal removes it from both sides. -/
theorem symmetric_disconnectAll {w : World Method} (h : w.Symmetric) (s : SignalId)
    : (w.disconnectAll s).Symmetric := by
  have agree := (symmetric_iff w).mp h
  rw [symmetric_iff]
  intro r other
  have knows : (w.disconnectAll s).Knows r other
      ↔ w.Knows r other ∧ ¬ (other = s ∧ w.Linked s r) := by
    unfold disconnectAll Linked
    cases present : w.signals s with
    | none => simp
    | some sig =>
        have told := knows_foldl_popFront s sig.nodes w r other
        simpa using told
  have linked : (w.disconnectAll s).Linked other r ↔ other ≠ s ∧ w.Linked other r := by
    unfold Linked
    rw [(disconnectAll_signals w s).1, Function.update_apply]
    by_cases same : other = s
    · simp [same, IterList.empty]
    · simp [same]
  rw [knows, linked, agree r other]
  constructor
  · rintro ⟨connected, others⟩
    exact ⟨fun same => others ⟨same, same ▸ connected⟩, connected⟩
  · rintro ⟨different, connected⟩
    exact ⟨connected, fun both => different both.1⟩

/-- What is left after erasing every connection to a receiver, by induction on the nodes. -/
theorem mem_eraseAll (pslot : ReceiverId) (nodes : List (Node (Connection Method)))
    (sig : SignalBase Method) (node : Node (Connection Method))
    : node ∈ (nodes.foldl
          (fun self it => if it.value.dest = pslot then self.erase it.id else self) sig).nodes
      ↔ node ∈ sig.nodes ∧ ∀ it ∈ nodes, it.value.dest = pslot → it.id ≠ node.id := by
  induction nodes generalizing sig with
  | nil => simp
  | cons it rest ih =>
      rw [List.foldl_cons, ih]
      split_ifs with hit
      · simp only [erase, List.mem_filter, List.forall_mem_cons, hit, forall_const]
        simp only [ne_eq, decide_not, Bool.not_eq_true', decide_eq_false_iff_not, and_assoc]
        exact and_congr Iff.rfl (and_congr (not_congr eq_comm) Iff.rfl)
      · simp [hit]

/-- `do_slot_disconnect` removes the pair from the signal's side. -/
theorem linked_slotDisconnect {w : World Method} (wellFormed : w.WellFormed)
    (told other : SignalId) (pslot r : ReceiverId)
    : (w.slotDisconnect told pslot).Linked other r
      ↔ w.Linked other r ∧ ¬ (other = told ∧ r = pslot) := by
  unfold Linked slotDisconnect
  rw [modifySignal_signals]
  by_cases same : other = told
  · subst same
    cases present : w.signals other with
    | none => simp
    | some sig =>
        have distinct := (wellFormed other sig present).distinct
        simp only [if_true, Option.map_some, Option.some.injEq, exists_eq_left', mem_eraseAll,
          true_and]
        constructor
        · intro ⟨node, ⟨member, spared⟩, dest⟩
          refine ⟨⟨node, member, dest⟩, ?_⟩
          rintro rfl
          exact spared node member dest rfl
        · intro ⟨⟨node, member, dest⟩, different⟩
          refine ⟨node, ⟨member, ?_⟩, dest⟩
          intro it present' hit sameId
          have sameNode := List.inj_on_of_nodup_map distinct present' member sameId
          exact different (by rw [← dest, ← sameNode, hit])
  · simp [same]

/-- Telling all senders of a receiver to disconnect it, by induction on the senders. -/
theorem linked_foldl_slotDisconnect (p : ReceiverId) (senders : List SignalId)
    {w : World Method} (wellFormed : w.WellFormed) (other : SignalId) (r : ReceiverId)
    : (senders.foldl (fun w s => w.slotDisconnect s p) w).Linked other r
      ↔ w.Linked other r ∧ ¬ (r = p ∧ other ∈ senders) := by
  induction senders generalizing w with
  | nil => simp
  | cons sender rest ih =>
      have evolved : Evolves none w (w.slotDisconnect sender p) :=
        evolves_slotDisconnect w sender p
      rw [List.foldl_cons, ih (wellFormed.evolves evolved),
        linked_slotDisconnect wellFormed, and_assoc, List.mem_cons]
      refine and_congr Iff.rfl ?_
      rw [and_comm (a := other = sender), ← not_or, ← and_or_left]

theorem receivers_foldl_slotDisconnect (p : ReceiverId) (senders : List SignalId)
    (w : World Method)
    : (senders.foldl (fun w s => w.slotDisconnect s p) w).receivers = w.receivers := by
  induction senders generalizing w with
  | nil => rfl
  | cons sender rest ih =>
      rw [List.foldl_cons, ih]
      rfl

/-- `disconnect_all` of a receiver removes it from both sides, since its senders are all the
signals that have a connection to it.
-/
theorem doDisconnectAll_agrees {w : World Method} (h : w.Symmetric) (wellFormed : w.WellFormed)
    (p r : ReceiverId) (s : SignalId)
    : ((w.doDisconnectAll p).Knows r s ↔ w.Linked s r ∧ r ≠ p)
      ∧ ((w.doDisconnectAll p).Linked s r ↔ w.Linked s r ∧ r ≠ p) := by
  have agree := (symmetric_iff w).mp h
  unfold doDisconnectAll
  cases present : w.receivers p with
  | none =>
      have unlinked (linked : w.Linked s r) : r ≠ p := by
        rintro rfl
        exact h.destroyed r present s linked
      rw [agree r s]
      exact ⟨⟨fun linked => ⟨linked, unlinked linked⟩, And.left⟩,
        ⟨fun linked => ⟨linked, unlinked linked⟩, And.left⟩⟩
  | some self =>
      have emptied : (w.modifyReceiver p (fun self => { self with senders := [] })).WellFormed :=
        wellFormed.evolves (evolves_modifyReceiver w p _ : Evolves none _ _)
      constructor
      · unfold Knows
        dsimp only
        rw [receivers_foldl_slotDisconnect, modifyReceiver_receivers, ← agree r s]
        by_cases same : r = p
        · simp [same, present]
        · simp [same, Knows]
      · dsimp only
        rw [linked_foldl_slotDisconnect p self.senders emptied, linked_modifyReceiver]
        refine and_congr_right (fun linked => not_congr ?_)
        constructor
        · exact And.left
        · rintro rfl
          exact ⟨rfl, (h.senders r self present s).mpr linked⟩

/-- Copying the connections to an old target, by induction on the nodes. -/
theorem linked_foldl_duplicate (told : SignalId) (oldtarget newtarget : ReceiverId)
    (nodes : List (Node (Connection Method))) {w : World Method}
    (alive : (w.signals told).isSome = true) (other : SignalId) (r : ReceiverId)
    : (nodes.foldl
          (fun w it =>
            if it.value.dest = oldtarget then w.pushBack told (it.value.duplicate newtarget)
            else w) w).Linked other r
      ↔ w.Linked other r
        ∨ (other = told ∧ r = newtarget ∧ ∃ it ∈ nodes, it.value.dest = oldtarget) := by
  induction nodes generalizing w with
  | nil => simp
  | cons it rest ih =>
      rw [List.foldl_cons, List.exists_mem_cons_iff]
      split_ifs with hit
      · have pushed := (evolves_pushBack w told (it.value.duplicate newtarget)
          : Evolves none _ _).alive told (by simp) alive
        rw [ih pushed, linked_pushBack]
        simp only [Connection.duplicate, alive, and_true, hit, true_or]
        -- the nodes that remain can only add the connection that this one added
        rw [or_assoc]
        exact or_congr_right (or_iff_left_of_imp fun later => ⟨later.1, later.2.1⟩)
      · rw [ih alive]
        simp [hit]

theorem knows_foldl_duplicate (told : SignalId) (oldtarget newtarget : ReceiverId)
    (nodes : List (Node (Connection Method))) (w : World Method)
    : (nodes.foldl
          (fun w it =>
            if it.value.dest = oldtarget then w.pushBack told (it.value.duplicate newtarget)
            else w) w).receivers = w.receivers := by
  induction nodes generalizing w with
  | nil => rfl
  | cons it rest ih =>
      rw [List.foldl_cons, ih]
      split_ifs <;> rfl

/-- `do_slot_duplicate` links the new target wherever the old one is linked. -/
theorem linked_slotDuplicate (w : World Method) (told other : SignalId)
    (oldtarget newtarget r : ReceiverId)
    : (w.slotDuplicate told oldtarget newtarget).Linked other r
      ↔ w.Linked other r ∨ (other = told ∧ r = newtarget ∧ w.Linked told oldtarget) := by
  cases present : w.signals told with
  | none => simp [slotDuplicate, Linked, present]
  | some sig =>
      have alive : (w.signals told).isSome = true := by simp [present]
      have copies := linked_foldl_duplicate told oldtarget newtarget sig.nodes alive other r
      have target : w.Linked told oldtarget ↔ ∃ it ∈ sig.nodes, it.value.dest = oldtarget := by
        simp [Linked, present]
      rw [target]
      simpa [slotDuplicate, present] using copies

theorem slotDuplicate_receivers (w : World Method) (told : SignalId)
    (oldtarget newtarget : ReceiverId)
    : (w.slotDuplicate told oldtarget newtarget).receivers = w.receivers := by
  unfold slotDuplicate
  split
  · rfl
  · exact knows_foldl_duplicate told oldtarget newtarget _ w

/-- A new receiver knows no signal. -/
theorem knows_createReceiver {w : World Method} {new : ReceiverId} (free : w.receivers new = none)
    (r : ReceiverId) (s : SignalId)
    : ({ w with receivers := Function.update w.receivers new (some {}) }
        : World Method).Knows r s ↔ w.Knows r s := by
  unfold Knows
  dsimp only
  rw [Function.update_apply]
  by_cases same : r = new
  · simp [same, free]
  · simp [same]

/-- A new signal has no connections. -/
theorem linked_createSignal {w : World Method} {new : SignalId} (free : w.signals new = none)
    (r : ReceiverId) (s : SignalId)
    : ({ w with signals := Function.update w.signals new (some IterList.empty) }
        : World Method).Linked s r ↔ w.Linked s r := by
  unfold Linked
  dsimp only
  rw [Function.update_apply]
  by_cases same : s = new
  · simp [same, free, IterList.empty]
  · simp [same]

/-- The loop of the copy constructor of `HasSlots`, by induction on the senders. -/
theorem foldl_copyReceiver {o new : ReceiverId} (different : new ≠ o) (senders : List SignalId)
    {w : World Method} (alive : (w.receivers new).isSome = true) (r : ReceiverId) (s : SignalId)
    : ((senders.foldl
            (fun w sender =>
              (w.slotDuplicate sender o new).modifyReceiver new
                (fun self => self.doSignalConnect sender)) w).Knows r s
        ↔ w.Knows r s ∨ (r = new ∧ s ∈ senders))
      ∧ ((senders.foldl
            (fun w sender =>
              (w.slotDuplicate sender o new).modifyReceiver new
                (fun self => self.doSignalConnect sender)) w).Linked s r
        ↔ w.Linked s r ∨ (r = new ∧ s ∈ senders ∧ w.Linked s o)) := by
  induction senders generalizing w with
  | nil => simp
  | cons sender rest ih =>
      have receivers := slotDuplicate_receivers w sender o new
      have still
          : ((((w.slotDuplicate sender o new).modifyReceiver new
              (fun self => self.doSignalConnect sender)).receivers new).isSome = true) := by
        simp [receivers, alive]
      have knows : (w.slotDuplicate sender o new).Knows r s ↔ w.Knows r s := by
        unfold Knows
        rw [receivers]
      obtain ⟨knowsRest, linkedRest⟩ := ih still
      rw [List.foldl_cons, knowsRest, linkedRest, knows_signalConnect, knows, receivers,
        linked_modifyReceiver, linked_modifyReceiver, linked_slotDuplicate,
        linked_slotDuplicate, List.mem_cons]
      simp only [alive, and_true, different.symm, false_and, and_false, or_false]
      constructor
      · rw [or_assoc, ← and_or_left]
      · constructor
        · intro either
          rcases either with (old | ⟨rfl, isNew, linked⟩) | ⟨isNew, member, linked⟩
          · exact Or.inl old
          · exact Or.inr ⟨isNew, Or.inl rfl, linked⟩
          · exact Or.inr ⟨isNew, Or.inr member, linked⟩
        · intro either
          rcases either with old | ⟨isNew, rfl | member, linked⟩
          · exact Or.inl (Or.inl old)
          · exact Or.inl (Or.inr ⟨rfl, isNew, linked⟩)
          · exact Or.inr ⟨isNew, member, linked⟩

/-- A copied receiver is linked by the senders of the original, and knows them. -/
theorem symmetric_copyReceiver {w : World Method} (h : w.Symmetric) {o new : ReceiverId}
    (free : w.receivers new = none)
    : (w.copyReceiver o new).Symmetric := by
  have agree := (symmetric_iff w).mp h
  unfold copyReceiver
  cases present : w.receivers o with
  | none => exact h
  | some self =>
      have different : new ≠ o := by
        rintro rfl
        simp [free] at present
      rw [symmetric_iff]
      intro r s
      have alive
          : (({ w with receivers := Function.update w.receivers new (some {}) }
              : World Method).receivers new).isSome = true := by
        simp
      obtain ⟨knows, linked⟩ := foldl_copyReceiver different self.senders alive r s
      have before := knows_createReceiver free r s
      have unchanged (target : ReceiverId)
          : ({ w with receivers := Function.update w.receivers new (some {}) }
              : World Method).Linked s target ↔ w.Linked s target := Iff.rfl
      dsimp only
      rw [knows, linked, before, unchanged, unchanged, agree r s, h.senders o self present s,
        and_self]

/-- The loop of the copy constructor of `_SignalBase`, by induction on the nodes. -/
theorem foldl_copySignal (new : SignalId) (nodes : List (Node (Connection Method)))
    {w : World Method} (alive : (w.signals new).isSome = true) (r : ReceiverId) (s : SignalId)
    : ((nodes.foldl
            (fun w connection =>
              (w.modifyReceiver connection.value.dest
                (fun self => self.doSignalConnect new)).pushBack new connection.value) w).Knows r s
        ↔ w.Knows r s
          ∨ (s = new ∧ (w.receivers r).isSome = true ∧ ∃ node ∈ nodes, node.value.dest = r))
      ∧ ((nodes.foldl
            (fun w connection =>
              (w.modifyReceiver connection.value.dest
                (fun self => self.doSignalConnect new)).pushBack new connection.value) w).Linked s r
        ↔ w.Linked s r ∨ (s = new ∧ ∃ node ∈ nodes, node.value.dest = r)) := by
  induction nodes generalizing w with
  | nil => simp
  | cons connection rest ih =>
      have still
          : ((((w.modifyReceiver connection.value.dest
              (fun self => self.doSignalConnect new)).pushBack new
                connection.value).signals new).isSome = true) := by
        simp [alive]
      have sameAlive
          : ((((w.modifyReceiver connection.value.dest
              (fun self => self.doSignalConnect new)).pushBack new
                connection.value).receivers r).isSome = true)
            ↔ (w.receivers r).isSome = true := by
        by_cases same : r = connection.value.dest
        · simp [same]
        · simp [same]
      obtain ⟨knowsRest, linkedRest⟩ := ih still
      rw [List.foldl_cons, knowsRest, linkedRest, sameAlive, knows_pushBack,
        knows_signalConnect, linked_pushBack, linked_modifyReceiver, modifyReceiver_signals,
        List.exists_mem_cons_iff]
      constructor
      · constructor
        · intro either
          rcases either with (old | ⟨rfl, isNew, told⟩) | ⟨isNew, told, later⟩
          · exact Or.inl old
          · exact Or.inr ⟨isNew, told, Or.inl rfl⟩
          · exact Or.inr ⟨isNew, told, Or.inr later⟩
        · intro either
          rcases either with old | ⟨isNew, told, rfl | later⟩
          · exact Or.inl (Or.inl old)
          · exact Or.inl (Or.inr ⟨rfl, isNew, told⟩)
          · exact Or.inr ⟨isNew, told, later⟩
      · constructor
        · intro either
          rcases either with (old | ⟨isNew, rfl, -⟩) | ⟨isNew, later⟩
          · exact Or.inl old
          · exact Or.inr ⟨isNew, Or.inl rfl⟩
          · exact Or.inr ⟨isNew, Or.inr later⟩
        · intro either
          rcases either with old | ⟨isNew, rfl | later⟩
          · exact Or.inl (Or.inl old)
          · exact Or.inl (Or.inr ⟨isNew, rfl, alive⟩)
          · exact Or.inr ⟨isNew, later⟩

/-- A copied signal links the receivers of the original, and they know it. -/
theorem symmetric_copySignal {w : World Method} (h : w.Symmetric) {o new : SignalId}
    (free : w.signals new = none)
    : (w.copySignal o new).Symmetric := by
  have agree := (symmetric_iff w).mp h
  unfold copySignal
  cases present : w.signals o with
  | none => exact h
  | some sig =>
      rw [symmetric_iff]
      intro r s
      have alive
          : (({ w with signals := Function.update w.signals new (some IterList.empty) }
              : World Method).signals new).isSome = true := by
        simp
      obtain ⟨knows, linked⟩ := foldl_copySignal new sig.nodes alive r s
      have before := linked_createSignal free r s
      have unchanged
          : ({ w with signals := Function.update w.signals new (some IterList.empty) }
              : World Method).Knows r s ↔ w.Knows r s := Iff.rfl
      -- The receivers of the original's connections are alive, so all of them are told.
      have toldAlive (member : ∃ node ∈ sig.nodes, node.value.dest = r)
          : (w.receivers r).isSome = true := by
        obtain ⟨self, found, -⟩ := (agree r o).mpr ⟨sig, present, member⟩
        simp [found]
      dsimp only
      rw [knows, linked, before, unchanged, agree r s]
      constructor
      · intro either
        rcases either with old | ⟨isNew, -, member⟩
        · exact Or.inl old
        · exact Or.inr ⟨isNew, member⟩
      · intro either
        rcases either with old | ⟨isNew, member⟩
        · exact Or.inl old
        · exact Or.inr ⟨isNew, toldAlive member, member⟩

/-- A destroyed signal is gone from both sides. -/
theorem symmetric_destroySignal {w : World Method} (h : w.Symmetric) (s : SignalId)
    : (w.destroySignal s).Symmetric := by
  have agree := (symmetric_iff _).mp (symmetric_disconnectAll h s)
  rw [symmetric_iff]
  intro r other
  have sameKnows : (w.destroySignal s).Knows r other ↔ (w.disconnectAll s).Knows r other :=
    Iff.rfl
  have sameLinked
      : (w.destroySignal s).Linked other r ↔ (w.disconnectAll s).Linked other r := by
    unfold Linked destroySignal
    dsimp only
    rw [(disconnectAll_signals w s).1, Function.update_apply]
    by_cases same : other = s
    · simp [same, IterList.empty]
    · simp [same]
  rw [sameKnows, sameLinked, agree r other]

/-- A destroyed receiver is gone from both sides. -/
theorem symmetric_destroyReceiver {w : World Method} (h : w.Symmetric)
    (wellFormed : w.WellFormed) (p : ReceiverId)
    : (w.destroyReceiver p).Symmetric := by
  rw [symmetric_iff]
  intro r s
  obtain ⟨knows, linked⟩ := doDisconnectAll_agrees h wellFormed p r s
  have sameKnows
      : (w.destroyReceiver p).Knows r s ↔ r ≠ p ∧ (w.doDisconnectAll p).Knows r s := by
    unfold Knows destroyReceiver
    dsimp only
    rw [Function.update_apply]
    by_cases same : r = p
    · simp [same]
    · simp [same]
  have sameLinked : (w.destroyReceiver p).Linked s r ↔ (w.doDisconnectAll p).Linked s r :=
    Iff.rfl
  rw [sameKnows, sameLinked, knows, linked]
  constructor
  · exact And.right
  · exact fun both => ⟨both.2, both⟩

/-- A new receiver is linked by nobody and knows nobody. -/
theorem symmetric_createReceiver {w : World Method} (h : w.Symmetric) {new : ReceiverId}
    (free : w.receivers new = none)
    : ({ w with receivers := Function.update w.receivers new (some {}) }
        : World Method).Symmetric := by
  have agree := (symmetric_iff w).mp h
  rw [symmetric_iff]
  intro r s
  have unchanged
      : ({ w with receivers := Function.update w.receivers new (some {}) }
          : World Method).Linked s r ↔ w.Linked s r := Iff.rfl
  rw [unchanged, ← agree r s]
  exact knows_createReceiver free r s

/-- A new signal has no connections, and nobody knows it. -/
theorem symmetric_createSignal {w : World Method} (h : w.Symmetric) {new : SignalId}
    (free : w.signals new = none)
    : ({ w with signals := Function.update w.signals new (some IterList.empty) }
        : World Method).Symmetric := by
  have agree := (symmetric_iff w).mp h
  rw [symmetric_iff]
  intro r s
  have unchanged
      : ({ w with signals := Function.update w.signals new (some IterList.empty) }
          : World Method).Knows r s ↔ w.Knows r s := Iff.rfl
  rw [unchanged, agree r s]
  exact (linked_createSignal free r s).symm

-----------------------------------------------------------------------------------------
-- Runs
-----------------------------------------------------------------------------------------

/-- `disconnect` is called only where the receiver has at most one connection to the signal. -/
def DisconnectsLast (w : World Method) : Op Method → Prop
  | .disconnect s pclass => w.connections s pclass ≤ 1
  | _ => True

/-- One operation keeps the symmetry exactly when it is no `disconnect` of one connection among
several, by the cases of the operation.
-/
theorem symmetric_step_iff {w : World Method} (h : w.Symmetric) (wellFormed : w.WellFormed)
    (op : Op Method)
    : (w.step op).Symmetric ↔ w.DisconnectsLast op := by
  cases op with
  | disconnect s pclass => exact symmetric_disconnect_iff h wellFormed s pclass
  | createSignal s =>
      refine iff_of_true ?_ trivial
      simp only [step]
      split_ifs with alive
      · exact h
      · exact symmetric_createSignal h (by simpa using alive)
  | createReceiver r =>
      refine iff_of_true ?_ trivial
      simp only [step]
      split_ifs with alive
      · exact h
      · exact symmetric_createReceiver h (by simpa using alive)
  | connect s pclass pmemfun =>
      refine iff_of_true ?_ trivial
      simp only [step]
      split_ifs with alive
      · exact symmetric_connect h pmemfun alive.1 alive.2
      · exact h
  | disconnectAll s => exact iff_of_true (symmetric_disconnectAll h s) trivial
  | doDisconnectAll p =>
      refine iff_of_true ((symmetric_iff _).mpr ?_) trivial
      intro r s
      obtain ⟨knows, linked⟩ := doDisconnectAll_agrees h wellFormed p r s
      exact knows.trans linked.symm
  | copySignal o new =>
      refine iff_of_true ?_ trivial
      simp only [step]
      split_ifs with alive
      · exact h
      · exact symmetric_copySignal h (by simpa using alive)
  | copyReceiver o new =>
      refine iff_of_true ?_ trivial
      simp only [step]
      split_ifs with alive
      · exact h
      · exact symmetric_copyReceiver h (by simpa using alive)
  | destroySignal s => exact iff_of_true (symmetric_destroySignal h s) trivial
  | destroyReceiver p => exact iff_of_true (symmetric_destroyReceiver h wellFormed p) trivial

end World

/-- A run keeps the two sides of the connection relation symmetric in every state it passes
through if and only if each `disconnect` in it is called on a receiver with at most one
connection to that signal.
-/
theorem symmetric_throughout_iff (ops : List (Op Method))
    : (∀ reached, reached <+: ops → (World.run reached).Symmetric)
      ↔ Along World.step World.DisconnectsLast {} ops := by
  have empty : ({} : World Method).Symmetric := by
    rw [World.symmetric_iff]
    simp [World.Knows, World.Linked]
  have whole := @forall_prefix_iff_along _ _ World.step World.Symmetric ({} : World Method) ops
  refine whole.trans ((and_iff_right empty).trans ?_)
  have agree
      : ∀ (w : World Method) (op : Op Method),
          w.Symmetric ∧ w.WellFormed
          → ((w.step op).Symmetric ↔ w.DisconnectsLast op) :=
    fun w op invariant => World.symmetric_step_iff invariant.1 invariant.2 op
  refine along_congr ?_ agree ⟨empty, World.wellFormed_empty_world⟩ ops
  exact fun w op invariant kept => ⟨kept, invariant.2.step op⟩

/-- One receiver connected twice to one signal, disconnected once, and destroyed. -/
def connectsTwice : List (Op Unit) :=
  [.createSignal 0, .createReceiver 0, .connect 0 0 (), .connect 0 0 (), .disconnect 0 0,
    .destroyReceiver 0]

/-- After that run the receiver is gone and the signal still has a connection to it. -/
theorem connectsTwice_dangles
    : (World.run connectsTwice).receivers 0 = none
      ∧ (World.run connectsTwice).Linked 0 0
      ∧ ¬ ∀ reached, reached <+: connectsTwice → (World.run reached).Symmetric := by
  have gone : (World.run connectsTwice).receivers 0 = none := rfl
  have linked : (World.run connectsTwice).Linked 0 0 :=
    ⟨_, rfl, ⟨1, ⟨0, ()⟩⟩, List.mem_singleton_self _, rfl⟩
  refine ⟨gone, linked, ?_⟩
  intro always
  exact (always connectsTwice (List.prefix_refl _)).destroyed 0 gone 0 linked

end RtcBase.Sigslot
