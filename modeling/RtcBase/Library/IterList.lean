import Mathlib.Data.List.Nodup
import Mathlib.Data.List.Basic

/-! A doubly linked list with one registered iterator, as far as its users can tell: nodes have
identities that outlive every other change of the list, the iterator designates a node or the
end, and erasing the designated node moves the iterator on. What an iteration visits while the
list is edited under it is the subject of the second half.
-/

namespace RtcBase.Library

variable {α : Type*}

/-- A list node: its identity and the value stored in it. -/
structure Node (α : Type*) where
  id : Nat
  value : α

/-- The nodes in order, and the node that the iterator designates; `none` is the end. -/
structure IterList (α : Type*) where
  nodes : List (Node α)
  current : Option Nat

/-- The identity of the node behind the given one. -/
def successor : List (Node α) → Nat → Option Nat
  | [], _ => none
  | node :: rest, id =>
      if node.id = id then rest.head?.map Node.id else successor rest id

namespace IterList

/-- No nodes, and the iterator at the end. -/
def empty : IterList α := ⟨[], none⟩

/-- The identities of the nodes, in order. -/
def ids (l : IterList α) : List Nat := l.nodes.map Node.id

/-- Set the iterator to the first node. -/
def begin (l : IterList α) : IterList α :=
  { l with current := l.nodes.head?.map Node.id }

/-- The node that the iterator designates, unless it is at the end or dangling. -/
def deref (l : IterList α) : Option (Node α) :=
  l.current.bind (fun id => l.nodes.find? (fun node => node.id = id))

/-- Move the iterator to the next node. -/
def advance (l : IterList α) : IterList α :=
  { l with current := l.current.bind (successor l.nodes) }

/-- Append a node. An iterator at the end stays at the end. -/
def pushBack (l : IterList α) (node : Node α) : IterList α :=
  { l with nodes := l.nodes ++ [node] }

/-- Erase a node; an iterator that designates it moves on to its successor. -/
def erase (l : IterList α) (id : Nat) : IterList α where
  nodes := l.nodes.filter (fun node => node.id ≠ id)
  current := if l.current = some id then successor l.nodes id else l.current

/-- Unlink the first node and leave the iterator alone. -/
def popFront (l : IterList α) : IterList α :=
  { l with nodes := l.nodes.tail }

/-- Set the iterator to the end. -/
def toEnd (l : IterList α) : IterList α :=
  { l with current := none }

/-- The nodes that the iterator has passed, and those from the designated one on. -/
structure Split (l : IterList α) (passed pending : List (Node α)) : Prop where
  nodes : l.nodes = passed ++ pending
  current : l.current = pending.head?.map Node.id

/-- The iterator of a split list is at the end exactly when nothing is pending. -/
theorem Split.current_eq_none {l : IterList α} {passed pending : List (Node α)}
    (h : l.Split passed pending)
    : l.current = none ↔ pending = [] := by
  rw [h.current]
  cases pending <;> simp

/-- The iterator of a split list designates one of its nodes, or the end. -/
theorem Split.live {l : IterList α} {passed pending : List (Node α)} (h : l.Split passed pending)
    : ∀ id, l.current = some id → id ∈ l.ids := by
  intro id designated
  cases pending with
  | nil => simp [h.current] at designated
  | cons node rest =>
      have same : node.id = id := by simpa [h.current] using designated
      simp [ids, h.nodes, same]

/-- Behind nodes of other identities, the successor is found after the node itself, by induction
on those nodes.
-/
theorem successor_append {passed rest : List (Node α)} {node : Node α}
    (absent : ∀ other ∈ passed, other.id ≠ node.id)
    : successor (passed ++ node :: rest) node.id = rest.head?.map Node.id := by
  induction passed with
  | nil => simp [successor]
  | cons other later ih =>
      obtain ⟨head, tail⟩ := List.forall_mem_cons.mp absent
      simpa [successor, head] using ih tail

/-- Where identities are distinct, none of the nodes passed has the identity of a pending one. -/
theorem Split.absent {l : IterList α} {passed rest : List (Node α)} {node : Node α}
    (h : l.Split passed (node :: rest)) (distinct : l.ids.Nodup)
    : (∀ other ∈ passed, other.id ≠ node.id) ∧ ∀ other ∈ rest, other.id ≠ node.id := by
  rw [ids, h.nodes, List.map_append, List.map_cons, List.nodup_append, List.nodup_cons] at distinct
  obtain ⟨-, ⟨notLater, -⟩, disjoint⟩ := distinct
  constructor
  · intro other member
    exact disjoint other.id (List.mem_map_of_mem member) node.id (List.mem_cons_self)
  · intro other member same
    exact notLater (same ▸ List.mem_map_of_mem member)

theorem begin_split (l : IterList α) : l.begin.Split [] l.nodes := ⟨rfl, rfl⟩

/-- What the iterator designates is a node of the list. -/
theorem deref_mem {l : IterList α} {node : Node α} (designated : node ∈ l.deref)
    : node ∈ l.nodes := by
  obtain ⟨id, -, found⟩ := Option.bind_eq_some_iff.mp designated
  exact List.mem_of_find?_eq_some found

/-- Set to the beginning, the iterator designates the first node. -/
@[simp] theorem begin_deref (l : IterList α) : l.begin.deref = l.nodes.head? := by
  cases nodes : l.nodes <;> simp [begin, deref, nodes]

theorem empty_split : (empty : IterList α).Split [] [] := ⟨rfl, rfl⟩

/-- The designated node of a split list is its first pending one. -/
theorem Split.deref {l : IterList α} {passed rest : List (Node α)} {node : Node α}
    (h : l.Split passed (node :: rest)) (distinct : l.ids.Nodup)
    : l.deref = some node := by
  obtain ⟨absent, -⟩ := h.absent distinct
  have skipped : passed.find? (fun other => other.id = node.id) = none := by
    rw [List.find?_eq_none]
    intro other member
    simpa using absent other member
  simp [IterList.deref, h.current, h.nodes, List.find?_append, skipped]

/-- Advancing passes the designated node. -/
theorem Split.advance {l : IterList α} {passed rest : List (Node α)} {node : Node α}
    (h : l.Split passed (node :: rest)) (distinct : l.ids.Nodup)
    : l.advance.Split (passed ++ [node]) rest := by
  refine ⟨by simp [IterList.advance, h.nodes], ?_⟩
  have next := @successor_append _ passed rest node (h.absent distinct).1
  simpa [IterList.advance, h.current, h.nodes] using next

/-- A node pushed back is pending, unless the iterator is at the end already. -/
theorem Split.pushBack {l : IterList α} {passed pending : List (Node α)}
    (h : l.Split passed pending) (node : Node α)
    : (pending = [] ∧ (l.pushBack node).Split (passed ++ [node]) [])
      ∨ (pending ≠ [] ∧ (l.pushBack node).Split passed (pending ++ [node])) := by
  cases pending with
  | nil =>
      refine Or.inl ⟨rfl, ?_, ?_⟩
      · simp [IterList.pushBack, h.nodes]
      · simp [IterList.pushBack, h.current]
  | cons first rest =>
      refine Or.inr ⟨by simp, ?_, ?_⟩
      · simp [IterList.pushBack, h.nodes]
      · simp [IterList.pushBack, h.current]

/-- Erasing a node erases it from both parts. -/
theorem Split.erase {l : IterList α} {passed pending : List (Node α)} (h : l.Split passed pending)
    (distinct : l.ids.Nodup) (id : Nat)
    : (l.erase id).Split (passed.filter (fun node => node.id ≠ id))
        (pending.filter (fun node => node.id ≠ id)) := by
  refine ⟨by simp [IterList.erase, h.nodes], ?_⟩
  cases pending with
  | nil => simp [IterList.erase, h.current]
  | cons node rest =>
      have notLater : rest.filter (fun other => other.id ≠ node.id) = rest := by
        rw [List.filter_eq_self]
        intro other member
        simpa using (h.absent distinct).2 other member
      by_cases same : node.id = id
      · subst same
        have next := @successor_append _ passed rest node (h.absent distinct).1
        rw [List.filter_cons_of_neg (by simp), notLater]
        simpa [IterList.erase, h.current, h.nodes] using next
      · rw [List.filter_cons_of_pos (by simpa using same)]
        simp [IterList.erase, h.current, same]

@[simp] theorem ids_begin (l : IterList α) : l.begin.ids = l.ids := rfl

@[simp] theorem ids_advance (l : IterList α) : l.advance.ids = l.ids := rfl

@[simp] theorem ids_empty : (empty : IterList α).ids = [] := rfl

@[simp] theorem ids_pushBack (l : IterList α) (node : Node α)
    : (l.pushBack node).ids = l.ids ++ [node.id] := by
  simp [ids, pushBack]

@[simp] theorem ids_erase (l : IterList α) (id : Nat)
    : (l.erase id).ids = l.ids.filter (fun other => other ≠ id) := by
  simp [ids, erase, List.filter_map, Function.comp_def]

-----------------------------------------------------------------------------------------
-- Edits
-----------------------------------------------------------------------------------------

/-- What may happen to the list between two looks at it. Identities below the bound have been
used, a pushed node takes one that has not.
-/
inductive Edits (bound : Nat) (l : IterList α) : Nat → IterList α → Prop where
  | refl {later : Nat} (grows : bound ≤ later) : Edits bound l later l
  | pushBack {middle later : Nat} {l' : IterList α} (earlier : Edits bound l middle l')
    (node : Node α) (unused : middle ≤ node.id) (used : node.id < later)
    : Edits bound l later (l'.pushBack node)
  | erase {later : Nat} {l' : IterList α} (earlier : Edits bound l later l') (id : Nat)
    : Edits bound l later (l'.erase id)
  | clear {later : Nat} {l' : IterList α} (earlier : Edits bound l later l')
    : Edits bound l later empty

/-- The bound only grows. -/
theorem Edits.bound_le {bound later : Nat} {l l' : IterList α} (h : Edits bound l later l')
    : bound ≤ later := by
  induction h with
  | refl grows => exact grows
  | pushBack _ _ unused used ih => omega
  | erase _ _ ih => exact ih
  | clear _ ih => exact ih

/-- Edits with a larger bound at the end are edits still. -/
theorem Edits.mono {bound later last : Nat} {l l' : IterList α} (h : Edits bound l later l')
    (grows : later ≤ last)
    : Edits bound l last l' := by
  induction h with
  | refl starts => exact .refl (Nat.le_trans starts grows)
  | pushBack earlier node unused used _ => exact .pushBack earlier node unused (by omega)
  | erase _ id ih => exact .erase (ih grows) id
  | clear _ ih => exact .clear (ih grows)

/-- Edits compose, by induction on the later ones. -/
theorem Edits.trans {bound middle later : Nat} {l l' l'' : IterList α}
    (h : Edits bound l middle l') (next : Edits middle l' later l'')
    : Edits bound l later l'' := by
  induction next with
  | refl grows => exact h.mono grows
  | pushBack _ node unused used ih => exact .pushBack ih node unused used
  | erase _ id ih => exact .erase ih id
  | clear _ ih => exact .clear ih

/-- Distinct used identities, and an iterator that designates a node or the end. -/
structure WellFormed (bound : Nat) (l : IterList α) : Prop where
  distinct : l.ids.Nodup
  used : ∀ id ∈ l.ids, id < bound
  split : ∃ passed pending, l.Split passed pending

/-- The empty list is well formed. -/
theorem wellFormed_empty (bound : Nat) : (empty : IterList α).WellFormed bound :=
  ⟨List.nodup_nil, by simp, [], [], empty_split⟩

/-- Distinctness and use of the identities survive all edits, by induction on them. -/
theorem Edits.ids {bound later : Nat} {l l' : IterList α} (h : Edits bound l later l')
    (distinct : l.ids.Nodup) (used : ∀ id ∈ l.ids, id < bound)
    : l'.ids.Nodup ∧ ∀ id ∈ l'.ids, id < later := by
  induction h with
  | refl grows => exact ⟨distinct, fun id member => Nat.lt_of_lt_of_le (used id member) grows⟩
  | pushBack earlier node unused beyond ih =>
      obtain ⟨nodup, bounded⟩ := ih
      rw [ids_pushBack]
      constructor
      · rw [List.nodup_append]
        refine ⟨nodup, List.nodup_singleton _, ?_⟩
        intro id member other isNew
        have below := bounded id member
        rw [List.mem_singleton] at isNew
        omega
      · intro id member
        rcases List.mem_append.mp member with old | isNew
        · have below := bounded id old
          omega
        · rw [List.mem_singleton] at isNew
          omega
  | erase earlier id ih =>
      rw [ids_erase]
      exact ⟨ih.1.filter _, fun other member => ih.2 other (List.mem_of_mem_filter member)⟩
  | clear earlier ih => simp

/-- Every edit leaves a well-formed list well formed, by induction on the edits. -/
theorem WellFormed.edits {bound later : Nat} {l l' : IterList α} (h : l.WellFormed bound)
    (edits : Edits bound l later l')
    : l'.WellFormed later := by
  obtain ⟨distinct, used⟩ := edits.ids h.distinct h.used
  refine ⟨distinct, used, ?_⟩
  clear distinct used
  induction edits with
  | refl => exact h.split
  | pushBack _ node _ _ ih =>
      obtain ⟨passed, pending, split⟩ := ih
      rcases split.pushBack node with ⟨-, atEnd⟩ | ⟨-, before⟩
      · exact ⟨_, _, atEnd⟩
      · exact ⟨_, _, before⟩
  | erase earlier id ih =>
      obtain ⟨passed, pending, split⟩ := ih
      exact ⟨_, _, split.erase (earlier.ids h.distinct h.used).1 id⟩
  | clear => exact ⟨_, _, empty_split⟩

/-- A node that is gone does not come back, by induction on the edits. -/
theorem Edits.absent {bound later : Nat} {l l' : IterList α} (h : Edits bound l later l')
    {id : Nat} (used : id < bound) (gone : id ∉ l.ids)
    : id ∉ l'.ids := by
  induction h with
  | refl => exact gone
  | pushBack earlier node unused _ ih =>
      have grows := earlier.bound_le
      rw [ids_pushBack, List.mem_append, List.mem_singleton, not_or]
      exact ⟨ih, by omega⟩
  | erase _ other ih =>
      rw [ids_erase]
      exact fun member => ih (List.mem_of_mem_filter member)
  | clear => simp

-----------------------------------------------------------------------------------------
-- Iteration under edits
-----------------------------------------------------------------------------------------

/-- An iteration that started on the `initial` nodes and has visited the `visited` ones: what it
has visited and what is pending are distinct and, as far as they are initial, in initial order,
and no initial node has been passed unvisited.
-/
structure Iteration (initial : List Nat) (bound : Nat) (l : IterList α) (visited : List Nat)
    : Prop where
  distinct : l.ids.Nodup
  used : ∀ id ∈ l.ids, id < bound
  visitedUsed : ∀ id ∈ visited, id < bound
  initialUsed : ∀ id ∈ initial, id < bound
  split
    : ∃ passed pending,
        l.Split passed pending
        ∧ (visited ++ pending.map Node.id).Nodup
        ∧ (∀ node ∈ passed, node.id ∈ initial → node.id ∈ visited)
        ∧ ((visited ++ pending.map Node.id).filter (fun id => id ∈ initial)).Sublist initial

/-- At the start nothing is visited and everything is pending. -/
theorem Iteration.start {bound : Nat} {l : IterList α} (distinct : l.ids.Nodup)
    (used : ∀ id ∈ l.ids, id < bound)
    : Iteration l.ids bound l.begin [] where
  distinct := distinct
  used := used
  visitedUsed := by simp
  initialUsed := used
  split := ⟨[], l.nodes, l.begin_split, by simpa [ids] using distinct, by simp,
    List.filter_sublist⟩

/-- The iterator of an iteration never dangles. -/
theorem Iteration.deref {initial visited : List Nat} {bound : Nat} {l : IterList α}
    (h : Iteration initial bound l visited)
    : l.current = none ∨ ∃ node, l.current = some node.id ∧ l.deref = some node := by
  obtain ⟨passed, pending, split, -⟩ := h.split
  cases pending with
  | nil => exact Or.inl (split.current_eq_none.mpr rfl)
  | cons node rest => exact Or.inr ⟨node, split.current, split.deref h.distinct⟩

/-- Visiting the designated node moves it from the pending nodes to the visited ones. -/
theorem Iteration.visit {initial visited : List Nat} {bound : Nat} {l : IterList α}
    (h : Iteration initial bound l visited) {node : Node α} (designated : l.deref = some node)
    : Iteration initial bound l.advance (visited ++ [node.id]) := by
  obtain ⟨passed, pending, split, nodup, invoked, ordered⟩ := h.split
  cases pending with
  | nil =>
      have ended := split.current_eq_none.mpr rfl
      simp [IterList.deref, ended] at designated
  | cons first rest =>
      rw [split.deref h.distinct] at designated
      obtain rfl := Option.some.inj designated
      have same : visited ++ [first.id] ++ rest.map Node.id
          = visited ++ (first :: rest).map Node.id := by simp
      exact {
        distinct := h.distinct
        used := h.used
        visitedUsed := by
          intro id member
          rcases List.mem_append.mp member with old | isFirst
          · exact h.visitedUsed id old
          · rw [List.mem_singleton.mp isFirst]
            exact h.used first.id (by simp [ids, split.nodes])
        initialUsed := h.initialUsed
        split := by
          refine ⟨passed ++ [first], rest, split.advance h.distinct, ?_, ?_, ?_⟩
          · rw [same]
            exact nodup
          · intro other member isInitial
            rcases List.mem_append.mp member with earlier | isFirst
            · exact List.mem_append_left _ (invoked other earlier isInitial)
            · rw [List.mem_singleton.mp isFirst]
              simp
          · rw [same]
            exact ordered
      }

/-- Edits keep the iteration, by induction on them: a new node is pending or passed but never
initial, and an erased one is dropped from wherever it was.
-/
theorem Iteration.edits {initial visited : List Nat} {bound later : Nat} {l l' : IterList α}
    (h : Iteration initial bound l visited) (edits : Edits bound l later l')
    : Iteration initial later l' visited := by
  have grows := edits.bound_le
  obtain ⟨distinct, used⟩ := edits.ids h.distinct h.used
  refine {
    distinct
    used
    visitedUsed := fun id member => Nat.lt_of_lt_of_le (h.visitedUsed id member) grows
    initialUsed := fun id member => Nat.lt_of_lt_of_le (h.initialUsed id member) grows
    split := ?_
  }
  clear distinct used grows
  induction edits with
  | refl => exact h.split
  | pushBack earlier node unused _ ih =>
      obtain ⟨passed, pending, split, nodup, invoked, ordered⟩ := ih
      have bounds := earlier.bound_le
      have notInitial : node.id ∉ initial := by
        intro member
        have below := h.initialUsed node.id member
        omega
      rcases split.pushBack node with ⟨rfl, atEnd⟩ | ⟨-, before⟩
      · refine ⟨_, _, atEnd, nodup, ?_, ordered⟩
        intro other member isInitial
        rcases List.mem_append.mp member with old | isNew
        · exact invoked other old isInitial
        · rw [List.mem_singleton.mp isNew] at isInitial
          exact absurd isInitial notInitial
      · have same : visited ++ (pending ++ [node]).map Node.id
            = (visited ++ pending.map Node.id) ++ [node.id] := by simp
        refine ⟨_, _, before, ?_, invoked, ?_⟩
        · rw [same, List.nodup_append]
          refine ⟨nodup, List.nodup_singleton _, ?_⟩
          intro id member other isNew
          rw [List.mem_singleton] at isNew
          rcases List.mem_append.mp member with old | waiting
          · have below := h.visitedUsed id old
            omega
          · have below := (earlier.ids h.distinct h.used).2 id (by
              rw [IterList.ids, split.nodes, List.map_append]
              exact List.mem_append_right _ waiting)
            omega
        · rw [same, List.filter_append, List.filter_cons_of_neg (by simpa using notInitial),
            List.filter_nil, List.append_nil]
          exact ordered
  | erase earlier id ih =>
      obtain ⟨passed, pending, split, nodup, invoked, ordered⟩ := ih
      have fewer
          : (visited ++ (pending.filter (fun node => node.id ≠ id)).map Node.id).Sublist
              (visited ++ pending.map Node.id) :=
        (List.Sublist.refl visited).append (List.filter_sublist.map Node.id)
      refine ⟨_, _, split.erase (earlier.ids h.distinct h.used).1 id, nodup.sublist fewer, ?_,
        (fewer.filter _).trans ordered⟩
      intro other member
      exact invoked other (List.mem_of_mem_filter member)
  | clear earlier ih =>
      obtain ⟨passed, pending, split, nodup, invoked, ordered⟩ := ih
      have fewer : (visited ++ ([] : List (Node α)).map Node.id).Sublist
          (visited ++ pending.map Node.id) :=
        (List.Sublist.refl visited).append (List.nil_sublist _)
      exact ⟨_, _, empty_split, nodup.sublist fewer, by simp, (fewer.filter _).trans ordered⟩

/-- No node is visited twice, and the initial ones are visited in their order. -/
theorem Iteration.visited_in_order {initial visited : List Nat} {bound : Nat} {l : IterList α}
    (h : Iteration initial bound l visited)
    : visited.Nodup ∧ (visited.filter (fun id => id ∈ initial)).Sublist initial := by
  obtain ⟨passed, pending, -, nodup, -, ordered⟩ := h.split
  have initialPart : visited.Sublist (visited ++ pending.map Node.id) :=
    List.sublist_append_left _ _
  exact ⟨nodup.sublist initialPart, (initialPart.filter _).trans ordered⟩

/-- When the iterator is at the end, every initial node has been visited or is gone. -/
theorem Iteration.finished {initial visited : List Nat} {bound : Nat} {l : IterList α}
    (h : Iteration initial bound l visited) (ended : l.current = none) {id : Nat}
    (member : id ∈ initial)
    : id ∈ visited ∨ id ∉ l.ids := by
  obtain ⟨passed, pending, split, -, invoked, -⟩ := h.split
  obtain rfl := split.current_eq_none.mp ended
  by_cases present : id ∈ l.ids
  · rw [IterList.ids, split.nodes, List.append_nil] at present
    obtain ⟨node, isPassed, rfl⟩ := List.mem_map.mp present
    exact Or.inl (invoked node isPassed member)
  · exact Or.inr present

end IterList

end RtcBase.Library
