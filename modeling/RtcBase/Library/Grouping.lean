import Mathlib.Data.List.Nodup

/-! Grouping of a sequence of filed values by key, in the order in which they come. Some keys may be
dropped with all their values.
-/

namespace RtcBase.Library

variable {κ β : Type*} [DecidableEq κ]

/-- The values filed under a key, in order. -/
def filed (items : List (κ × β)) (key : κ) : List β :=
  items.filterMap fun item => if item.1 = key then some item.2 else none

/-- One more value is filed behind the others, under its own key only. -/
@[simp] theorem filed_append_singleton (items : List (κ × β)) (item : κ × β) (key : κ)
    : filed (items ++ [item]) key
      = filed items key ++ if item.1 = key then [item.2] else [] := by
  by_cases same : item.1 = key <;> simp [filed, same]

theorem mem_filed {items : List (κ × β)} {key : κ} {value : β}
    : value ∈ filed items key ↔ (key, value) ∈ items := by
  simp [filed, List.mem_filterMap]

/-- Nothing is filed under a key that no item has. -/
theorem filed_eq_nil {items : List (κ × β)} {key : κ} (absent : key ∉ items.map Prod.fst)
    : filed items key = [] := by
  rw [filed, List.filterMap_eq_nil_iff]
  intro item member
  rw [if_neg]
  rintro rfl
  exact absent (List.mem_map_of_mem member)

/-- Groups hold the items of the keys that are kept: each such key has one group, with everything
filed under it.
-/
structure Grouped (kept : κ → Prop) (items : List (κ × β)) (groups : List (κ × List β))
    : Prop where
  distinct : (groups.map Prod.fst).Nodup
  mem_keys : ∀ key, key ∈ groups.map Prod.fst ↔ kept key ∧ key ∈ items.map Prod.fst
  filed : ∀ group ∈ groups, group.2 = filed items group.1

namespace Grouped

variable {kept : κ → Prop} {items : List (κ × β)} {groups : List (κ × List β)}

theorem nil : Grouped kept ([] : List (κ × β)) [] where
  distinct := List.nodup_nil
  mem_keys := by simp
  filed := by simp

/-- An item of a key that is not kept changes no group. -/
theorem skip (h : Grouped kept items groups) {item : κ × β} (dropped : ¬ kept item.1)
    : Grouped kept (items ++ [item]) groups where
  distinct := h.distinct
  mem_keys key := by
    rw [h.mem_keys, List.map_append, List.mem_append, List.map_singleton, List.mem_singleton]
    constructor
    · rintro ⟨keeps, member⟩
      exact ⟨keeps, Or.inl member⟩
    · rintro ⟨keeps, member | rfl⟩
      · exact ⟨keeps, member⟩
      · exact absurd keeps dropped
  filed group member := by
    have keeps : kept group.1 := ((h.mem_keys _).mp (List.mem_map_of_mem member)).1
    have other : item.1 ≠ group.1 := by
      intro same
      exact dropped (same ▸ keeps)
    rw [filed_append_singleton, if_neg other, List.append_nil]
    exact h.filed group member

/-- The first item of a key that is kept opens a group. -/
theorem start (h : Grouped kept items groups) {item : κ × β} (keeps : kept item.1)
    (fresh : item.1 ∉ groups.map Prod.fst)
    : Grouped kept (items ++ [item]) (groups ++ [(item.1, [item.2])]) where
  distinct := by
    rw [List.map_append, List.map_singleton]
    exact List.nodup_append.mpr
      ⟨h.distinct, List.nodup_singleton _, by
        rintro key member _ last rfl
        exact fresh (List.mem_singleton.mp last ▸ member)⟩
  mem_keys key := by
    rw [List.map_append, List.mem_append, h.mem_keys, List.map_append, List.mem_append,
      List.map_singleton, List.map_singleton, List.mem_singleton]
    constructor
    · rintro (⟨keepsKey, member⟩ | rfl)
      · exact ⟨keepsKey, Or.inl member⟩
      · exact ⟨keeps, Or.inr rfl⟩
    · rintro ⟨keepsKey, member | same⟩
      · exact Or.inl ⟨keepsKey, member⟩
      · exact Or.inr same
  filed group member := by
    rw [filed_append_singleton]
    rcases List.mem_append.mp member with old | new
    · have other : item.1 ≠ group.1 := by
        intro same
        exact fresh (same ▸ List.mem_map_of_mem old)
      rw [if_neg other, List.append_nil]
      exact h.filed group old
    · have unseen : item.1 ∉ items.map Prod.fst := fun seen =>
        fresh ((h.mem_keys _).mpr ⟨keeps, seen⟩)
      rw [List.mem_singleton.mp new, if_pos rfl, filed_eq_nil unseen, List.nil_append]

/-- A further item of a key joins its group. -/
theorem join (h : Grouped kept items groups) {item : κ × β}
    (opened : item.1 ∈ groups.map Prod.fst)
    : Grouped kept (items ++ [item])
        (groups.map fun group =>
          if group.1 = item.1 then (group.1, group.2 ++ [item.2]) else group) := by
  have keys
      : (groups.map fun group =>
          if group.1 = item.1 then (group.1, group.2 ++ [item.2]) else group).map Prod.fst
        = groups.map Prod.fst := by
    rw [List.map_map]
    apply List.map_congr_left
    intro group _
    by_cases same : group.1 = item.1 <;> simp [same]
  refine ⟨?_, ?_, ?_⟩
  · rw [keys]
    exact h.distinct
  · intro key
    rw [keys, h.mem_keys, List.map_append, List.mem_append, List.map_singleton,
      List.mem_singleton]
    have known := (h.mem_keys item.1).mp opened
    constructor
    · rintro ⟨keepsKey, member⟩
      exact ⟨keepsKey, Or.inl member⟩
    · rintro ⟨keepsKey, member | rfl⟩
      · exact ⟨keepsKey, member⟩
      · exact known
  · intro group member
    obtain ⟨before, old, rfl⟩ := List.mem_map.mp member
    rw [filed_append_singleton]
    by_cases same : before.1 = item.1
    · have content := h.filed before old
      rw [if_pos same, if_pos same.symm, content]
    · have content := h.filed before old
      rw [if_neg same, if_neg (Ne.symm same), List.append_nil, content]

end Grouped

end RtcBase.Library
