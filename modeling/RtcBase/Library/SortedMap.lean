import Mathlib.Data.List.Sort

/-! Walking a sorted map by its keys while it changes. A walk holds a key, as an iterator does, and
steps to the least key after it in the map as it is then.
-/

namespace RtcBase.Library

variable {κ ν : Type*} [Ord κ]

section Walk

variable [Std.TransOrd κ]

/-- The least key of a map. -/
def firstKey (map : Std.ExtTreeMap κ ν) : Option κ := map.toList.head?.map Prod.fst

/-- The entries after a key, in order. -/
def entriesAfter (map : Std.ExtTreeMap κ ν) (key : κ) : List (κ × ν) :=
  map.toList.filter fun entry => compare key entry.1 = .lt

/-- The least key after a key. -/
def nextKey (map : Std.ExtTreeMap κ ν) (key : κ) : Option κ :=
  (entriesAfter map key).head?.map Prod.fst

/-- The entries that a walk has still to visit, in order. -/
def entriesFrom (map : Std.ExtTreeMap κ ν) : Option κ → List (κ × ν)
  | none => []
  | some key => map.toList.filter fun entry => compare key entry.1 ≠ .gt

/-- No entry comes before the first one of an ordered list. -/
theorem not_gt_head {entries : List (κ × ν)}
    (ordered : entries.Pairwise fun a b => compare a.1 b.1 = .lt) {first entry : κ × ν}
    (isFirst : entries.head? = some first) (member : entry ∈ entries)
    : compare first.1 entry.1 ≠ .gt := by
  cases entries with
  | nil => cases member
  | cons head rest =>
      obtain rfl : head = first := by simpa using isFirst
      rcases List.mem_cons.mp member with rfl | later
      · rw [Std.ReflOrd.compare_self]
        exact Ordering.noConfusion
      · rw [(List.pairwise_cons.mp ordered).1 entry later]
        exact Ordering.noConfusion

/-- A walk from the least key visits every entry. -/
theorem entriesFrom_firstKey (map : Std.ExtTreeMap κ ν)
    : entriesFrom map (firstKey map) = map.toList := by
  cases isFirst : map.toList.head? with
  | none =>
      rw [firstKey, isFirst, List.head?_eq_none_iff.mp isFirst]
      rfl
  | some first =>
      rw [firstKey, isFirst, Option.map_some, entriesFrom, List.filter_eq_self]
      intro entry member
      simpa using not_gt_head Std.ExtTreeMap.ordered_keys_toList isFirst member

/-- A step of a walk leaves the entries after its key. -/
theorem entriesFrom_nextKey (map : Std.ExtTreeMap κ ν) (key : κ)
    : entriesFrom map (nextKey map key) = entriesAfter map key := by
  have ordered : (entriesAfter map key).Pairwise fun a b => compare a.1 b.1 = .lt :=
    Std.ExtTreeMap.ordered_keys_toList.filter _
  cases isFirst : (entriesAfter map key).head? with
  | none =>
      rw [nextKey, isFirst, List.head?_eq_none_iff.mp isFirst]
      rfl
  | some first =>
      rw [nextKey, isFirst, Option.map_some, entriesFrom]
      have after : compare key first.1 = .lt :=
        of_decide_eq_true (List.mem_filter.mp (List.mem_of_head? isFirst)).2
      apply List.filter_congr
      intro entry member
      rw [decide_eq_decide]
      constructor
      · intro notBefore
        exact Std.TransCmp.lt_of_lt_of_isLE after (Ordering.isLE_iff_ne_gt.mpr notBefore)
      · intro isAfter
        apply not_gt_head ordered isFirst
        exact List.mem_filter.mpr ⟨member, decide_eq_true isAfter⟩

end Walk

section Entries

variable [Std.TransOrd κ] [Std.LawfulEqOrd κ]

/-- The entries of a map are distinct. -/
theorem nodup_toList (map : Std.ExtTreeMap κ ν) : map.toList.Nodup := by
  apply Std.ExtTreeMap.distinct_keys_toList.imp
  intro a b apart same
  rw [same] at apart
  exact apart Std.ReflOrd.compare_self

/-- The entries of a map other than that of a key. -/
def entriesApart [DecidableEq κ] (map : Std.ExtTreeMap κ ν) (key : κ) : List (κ × ν) :=
  map.toList.filter fun entry => entry.1 ≠ key

/-- The entries after binding a key: its own and those of the other keys. -/
theorem toList_insert_perm [DecidableEq κ] (map : Std.ExtTreeMap κ ν) (key : κ) (value : ν)
    : (map.insert key value).toList.Perm ((key, value) :: entriesApart map key) := by
  have distinct : ((key, value) :: entriesApart map key).Nodup := by
    refine List.nodup_cons.mpr ⟨?_, (nodup_toList map).filter _⟩
    intro member
    have := (List.mem_filter.mp member).2
    simp at this
  rw [List.perm_ext_iff_of_nodup (nodup_toList _) distinct]
  intro (other, content)
  simp only [entriesApart, List.mem_cons, List.mem_filter, Prod.mk.injEq,
    Std.ExtTreeMap.mem_toList_iff_getElem?_eq_some, Std.ExtTreeMap.getElem?_insert,
    Std.compare_eq_iff_eq, decide_eq_true_eq]
  by_cases same : key = other
  · simp [same, eq_comm]
  · simp [same, Ne.symm same]

/-- The entries of a map with a binding: its own and those of the other keys. -/
theorem toList_perm_of_getElem? [DecidableEq κ] {map : Std.ExtTreeMap κ ν} {key : κ} {value : ν}
    (bound : map[key]? = some value)
    : map.toList.Perm ((key, value) :: entriesApart map key) := by
  have same : map.insert key value = map := by
    apply Std.ExtTreeMap.ext_getElem?
    intro other
    rw [Std.ExtTreeMap.getElem?_insert]
    split
    · rename_i isKey
      rw [← Std.compare_eq_iff_eq.mp isKey, bound]
    · rfl
  have permuted := toList_insert_perm map key value
  rwa [same] at permuted

/-- The entries of a map without a binding are those of the other keys. -/
theorem entriesApart_of_getElem?_none [DecidableEq κ] {map : Std.ExtTreeMap κ ν} {key : κ}
    (unbound : map[key]? = none)
    : entriesApart map key = map.toList := by
  rw [entriesApart, List.filter_eq_self]
  intro entry member
  rw [decide_eq_true_eq]
  rintro rfl
  have bound := Std.ExtTreeMap.mem_toList_iff_getElem?_eq_some.mp member
  rw [unbound] at bound
  cases bound

/-- A walk at a key of the map visits its entry and then those after it. -/
theorem entriesFrom_perm {map : Std.ExtTreeMap κ ν} {key : κ} {value : ν}
    (bound : map[key]? = some value)
    : (entriesFrom map (some key)).Perm ((key, value) :: entriesAfter map key) := by
  have distinct : ((key, value) :: entriesAfter map key).Nodup := by
    refine List.nodup_cons.mpr ⟨?_, (nodup_toList map).filter _⟩
    intro member
    have after := of_decide_eq_true (List.mem_filter.mp member).2
    rw [Std.ReflOrd.compare_self] at after
    cases after
  rw [entriesFrom, List.perm_ext_iff_of_nodup ((nodup_toList map).filter _) distinct]
  intro (other, content)
  simp only [entriesAfter, List.mem_cons, List.mem_filter, Prod.mk.injEq,
    Std.ExtTreeMap.mem_toList_iff_getElem?_eq_some, decide_eq_true_eq]
  cases order : compare key other with
  | lt =>
      have differ : other ≠ key := by
        rintro rfl
        rw [Std.ReflOrd.compare_self] at order
        cases order
      simp [differ]
  | eq =>
      obtain rfl := Std.compare_eq_iff_eq.mp order
      simp [bound, eq_comm]
  | gt =>
      have differ : other ≠ key := by
        rintro rfl
        rw [Std.ReflOrd.compare_self] at order
        cases order
      simp [differ]

end Entries

end RtcBase.Library
