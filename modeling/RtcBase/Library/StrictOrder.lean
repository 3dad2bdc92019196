import Mathlib.Data.List.Pairwise
import Mathlib.Data.List.Sort
import Mathlib.Data.Prod.Lex

/-! The comparisons that a sorting algorithm may be given, and what being in order means for them.
A comparison is a Boolean function, as a program passes it.
-/

namespace RtcBase.Library

variable {α β κ : Type*}

/-- Neither of two items is less than the other. -/
def Incomparable (less : α → α → Bool) (a b : α) : Prop := less a b = false ∧ less b a = false

/-- The axioms of a strict weak order at three items. -/
structure StrictWeakAt (less : α → α → Bool) (a b c : α) : Prop where
  irreflexive : less a a = false
  asymmetric : less a b = true → less b a = false
  transitive : less a b = true → less b c = true → less a c = true
  incomparable : Incomparable less a b → Incomparable less b c → Incomparable less a c

/-- A strict weak order. -/
def StrictWeak (less : α → α → Bool) : Prop := ∀ a b c, StrictWeakAt less a b c

/-- No item is less than one before it. -/
def Ordered (less : α → α → Bool) (items : List α) : Prop :=
  items.Pairwise fun a b => less b a = false

/-- A comparison of ranks is a strict weak order. -/
theorem StrictWeak.of_rank [LinearOrder κ] {less : α → α → Bool} (rank : α → κ)
    (compares : ∀ a b, less a b = true ↔ rank a < rank b)
    : StrictWeak less := by
  have notLess (a b : α) : less a b = false ↔ rank b ≤ rank a := by
    rw [← not_lt, ← compares, Bool.not_eq_true]
  intro a b c
  refine ⟨?_, ?_, ?_, ?_⟩
  · rw [notLess]
  · rw [compares, notLess]
    exact le_of_lt
  · rw [compares, compares, compares]
    exact lt_trans
  · intro ⟨ab, ba⟩ ⟨bc, cb⟩
    rw [notLess] at ab ba bc cb
    refine ⟨(notLess a c).mpr ?_, (notLess c a).mpr ?_⟩
    · exact le_trans bc ab
    · exact le_trans ba cb

/-- Comparing a part of the items by a strict weak order is one. -/
theorem StrictWeak.comap {less : α → α → Bool} (h : StrictWeak less) (part : β → α)
    : StrictWeak fun a b => less (part a) (part b) := by
  intro a b c
  obtain ⟨irreflexive, asymmetric, transitive, incomparable⟩ := h (part a) (part b) (part c)
  exact ⟨irreflexive, asymmetric, transitive, incomparable⟩

/-- An item between two others in order keeps them in order. -/
theorem StrictWeak.not_less_trans {less : α → α → Bool} (h : StrictWeak less) {a b c : α}
    (first : less b a = false) (second : less c b = false)
    : less c a = false := by
  by_contra reversed
  rw [Bool.not_eq_false] at reversed
  cases ab : less a b with
  | true =>
      have := (h c a b).transitive reversed ab
      rw [second] at this
      cases this
  | false =>
      cases bc : less b c with
      | true =>
          have := (h b c a).transitive bc reversed
          rw [first] at this
          cases this
      | false =>
          have same := (h a b c).incomparable ⟨ab, first⟩ ⟨bc, second⟩
          rw [same.2] at reversed
          cases reversed

/-- Insertion sort puts items in order. -/
theorem StrictWeak.ordered_insertionSort {less : α → α → Bool} (h : StrictWeak less)
    (items : List α)
    : Ordered less (items.insertionSort fun a b => less b a = false) := by
  have : Std.Total fun a b : α => less b a = false := by
    refine ⟨fun a b => ?_⟩
    cases reversed : less b a with
    | false => exact .inl rfl
    | true => exact .inr ((h b a a).asymmetric reversed)
  have : IsTrans α fun a b => less b a = false := ⟨fun _ _ _ => h.not_less_trans⟩
  exact List.pairwise_insertionSort _ items

/-- There is one order for items that are all comparable. -/
theorem Ordered.unique {less : α → α → Bool} {first second : List α}
    (firstOrdered : Ordered less first) (secondOrdered : Ordered less second)
    (same : first.Perm second)
    (total : ∀ a ∈ first, ∀ b ∈ first, Incomparable less a b → a = b)
    : first = second := by
  apply List.Perm.eq_of_pairwise _ firstOrdered secondOrdered same
  intro a b memberA memberB ab ba
  exact total a memberA b (same.mem_iff.mpr memberB) ⟨ba, ab⟩

/-- Of two different items of a pairwise related list, one comes first. -/
theorem related_or_related {related : α → α → Prop} {items : List α}
    (pairwise : items.Pairwise related) {a b : α} (memberA : a ∈ items) (memberB : b ∈ items)
    (differ : a ≠ b)
    : related a b ∨ related b a := by
  have : Std.Symm fun a b => related a b ∨ related b a := ⟨fun _ _ => Or.symm⟩
  have either : items.Pairwise fun a b => related a b ∨ related b a := pairwise.imp .inl
  exact either.forall memberA memberB differ

/-- Items in order that are all comparable increase. -/
theorem Ordered.increasing {less : α → α → Bool} {items : List α} (ordered : Ordered less items)
    (distinct : items.Nodup) (total : ∀ a ∈ items, ∀ b ∈ items, Incomparable less a b → a = b)
    : items.Pairwise fun a b => less a b = true := by
  apply List.Pairwise.imp_of_mem _ (ordered.and distinct)
  intro a b memberA memberB ⟨notLess, differ⟩
  by_contra notIncreasing
  rw [Bool.not_eq_true] at notIncreasing
  exact differ (total a memberA b memberB ⟨notIncreasing, notLess⟩)

/-- The place of an item among increasing ones is the number of items less than it, by induction on
the items.
-/
theorem StrictWeak.countP_less {less : α → α → Bool} (h : StrictWeak less) {items : List α}
    (increasing : items.Pairwise fun a b => less a b = true) {i : Nat} {item : α}
    (isItem : items[i]? = some item)
    : items.countP (fun other => less other item) = i := by
  induction items generalizing i with
  | nil => simp at isItem
  | cons first rest ih =>
      obtain ⟨ahead, later⟩ := List.pairwise_cons.mp increasing
      cases i with
      | zero =>
          obtain rfl : first = item := by simpa using isItem
          have none_less : rest.countP (fun other => less other first) = 0 := by
            rw [List.countP_eq_zero]
            intro other member
            simp [(h first other first).asymmetric (ahead other member)]
          simp [none_less, (h first first first).irreflexive]
      | succ i =>
          rw [List.getElem?_cons_succ] at isItem
          have less_item := ahead item (List.mem_of_getElem? isItem)
          rw [List.countP_cons, ih later isItem, if_pos less_item]

end RtcBase.Library
