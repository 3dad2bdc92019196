import Mathlib.Algebra.BigOperators.Ring.Finset
import Mathlib.Data.BitVec
import Mathlib.Data.Fintype.BigOperators
import Mathlib.Data.Int.CardIntervalMod
import Mathlib.Data.List.GetD

/-! Sampling by finite counting. A value is drawn as often as there are inputs that lead to it: a
remainder of a random word, an entry of a table, a tuple whose places are drawn one by one, the
first of several draws that is accepted.
-/

namespace RtcBase.Library

/-- There are finitely many words of a width. -/
instance fintypeBitVec (w : Nat) : Fintype (BitVec w) :=
  Fintype.ofEquiv (Fin (2 ^ w)) BitVec.equivFin.symm.toEquiv

/-- A remainder by a divisor of the number of words has as many words as any other. -/
theorem card_remainder {w size r : Nat} (divides : size ∣ 2 ^ w) (remainder : r < size)
    : (Finset.univ.filter fun word : BitVec w => word.toNat % size = r).card = 2 ^ w / size := by
  have positive : 0 < size := by omega
  have numbers
      : (Finset.univ.filter fun word : BitVec w => word.toNat % size = r).card
        = ((Finset.range (2 ^ w)).filter fun n => n ≡ r [MOD size]).card := by
    refine Finset.card_bij (fun word _ => word.toNat) ?_ ?_ ?_
    · intro word member
      have same := (Finset.mem_filter.mp member).2
      rw [Finset.mem_filter, Finset.mem_range, Nat.ModEq, Nat.mod_eq_of_lt remainder]
      exact ⟨word.isLt, same⟩
    · intro first _ second _ same
      exact BitVec.eq_of_toNat_eq same
    · intro n member
      rw [Finset.mem_filter, Finset.mem_range, Nat.ModEq, Nat.mod_eq_of_lt remainder] at member
      have value : (BitVec.ofNat w n).toNat = n := by
        rw [BitVec.toNat_ofNat, Nat.mod_eq_of_lt member.1]
      refine ⟨BitVec.ofNat w n, ?_, value⟩
      rw [Finset.mem_filter, value]
      exact ⟨Finset.mem_univ _, member.2⟩
  have exact_ : 2 ^ w % size = 0 := Nat.mod_eq_zero_of_dvd divides
  rw [numbers, ← Nat.count_eq_card_filter_range, Nat.count_modEq_card _ positive, exact_,
    if_neg (Nat.not_lt_zero _), Nat.add_zero]

/-- An entry of a table without repetitions has as many words as any other, if the size of the table
divides their number.
-/
theorem card_entry {γ : Type*} [DecidableEq γ] {w : Nat} {table : List γ} {entry : γ} (other : γ)
    (distinct : table.Nodup) (divides : table.length ∣ 2 ^ w) (member : entry ∈ table)
    : (Finset.univ.filter fun word : BitVec w =>
        table.getD (word.toNat % table.length) other = entry).card
      = 2 ^ w / table.length := by
  have place : table.idxOf entry < table.length := List.idxOf_lt_length_of_mem member
  rw [← card_remainder divides place]
  congr 1
  refine Finset.filter_congr fun word _ => ?_
  have inside : word.toNat % table.length < table.length := Nat.mod_lt _ (by omega)
  rw [List.getD_eq_getElem _ _ inside]
  constructor
  · intro same
    rw [← same, distinct.idxOf_getElem]
  · intro same
    simp only [same, List.getElem_idxOf]

/-- Tuples whose places are drawn one by one are counted place by place. -/
theorem card_places {ι β γ : Type*} [Fintype ι] [DecidableEq ι] [Fintype β] [DecidableEq γ]
    (draw : ι → β → γ) (values : ι → γ)
    : (Finset.univ.filter fun words : ι → β => (fun i => draw i (words i)) = values).card
      = ∏ i, (Finset.univ.filter fun word => draw i word = values i).card := by
  rw [← Fintype.card_piFinset]
  congr 1
  ext words
  simp [funext_iff]

-----------------------------------------------------------------------------------------
-- Draws with rejection
-----------------------------------------------------------------------------------------

section Rejection

variable {β : Type*} [Fintype β] [DecidableEq β] {accept : β → Bool} {value : β}

/-- The first draw is the accepted value, or it is rejected and the value is found among the others. -/
theorem card_first_accepted_succ (accepted : accept value = true) (n : Nat)
    : (Finset.univ.filter fun draws : Fin (n + 1) → β =>
        (List.ofFn draws).find? accept = some value).card
      = Fintype.card β ^ n
        + (Finset.univ.filter fun draw => accept draw = false).card
          * (Finset.univ.filter fun draws : Fin n → β =>
              (List.ofFn draws).find? accept = some value).card := by
  have pairs
      : (Finset.univ.filter fun draws : Fin (n + 1) → β =>
          (List.ofFn draws).find? accept = some value).card
        = ({value} ×ˢ Finset.univ
            ∪ (Finset.univ.filter fun draw => accept draw = false)
              ×ˢ (Finset.univ.filter fun draws : Fin n → β =>
                    (List.ofFn draws).find? accept = some value)).card := by
    refine Finset.card_equiv (Fin.consEquiv fun _ => β).symm ?_
    intro draws
    rw [Finset.mem_filter, List.ofFn_succ, List.find?_cons]
    cases first : accept (draws 0) with
    | true => simpa [Fin.consEquiv, first] using eq_comm
    | false =>
        have different : value ≠ draws 0 := by
          intro same
          rw [← same, accepted] at first
          contradiction
        simp [Fin.consEquiv, first, different, Fin.tail_def]
  have disjoint
      : Disjoint ({value} ×ˢ (Finset.univ : Finset (Fin n → β)))
          ((Finset.univ.filter fun draw => accept draw = false)
            ×ˢ (Finset.univ.filter fun draws : Fin n → β =>
                  (List.ofFn draws).find? accept = some value)) := by
    rw [Finset.disjoint_product]
    refine Or.inl (Finset.disjoint_singleton_left.mpr ?_)
    simp [accepted]
  rw [pairs, Finset.card_union_of_disjoint disjoint, Finset.card_product, Finset.card_product,
    Finset.card_singleton, Nat.one_mul, Finset.card_univ, Fintype.card_fun, Fintype.card_fin]

/-- The sequences of draws whose first accepted one is a given value, counted by the number of those
rejected before it: any draws may follow. By induction on the length of the sequences.
-/
theorem card_first_accepted (accepted : accept value = true) (n : Nat)
    : (Finset.univ.filter fun draws : Fin n → β =>
        (List.ofFn draws).find? accept = some value).card
      = ∑ k ∈ Finset.range n,
          (Finset.univ.filter fun draw => accept draw = false).card ^ k
          * Fintype.card β ^ (n - 1 - k) := by
  induction n with
  | zero => simp
  | succ n ih =>
      rw [card_first_accepted_succ accepted, ih, Finset.sum_range_succ', Finset.mul_sum, Nat.add_comm]
      simp only [Nat.add_sub_cancel, pow_zero, Nat.one_mul, Nat.sub_zero]
      congr 1
      refine Finset.sum_congr rfl fun k _ => ?_
      rw [pow_succ', Nat.mul_assoc, Nat.sub_sub, Nat.add_comm 1 k]

end Rejection

end RtcBase.Library
