import RtcBase.Numerics.IntTypes

/-! `safe_conversions.h` for integer types. Whether a check is needed is decided by the sizes of the
types; a check compares the value with limits of the destination that are cast to the source. What the
source does for floating-point types only (`is_iec559`) is left out.
-/

namespace RtcBase.Numerics

open Library

-----------------------------------------------------------------------------------------
-- Checks
-----------------------------------------------------------------------------------------

inductive DstRange where
  | overlapsRange
  | containsRange
  deriving DecidableEq, Repr

/-- `StaticRangeCheck`. -/
def staticRangeCheck (dst src : IntType) : DstRange :=
  match dst.isSigned, src.isSigned with
  | true, true =>
      let kDstMaxExponent := dst.size * 8 - 1
      let kSrcMaxExponent := src.size * 8 - 1
      if kDstMaxExponent ≥ kSrcMaxExponent then .containsRange else .overlapsRange
  | false, false => if dst.size ≥ src.size then .containsRange else .overlapsRange
  | true, false =>
      let kDstMaxExponent := dst.size * 8 - 1
      let kSrcMaxExponent := src.size * 8
      if kDstMaxExponent ≥ kSrcMaxExponent then .containsRange else .overlapsRange
  | false, true => .overlapsRange

inductive RangeCheckResult where
  | typeValid
  | typeUnderflow
  | typeOverflow
  | typeInvalid
  deriving DecidableEq, Repr

/-- The enumerator with a value. -/
def RangeCheckResult.ofValue : Nat → RangeCheckResult
  | 0 => .typeValid
  | 1 => .typeUnderflow
  | 2 => .typeOverflow
  | _ => .typeInvalid

/-- `BASE_NUMERIC_RANGE_CHECK_RESULT`. -/
def rangeCheckResult (isInUpperBound isInLowerBound : Bool) : RangeCheckResult :=
  .ofValue ((if isInUpperBound then 0 else 2) ||| (if isInLowerBound then 0 else 1))

/-- `range_check`, with the specialisations of `RangeCheckImpl`. -/
def rangeCheck (dst : IntType) {src : IntType} (value : src.Value) : RangeCheckResult :=
  let inUpperBound := Comparison.le.builtin value (dst.cast src dst.highest)
  match staticRangeCheck dst src with
  | .containsRange => .typeValid
  | .overlapsRange =>
      match dst.isSigned, src.isSigned with
      | true, true =>
          rangeCheckResult inUpperBound (Comparison.ge.builtin value (dst.cast src dst.lowest))
      | false, false => rangeCheckResult inUpperBound true
      | true, false =>
          if dst.size > src.size then .typeValid else rangeCheckResult inUpperBound true
      | false, true =>
          let kDstMaxExponent := dst.size * 8
          let kSrcMaxExponent := src.size * 8 - 1
          let notNegative := Comparison.ge.builtin value (IntType.cast .int32 src (intLiteral 0))
          if kDstMaxExponent ≥ kSrcMaxExponent then rangeCheckResult true notNegative
          else rangeCheckResult inUpperBound notNegative

/-- `is_value_in_range_for_numeric_type`. -/
def isValueInRangeForNumericType (dst : IntType) {src : IntType} (value : src.Value) : Bool :=
  rangeCheck dst value = .typeValid

/-- `saturated_cast`. -/
def saturatedCast (dst : IntType) {src : IntType} (value : src.Value) : dst.Value :=
  match rangeCheck dst value with
  | .typeValid => src.cast dst value
  | .typeUnderflow => dst.lowest
  | .typeOverflow => dst.highest
  | .typeInvalid => dst.highest

-----------------------------------------------------------------------------------------
-- Classification
-----------------------------------------------------------------------------------------

/-- Where a number stands to the bounds of a range. -/
def RangeCheckResult.ofBounds (lowest highest n : Int) : RangeCheckResult :=
  if n < lowest then .typeUnderflow else if highest < n then .typeOverflow else .typeValid

/-- The two comparisons classify a number. -/
theorem rangeCheckResult_eq {lowest highest : Int} (order : lowest ≤ highest) (n : Int)
    : rangeCheckResult (decide (n ≤ highest)) (decide (lowest ≤ n))
      = .ofBounds lowest highest n := by
  unfold RangeCheckResult.ofBounds
  split
  · rw [decide_eq_true (by omega : n ≤ highest), decide_eq_false (by omega)]
    rfl
  · rw [decide_eq_true (by omega : lowest ≤ n)]
    split
    · rw [decide_eq_false (by omega)]
      rfl
    · rw [decide_eq_true (by omega)]
      rfl

/-- No check is made where the destination has all numbers of the source. -/
theorem within_of_containsRange
    : ∀ dst src : IntType, staticRangeCheck dst src = .containsRange → src.Within dst := by
  decide

/-- Where a limit of the destination is compared with, the source has it. -/
theorem limits_of_overlapsRange
    : ∀ dst src : IntType, staticRangeCheck dst src = .overlapsRange →
        (dst.isSigned = src.isSigned → dst.Within src)
        ∧ (dst.isSigned = true → src.isSigned = false →
            dst.size ≤ src.size ∧ src.Represents dst.format.highest)
        ∧ (dst.isSigned = false → src.isSigned = true →
            (dst.size * 8 ≥ src.size * 8 - 1 → src.format.highest ≤ dst.format.highest)
            ∧ (¬ dst.size * 8 ≥ src.size * 8 - 1 → src.Represents dst.format.highest)) := by
  decide

theorem lowest_of_unsigned : ∀ t : IntType, t.isSigned = false → t.format.lowest = 0 := by decide

/-- A value is compared with a number that its type has. -/
theorem builtin_cast (op : Comparison) {dst src : IntType} (value : src.Value) {limit : dst.Value}
    (kept : src.Represents (dst.toInt limit))
    : op.builtin value (dst.cast src limit) = op.holds (src.toInt value) (dst.toInt limit) := by
  rw [op.builtin_of_same rfl, IntType.toInt_cast kept]

theorem le_highest_eq {dst src : IntType} (value : src.Value)
    (kept : src.Represents dst.format.highest)
    : Comparison.le.builtin value (dst.cast src dst.highest)
      = decide (src.toInt value ≤ dst.format.highest) := by
  rw [builtin_cast _ _ (by rwa [IntType.toInt_highest]), IntType.toInt_highest]
  rfl

theorem represents_zero : ∀ t : IntType, t.Represents 0 := by decide

theorem ge_zero_eq {src : IntType} (value : src.Value)
    : Comparison.ge.builtin value (IntType.cast .int32 src (intLiteral 0))
      = decide (0 ≤ src.toInt value) := by
  rw [builtin_cast _ _ (by rw [toInt_intLiteral_zero]; exact represents_zero src),
    toInt_intLiteral_zero]
  rfl

/-- `range_check` classifies the value by the range of the destination. -/
theorem rangeCheck_eq (dst : IntType) {src : IntType} (value : src.Value)
    : rangeCheck dst value
      = .ofBounds dst.format.lowest dst.format.highest (src.toInt value) := by
  obtain ⟨srcLowest, srcHighest⟩ := src.represents_toInt value
  have order := dst.lowest_le_highest
  unfold rangeCheck
  dsimp only
  split
  · rename_i contained
    obtain ⟨below, above⟩ := within_of_containsRange dst src contained
    rw [RangeCheckResult.ofBounds, if_neg (by omega), if_neg (by omega)]
  · rename_i overlaps
    obtain ⟨same, toSigned, toUnsigned⟩ := limits_of_overlapsRange dst src overlaps
    split
    · rename_i dstSign srcSign
      have within := same (dstSign.trans srcSign.symm)
      rw [le_highest_eq value (within.represents ⟨order, Int.le_refl _⟩),
        builtin_cast _ _ (within.represents (dst.represents_toInt dst.lowest)),
        IntType.toInt_lowest]
      exact rangeCheckResult_eq order _
    · rename_i dstSign srcSign
      have within := same (dstSign.trans srcSign.symm)
      have zero := lowest_of_unsigned dst dstSign
      have nonnegative := IntFormat.toInt_nonneg srcSign value
      rw [le_highest_eq value (within.represents ⟨order, Int.le_refl _⟩),
        ← rangeCheckResult_eq order, zero]
      congr 1
      exact (decide_eq_true nonnegative).symm
    · rename_i dstSign srcSign
      obtain ⟨small, kept⟩ := toSigned dstSign srcSign
      have nonnegative := IntFormat.toInt_nonneg srcSign value
      have zero := (represents_zero dst).1
      rw [if_neg (by omega), le_highest_eq value kept, ← rangeCheckResult_eq order]
      congr 1
      exact (decide_eq_true (zero.trans nonnegative)).symm
    · rename_i dstSign srcSign
      obtain ⟨wide, narrow⟩ := toUnsigned dstSign srcSign
      have zero := lowest_of_unsigned dst dstSign
      rw [ge_zero_eq, ← rangeCheckResult_eq order, zero]
      split
      · rename_i enough
        rw [decide_eq_true (srcHighest.trans (wide enough))]
      · rename_i few
        rw [le_highest_eq value (narrow few)]

-----------------------------------------------------------------------------------------
-- Saturation
-----------------------------------------------------------------------------------------

theorem isValueInRange_iff (dst : IntType) {src : IntType} (value : src.Value)
    : isValueInRangeForNumericType dst value = true ↔ dst.Represents (src.toInt value) := by
  rw [isValueInRangeForNumericType, decide_eq_true_iff, rangeCheck_eq, RangeCheckResult.ofBounds]
  unfold IntType.Represents IntFormat.Represents
  split_ifs with below above
  · refine ⟨nofun, ?_⟩
    omega
  · refine ⟨nofun, ?_⟩
    omega
  · exact ⟨fun _ => by omega, fun _ => rfl⟩

/-- The cast moves a number to the nearest bound of the destination's range, if it is outside. -/
theorem toInt_saturatedCast (dst : IntType) {src : IntType} (value : src.Value)
    : dst.toInt (saturatedCast dst value)
      = max dst.format.lowest (min (src.toInt value) dst.format.highest) := by
  have order := dst.lowest_le_highest
  unfold saturatedCast
  rw [rangeCheck_eq, RangeCheckResult.ofBounds]
  split_ifs with below above
  · rw [IntType.toInt_lowest]
    omega
  · rw [IntType.toInt_highest]
    omega
  · rw [IntType.toInt_cast ⟨by omega, by omega⟩]
    omega

/-- A value is in range exactly when the destination can represent it, and the saturated value is
nearer to it than any other value of the destination.
-/
theorem saturated_conversion_exact (dst src : IntType) (value : src.Value)
    : (isValueInRangeForNumericType dst value = true ↔ dst.Represents (src.toInt value))
      ∧ ∀ other : dst.Value, other ≠ saturatedCast dst value →
          (dst.toInt (saturatedCast dst value) - src.toInt value).natAbs
            < (dst.toInt other - src.toInt value).natAbs := by
  refine ⟨isValueInRange_iff dst value, ?_⟩
  intro other differs
  have saturated := toInt_saturatedCast dst value
  obtain ⟨below, above⟩ := dst.represents_toInt other
  have apart : dst.toInt other ≠ dst.toInt (saturatedCast dst value) :=
    fun same => differs (dst.format.toInt_injective same)
  omega

/-- 300 does not fit into `uint8_t`, whose value nearest to it is 255. -/
theorem saturated_conversion_exact_uint8
    : let value : IntType.Value .int16 := IntType.literal .int16 300
      isValueInRangeForNumericType .uint8 value = false
      ∧ saturatedCast .uint8 value = IntType.literal .uint8 255
      ∧ (IntType.toInt .uint8 (saturatedCast .uint8 value) - IntType.toInt .int16 value).natAbs
        < (IntType.toInt .uint8 (IntType.literal .uint8 254) - IntType.toInt .int16 value).natAbs := by
  intro value
  obtain ⟨-, nearest⟩ := saturated_conversion_exact .uint8 .int16 value
  exact ⟨by decide, by decide, nearest (IntType.literal .uint8 254) (by decide)⟩

end RtcBase.Numerics
