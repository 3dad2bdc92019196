import RtcBase.Numerics.SafeCompare

/-! `SafeMin`, `SafeMax` and `SafeClamp` for integer types. The type of a result is computed from
the limits of the types of the arguments, by the same comparisons that the functions make; a type
that fails a `static_assert` is `none`.
-/

namespace RtcBase.Numerics

open Library

-----------------------------------------------------------------------------------------
-- Minimum and maximum
-----------------------------------------------------------------------------------------

/-- `MType::min_t`: the type with the lowest minimum, or the lowest maximum in case of a tie. -/
def minType (t1 t2 : IntType) : IntType :=
  if safeLt t1.lowest t2.lowest then t1
  else if safeGt t1.lowest t2.lowest then t2
  else if safeLe t1.highest t2.highest then t1
  else t2

/-- `MType::max_t`: the type with the highest maximum. -/
def maxType (t1 t2 : IntType) : IntType := if safeGe t1.highest t2.highest then t1 else t2

/-- The `static_assert` of `MType` that types with the same maximum have the same minimum. -/
def sameMaxSameMin (t1 t2 : IntType) : Bool :=
  safeNe t1.highest t2.highest || safeEq t1.lowest t2.lowest

/-- `TypeOr`: the requested type, if any, which has to hold all values of the default one. -/
def typeOr (requested : Option IntType) (fallback : IntType) : Option IntType :=
  let type := requested.getD fallback
  if safeLe type.lowest fallback.lowest && safeGe type.highest fallback.highest then some type
  else none

/-- The body of `SafeMin` with a result type. -/
def safeMinAs (r : IntType) {t1 t2 : IntType} (a : t1.Value) (b : t2.Value) : r.Value :=
  if safeLt a b then t1.cast r a else t2.cast r b

/-- The body of `SafeMax` with a result type. -/
def safeMaxAs (r : IntType) {t1 t2 : IntType} (a : t1.Value) (b : t2.Value) : r.Value :=
  if safeGt a b then t1.cast r a else t2.cast r b

/-- `SafeMin` with its default type. -/
def safeMin {t1 t2 : IntType} (a : t1.Value) (b : t2.Value) : (minType t1 t2).Value :=
  safeMinAs (minType t1 t2) a b

/-- `SafeMax` with its default type. -/
def safeMax {t1 t2 : IntType} (a : t1.Value) (b : t2.Value) : (maxType t1 t2).Value :=
  safeMaxAs (maxType t1 t2) a b

-----------------------------------------------------------------------------------------
-- Clamp
-----------------------------------------------------------------------------------------

section ClampType

variable (t l h : IntType)

/-- `ClampType::r_min`. -/
def rMin : (maxType l (minType h t)).Value := safeMax l.lowest (safeMin h.lowest t.lowest)

/-- `ClampType::r_max`. -/
def rMax : (minType h (maxType l t)).Value := safeMin h.highest (safeMax l.highest t.highest)

/-- `ClampType::AcceptableType`. -/
def acceptableType (a : IntType) : Bool :=
  let notTooLarge := decide (a.size ≤ l.size) || decide (a.size ≤ h.size) || decide (a.size ≤ t.size)
  let rangeContained := safeLe a.lowest (rMin t l h) && safeLe (rMax t l h) a.highest
  notTooLarge && rangeContained

/-- `ClampType::best_signed_type`. -/
def bestSignedType : IntType :=
  if acceptableType t l h .int8 then .int8
  else if acceptableType t l h .int16 then .int16
  else if acceptableType t l h .int32 then .int32
  else .int64

/-- `ClampType::best_unsigned_type`. -/
def bestUnsignedType : IntType :=
  if acceptableType t l h .uint8 then .uint8
  else if acceptableType t l h .uint16 then .uint16
  else if acceptableType t l h .uint32 then .uint32
  else .uint64

/-- `ClampType::type`. -/
def clampType : IntType :=
  if t.isSigned then
    if acceptableType t l h (bestSignedType t l h) then bestSignedType t l h
    else bestUnsignedType t l h
  else if acceptableType t l h (bestUnsignedType t l h) then bestUnsignedType t l h
  else bestSignedType t l h

end ClampType

/-- The body of `SafeClamp` with a result type. -/
def safeClampAs (r : IntType) {t l h : IntType} (x : t.Value) (min : l.Value) (max : h.Value)
    : r.Value :=
  if safeLe x min then l.cast r min else if safeGe x max then h.cast r max else t.cast r x

/-- `SafeClamp` with its default type. -/
def safeClamp {t l h : IntType} (x : t.Value) (min : l.Value) (max : h.Value)
    : (clampType t l h).Value :=
  safeClampAs (clampType t l h) x min max

-----------------------------------------------------------------------------------------
-- Result types
-----------------------------------------------------------------------------------------

theorem minType_spec (t1 t2 : IntType)
    : (minType t1 t2).format.lowest = min t1.format.lowest t2.format.lowest
      ∧ min t1.format.highest t2.format.highest ≤ (minType t1 t2).format.highest := by
  simp only [minType, safeLt, safeGt, safeLe, safeCompare_eq, IntType.toInt_lowest,
    IntType.toInt_highest, Comparison.holds, decide_eq_true_eq]
  split_ifs <;> omega

theorem maxType_spec (t1 t2 : IntType)
    : (maxType t1 t2).format.highest = max t1.format.highest t2.format.highest
      ∧ (maxType t1 t2).format.lowest ≤ max t1.format.lowest t2.format.lowest := by
  simp only [maxType, safeGe, safeCompare_eq, IntType.toInt_highest, Comparison.holds,
    decide_eq_true_eq]
  split_ifs <;> omega

/-- A type is accepted exactly when it holds all values of the default one. -/
theorem typeOr_eq_some_iff (requested : Option IntType) (fallback r : IntType)
    : typeOr requested fallback = some r
      ↔ requested.getD fallback = r ∧ fallback.Within r := by
  simp only [typeOr, safeLe, safeGe, safeCompare_eq, IntType.toInt_lowest, IntType.toInt_highest,
    Comparison.holds, Bool.and_eq_true, decide_eq_true_eq, Option.ite_none_right_eq_some,
    Option.some.injEq]
  constructor
  · rintro ⟨within, rfl⟩
    exact ⟨rfl, within⟩
  · rintro ⟨rfl, within⟩
    exact ⟨within, rfl⟩

theorem typeOr_none (fallback : IntType) : typeOr none fallback = some fallback :=
  (typeOr_eq_some_iff none fallback fallback).mpr ⟨rfl, Int.le_refl _, Int.le_refl _⟩

-----------------------------------------------------------------------------------------
-- Exact results
-----------------------------------------------------------------------------------------

/-- `SafeMin` is exact with every type that it accepts. -/
theorem toInt_safeMinAs {r t1 t2 : IntType} (within : (minType t1 t2).Within r) (a : t1.Value)
    (b : t2.Value)
    : r.toInt (safeMinAs r a b) = min (t1.toInt a) (t2.toInt b) := by
  obtain ⟨below, above⟩ := minType_spec t1 t2
  obtain ⟨lowestA, highestA⟩ := t1.represents_toInt a
  obtain ⟨lowestB, highestB⟩ := t2.represents_toInt b
  have represents : r.Represents (min (t1.toInt a) (t2.toInt b)) :=
    within.represents ⟨by omega, by omega⟩
  rw [safeMinAs, safeLt, safeCompare_eq, Comparison.holds]
  by_cases less : t1.toInt a < t2.toInt b
  · rw [min_eq_left (Int.le_of_lt less)] at represents ⊢
    rw [if_pos (decide_eq_true less)]
    exact IntType.toInt_cast represents
  · rw [min_eq_right (Int.not_lt.mp less)] at represents ⊢
    rw [if_neg (by simpa using less)]
    exact IntType.toInt_cast represents

/-- `SafeMax` is exact with every type that it accepts. -/
theorem toInt_safeMaxAs {r t1 t2 : IntType} (within : (maxType t1 t2).Within r) (a : t1.Value)
    (b : t2.Value)
    : r.toInt (safeMaxAs r a b) = max (t1.toInt a) (t2.toInt b) := by
  obtain ⟨above, below⟩ := maxType_spec t1 t2
  obtain ⟨lowestA, highestA⟩ := t1.represents_toInt a
  obtain ⟨lowestB, highestB⟩ := t2.represents_toInt b
  have represents : r.Represents (max (t1.toInt a) (t2.toInt b)) :=
    within.represents ⟨by omega, by omega⟩
  rw [safeMaxAs, safeGt, safeCompare_eq, Comparison.holds]
  by_cases greater : t1.toInt a > t2.toInt b
  · rw [max_eq_left (Int.le_of_lt greater)] at represents ⊢
    rw [if_pos (decide_eq_true greater)]
    exact IntType.toInt_cast represents
  · rw [max_eq_right (Int.not_lt.mp greater)] at represents ⊢
    rw [if_neg (by simpa using greater)]
    exact IntType.toInt_cast represents

theorem toInt_safeMin {t1 t2 : IntType} (a : t1.Value) (b : t2.Value)
    : (minType t1 t2).toInt (safeMin a b) = min (t1.toInt a) (t2.toInt b) :=
  toInt_safeMinAs ⟨Int.le_refl _, Int.le_refl _⟩ a b

theorem toInt_safeMax {t1 t2 : IntType} (a : t1.Value) (b : t2.Value)
    : (maxType t1 t2).toInt (safeMax a b) = max (t1.toInt a) (t2.toInt b) :=
  toInt_safeMaxAs ⟨Int.le_refl _, Int.le_refl _⟩ a b

-----------------------------------------------------------------------------------------
-- The type of a clamp
-----------------------------------------------------------------------------------------

section ClampRange

variable {t l h : IntType}

/-- The type has all numbers that a clamp can come to. -/
def HoldsClamps (t l h a : IntType) : Prop :=
  a.format.lowest ≤ max l.format.lowest (min h.format.lowest t.format.lowest)
  ∧ min h.format.highest (max l.format.highest t.format.highest) ≤ a.format.highest

instance (t l h a : IntType) : Decidable (HoldsClamps t l h a) :=
  inferInstanceAs (Decidable (_ ∧ _))

theorem acceptableType_iff (t l h a : IntType)
    : acceptableType t l h a = true
      ↔ (a.size ≤ l.size ∨ a.size ≤ h.size ∨ a.size ≤ t.size) ∧ HoldsClamps t l h a := by
  simp only [acceptableType, HoldsClamps, rMin, rMax, safeLe, safeCompare_eq, toInt_safeMin,
    toInt_safeMax, IntType.toInt_lowest, IntType.toInt_highest, Comparison.holds, Bool.and_eq_true,
    Bool.or_eq_true, decide_eq_true_eq, or_assoc]

/-- The type of one of the arguments has all numbers that a clamp can come to. -/
theorem argument_holdsClamps
    : ∀ t l h : IntType, HoldsClamps t l h t ∨ HoldsClamps t l h l ∨ HoldsClamps t l h h := by
  decide +kernel

theorem exists_acceptableType (t l h : IntType) : ∃ a, acceptableType t l h a = true := by
  rcases argument_holdsClamps t l h with holds | holds | holds
  · exact ⟨t, (acceptableType_iff t l h t).mpr ⟨by omega, holds⟩⟩
  · exact ⟨l, (acceptableType_iff t l h l).mpr ⟨by omega, holds⟩⟩
  · exact ⟨h, (acceptableType_iff t l h h).mpr ⟨by omega, holds⟩⟩

/-- The best type of a signedness is acceptable if any type of it is. -/
theorem acceptable_bestType {a : IntType} (acceptable : acceptableType t l h a = true)
    : acceptableType t l h (if a.isSigned then bestSignedType t l h else bestUnsignedType t l h)
      = true := by
  unfold bestSignedType bestUnsignedType
  cases a <;> simp only [IntType.isSigned] <;> split_ifs <;> simp_all

/-- The chosen type is acceptable: the best one of the other signedness is taken where there is none
of the preferred one.
-/
theorem acceptable_clampType (t l h : IntType)
    : acceptableType t l h (clampType t l h) = true := by
  obtain ⟨a, acceptable⟩ := exists_acceptableType t l h
  have best := acceptable_bestType acceptable
  unfold clampType
  split_ifs at best ⊢ <;> simp_all

/-- A clamp comes to a number of every type that holds the clamps: a bound is returned only where the
value is beyond it.
-/
theorem HoldsClamps.represents {a : IntType} (holds : HoldsClamps t l h a) {x low high : Int}
    (inT : t.Represents x) (inL : l.Represents low) (inH : h.Represents high) (order : low ≤ high)
    : a.Represents (max low (min x high)) := by
  obtain ⟨below, above⟩ := holds
  obtain ⟨lowestT, highestT⟩ := inT
  obtain ⟨lowestL, highestL⟩ := inL
  obtain ⟨lowestH, highestH⟩ := inH
  constructor <;> omega

/-- `SafeClamp` is exact with every type that holds the clamps. -/
theorem toInt_safeClampAs {r : IntType} (holds : HoldsClamps t l h r) (x : t.Value) {low : l.Value}
    {high : h.Value} (order : l.toInt low ≤ h.toInt high)
    : r.toInt (safeClampAs r x low high)
      = max (l.toInt low) (min (t.toInt x) (h.toInt high)) := by
  have represents := holds.represents (t.represents_toInt x) (l.represents_toInt low)
    (h.represents_toInt high) order
  simp only [safeClampAs, safeLe, safeGe, safeCompare_eq, Comparison.holds, decide_eq_true_eq]
  split_ifs with below above
  · rw [max_eq_left (by omega)] at represents ⊢
    exact IntType.toInt_cast represents
  · rw [max_eq_right (by omega), min_eq_right (by omega)] at represents ⊢
    exact IntType.toInt_cast represents
  · rw [max_eq_right (by omega), min_eq_left (by omega)] at represents ⊢
    exact IntType.toInt_cast represents

end ClampRange

/-- The default types pass their assertions, and `SafeMin`, `SafeMax` and `SafeClamp` return in them
the minimum, the maximum and the clamp as numbers.
-/
theorem safe_minmax_exact
    : (∀ (t1 t2 : IntType) (a : t1.Value) (b : t2.Value),
          sameMaxSameMin t1 t2 = true
          ∧ typeOr none (minType t1 t2) = some (minType t1 t2)
          ∧ (minType t1 t2).toInt (safeMin a b) = min (t1.toInt a) (t2.toInt b)
          ∧ typeOr none (maxType t1 t2) = some (maxType t1 t2)
          ∧ (maxType t1 t2).toInt (safeMax a b) = max (t1.toInt a) (t2.toInt b))
      ∧ ∀ (t l h : IntType) (x : t.Value) (low : l.Value) (high : h.Value),
          l.toInt low ≤ h.toInt high →
          acceptableType t l h (clampType t l h) = true
          ∧ typeOr none (clampType t l h) = some (clampType t l h)
          ∧ (clampType t l h).Represents (max (l.toInt low) (min (t.toInt x) (h.toInt high)))
          ∧ (clampType t l h).toInt (safeClamp x low high)
            = max (l.toInt low) (min (t.toInt x) (h.toInt high)) := by
  have sameLimits : ∀ t1 t2 : IntType, sameMaxSameMin t1 t2 = true := by decide +kernel
  refine ⟨?_, ?_⟩
  · intro t1 t2 a b
    exact ⟨sameLimits t1 t2, typeOr_none _, toInt_safeMin a b, typeOr_none _, toInt_safeMax a b⟩
  · intro t l h x low high order
    have acceptable := acceptable_clampType t l h
    have holds := ((acceptableType_iff t l h _).mp acceptable).2
    exact ⟨acceptable, typeOr_none _,
      holds.represents (t.represents_toInt x) (l.represents_toInt low) (h.represents_toInt high)
        order,
      toInt_safeClampAs holds x order⟩

/-- A `uint8_t` between an `int8_t` and an `int16_t` is clamped to a type that is neither the first
nor the second.
-/
theorem safe_minmax_exact_mixed
    : clampType .uint8 .int8 .int16 = .int16
      ∧ (clampType .uint8 .int8 .int16).toInt
          (safeClamp (IntType.literal .uint8 200) (IntType.literal .int8 (-5))
            (IntType.literal .int16 300))
        = 200 := by
  obtain ⟨-, clamps⟩ := safe_minmax_exact
  obtain ⟨-, -, -, clamped⟩ := clamps .uint8 .int8 .int16 (IntType.literal .uint8 200)
    (IntType.literal .int8 (-5)) (IntType.literal .int16 300) (by decide)
  refine ⟨by decide +kernel, clamped.trans ?_⟩
  decide

end RtcBase.Numerics
