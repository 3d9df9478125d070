import Mathlib.Data.Rat.Floor
import Mathlib.Tactic.Linarith
import SensoryProse.Perception.Strength

/-!
# Detection as a measure

In exact numbers, an emission below the band reaches the strength `-n` where it is `n` below the
floor, and any other reaches the strength `n` where it is `n` above the ceiling.  From these
thresholds it follows how the strength changes with the emission and with the modifier, and where it
is at an end of the scale or at zero.
-/

namespace SensoryProse

/-- An exact number without its fraction. -/
def towardZero (number : ℚ) : ℤ := if number < 0 then ⌈number⌉ else ⌊number⌋

theorem towardZero_of_neg {number : ℚ} (negative : number < 0) :
    towardZero number = -⌊-number⌋ := by
  rw [towardZero, if_pos negative, Int.floor_neg, neg_neg]

theorem towardZero_of_nonneg {number : ℚ} (nonnegative : 0 ≤ number) :
    towardZero number = ⌊number⌋ :=
  if_neg nonnegative.not_gt

instance : Quantity ℚ where
  ofInt number := number
  less left right := left < right
  truncate := towardZero

namespace Band

/-- The strength, whatever its sign, of an emission that lies so far outside of the band. -/
def strengthAt (distance : ℚ) : ℤ := min 100 ⌊distance⌋

section

variable {distance : ℚ}

theorem strengthAt_le (distance : ℚ) : strengthAt distance ≤ 100 := min_le_left _ _

theorem strengthAt_nonneg (nonnegative : 0 ≤ distance) : 0 ≤ strengthAt distance :=
  le_min (by decide) (Int.floor_nonneg.mpr nonnegative)

theorem le_strengthAt_iff {bound : ℤ} (onScale : bound ≤ 100) :
    bound ≤ strengthAt distance ↔ bound ≤ distance := by
  rw [strengthAt, le_min_iff, Int.le_floor, and_iff_right onScale]

/-- A distance may be cut off before it is rounded. -/
theorem strengthAt_eq : strengthAt distance = if 100 < distance then 100 else ⌊distance⌋ := by
  split
  · rename_i far
    apply le_antisymm (strengthAt_le distance)
    exact (le_strengthAt_iff le_rfl).mpr (by exact_mod_cast far.le)
  · rename_i near
    apply min_eq_right
    have rounded : (⌊distance⌋ : ℚ) ≤ 100 := (Int.floor_le distance).trans (not_lt.mp near)
    exact_mod_cast rounded

end

/-- The lower end of a band that is widened by `modifier`. -/
def floor (band : Band) (modifier : ℤ) : ℤ := band.low - modifier

/-- The upper end of a band that is widened by `modifier`. -/
def ceiling (band : Band) (modifier : ℤ) : ℤ := band.high + modifier

/-- At which strength an emission is detected: below the floor, above the ceiling or in the band. -/
inductive Detected (band : Band) (emission : ℚ) (modifier : ℤ) : ℤ → Prop
  | below (short : emission < band.floor modifier) :
      Detected band emission modifier (-strengthAt (band.floor modifier - emission))
  | above (reaches : band.floor modifier ≤ emission) (exceeds : band.ceiling modifier < emission) :
      Detected band emission modifier (strengthAt (emission - band.ceiling modifier))
  | within (reaches : band.floor modifier ≤ emission) (keeps : emission ≤ band.ceiling modifier) :
      Detected band emission modifier 0

theorem strength_detected (band : Band) (emission : ℚ) (modifier : ℤ) :
    Detected band emission modifier (band.strength emission modifier) := by
  have floor_eq : (band.low : ℚ) - modifier = band.floor modifier := (Int.cast_sub _ _).symm
  have ceiling_eq : (band.high : ℚ) + modifier = band.ceiling modifier := (Int.cast_add _ _).symm
  simp only [strength, Quantity.less, Quantity.ofInt, Quantity.truncate, decide_eq_true_eq,
    floor_eq, ceiling_eq, neg_sub, Int.cast_zero, sub_neg]
  by_cases short : emission < band.floor modifier
  · have detected := Detected.below short
    rw [strengthAt_eq, apply_ite Neg.neg] at detected
    have far : emission - band.floor modifier < (-100 : ℤ) ↔
        100 < (band.floor modifier : ℚ) - emission := by
      rw [Int.cast_neg, lt_neg, neg_sub, Int.cast_ofNat]
    rw [if_pos short, towardZero_of_neg (sub_neg.mpr short)]
    simpa only [far, neg_sub] using detected
  · rw [if_neg short]
    by_cases exceeds : band.ceiling modifier < emission
    · have detected := Detected.above (not_lt.mp short) exceeds
      rw [strengthAt_eq] at detected
      rw [if_pos exceeds, towardZero_of_nonneg (sub_pos.mpr exceeds).le]
      simpa using detected
    · rw [if_neg exceeds]
      exact .within (not_lt.mp short) (not_lt.mp exceeds)

section

variable {band : Band} {emission : ℚ} {modifier strength bound : ℤ}

theorem Detected.onScale (detected : Detected band emission modifier strength) :
    -100 ≤ strength ∧ strength ≤ 100 := by
  cases detected with
  | below short =>
      have near := strengthAt_nonneg (sub_pos.mpr short).le
      have far := strengthAt_le (band.floor modifier - emission)
      omega
  | above _ exceeds =>
      have near := strengthAt_nonneg (sub_pos.mpr exceeds).le
      have far := strengthAt_le (emission - band.ceiling modifier)
      omega
  | within => decide

/-- What is not below the floor is detected as strongly as it exceeds the ceiling. -/
theorem Detected.le_iff (detected : Detected band emission modifier strength)
    (positive : 0 < bound) (onScale : bound ≤ 100) :
    bound ≤ strength ↔
      band.floor modifier ≤ emission ∧ band.ceiling modifier + bound ≤ emission := by
  have counts : (0 : ℚ) < bound := Int.cast_pos.mpr positive
  cases detected with
  | below short =>
      have near := strengthAt_nonneg (sub_pos.mpr short).le
      constructor
      · intro reached
        omega
      · intro ⟨reaches, _⟩
        exact absurd short reaches.not_gt
  | above reaches _ =>
      rw [le_strengthAt_iff onScale, le_sub_iff_add_le', and_iff_right reaches]
  | within _ keeps =>
      constructor
      · intro reached
        omega
      · intro ⟨_, exceeds⟩
        linarith

/-- What is below the floor is detected as faintly as it falls short of it. -/
theorem Detected.le_neg_iff (detected : Detected band emission modifier strength)
    (positive : 0 < bound) (onScale : bound ≤ 100) :
    strength ≤ -bound ↔ emission ≤ band.floor modifier - bound := by
  have counts : (0 : ℚ) < bound := Int.cast_pos.mpr positive
  cases detected with
  | below _ => rw [neg_le_neg_iff, le_strengthAt_iff onScale, le_sub_comm]
  | above reaches exceeds =>
      have near := strengthAt_nonneg (sub_pos.mpr exceeds).le
      constructor
      · intro faint
        omega
      · intro short
        linarith
  | within reaches _ =>
      constructor
      · intro faint
        omega
      · intro short
        linarith

/-- What exceeds the ceiling is not below the floor, if these are in order. -/
theorem Detected.le_iff_of_ordered (detected : Detected band emission modifier strength)
    (ordered : band.floor modifier ≤ band.ceiling modifier) (positive : 0 < bound)
    (onScale : bound ≤ 100) :
    bound ≤ strength ↔ band.ceiling modifier + bound ≤ emission := by
  rw [detected.le_iff positive onScale, and_iff_right_iff_imp]
  intro exceeds
  have ends : (band.floor modifier : ℚ) ≤ band.ceiling modifier := Int.cast_le.mpr ordered
  have counts : (0 : ℚ) < bound := Int.cast_pos.mpr positive
  linarith

theorem Detected.eq_weakest_iff (detected : Detected band emission modifier strength) :
    strength = -100 ↔ emission ≤ band.floor modifier - 100 := by
  have onScale := detected.onScale
  have faint : strength ≤ -100 ↔ emission ≤ band.floor modifier - 100 :=
    mod_cast detected.le_neg_iff (by decide : (0 : ℤ) < 100) le_rfl
  rw [← faint]
  omega

theorem Detected.eq_strongest_iff (detected : Detected band emission modifier strength)
    (ordered : band.floor modifier ≤ band.ceiling modifier) :
    strength = 100 ↔ band.ceiling modifier + 100 ≤ emission := by
  have onScale := detected.onScale
  have intense : 100 ≤ strength ↔ band.ceiling modifier + 100 ≤ emission :=
    mod_cast detected.le_iff_of_ordered ordered (by decide : (0 : ℤ) < 100) le_rfl
  rw [← intense]
  omega

theorem Detected.eq_zero_iff (detected : Detected band emission modifier strength)
    (ordered : band.floor modifier ≤ band.ceiling modifier) :
    strength = 0 ↔ band.floor modifier - 1 < emission ∧ emission < band.ceiling modifier + 1 := by
  have faint : strength ≤ -1 ↔ emission ≤ band.floor modifier - 1 :=
    mod_cast detected.le_neg_iff (by decide : (0 : ℤ) < 1) (by decide)
  have intense : 1 ≤ strength ↔ band.ceiling modifier + 1 ≤ emission :=
    mod_cast detected.le_iff_of_ordered ordered (by decide : (0 : ℤ) < 1) (by decide)
  rw [← not_le, ← not_le, ← faint, ← intense]
  omega

/-- A stronger emission is detected no more faintly. -/
theorem Detected.mono {lesser greater : ℚ} {first second : ℤ}
    (firstDetected : Detected band lesser modifier first)
    (secondDetected : Detected band greater modifier second) (rises : lesser ≤ greater) :
    first ≤ second := by
  have firstScale := firstDetected.onScale
  have secondScale := secondDetected.onScale
  -- A strength above zero is reached again by the greater emission, and one below zero that the
  -- greater emission falls to is reached by the lesser one.
  rcases lt_or_ge 0 first with positive | nonpositive
  · obtain ⟨reaches, exceeds⟩ := (firstDetected.le_iff positive firstScale.2).mp le_rfl
    exact (secondDetected.le_iff positive firstScale.2).mpr
      ⟨reaches.trans rises, exceeds.trans rises⟩
  · by_contra falls
    have negative : 0 < -second := by omega
    have onScale : -second ≤ 100 := by omega
    have short := (secondDetected.le_neg_iff negative onScale).mp (neg_neg second).ge
    have faint := (firstDetected.le_neg_iff negative onScale).mpr (rises.trans short)
    omega

/-- Nothing lies further outside of a wider band. -/
theorem Detected.natAbs_le_of_wider {wider other : ℤ}
    (detected : Detected band emission modifier strength)
    (otherDetected : Detected band emission wider other)
    (ordered : band.floor modifier ≤ band.ceiling modifier) (widens : modifier ≤ wider) :
    other.natAbs ≤ strength.natAbs := by
  have otherScale := otherDetected.onScale
  have lower : (band.floor wider : ℚ) ≤ band.floor modifier :=
    Int.cast_le.mpr (sub_le_sub_left widens band.low)
  have higher : (band.ceiling modifier : ℚ) ≤ band.ceiling wider :=
    Int.cast_le.mpr (add_le_add_right widens band.high)
  rcases lt_trichotomy other 0 with negative | zero | positive
  · have counts : 0 < -other := by omega
    have onScale : -other ≤ 100 := by omega
    have short := (otherDetected.le_neg_iff counts onScale).mp (neg_neg other).ge
    have faint := (detected.le_neg_iff counts onScale).mpr
      (short.trans (sub_le_sub_right lower _))
    omega
  · rw [zero]
    exact Nat.zero_le _
  · obtain ⟨_, exceeds⟩ := (otherDetected.le_iff positive otherScale.2).mp le_rfl
    have intense := (detected.le_iff_of_ordered ordered positive otherScale.2).mpr
      ((add_le_add_left higher _).trans exceeds)
    omega

end

/-- The strength of exact emissions is a measure of them, whatever the band. -/
structure Measures (band : Band) (modifier : ℤ) : Prop where
  onScale : ∀ emission : ℚ,
    -100 ≤ band.strength emission modifier ∧ band.strength emission modifier ≤ 100
  rises : ∀ lesser greater : ℚ, lesser ≤ greater →
    band.strength lesser modifier ≤ band.strength greater modifier

/-- Where the strength is at an end of the scale and where it is zero, and that its magnitude does
not grow as the band is widened. -/
structure Saturates (band : Band) (modifier : ℤ) : Prop where
  weakest_iff : ∀ emission : ℚ,
    band.strength emission modifier = -100 ↔ emission ≤ band.low - modifier - 100
  strongest_iff : ∀ emission : ℚ,
    band.strength emission modifier = 100 ↔ band.high + modifier + 100 ≤ emission
  zero_iff : ∀ emission : ℚ,
    band.strength emission modifier = 0 ↔
      band.low - modifier - 1 < emission ∧ emission < band.high + modifier + 1
  fades : ∀ wider, modifier ≤ wider → ∀ emission : ℚ,
    (band.strength emission wider).natAbs ≤ (band.strength emission modifier).natAbs

/-- The strength is a measure of exact emissions, and one that saturates if the ends of the band are
in order. -/
theorem measures_and_saturates (band : Band) (modifier : ℤ) :
    band.Measures modifier ∧
      (band.low - modifier ≤ band.high + modifier → band.Saturates modifier) := by
  have detected := band.strength_detected
  constructor
  · constructor
    · intro emission
      exact (detected emission modifier).onScale
    · intro lesser greater rises
      exact (detected lesser modifier).mono (detected greater modifier) rises
  · intro ordered
    have floor_eq : (band.floor modifier : ℚ) = band.low - modifier := Int.cast_sub _ _
    have ceiling_eq : (band.ceiling modifier : ℚ) = band.high + modifier := Int.cast_add _ _
    constructor
    · intro emission
      rw [← floor_eq]
      exact (detected emission modifier).eq_weakest_iff
    · intro emission
      rw [← ceiling_eq]
      exact (detected emission modifier).eq_strongest_iff ordered
    · intro emission
      rw [← floor_eq, ← ceiling_eq]
      exact (detected emission modifier).eq_zero_iff ordered
    · intro wider widens emission
      exact (detected emission modifier).natAbs_le_of_wider (detected emission wider) ordered widens

/-- A band from 10 to 90 that is narrowed by 20 still has its ends in order.  Its floor is at 30,
from which an emission of -20.5 is a little more than 50 away. -/
theorem narrowed_band_measures :
    (⟨10, 90⟩ : Band).low - (-20) ≤ (⟨10, 90⟩ : Band).high + (-20) ∧
      (⟨10, 90⟩ : Band).Measures (-20) ∧ (⟨10, 90⟩ : Band).Saturates (-20) ∧
      (⟨10, 90⟩ : Band).strength (-41 / 2 : ℚ) (-20) = -50 := by
  have ordered : (⟨10, 90⟩ : Band).low - (-20) ≤ (⟨10, 90⟩ : Band).high + (-20) := by decide
  obtain ⟨measures, saturates⟩ := measures_and_saturates ⟨10, 90⟩ (-20)
  exact ⟨ordered, measures, saturates ordered, by decide +kernel⟩

end Band

end SensoryProse
