/-!
# Binary64 numbers, exactly

A finite double is a sign and a whole number of units of 2⁻¹⁰⁷⁴, so sums and comparisons are
integer arithmetic and every operation rounds once. Besides there are the two infinities and NaN:

* `nearest`: the whole number nearest to a quotient, ties to the even one;
* `Double.ofQuotient`: the double nearest to a quotient of units, infinite when too large;
* `Double.add`, `Double.sub`, `Double.le`: what positions on a canvas need. Positions and distances
  may be any doubles; a sum that is indeterminate is NaN, which is in no order with any double;
* `Double.fits_roundUnits`, `Double.roundUnits_of_fits`: a rounding within range is a double, and
  a double is its own rounding.
-/

namespace Stepflow

/-- The whole number nearest to `n / d`; of two equally near ones the even one. -/
def nearest (n d : Nat) : Nat :=
  if 2 * (n % d) < d ∨ (2 * (n % d) = d ∧ n / d % 2 = 0) then n / d else n / d + 1

theorem nearest_of_dvd {n d : Nat} (pos : 0 < d) (h : d ∣ n) : nearest n d = n / d := by
  simp [nearest, Nat.mod_eq_zero_of_dvd h, pos]

theorem nearest_le (n d : Nat) : nearest n d ≤ n / d + 1 := by
  unfold nearest; split <;> omega

theorem nearest_ge (n d : Nat) : n / d ≤ nearest n d := by
  unfold nearest; split <;> omega

/-- Only the quotient counts. -/
theorem nearest_mul_right (n d : Nat) {k : Nat} (pos : 0 < k) :
    nearest (n * k) (d * k) = nearest n d := by
  have half : 2 * (n % d * k) = 2 * (n % d) * k := by rw [Nat.mul_assoc]
  simp only [nearest, Nat.mul_mod_mul_right, Nat.mul_div_mul_right _ _ pos, half,
    Nat.mul_lt_mul_right pos, Nat.mul_right_cancel_iff pos]

namespace Double

/-- Doubles of spacing `s` are `2ˢ` units apart. -/
def step (s : Nat) : Nat := Nat.pow 2 s

theorem step_pos (s : Nat) : 0 < step s := Nat.two_pow_pos s

theorem step_add (s t : Nat) : step (s + t) = step s * step t := Nat.pow_add 2 s t

theorem step_le_step {s t : Nat} (h : s ≤ t) : step s ≤ step t :=
  Nat.pow_le_pow_right (by decide) h

theorem step_dvd_step {s t : Nat} (h : s ≤ t) : step s ∣ step t := Nat.pow_dvd_pow 2 h

theorem log2_lt_iff {u s : Nat} (nonzero : u ≠ 0) : u.log2 < s ↔ u < step s :=
  Nat.log2_lt nonzero

theorem lt_step_log2 (u : Nat) : u < step (u.log2 + 1) := Nat.lt_log2_self

theorem step_log2_le {u : Nat} (nonzero : u ≠ 0) : step u.log2 ≤ u := Nat.log2_self_le nonzero

/-- A unit is `2 ^ -depth`. -/
def depth : Nat := 1074

def unitsPerOne : Nat := step depth

theorem unitsPerOne_pos : 0 < unitsPerOne := step_pos depth

/-- The spacing of doubles around `u` units: they have 53 significant bits. -/
def spacing (u : Nat) : Nat := u.log2 - 52

/-- `u` units are a finite double: at most 53 significant bits, below 2¹⁰²⁴. -/
def Fits (u : Nat) : Prop := u.log2 < 2098 ∧ step (spacing u) ∣ u

instance (u : Nat) : Decidable (Fits u) := inferInstanceAs (Decidable (_ ∧ _))

theorem fits_of_dvd {u s : Nat} (grid : step s ∣ u) (bits : u < step (53 + s))
    (range : s ≤ 2045) : Fits u := by
  by_cases zero : u = 0
  · subst zero
    exact ⟨by simp, Nat.dvd_zero _⟩
  · have top : u.log2 < 53 + s := (log2_lt_iff zero).2 bits
    refine ⟨by omega, Nat.dvd_trans (step_dvd_step ?_) grid⟩
    unfold spacing; omega

theorem fits_zero : Fits 0 := fits_of_dvd (s := 0) (Nat.dvd_zero _) (step_pos _) (Nat.zero_le _)

theorem fits_scaled {n s : Nat} (small : n < step 53) (range : s ≤ 2045) :
    Fits (n * step s) := by
  refine fits_of_dvd (Nat.dvd_mul_left _ n) ?_ range
  rw [step_add]
  exact Nat.mul_lt_mul_of_pos_right small (step_pos s)

theorem fits_ofNat {n : Nat} (small : n < step 53) : Fits (n * unitsPerOne) :=
  fits_scaled small (by decide)

structure Finite where
  negative : Bool
  units : Nat
  fits : Fits units
deriving DecidableEq

end Double

inductive Double where
  | finite (x : Double.Finite)
  | infinite (negative : Bool)
  /-- Of no value. One NaN stands for all: their bits are never looked at. -/
  | nan
deriving DecidableEq

namespace Double

/-- Neither infinite nor NaN. -/
def IsFinite (x : Double) : Prop := ∃ y, x = .finite y

instance : (x : Double) → Decidable x.IsFinite
  | .finite y => .isTrue ⟨y, rfl⟩
  | .infinite _ => .isFalse nofun
  | .nan => .isFalse nofun

namespace Finite

def zero (negative : Bool) : Finite := ⟨negative, 0, fits_zero⟩

def ofNat (n : Nat) (small : n < step 53) : Finite :=
  ⟨false, n * unitsPerOne, fits_ofNat small⟩

def neg (x : Finite) : Finite := ⟨!x.negative, x.units, x.fits⟩

/-- The signed number of units, 0 for both zeros. -/
def total (x : Finite) : Int := if x.negative then -x.units else x.units

/-- The whole number equal to `x`, if there is one. -/
def toInt? (x : Finite) : Option Int :=
  if unitsPerOne ∣ x.units then some (x.total / unitsPerOne) else none

end Finite

/-- `n / d` units, moved to the grid of doubles around it. -/
def roundUnits (n d : Nat) : Nat :=
  nearest n (d * step (spacing (n / d))) * step (spacing (n / d))

def ofUnits (negative : Bool) (u : Nat) : Double :=
  if fits : Fits u then .finite ⟨negative, u, fits⟩ else .infinite negative

/-- The double nearest to `n / d` units. -/
def ofQuotient (negative : Bool) (n d : Nat) : Double := ofUnits negative (roundUnits n d)

def ofInt (n : Int) : Double := ofQuotient (n < 0) (n.natAbs * unitsPerOne) 1

def neg : Double → Double
  | .finite x => .finite x.neg
  | .infinite negative => .infinite !negative
  | .nan => .nan

/-- The rounded sum. A sum of exactly zero is negative only when both parts are. -/
def add : Double → Double → Double
  | .finite x, .finite y =>
    let sum := x.total + y.total
    if sum = 0 then .finite (.zero (x.negative && y.negative))
    else ofQuotient (sum < 0) sum.natAbs 1
  | .finite _, .infinite negative => .infinite negative
  | .infinite negative, .finite _ => .infinite negative
  | .infinite left, .infinite right => if left = right then .infinite left else .nan
  | .nan, _ => .nan
  | _, .nan => .nan

def sub (x y : Double) : Double := x.add y.neg

def le : Double → Double → Bool
  | .finite x, .finite y => x.total ≤ y.total
  | .finite _, .infinite negative => !negative
  | .infinite negative, .finite _ => negative
  | .infinite left, .infinite right => left || !right
  | .nan, _ => false
  | _, .nan => false

@[simp] theorem nan_add (x : Double) : nan.add x = nan := by cases x <;> rfl

@[simp] theorem add_nan (x : Double) : x.add nan = nan := by cases x <;> rfl

@[simp] theorem nan_le (x : Double) : nan.le x = false := by cases x <;> rfl

@[simp] theorem le_nan (x : Double) : x.le nan = false := by cases x <;> rfl

theorem roundUnits_of_fits {u : Nat} (h : Fits u) : roundUnits u 1 = u := by
  simp only [roundUnits, Nat.div_one, Nat.one_mul]
  rw [nearest_of_dvd (step_pos _) h.2, Nat.div_mul_cancel h.2]

theorem roundUnits_mul_right (n d : Nat) {k : Nat} (pos : 0 < k) :
    roundUnits (n * k) (d * k) = roundUnits n d := by
  unfold roundUnits
  rw [Nat.mul_div_mul_right _ _ pos, Nat.mul_right_comm, nearest_mul_right _ _ pos]

theorem roundUnits_zero {d : Nat} (pos : 0 < d) : roundUnits 0 d = 0 := by
  have cancel := roundUnits_mul_right 0 1 pos
  rwa [Nat.zero_mul, Nat.one_mul, roundUnits_of_fits fits_zero] at cancel

/-- Rounding ends on a double unless it leaves their range. -/
theorem fits_roundUnits {n d : Nat} (range : (roundUnits n d).log2 < 2098) :
    Fits (roundUnits n d) := by
  unfold roundUnits at range ⊢
  generalize hs : spacing (n / d) = s at range ⊢
  have below : nearest n (d * step s) ≤ n / d / step s + 1 := by
    rw [Nat.div_div_eq_div_mul]; exact nearest_le n _
  have above : n / d / step s ≤ nearest n (d * step s) := by
    rw [Nat.div_div_eq_div_mul]; exact nearest_ge n _
  have bits : n / d / step s < step 53 := by
    rw [Nat.div_lt_iff_lt_mul (step_pos s), ← step_add]
    refine Nat.lt_of_lt_of_le (lt_step_log2 _) (step_le_step ?_)
    unfold spacing at hs; omega
  generalize nearest n (d * step s) = m at below above range ⊢
  by_cases small : m < step 53
  · refine fits_scaled small ?_
    by_cases unit : s = 0
    · omega
    · have nonzero : n / d ≠ 0 := by
        intro zero
        simp [spacing, zero] at hs
        omega
      have leading : step 52 ≤ m := by
        refine Nat.le_trans ?_ above
        rw [Nat.le_div_iff_mul_le (step_pos s), ← step_add]
        refine Nat.le_trans (step_le_step ?_) (step_log2_le nonzero)
        unfold spacing at hs; omega
      have large : step (52 + s) ≤ m * step s := by
        rw [step_add]; exact Nat.mul_le_mul_right _ leading
      have positive := step_pos (52 + s)
      have := mt (log2_lt_iff (u := m * step s) (by omega)).1 (Nat.not_lt.2 large)
      omega
  · have carry : m = step 53 := by omega
    have moved : m * step s = step 52 * step (s + 1) := by
      rw [carry, ← step_add, ← step_add, show 53 + s = 52 + (s + 1) by omega]
    rw [moved] at range ⊢
    refine fits_scaled (by decide) ?_
    rw [← step_add, log2_lt_iff (Nat.ne_of_gt (step_pos _))] at range
    refine Nat.le_of_not_lt fun far => Nat.not_le.2 range (step_le_step ?_)
    omega

theorem ofQuotient_units (x : Finite) : ofQuotient x.negative x.units 1 = .finite x := by
  simp [ofQuotient, ofUnits, roundUnits_of_fits x.fits, x.fits]

theorem ofQuotient_mul_right (negative : Bool) (n d : Nat) {k : Nat} (pos : 0 < k) :
    ofQuotient negative (n * k) (d * k) = ofQuotient negative n d := by
  simp [ofQuotient, roundUnits_mul_right n d pos]

end Double

end Stepflow
