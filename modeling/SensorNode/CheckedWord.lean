import SensorNode.SignedWord

/-!
Signed 32-bit arithmetic that may be undefined. An operation has a result exactly
when the exact one is representable and no divisor is zero; a sequence of them has
a result exactly when each has, and then it is that of the unbounded integers.
Unsigned 32-bit arithmetic wraps, and is undefined only for a zero divisor.
-/

namespace SensorNode.CheckedWord

open SignedWord

def fit (value : Int) : Option Int := if Fits32 value then some value else none

def add (first second : Int) : Option Int := fit (first + second)

def sub (first second : Int) : Option Int := fit (first - second)

def mul (first second : Int) : Option Int := fit (first * second)

/-- The quotient is rounded toward zero. -/
def div (dividend divisor : Int) : Option Int :=
  if divisor = 0 then none else fit (dividend.tdiv divisor)

/-- A left shift multiplies, of a negative value too. -/
def shiftLeft (value : Int) (count : Nat) : Option Int := fit (value * 2 ^ count)

/-- An arithmetic right shift rounds down. -/
def shiftRight (value : Int) (count : Nat) : Int := value / 2 ^ count

/-- Conversion to an unsigned word. -/
def unsigned (value : Int) : Int := value % 2 ^ 32

/-- Conversion of an unsigned word to a signed one. -/
def signed (value : Int) : Int := value.bmod (2 ^ 32)

def divUnsigned (dividend divisor : Int) : Option Int :=
  if divisor = 0 then none else some (dividend / divisor)

/-! ## When an operation has a result -/

section
variable (first second value result : Int)

theorem fit_some : fit value = some result ↔ Fits32 value ∧ value = result := by
  unfold fit
  rw [Option.ite_none_right_eq_some, Option.some.injEq]

@[simp]
theorem add_some : add first second = some result ↔
    Fits32 (first + second) ∧ first + second = result :=
  fit_some _ result

@[simp]
theorem sub_some : sub first second = some result ↔
    Fits32 (first - second) ∧ first - second = result :=
  fit_some _ result

@[simp]
theorem mul_some : mul first second = some result ↔
    Fits32 (first * second) ∧ first * second = result :=
  fit_some _ result

@[simp]
theorem shiftLeft_some (count : Nat) : shiftLeft value count = some result ↔
    Fits32 (value * 2 ^ count) ∧ value * 2 ^ count = result :=
  fit_some _ result

@[simp]
theorem div_some : div first second = some result ↔
    second ≠ 0 ∧ Fits32 (first.tdiv second) ∧ first.tdiv second = result := by
  unfold div
  rw [Option.ite_none_left_eq_some, fit_some]

@[simp]
theorem divUnsigned_some : divUnsigned first second = some result ↔
    second ≠ 0 ∧ first / second = result := by
  unfold divUnsigned
  rw [Option.ite_none_left_eq_some, Option.some.injEq]

end

/-! ## When a sequence of operations has a result -/

section
variable {Result : Type} (first second : Int) (next : Int → Option Result) (result : Result)

theorem bind_some_iff {step : Option Int} {value : Int} {defined : Prop}
    (spec : ∀ outcome, step = some outcome ↔ defined ∧ value = outcome) :
    (step >>= next) = some result ↔ defined ∧ next value = some result := by
  rw [Option.bind_eq_bind, Option.bind_eq_some_iff]
  constructor
  · rintro ⟨outcome, shown, rest⟩
    obtain ⟨fine, rfl⟩ := (spec outcome).mp shown
    exact ⟨fine, rest⟩
  · rintro ⟨fine, rest⟩
    exact ⟨value, (spec value).mpr ⟨fine, rfl⟩, rest⟩

@[simp]
theorem add_bind_some : (add first second >>= next) = some result ↔
    Fits32 (first + second) ∧ next (first + second) = some result :=
  bind_some_iff next result (add_some first second)

@[simp]
theorem sub_bind_some : (sub first second >>= next) = some result ↔
    Fits32 (first - second) ∧ next (first - second) = some result :=
  bind_some_iff next result (sub_some first second)

@[simp]
theorem mul_bind_some : (mul first second >>= next) = some result ↔
    Fits32 (first * second) ∧ next (first * second) = some result :=
  bind_some_iff next result (mul_some first second)

@[simp]
theorem shiftLeft_bind_some (count : Nat) : (shiftLeft first count >>= next) = some result ↔
    Fits32 (first * 2 ^ count) ∧ next (first * 2 ^ count) = some result :=
  bind_some_iff next result fun outcome => shiftLeft_some first outcome count

@[simp]
theorem div_bind_some : (div first second >>= next) = some result ↔
    (second ≠ 0 ∧ Fits32 (first.tdiv second)) ∧ next (first.tdiv second) = some result :=
  bind_some_iff next result fun outcome => (div_some first second outcome).trans and_assoc.symm

@[simp]
theorem divUnsigned_bind_some : (divUnsigned first second >>= next) = some result ↔
    second ≠ 0 ∧ next (first / second) = some result :=
  bind_some_iff next result (divUnsigned_some first second)

end

/-! ## Bounds -/

theorem within_tdiv {bound dividend : Int} (divisor : Int) (near : Within bound dividend) :
    Within bound (dividend.tdiv divisor) := by
  have smaller := Int.natAbs_tdiv_le_natAbs dividend divisor
  unfold Within at *
  omega

theorem within_shiftRight {bound value : Int} (count : Nat)
    (near : Within (bound * 2 ^ count) value) :
    Within bound (shiftRight value count) :=
  within_div (by positivity) near

end SensorNode.CheckedWord
