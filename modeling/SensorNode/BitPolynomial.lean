import Mathlib.Algebra.Polynomial.Div
import Mathlib.Algebra.CharP.Two
import Mathlib.RingTheory.Coprime.Lemmas
import Mathlib.Algebra.Field.ZMod

/-!
Bit strings as polynomials over the field of two elements, first bit highest, and the
shift register that divides by a monic polynomial one bit at a time. A string that is
not all zeros and is no longer than the degree of a divisor with a constant term stays
undivided wherever it stands: no such burst of errors is a multiple of the divisor.
-/

namespace SensorNode.BitPolynomial

open Polynomial

noncomputable section

def coefficient (bit : Bool) : (ZMod 2)[X] := if bit then 1 else 0

def ofBits : List Bool → (ZMod 2)[X]
  | [] => 0
  | bit :: rest => coefficient bit * X ^ rest.length + ofBits rest

@[simp] theorem coefficient_false : coefficient false = 0 := rfl

@[simp] theorem coefficient_true : coefficient true = 1 := rfl

@[simp] theorem ofBits_nil : ofBits [] = 0 := rfl

@[simp] theorem ofBits_cons (bit : Bool) (rest : List Bool) :
    ofBits (bit :: rest) = coefficient bit * X ^ rest.length + ofBits rest := rfl

theorem coefficient_xor (first second : Bool) :
    coefficient (first ^^ second) = coefficient first + coefficient second := by
  cases first <;> cases second <;> simp [CharTwo.add_self_eq_zero]

theorem ofBits_append (front back : List Bool) :
    ofBits (front ++ back) = ofBits front * X ^ back.length + ofBits back := by
  induction front with
  | nil => simp
  | cons bit rest ih =>
      rw [List.cons_append, ofBits_cons, ofBits_cons, ih, List.length_append, pow_add]
      ring

@[simp] theorem ofBits_zeros (count : Nat) : ofBits (List.replicate count false) = 0 := by
  induction count with
  | zero => rfl
  | succ count ih => simp [List.replicate_succ, ih]

theorem ofBits_xor (first second : List Bool) (same : first.length = second.length) :
    ofBits (List.zipWith xor first second) = ofBits first + ofBits second := by
  induction first generalizing second with
  | nil =>
      cases second with
      | nil => simp
      | cons bit rest => simp at same
  | cons bit rest ih =>
      cases second with
      | nil => simp at same
      | cons other others =>
          have tails : rest.length = others.length := by simpa using same
          have count : (List.zipWith xor rest others).length = rest.length := by simp [tails]
          rw [List.zipWith_cons_cons, ofBits_cons, ofBits_cons, ofBits_cons, ih others tails,
            coefficient_xor, count, ← tails]
          ring

theorem ofBits_degree (bits : List Bool) : (ofBits bits).degree < bits.length := by
  induction bits with
  | nil => simp
  | cons bit rest ih =>
      have top : (coefficient bit * X ^ rest.length).degree ≤
          ((rest.length : Nat) : WithBot Nat) := by
        cases bit with
        | false => simp
        | true => simp
      have grown : ((rest.length : Nat) : WithBot Nat) < ((rest.length + 1 : Nat) : WithBot Nat) :=
        Nat.cast_lt.mpr (Nat.lt_succ_self _)
      exact (degree_add_le _ _).trans_lt
        (max_lt (top.trans_lt grown) (ih.trans grown))

/-- The leading set bit is the leading coefficient. -/
theorem ofBits_ne_zero (bits : List Bool) (set : true ∈ bits) : ofBits bits ≠ 0 := by
  induction bits with
  | nil => simp at set
  | cons bit rest ih =>
      cases bit with
      | false =>
          have later : true ∈ rest := by simpa using set
          simpa using ih later
      | true =>
          intro zero
          have lead : (X ^ rest.length + ofBits rest : (ZMod 2)[X]).Monic :=
            monic_X_pow_add (ofBits_degree rest)
          exact lead.ne_zero (by simpa using zero)

/-! ## The divisor and its register -/

/-- The monic polynomial whose lower coefficients are the taps. -/
def divisor (taps : List Bool) : (ZMod 2)[X] := X ^ taps.length + ofBits taps

theorem divisor_monic (taps : List Bool) : (divisor taps).Monic :=
  monic_X_pow_add (ofBits_degree taps)

theorem divisor_degree (taps : List Bool) : (divisor taps).degree = taps.length := by
  rw [divisor, add_comm, degree_add_eq_right_of_degree_lt, degree_X_pow]
  rw [degree_X_pow]
  exact ofBits_degree taps

end

/-- One step: the register moves up by one bit, and a bit that leaves it is taken off
as the taps. -/
def advance (taps : List Bool) : List Bool → List Bool
  | [] => []
  | top :: rest =>
      if top then List.zipWith xor (rest ++ [false]) taps else rest ++ [false]

section
variable (taps : List Bool)

theorem advance_length (register : List Bool) (width : register.length = taps.length) :
    (advance taps register).length = taps.length := by
  cases register with
  | nil => exact width
  | cons top rest =>
      have size : rest.length + 1 = taps.length := by simpa using width
      cases top <;> simp [advance, size]

theorem ofBits_mod (register : List Bool) (width : register.length = taps.length) :
    ofBits register %ₘ divisor taps = ofBits register := by
  rw [modByMonic_eq_self_iff (divisor_monic taps), divisor_degree, ← width]
  exact ofBits_degree register

theorem ofBits_advance (register : List Bool) (width : register.length = taps.length) :
    ofBits (advance taps register) = (ofBits register * X) %ₘ divisor taps := by
  rw [← ofBits_mod taps _ (advance_length taps register width)]
  apply modByMonic_eq_of_dvd_sub (divisor_monic taps)
  cases register with
  | nil => simp [advance]
  | cons top rest =>
      have moved : ofBits (rest ++ [false]) = ofBits rest * X := by simp [ofBits_append]
      have size : taps.length = rest.length + 1 := by simpa using width.symm
      cases top with
      | false => simp [advance, moved]
      | true =>
          -- what left the register is the leading term of the divisor
          refine ⟨1, ?_⟩
          have same : (rest ++ [false]).length = taps.length := by simp [size]
          simp only [advance, if_true, ofBits_xor _ _ same, moved, ofBits_cons, coefficient_true,
            divisor, size, pow_succ, CharTwo.sub_eq_add]
          calc ofBits rest * X + ofBits taps + (1 * X ^ rest.length + ofBits rest) * X
              = (X ^ rest.length * X + ofBits taps) + (ofBits rest * X + ofBits rest * X) := by
                ring
            _ = (X ^ rest.length * X + ofBits taps) * 1 := by
                rw [CharTwo.add_self_eq_zero, add_zero, mul_one]

theorem mod_mul (first second : (ZMod 2)[X]) :
    (first %ₘ divisor taps * second) %ₘ divisor taps = (first * second) %ₘ divisor taps := by
  apply modByMonic_eq_of_dvd_sub (divisor_monic taps)
  rw [← sub_mul]
  exact (dvd_modByMonic_sub first (divisor taps)).mul_right second

/-- Shifting by any number of bits multiplies by that power and keeps the remainder. -/
theorem ofBits_iterate (count : Nat) (register : List Bool)
    (width : register.length = taps.length) :
    ofBits ((advance taps)^[count] register) =
      (ofBits register * X ^ count) %ₘ divisor taps := by
  induction count generalizing register with
  | zero => simpa using (ofBits_mod taps register width).symm
  | succ count ih =>
      rw [Function.iterate_succ_apply, ih _ (advance_length taps register width),
        ofBits_advance taps register width, mod_mul, pow_succ']
      ring_nf

/-! ## Bursts -/

/-- Zeros around a stretch of at most `width` bits that are not all zero. -/
def Burst (width : Nat) (error : List Bool) : Prop :=
  ∃ lead burst trail, error = List.replicate lead false ++ burst ++ List.replicate trail false ∧
    burst.length ≤ width ∧ true ∈ burst

theorem divisor_coprime (constant : taps.getLast? = some true) :
    IsCoprime (divisor taps) (X : (ZMod 2)[X]) := by
  obtain ⟨upper, rfl⟩ := List.getLast?_eq_some_iff.mp constant
  refine ⟨1, -(X ^ upper.length + ofBits upper), ?_⟩
  simp only [divisor, ofBits_append, ofBits_cons, List.length_append, List.length_singleton,
    List.length_nil, coefficient_true, ofBits_nil, pow_succ, pow_zero]
  ring

theorem divisor_not_dvd_burst (constant : taps.getLast? = some true) (error : List Bool)
    (burst : Burst taps.length error) : ¬ divisor taps ∣ ofBits error := by
  obtain ⟨lead, bits, trail, rfl, short, set⟩ := burst
  intro divides
  rw [ofBits_append, ofBits_append, ofBits_zeros, ofBits_zeros, zero_mul, zero_add, add_zero,
    List.length_replicate] at divides
  have alone : divisor taps ∣ ofBits bits :=
    (divisor_coprime taps constant).pow_right.dvd_of_dvd_mul_right divides
  have smaller : (ofBits bits).degree < (divisor taps).degree := by
    rw [divisor_degree]
    exact (ofBits_degree bits).trans_le (Nat.cast_le.mpr short)
  exact (divisor_monic taps).not_dvd_of_degree_lt (ofBits_ne_zero bits set) smaller alone

end

end SensorNode.BitPolynomial
