import Mathlib.Order.Basic
import Mathlib.Algebra.Order.Group.Nat
import Mathlib.Tactic.Conv

/-!
# The integer exponential

`fakeExponential` approximates `factor * e ^ (numerator / denominator)` by
the sum of a Taylor series, whose terms are rounded down one after the
other. The sum is not exact, but it falls where the exponential does: with
a larger denominator (`fakeExponential_antitone`), and it grows with the
numerator. The index of the terms is a natural number: a sum with so many
terms that the `int` of the source would wrap fits in no memory.
-/

namespace FakeExponential

variable {n d : ℕ}

/-- A term becomes smaller once the index is past the quotient. -/
theorem next_lt {i accum : ℕ} (haccum : 0 < accum) (hi : n / d < i) :
    accum * n / d / i < accum := by
  cases Nat.eq_zero_or_pos d with
  | inl hd =>
    rw [hd, Nat.div_zero, Nat.zero_div]
    exact haccum
  | inr hd =>
    have hn : n < d * i := calc
      n < d * (n / d + 1) := Nat.lt_mul_div_succ n hd
      _ ≤ d * i := Nat.mul_le_mul_left d hi
    rw [Nat.div_div_eq_div_mul, Nat.mul_comm]
    exact Nat.div_lt_of_lt_mul (Nat.mul_lt_mul_of_pos_right hn haccum)

/-- The terms from an index on, added to an output. -/
def sumFrom (n d i accum output : ℕ) : ℕ :=
  if 0 < accum then sumFrom n d (i + 1) (accum * n / d / i) (output + accum) else output
termination_by (n / d + 1 - i, accum)
decreasing_by
  by_cases hi : n / d < i
  · have hzero : n / d + 1 - (i + 1) = n / d + 1 - i := by omega
    rw [hzero]
    exact .right _ (next_lt ‹_› hi)
  · exact .left _ _ (by omega)

/-- As `sumFrom`, with a bound on the number of terms. -/
def sumSteps (n d : ℕ) : ℕ → ℕ → ℕ → ℕ → Option ℕ
  | 0, _, _, _ => none
  | steps + 1, i, accum, output =>
    if 0 < accum then sumSteps n d steps (i + 1) (accum * n / d / i) (output + accum)
    else some output

theorem sumFrom_of_steps {steps i accum output sum : ℕ}
    (h : sumSteps n d steps i accum output = some sum) : sumFrom n d i accum output = sum := by
  induction steps generalizing i accum output with
  | zero => cases h
  | succ steps ih =>
    rw [sumSteps] at h
    rw [sumFrom]
    split_ifs at h ⊢
    · exact ih h
    · exact Option.some.inj h

theorem sumFrom_add (i accum output more : ℕ) :
    sumFrom n d i accum (more + output) = more + sumFrom n d i accum output := by
  induction i, accum, output using sumFrom.induct n d with
  | case1 i accum output haccum ih =>
    rw [sumFrom, if_pos haccum, Nat.add_assoc, ih]
    conv => rhs; rw [sumFrom, if_pos haccum]
  | case2 i accum output haccum =>
    rw [sumFrom, if_neg haccum, sumFrom, if_neg haccum]

/-- **The terms grow with the numerator and fall with a larger
denominator.** -/
theorem sumFrom_le {n n' d d' : ℕ} (hd : 0 < d) (hn : n' ≤ n) (hle : d ≤ d')
    {i accum accum' output output' : ℕ} (haccum : accum' ≤ accum) (houtput : output' ≤ output) :
    sumFrom n' d' i accum' output' ≤ sumFrom n d i accum output := by
  induction i, accum, output using sumFrom.induct n d generalizing accum' output' with
  | case1 i accum output hpos ih =>
    conv_rhs => rw [sumFrom, if_pos hpos]
    by_cases hpos' : 0 < accum'
    · rw [sumFrom, if_pos hpos']
      refine ih (Nat.div_le_div_right ?_) (Nat.add_le_add houtput haccum)
      exact (Nat.div_le_div_left hle hd).trans (Nat.div_le_div_right (Nat.mul_le_mul haccum hn))
    · -- the smaller sum is over, the larger one has a term left
      rw [sumFrom, if_neg hpos']
      have hmore := sumFrom_add (n := n) (d := d) (i + 1) (accum * n / d / i) accum output
      rw [hmore]
      exact Nat.le_add_right_of_le houtput
  | case2 i accum output hpos =>
    have hpos' : ¬ 0 < accum' := by omega
    rw [sumFrom, if_neg hpos', sumFrom, if_neg hpos]
    exact houtput

end FakeExponential

open FakeExponential

/-- **`fakeExponential`.** The division by a denominator of zero panics. -/
def fakeExponential (factor numerator denominator : ℕ) : Option ℕ :=
  if denominator = 0 then none
  else some (sumFrom numerator denominator 1 (factor * denominator) 0 / denominator)

/-- The first term is the factor itself. -/
theorem fakeExponential_eq {factor d : ℕ} (n : ℕ) (hfactor : 0 < factor) (hd : 0 < d) :
    fakeExponential factor n d = some (factor + sumFrom n d 2 (factor * n) 0 / d) := by
  have hfirst : sumFrom n d 1 (factor * d) 0 = factor * d + sumFrom n d 2 (factor * n) 0 := by
    have hnext : factor * d * n / d / 1 = factor * n := by
      rw [Nat.div_one, Nat.mul_right_comm, Nat.mul_div_cancel _ hd]
    rw [sumFrom, if_pos (Nat.mul_pos hfactor hd), hnext, Nat.zero_add]
    exact sumFrom_add 2 (factor * n) 0 (factor * d)
  rw [fakeExponential, if_neg (Nat.ne_of_gt hd), hfirst, Nat.add_comm,
    Nat.add_mul_div_right _ _ hd, Nat.add_comm]

/-- **The exponential falls with a larger denominator.** -/
theorem fakeExponential_antitone {factor d d' : ℕ} (n : ℕ) (hfactor : 0 < factor) (hd : 0 < d)
    (hle : d ≤ d') : ∃ x x', fakeExponential factor n d = some x
      ∧ fakeExponential factor n d' = some x' ∧ x' ≤ x := by
  refine ⟨_, _, fakeExponential_eq n hfactor hd, fakeExponential_eq n hfactor 
    (Nat.lt_of_lt_of_le hd hle), ?_⟩
  refine Nat.add_le_add_left ((Nat.div_le_div_left hle hd).trans (Nat.div_le_div_right ?_)) factor
  exact sumFrom_le hd (Nat.le_refl n) hle (Nat.le_refl _) (Nat.le_refl _)

/-- **It grows with the numerator**, from the factor on. -/
theorem fakeExponential_mono {factor d n n' : ℕ} (hfactor : 0 < factor) (hd : 0 < d) (h : n ≤ n') :
    ∃ x x', fakeExponential factor n d = some x ∧ fakeExponential factor n' d = some x'
      ∧ factor ≤ x ∧ x ≤ x' := by
  refine ⟨_, _, fakeExponential_eq n hfactor hd, fakeExponential_eq n' hfactor hd,
    Nat.le_add_right _ _, Nat.add_le_add_left (Nat.div_le_div_right ?_) factor⟩
  exact sumFrom_le hd h (Nat.le_refl d) (Nat.mul_le_mul_left factor h) (Nat.le_refl _)

/-! ## The reference loop

EIP-4844 divides once, by the denominator times the index. The source
divides twice, which is the same over the integers. -/

namespace FakeExponential

/-- The loop of the EIP, with a bound on the number of terms. -/
def referenceSteps (n d : ℕ) : ℕ → ℕ → ℕ → ℕ → Option ℕ
  | 0, _, _, _ => none
  | steps + 1, i, accum, output =>
    if 0 < accum then referenceSteps n d steps (i + 1) (accum * n / (d * i)) (output + accum)
    else some output

/-- Two divisions are one. -/
theorem sumSteps_eq_reference (steps i accum output : ℕ) :
    sumSteps n d steps i accum output = referenceSteps n d steps i accum output := by
  induction steps generalizing i accum output with
  | zero => rfl
  | succ steps ih => rw [sumSteps, referenceSteps, Nat.div_div_eq_div_mul, ih]

/-- **The loop ends**, with the sum of all terms. -/
theorem exists_steps (i accum output : ℕ) : ∃ least, ∀ steps, least ≤ steps →
    sumSteps n d steps i accum output = some (sumFrom n d i accum output) := by
  induction i, accum, output using sumFrom.induct n d with
  | case1 i accum output haccum ih =>
    obtain ⟨least, hleast⟩ := ih
    refine ⟨least + 1, fun steps hsteps => ?_⟩
    obtain ⟨steps, rfl⟩ : ∃ k, steps = k + 1 := ⟨steps - 1, by omega⟩
    rw [sumSteps, if_pos haccum, sumFrom, if_pos haccum]
    exact hleast steps (Nat.le_of_succ_le_succ hsteps)
  | case2 i accum output haccum =>
    refine ⟨1, fun steps hsteps => ?_⟩
    obtain ⟨steps, rfl⟩ : ∃ k, steps = k + 1 := ⟨steps - 1, by omega⟩
    rw [sumSteps, if_neg haccum, sumFrom, if_neg haccum]

end FakeExponential

/-- **The sum, with a bound on the number of terms**, as the source
computes it. -/
def fakeExponentialSteps (steps factor numerator denominator : ℕ) : Option ℕ :=
  (sumSteps numerator denominator steps 1 (factor * denominator) 0).map (· / denominator)

/-- **`fake_exponential` of EIP-4844**, with a bound on the number of
terms. -/
def referenceExponential (steps factor numerator denominator : ℕ) : Option ℕ :=
  (referenceSteps numerator denominator steps 1 (factor * denominator) 0).map (· / denominator)

/-- **The integer exponential** ends with the result of the reference loop,
which is at least the factor and grows with the numerator. -/
theorem fakeExponential_reference (factor numerator : ℕ) {denominator : ℕ}
    (hd : 0 < denominator) :
    ∃ x, fakeExponential factor numerator denominator = some x
      ∧ (∃ least, ∀ steps, least ≤ steps →
        fakeExponentialSteps steps factor numerator denominator = some x
          ∧ referenceExponential steps factor numerator denominator = some x)
      ∧ factor ≤ x
      ∧ ∀ more, numerator ≤ more →
        ∃ x', fakeExponential factor more denominator = some x' ∧ x ≤ x' := by
  have heq : ∀ n, fakeExponential factor n denominator
      = some (sumFrom n denominator 1 (factor * denominator) 0 / denominator) :=
    fun n => if_neg (Nat.ne_of_gt hd)
  obtain ⟨least, hleast⟩ := exists_steps (n := numerator) (d := denominator) 1
    (factor * denominator) 0
  refine ⟨_, heq numerator, ⟨least, fun steps hsteps => ⟨?_, ?_⟩⟩, ?_, fun more hmore => ?_⟩
  · rw [fakeExponentialSteps, hleast steps hsteps]
    rfl
  · rw [referenceExponential, ← sumSteps_eq_reference, hleast steps hsteps]
    rfl
  · obtain rfl | hfactor := Nat.eq_zero_or_pos factor
    · exact Nat.zero_le _
    · have hfirst := fakeExponential_eq numerator hfactor hd
      rw [heq] at hfirst
      rw [Option.some.inj hfirst]
      exact Nat.le_add_right _ _
  · refine ⟨_, heq more, Nat.div_le_div_right ?_⟩
    exact sumFrom_le hd hmore (Nat.le_refl _) (Nat.le_refl _) (Nat.le_refl _)

/-- The exponential of one. -/
theorem fakeExponential_reference_one :
    ∃ x, fakeExponential 1 1 1 = some x ∧ 1 ≤ x := by
  obtain ⟨x, hx, -, hle, -⟩ := fakeExponential_reference 1 1 Nat.one_pos
  exact ⟨x, hx, hle⟩
