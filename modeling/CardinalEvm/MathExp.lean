import Mathlib.Data.Nat.Digits.Lemmas
import Mathlib.FieldTheory.Finite.Basic

/-!
# Exponentiation by squaring

`math.Exp` squares and multiplies along the bits of the exponent, one
machine word after the other, and truncates every product to 256 bits.
Its integers are objects, written in place, so the model has a value for
every reference and the arguments may be one object.

The words of the exponent are those it had at the call. `Bits` is called
once, and its array is not written while it is read: a product does not
go into the array of an operand of several words, and a single word is
read before the first product.

The power is right. But the squares are assigned to the base itself,
which the comment of `Exp` says stays as it was.
-/

namespace Math

/-- **The integers in memory**, with the reference of the next one. -/
structure Ints where
  value : ℕ → ℕ
  next : ℕ

namespace Ints

/-- Sets the value of an integer. -/
def set (m : Ints) (z v : ℕ) : Ints := { m with value := Function.update m.value z v }

/-- `z.Mul(x, y)`. -/
def mul (m : Ints) (z x y : ℕ) : Ints := m.set z (m.value x * m.value y)

/-- `U256`: the conjunction with `tt256m1`. -/
def u256 (m : Ints) (x : ℕ) : Ints := m.set x (m.value x % 2 ^ 256)

/-- `Bits`: the words of an integer, the least significant one first. -/
def bits (m : Ints) (x : ℕ) : List ℕ := Nat.digits (2 ^ 64) (m.value x)

/-- `big.NewInt`, of a number that is not negative. -/
def newInt (m : Ints) (v : ℕ) : Ints := { m.set m.next v with next := m.next + 1 }

/-- The body of the loop over the bits of a word. -/
def expBit (base result word : ℕ) (m : Ints) : Ints :=
  let m := if word % 2 = 1 then (m.mul result result base).u256 result else m
  (m.mul base base base).u256 base

/-- The loop over the bits of a word, with the rounds that are left. -/
def expWord (base result : ℕ) : ℕ → ℕ → Ints → Ints
  | 0, _, m => m
  | i + 1, word, m => expWord base result i (word / 2) (expBit base result word m)

/-- **`Exp`**: the result, and the integers after the call. -/
def exp (m : Ints) (base exponent : ℕ) : ℕ × Ints :=
  let result := m.next
  let m := m.newInt 1
  (result, (m.bits exponent).foldl (fun m word => expWord base result 64 word m) m)

/-! ## The loop -/

variable {m m₀ : Ints} {base result b e k w : ℕ}

@[simp] theorem value_set_self (m : Ints) (z v : ℕ) : (m.set z v).value z = v :=
  Function.update_self _ _ _

@[simp] theorem value_set_of_ne {x z : ℕ} (h : x ≠ z) (m : Ints) (v : ℕ) :
    (m.set z v).value x = m.value x := Function.update_of_ne h _ _

/-- **After `k` bits of the exponent** the base is squared as often, and
the result is its power by the bits that were read. -/
structure Power (m₀ : Ints) (base result b e k : ℕ) (m : Ints) : Prop where
  value_base : m.value base = if k = 0 then b else b ^ 2 ^ k % 2 ^ 256
  value_result : m.value result = b ^ (e % 2 ^ k) % 2 ^ 256
  others : ∀ x, x ≠ base → x ≠ result → m.value x = m₀.value x

theorem Power.cast_base (hp : Power m₀ base result b e k m) :
    (m.value base : ZMod (2 ^ 256)) = b ^ 2 ^ k := by
  rw [hp.value_base]
  split
  · next hk => rw [hk, pow_zero, pow_one]
  · rw [ZMod.natCast_mod, Nat.cast_pow]

/-- The result is multiplied if the bit is set. -/
theorem Power.multiply (hp : Power m₀ base result b e k m) (hw : w % 2 = e / 2 ^ k % 2) :
    (if w % 2 = 1 then (m.mul result result base).u256 result else m).value result
      = b ^ (e % 2 ^ (k + 1)) % 2 ^ 256 := by
  have hbits : e % 2 ^ (k + 1) = e % 2 ^ k + 2 ^ k * (w % 2) := by rw [Nat.mod_pow_succ, hw]
  split
  · next hbit =>
    rw [u256, value_set_self, mul, value_set_self, ← ZMod.natCast_eq_natCast_iff', hbits, hbit,
      Nat.mul_one, pow_add]
    push_cast
    rw [hp.cast_base, hp.value_result, ZMod.natCast_mod]
    push_cast
    rfl
  · next hbit => rw [hbits, Nat.mod_two_ne_one.mp hbit, Nat.mul_zero, Nat.add_zero, hp.value_result]

/-- **One bit.** -/
theorem Power.bit (hp : Power m₀ base result b e k m) (hne : base ≠ result)
    (hw : w % 2 = e / 2 ^ k % 2) : Power m₀ base result b e (k + 1) (expBit base result w m) := by
  have hmul := hp.multiply hw
  have hothers : ∀ x, x ≠ result →
      (if w % 2 = 1 then (m.mul result result base).u256 result else m).value x = m.value x := by
    intro x hx
    split
    · rw [u256, value_set_of_ne hx, mul, value_set_of_ne hx]
    · rfl
  unfold expBit
  generalize (if w % 2 = 1 then (m.mul result result base).u256 result else m) = m₁
    at hmul hothers ⊢
  refine ⟨?_, ?_, fun x hb hr => ?_⟩
  · rw [u256, value_set_self, mul, value_set_self, hothers base hne, if_neg k.succ_ne_zero,
      ← ZMod.natCast_eq_natCast_iff', Nat.cast_mul, hp.cast_base, pow_succ 2 k, pow_mul, pow_two,
      Nat.cast_mul, Nat.cast_pow]
  · rw [u256, value_set_of_ne hne.symm, mul, value_set_of_ne hne.symm, hmul]
  · rw [u256, value_set_of_ne hb, mul, value_set_of_ne hb, hothers x hr, hp.others x hb hr]

/-- **The bits of a word.** -/
theorem Power.word (hne : base ≠ result) (i : ℕ) : ∀ {k w : ℕ} {m : Ints},
    Power m₀ base result b e k m → w % 2 ^ i = e / 2 ^ k % 2 ^ i →
    Power m₀ base result b e (k + i) (expWord base result i w m) := by
  induction i with
  | zero => exact fun hp _ => hp
  | succ i ih =>
    intro k w m hp hw
    have hlow : w % 2 = e / 2 ^ k % 2 := by
      have := congrArg (· % 2) hw
      simpa only [Nat.mod_mod_of_dvd _ (Dvd.intro_left (2 ^ i) rfl : 2 ∣ 2 ^ (i + 1))] using this
    have hhigh : w / 2 % 2 ^ i = e / 2 ^ (k + 1) % 2 ^ i := by
      rw [pow_succ 2 k, ← Nat.div_div_eq_div_mul, ← Nat.mod_mul_right_div_self, ← pow_succ', hw,
        pow_succ', Nat.mod_mul_right_div_self]
    have hrest := ih (hp.bit hne hlow) hhigh
    rwa [Nat.add_assoc, Nat.add_comm 1 i] at hrest

/-- **The words of the exponent**, or of what is left of it. -/
theorem Power.words (hne : base ≠ result) : ∀ (q : ℕ) {k : ℕ} {m : Ints},
    Power m₀ base result b e k m → q = e / 2 ^ k →
    Power m₀ base result b e (k + 64 * (Nat.digits (2 ^ 64) q).length)
      ((Nat.digits (2 ^ 64) q).foldl (fun m word => expWord base result 64 word m) m) := by
  intro q
  induction q using Nat.strongRecOn with
  | ind q ih =>
    intro k m hp hq
    rcases Nat.eq_zero_or_pos q with h0 | hpos
    · rw [h0, Nat.digits_zero]
      exact hp
    · have hnext := ih (q / 2 ^ 64) (Nat.div_lt_self hpos (by norm_num))
        (hp.word hne 64 (w := q % 2 ^ 64) (by rw [Nat.mod_mod, hq]))
        (by rw [hq, Nat.div_div_eq_div_mul, ← pow_add])
      rw [Nat.digits_def' (by norm_num) hpos, List.foldl_cons, List.length_cons]
      rwa [Nat.add_assoc, Nat.add_comm 64, ← Nat.mul_succ] at hnext

/-! ## The power, and what becomes of the base -/

/-- **The power is right**, whatever the base and the exponent are, and
the base is squared for every bit of the exponent's words. -/
theorem power_exp (m : Ints) {base exponent : ℕ} (hb : base < m.next) (he : exponent < m.next) :
    Power m base m.next (m.value base) (m.value exponent) (64 * (m.bits exponent).length)
      (m.exp base exponent).2 := by
  have hvalue : ∀ x, x ≠ m.next → (m.newInt 1).value x = m.value x := fun x hx =>
    value_set_of_ne hx m 1
  have hp : Power m base m.next (m.value base) (m.value exponent) 0 (m.newInt 1) := by
    refine ⟨hvalue base hb.ne, ?_, fun x _ hx => hvalue x hx⟩
    rw [pow_zero, Nat.mod_one, pow_zero]
    exact value_set_self m m.next 1
  have hwords := hp.words hb.ne (m.value exponent) (by rw [pow_zero, Nat.div_one])
  rw [Nat.zero_add] at hwords
  have hbits : (m.newInt 1).bits exponent = Nat.digits (2 ^ 64) (m.value exponent) := by
    rw [bits, hvalue exponent he.ne]
  unfold exp
  dsimp only
  rw [hbits]
  exact hwords

/-- Only zero and one stay what they are when they are squared that
often. -/
theorem eq_zero_or_one_of_pow {b n : ℕ} (hb : b < 2 ^ 256) (hn : 8 ≤ n)
    (heq : (b : ZMod (2 ^ 256)) ^ 2 ^ n = b) : b = 0 ∨ b = 1 := by
  have hcast : ∀ m : ℕ, m < 2 ^ 256 → (b : ZMod (2 ^ 256)) = m → b = m := fun m hm hbm => by
    rwa [ZMod.natCast_eq_natCast_iff', Nat.mod_eq_of_lt hb, Nat.mod_eq_of_lt hm] at hbm
  rcases Nat.even_or_odd' b with ⟨c, hc | hc⟩
  · -- an even number has more than 256 factors two after eight squares
    left
    refine hcast 0 (by norm_num) ?_
    have hle : 256 ≤ 2 ^ n := (Nat.pow_le_pow_right two_pos hn : 2 ^ 8 ≤ 2 ^ n)
    have hzero : (2 : ZMod (2 ^ 256)) ^ 256 = 0 := by
      exact_mod_cast ZMod.natCast_self (2 ^ 256)
    rw [← heq, hc, Nat.cast_mul, mul_pow, Nat.cast_ofNat, ← Nat.add_sub_cancel' hle, pow_add, hzero]
    simp
  · right
    refine hcast 1 (by norm_num) ?_
    -- an odd number is a unit, and its order is a power of two
    have hcoprime : b.Coprime (2 ^ 256) :=
      (Nat.coprime_two_right.mpr ⟨c, hc⟩).pow_right 256
    set u := ZMod.unitOfCoprime b hcoprime with hu
    have htotient : u ^ 2 ^ 255 = 1 := by
      have := ZMod.pow_totient u
      rwa [Nat.totient_prime_pow_succ Nat.prime_two, Nat.mul_one] at this
    have hpow : u ^ (2 ^ n - 1) = 1 := by
      have hself : u ^ 2 ^ n = u := by
        ext
        rw [Units.val_pow_eq_pow_val, hu, ZMod.coe_unitOfCoprime, heq]
      have hsplit : u ^ 2 ^ n = u ^ (2 ^ n - 1) * u := by
        rw [← pow_succ, Nat.sub_add_cancel Nat.one_le_two_pow]
      rwa [hsplit, mul_eq_right] at hself
    have hgcd : (2 ^ n - 1).Coprime (2 ^ 255) := by
      refine (Nat.coprime_two_right.mpr ?_).pow_right 255
      exact Nat.Even.sub_odd Nat.one_le_two_pow (even_two.pow_of_ne_zero (by omega)) odd_one
    have hone : u = 1 := by
      simpa only [hgcd.gcd_eq_one, pow_one] using pow_gcd_eq_one.mpr ⟨hpow, htotient⟩
    rw [← ZMod.coe_unitOfCoprime b hcoprime, ← hu, hone, Units.val_one, Nat.cast_one]

/-- **What `Exp` says of itself** – the power in a new integer, base and
exponent as they were – holds where the base is squared in vain: the
exponent has no words, or the base is zero or one. -/
theorem exp_keeps_arguments_iff (m : Ints) {base exponent : ℕ} (hb : base < m.next)
    (he : exponent < m.next) :
    ((m.exp base exponent).2.value (m.exp base exponent).1
        = m.value base ^ m.value exponent % 2 ^ 256
      ∧ m.next ≤ (m.exp base exponent).1
      ∧ (m.exp base exponent).2.value base = m.value base
      ∧ (m.exp base exponent).2.value exponent = m.value exponent)
    ↔ m.value exponent = 0 ∨ m.value base = 0 ∨ m.value base = 1 := by
  have hp := m.power_exp hb he
  have hpower := hp.value_result
  have hlt : m.value exponent < 2 ^ (64 * (m.bits exponent).length) := by
    rw [pow_mul]
    exact Nat.lt_base_pow_length_digits (by norm_num)
  rw [Nat.mod_eq_of_lt hlt] at hpower
  constructor
  · rintro ⟨-, -, hkept, -⟩
    refine or_iff_not_imp_left.mpr fun h0 => ?_
    have hpos : 0 < (m.bits exponent).length :=
      List.length_pos_of_ne_nil (Nat.digits_ne_nil_iff_ne_zero.mpr h0)
    have hcast := hp.cast_base
    have hvalue := hp.value_base
    rw [hkept] at hcast hvalue
    rw [if_neg (by omega)] at hvalue
    have hsmall : m.value base < 2 ^ 256 := hvalue ▸ Nat.mod_lt _ (by norm_num)
    exact eq_zero_or_one_of_pow hsmall (by omega) hcast.symm
  · intro hcond
    have hkept : (m.exp base exponent).2.value base = m.value base := by
      have hvalue := hp.value_base
      rcases hcond with h0 | h0 | h1
      · rwa [bits, h0, Nat.digits_zero, List.length_nil, Nat.mul_zero, if_pos rfl] at hvalue
      · rw [hvalue, h0, zero_pow (by positivity), Nat.zero_mod, ite_self]
      · rw [hvalue, h1, one_pow, Nat.one_mod_two_pow (by norm_num), ite_self]
    refine ⟨hpower, le_rfl, hkept, ?_⟩
    by_cases hsame : exponent = base
    · rw [hsame] at hkept ⊢
      exact hkept
    · exact hp.others exponent hsame he.ne

/-- **The fifth power of one**: one is squared once for each of the 64 bits
of the exponent's word, and stays one. -/
theorem exp_keeps_arguments_iff_one :
    let m : Ints := ⟨fun x => if x = 0 then 1 else 5, 2⟩
    (m.bits 1).length = 1 ∧ (m.exp 0 1).2.value (m.exp 0 1).1 = m.value 0 ^ m.value 1 % 2 ^ 256
      ∧ m.next ≤ (m.exp 0 1).1 ∧ (m.exp 0 1).2.value 0 = m.value 0
      ∧ (m.exp 0 1).2.value 1 = m.value 1 := by
  intro m
  refine ⟨by simp [bits, m], ?_⟩
  exact (exp_keeps_arguments_iff m (show 0 < 2 by decide) (show 1 < 2 by decide)).mpr
    (.inr (.inr rfl))

/-- Two, and a second number. -/
def two (v : ℕ) : Ints := ⟨fun x => if x = 0 then 2 else v, 2⟩

/-- **The first power of two is two, and the base becomes zero.** -/
theorem exp_two_one : (two 1).value 0 = 2 ∧ (two 1).value 1 = 1
    ∧ ((two 1).exp 0 1).2.value ((two 1).exp 0 1).1 = 2
    ∧ ((two 1).exp 0 1).2.value 0 = 0 := by
  have hp := (two 1).power_exp (show 0 < 2 by decide) (show 1 < 2 by decide)
  have hbits : ((two 1).bits 1).length = 1 := by simp [bits, two]
  rw [hbits] at hp
  have hzero : ∀ n, 8 ≤ n → 2 ^ 2 ^ n % 2 ^ 256 = 0 := fun n hn =>
    Nat.mod_eq_zero_of_dvd (pow_dvd_pow 2 (Nat.pow_le_pow_right two_pos hn : 2 ^ 8 ≤ 2 ^ n))
  refine ⟨rfl, rfl, hp.value_result, ?_⟩
  rw [hp.value_base, if_neg (by decide), show (two 1).value 0 = 2 from rfl, hzero _ (by decide)]

end Ints

end Math
