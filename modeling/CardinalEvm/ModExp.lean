import CardinalEvm.ProgramCounter
import CardinalEvm.Rlp
import Mathlib.Data.Nat.Size

/-!
# The price of `MODEXP`

The input of the contract begins with three lengths of 32 bytes each,
which may be larger than any input, or any machine integer. Then come the
base, the exponent and the modulus; what is missing of them is zero. The
price depends on the lengths and on the first 32 bytes of the exponent,
and three EIPs have each their own formula for it.

`RequiredGas` goes by the formulas in arbitrary precision, but cuts the
exponent out of the input with machine integers, and returns one. None of
the conversions changes a value (`ModExpEip.requiredGas_eq_price`): the
offset of the exponent is only converted if it is inside the input.
-/

open UInt64

/-! ## Big integers of Go -/

namespace BigInt

/-- `SetBytes`. -/
def setBytes (b : Bytes) : ℤ := beNat b

/-- `BitLen`. -/
def bitLen (x : ℤ) : ℕ := x.natAbs.size

/-- `Uint64`: the low bits of the absolute value. -/
def uint64 (x : ℤ) : UInt64 := ofNat x.natAbs

/-- `big.NewInt(int64(n))`, of an `int` that is not negative. -/
def newInt (n : ℕ) : ℤ := (ofNat n).toInt64.toInt

/-- `math.BigMax`. -/
def bigMax (x y : ℤ) : ℤ := if x < y then y else x

theorem newInt_eq {n : ℕ} (h : n < 2 ^ 63) : newInt n = n := by
  have hn : (ofNat n).toNat = n := toNat_ofNat_of_lt' (show n < 2 ^ 64 by omega)
  rw [newInt, toInt_toInt64 (by omega), hn]

theorem bigMax_natCast (x y : ℕ) : bigMax x y = (max x y : ℕ) := by
  unfold bigMax
  split_ifs with h <;> omega

@[simp] theorem bitLen_natCast (x : ℕ) : bitLen x = x.size := rfl

@[simp] theorem uint64_natCast (x : ℕ) : uint64 x = ofNat x := rfl

end BigInt

open BigInt

/-- `max`, of two values. -/
def maxUint64 (x y : UInt64) : UInt64 := if x < y then y else x

/-! ## The contract -/

/-- `modexpMultComplexity`. -/
def modexpMultComplexity (x : ℤ) : ℤ :=
  if x ≤ 64 then x * x
  else if x ≤ 1024 then x * x / 4 + (96 * x - 3072)
  else x * x / 16 + (480 * x - 199680)

/-- `bigModExp`. -/
structure BigModExp where
  eip2565 : Bool := false
  eip7823 : Bool := false
  eip7883 : Bool := false

namespace BigModExp

/-- The first 32 bytes of the exponent. -/
def expHead (input : Bytes) (baseLen expLen : ℤ) : Option ℤ :=
  if newInt input.length ≤ baseLen then some 0
  else if 32 < expLen then (getData input (uint64 baseLen) 32).map setBytes
  else (getData input (uint64 baseLen) (uint64 expLen)).map setBytes

/-- The adjusted length of the exponent. -/
def adjExpLen (c : BigModExp) (expLen expHead : ℤ) : ℤ :=
  let msb := if 0 < bitLen expHead then bitLen expHead - 1 else 0
  (if 32 < expLen then (expLen - 32) * 2 ^ (if c.eip7883 then 4 else 3) else 0) + newInt msb

/-- The gas of EIP-2565, as it is before the least price. -/
def gas2565 (c : BigModExp) (maxLen adjExpLen : ℤ) : ℤ :=
  let words := (maxLen + 7) / 8
  let gas := words * words
  let gas := if c.eip7883 then (if 32 < maxLen then gas + gas else 16) else gas
  let gas := if 1 < adjExpLen then gas * adjExpLen else gas
  if c.eip7883 then gas else gas / 3

/-- What a price is after EIP-2565. -/
def price2565 (c : BigModExp) (maxLen adjExpLen : ℤ) : UInt64 :=
  let minPrice := if c.eip7883 then 500 else 200
  let gas := c.gas2565 maxLen adjExpLen
  if 64 < bitLen gas then ofNat (2 ^ 64 - 1) else maxUint64 minPrice (uint64 gas)

/-- What a price is before. -/
def price198 (maxLen adjExpLen : ℤ) : UInt64 :=
  let gas := modexpMultComplexity maxLen * bigMax adjExpLen 1 / 20
  if 64 < bitLen gas then ofNat (2 ^ 64 - 1) else uint64 gas

/-- **`bigModExp.RequiredGas`.** There is none if a slice is out of range. -/
def requiredGas (c : BigModExp) (input : Bytes) : Option UInt64 := do
  let baseLen ← (getData input 0 32).map setBytes
  let expLen ← (getData input 32 32).map setBytes
  let modLen ← (getData input 64 32).map setBytes
  let expHead ← expHead (input.drop 96) baseLen expLen
  let adjExpLen := c.adjExpLen expLen expHead
  let maxLen := bigMax modLen baseLen
  pure (if c.eip2565 then c.price2565 maxLen adjExpLen else price198 maxLen adjExpLen)

end BigModExp

/-! ## The formulas of the EIPs -/

/-- The EIP in force for the price. -/
inductive ModExpEip where
  | eip198 | eip2565 | eip7883
  deriving DecidableEq

namespace ModExpEip

/-- The contract of the EIP. Whether EIP-7823 is in force as well plays no
part in the price. -/
def contract (e : ModExpEip) (eip7823 : Bool) : BigModExp where
  eip2565 := e ≠ .eip198
  eip7823 := eip7823
  eip7883 := e = .eip7883

/-- The number in a range of bytes, with zeros past the end of the input. -/
def field (input : Bytes) (start size : ℕ) : ℕ :=
  beNat ((List.range size).map fun i => input.getD (start + i) 0)

/-- The multiplication complexity. -/
def multComplexity (e : ModExpEip) (x : ℕ) : ℕ :=
  match e with
  | eip198 =>
    if x ≤ 64 then x ^ 2
    else if x ≤ 1024 then x ^ 2 / 4 + 96 * x - 3072
    else x ^ 2 / 16 + 480 * x - 199680
  | eip2565 => ((x + 7) / 8) ^ 2
  | eip7883 => if x ≤ 32 then 16 else 2 * ((x + 7) / 8) ^ 2

/-- The number of iterations, from the length of the exponent and its first
bytes. -/
def iterations (e : ModExpEip) (expLen head : ℕ) : ℕ :=
  max 1 ((if e = .eip7883 then 16 else 8) * (expLen - 32) + (head.size - 1))

/-- What the iterations cost. -/
def cost (e : ModExpEip) (work : ℕ) : ℕ :=
  match e with
  | eip198 => work / 20
  | eip2565 => max 200 (work / 3)
  | eip7883 => max 500 work

/-- **The price of an input** by the formula of the EIP. -/
def price (e : ModExpEip) (input : Bytes) : ℕ :=
  let baseLen := field input 0 32
  let expLen := field input 32 32
  let modLen := field input 64 32
  let head := field input (96 + baseLen) (min 32 expLen)
  e.cost (e.multComplexity (max modLen baseLen) * e.iterations expLen head)

end ModExpEip

/-! ## Cutting out bytes -/

namespace BigModExp

variable {input : Bytes}

/-- A field of the header. -/
theorem getData_field (hinput : input.length < 2 ^ 63) (start size : UInt64)
    (hsize : size.toNat < 2 ^ 63) :
    (getData input start size).map setBytes
      = some (ModExpEip.field input start.toNat size.toNat : ℤ) := by
  rw [getData_eq hinput hsize]
  rfl

/-- A field of the rest of the input. -/
theorem field_drop (start size : ℕ) :
    ModExpEip.field (input.drop 96) start size = ModExpEip.field input (96 + start) size := by
  unfold ModExpEip.field
  simp only [List.getD_eq_getElem?_getD, List.getElem?_drop, Nat.add_assoc]

/-- Past the end of the input there are only zeros. -/
theorem field_of_length_le {start : ℕ} (h : input.length ≤ start) (size : ℕ) :
    ModExpEip.field input start size = 0 := by
  have hzero : ((List.range size).map fun i => input.getD (start + i) 0)
      = List.replicate size 0 := by
    refine List.eq_replicate_iff.mpr ⟨by simp, fun x hx => ?_⟩
    obtain ⟨i, -, rfl⟩ := List.mem_map.mp hx
    rw [List.getD_eq_getElem?_getD, List.getElem?_eq_none (by omega)]
    rfl
  rw [ModExpEip.field, hzero]
  clear hzero h
  induction size with
  | zero => rfl
  | succ n ih => rw [List.replicate_succ, beNat_cons, ih]; simp

/-- **The first bytes of the exponent**: the offset is not converted unless
it is inside the input. -/
theorem expHead_eq (hinput : input.length < 2 ^ 63) (baseLen expLen : ℕ) :
    expHead (input.drop 96) baseLen expLen
      = some (ModExpEip.field input (96 + baseLen) (min 32 expLen) : ℤ) := by
  have hrest : (input.drop 96).length < 2 ^ 63 := by
    rw [List.length_drop]
    omega
  unfold expHead
  rw [newInt_eq hrest]
  split_ifs with hout hlong
  · rw [field_of_length_le (by simp only [List.length_drop] at hout; omega)]
    rfl
  · have hbase : (ofNat baseLen).toNat = baseLen :=
      toNat_ofNat_of_lt' (show baseLen < 2 ^ 64 by omega)
    rw [uint64_natCast, getData_field hrest _ _ (by decide), hbase, field_drop,
      Nat.min_eq_left (by omega)]
    rfl
  · have hbase : (ofNat baseLen).toNat = baseLen :=
      toNat_ofNat_of_lt' (show baseLen < 2 ^ 64 by omega)
    have hexp : (ofNat expLen).toNat = expLen :=
      toNat_ofNat_of_lt' (show expLen < 2 ^ 64 by omega)
    rw [uint64_natCast, uint64_natCast, getData_field hrest _ _ (by omega), hbase, hexp, field_drop,
      Nat.min_eq_right (by omega)]

/-! ## The formulas -/

theorem bitLen_gt_iff (gas : ℕ) : 64 < bitLen gas ↔ 2 ^ 64 ≤ gas := by
  rw [bitLen_natCast, Nat.lt_size]

/-- A price that does not fit is the largest that does. -/
theorem saturated (gas : ℕ) :
    (if 64 < bitLen gas then ofNat (2 ^ 64 - 1) else uint64 gas)
      = ofNat (min (2 ^ 64 - 1) gas) := by
  split_ifs with h <;> rw [bitLen_gt_iff] at h
  · rw [Nat.min_eq_left (by omega)]
  · rw [Nat.min_eq_right (by omega), uint64_natCast]

/-- As `saturated`, with a least price. -/
theorem saturated_max {least : UInt64} (gas : ℕ) :
    (if 64 < bitLen gas then ofNat (2 ^ 64 - 1) else maxUint64 least (uint64 gas))
      = ofNat (min (2 ^ 64 - 1) (max least.toNat gas)) := by
  have hleast := least.toNat_lt
  split_ifs with h <;> rw [bitLen_gt_iff] at h
  · rw [Nat.min_eq_left (by omega)]
  · have hgas : (ofNat gas).toNat = gas :=
      toNat_ofNat_of_lt' (show gas < 2 ^ 64 by omega)
    rw [Nat.min_eq_right (by omega), uint64_natCast]
    unfold maxUint64
    split_ifs with hlt <;> rw [UInt64.lt_iff_toNat_lt, hgas] at hlt
    · rw [Nat.max_eq_right (by omega)]
    · rw [Nat.max_eq_left (by omega), UInt64.ofNat_toNat]

theorem size_field_le (start size : ℕ) : (ModExpEip.field input start size).size ≤ 8 * size := by
  have hlt := Rlp.beNat_lt ((List.range size).map fun i => input.getD (start + i) 0)
  rw [List.length_map, List.length_range] at hlt
  refine Nat.size_le.mpr (lt_of_lt_of_eq hlt ?_)
  rw [Nat.pow_mul]

theorem adjExpLen_eq (e : ModExpEip) (eip7823 : Bool) (expLen : ℕ) {head : ℕ}
    (hhead : head.size < 2 ^ 63) :
    (e.contract eip7823).adjExpLen expLen head
      = (((if e = .eip7883 then 16 else 8) * (expLen - 32) + (head.size - 1) : ℕ) : ℤ) := by
  have hmsb : newInt (if 0 < head.size then head.size - 1 else 0) = (head.size - 1 : ℕ) := by
    split_ifs
    · exact newInt_eq (by omega)
    · rw [newInt_eq (by omega)]
      omega
  unfold adjExpLen
  dsimp only
  rw [bitLen_natCast, hmsb]
  by_cases he : e = .eip7883
  · have hbit : (e.contract eip7823).eip7883 = true := decide_eq_true he
    rw [if_pos he, hbit, if_pos rfl]
    split_ifs <;> omega
  · have hbit : (e.contract eip7823).eip7883 = false := decide_eq_false he
    rw [if_neg he, hbit, if_neg Bool.false_ne_true]
    split_ifs <;> omega

theorem modexpMultComplexity_eq (x : ℕ) :
    modexpMultComplexity x = (ModExpEip.multComplexity .eip198 x : ℤ) := by
  have hsquare : (x : ℤ) * x = ((x ^ 2 : ℕ) : ℤ) := by
    rw [Nat.pow_two, Nat.cast_mul]
  unfold modexpMultComplexity ModExpEip.multComplexity
  dsimp only
  rw [hsquare]
  generalize x ^ 2 = square
  split_ifs <;> omega

/-- The price before EIP-2565. -/
theorem price198_eq (x adj : ℕ) :
    price198 x adj = ofNat (min (2 ^ 64 - 1)
      (ModExpEip.cost .eip198 (ModExpEip.multComplexity .eip198 x * max 1 adj))) := by
  have hgas : modexpMultComplexity x * bigMax adj 1 / 20
      = ((ModExpEip.cost .eip198 (ModExpEip.multComplexity .eip198 x * max 1 adj) : ℕ) : ℤ) := by
    rw [modexpMultComplexity_eq, Nat.max_comm, show bigMax adj 1 = _ from bigMax_natCast adj 1]
    unfold ModExpEip.cost
    push_cast
    rfl
  unfold price198
  rw [hgas]
  exact saturated _

/-- What is paid for the iterations, in arbitrary precision. -/
theorem iterated (gas adj : ℕ) :
    (if 1 < (adj : ℤ) then (gas : ℤ) * adj else gas) = ((gas * max 1 adj : ℕ) : ℤ) := by
  split_ifs with h
  · rw [Nat.max_eq_right (by omega), Nat.cast_mul]
  · rw [Nat.max_eq_left (by omega), Nat.mul_one]

theorem gas2565_eq (eip7823 : Bool) (x adj : ℕ) :
    (ModExpEip.contract .eip2565 eip7823).gas2565 x adj
      = ((ModExpEip.multComplexity .eip2565 x * max 1 adj / 3 : ℕ) : ℤ) := by
  have hsquare : ((x : ℤ) + 7) / 8 * (((x : ℤ) + 7) / 8)
      = ((ModExpEip.multComplexity .eip2565 x : ℕ) : ℤ) := by
    unfold ModExpEip.multComplexity
    push_cast
    exact (pow_two _).symm
  show (if 1 < (adj : ℤ) then ((x : ℤ) + 7) / 8 * (((x : ℤ) + 7) / 8) * adj
    else ((x : ℤ) + 7) / 8 * (((x : ℤ) + 7) / 8)) / 3 = _
  rw [hsquare, iterated]
  rfl

theorem gas7883_eq (eip7823 : Bool) (x adj : ℕ) :
    (ModExpEip.contract .eip7883 eip7823).gas2565 x adj
      = ((ModExpEip.multComplexity .eip7883 x * max 1 adj : ℕ) : ℤ) := by
  have hcomplexity : (if 32 < (x : ℤ) then ((x : ℤ) + 7) / 8 * (((x : ℤ) + 7) / 8)
        + ((x : ℤ) + 7) / 8 * (((x : ℤ) + 7) / 8) else 16)
      = ((ModExpEip.multComplexity .eip7883 x : ℕ) : ℤ) := by
    unfold ModExpEip.multComplexity
    dsimp only
    split_ifs with h h'
    · omega
    · rw [Nat.two_mul, Nat.pow_two]
      push_cast
      rfl
    · rfl
    · omega
  rw [← iterated, ← hcomplexity]
  rfl

/-- The price from EIP-2565 on. -/
theorem price2565_eq {e : ModExpEip} (he : e ≠ .eip198) (eip7823 : Bool) (x adj : ℕ) :
    (e.contract eip7823).price2565 x adj = ofNat (min (2 ^ 64 - 1)
      (e.cost (e.multComplexity x * max 1 adj))) := by
  cases e with
  | eip198 => exact absurd rfl he
  | eip2565 =>
    unfold price2565
    rw [gas2565_eq]
    exact saturated_max _
  | eip7883 =>
    unfold price2565
    rw [gas7883_eq]
    exact saturated_max _

end BigModExp

/-- **The price of `MODEXP`** is that of the formula of the EIP in force,
or the largest a 64-bit integer holds. -/
theorem ModExpEip.requiredGas_eq_price (e : ModExpEip) (eip7823 : Bool) (input : Bytes)
    (hinput : input.length < 2 ^ 63) :
    (e.contract eip7823).requiredGas input
      = some (UInt64.ofNat (min (2 ^ 64 - 1) (e.price input))) := by
  have hsize : (field input (96 + field input 0 32) (min 32 (field input 32 32))).size < 2 ^ 63 :=
    lt_of_le_of_lt (BigModExp.size_field_le _ _) (by omega)
  unfold BigModExp.requiredGas
  rw [BigModExp.getData_field hinput 0 32 (by decide),
    BigModExp.getData_field hinput 32 32 (by decide),
    BigModExp.getData_field hinput 64 32 (by decide)]
  simp only [Option.bind_eq_bind, Option.bind_some, Option.pure_def]
  rw [UInt64.toNat_zero, show (32 : UInt64).toNat = 32 from rfl,
    show (64 : UInt64).toNat = 64 from rfl, BigModExp.expHead_eq hinput, Option.bind_some,
    BigModExp.adjExpLen_eq e eip7823 _ hsize, bigMax_natCast]
  refine congrArg some ?_
  by_cases he : e = .eip198
  · have hbit : (e.contract eip7823).eip2565 = false := by simp [contract, he]
    rw [hbit, if_neg Bool.false_ne_true, BigModExp.price198_eq, he]
    rfl
  · have hbit : (e.contract eip7823).eip2565 = true := by simp [contract, he]
    rw [hbit, if_pos rfl, BigModExp.price2565_eq he]
    rfl

/-- An exponent of 33 bytes of which there is one. -/
theorem ModExpEip.requiredGas_eq_price_short :
    let input : Bytes := toBytes 32 1 ++ toBytes 32 33 ++ toBytes 32 64 ++ [3, 0xff]
    input.length < 2 ^ 63 ∧ (contract .eip7883 true).requiredGas input = some 34688 := by
  intro input
  have hinput : input.length < 2 ^ 63 := by decide
  refine ⟨hinput, (ModExpEip.requiredGas_eq_price .eip7883 true input hinput).trans ?_⟩
  decide +kernel
