import CardinalEvm.StateTransition

/-!
# The price of a message

`IntrinsicGas` and `FloorDataGas` calculate with `uint64`, the first with
a check for overflows at some of its additions. The data and the lists of
a message are in memory, so nothing overflows (`intrinsicGas_amounts`,
`floorDataGas_amounts`), and the functions can be compared as sums of natural
numbers.
-/

/-- **What `IntrinsicGas` adds up.** -/
def intrinsicSum (data : Bytes) (accessList : TxAccessList) (authList : AuthList)
    (isContractCreation isHomestead isEIP2028 isEIP3860 : Bool) : ℕ :=
  (if isContractCreation && isHomestead then 53000 else 21000)
    + data.countP (· ≠ 0) * (if isEIP2028 then 16 else 68)
    + (data.length - data.countP (· ≠ 0)) * 4
    + (if isContractCreation && isEIP3860 then (data.length + 31) / 32 * 2 else 0)
    + accessList.tuples.length * 2400
    + accessList.storageKeys * 1900
    + authList.auths.length * 25000

/-- **What `FloorDataGas` adds up.** -/
def floorSum (data : Bytes) : ℕ :=
  21000 + ((data.length - data.countP (· = 0)) * 4 + data.countP (· = 0)) * 10

/-- The intrinsic gas of a message as a number. -/
def Message.intrinsicCost (rules : Rules) (msg : Message) : ℕ :=
  intrinsicSum msg.data msg.accessList msg.authList msg.recipient.isNone rules.isHomestead
    rules.isIstanbul rules.isShanghai

/-- The gas is returned, and is this number. -/
def Amounts (r : Except TxErr UInt64) (n : ℕ) : Prop := ∃ gas, r = .ok gas ∧ gas.toNat = n

theorem Amounts.bind {r : Except TxErr UInt64} {f : UInt64 → Except TxErr UInt64} {m n : ℕ}
    (h : Amounts r m) (hf : ∀ gas : UInt64, gas.toNat = m → Amounts (f gas) n) :
    Amounts (r >>= f) n := by
  obtain ⟨gas, rfl, hgas⟩ := h
  exact hf gas hgas

theorem chargeEach_amounts {n price gas : UInt64} {m k p : ℕ} (hgas : gas.toNat = m)
    (hn : n.toNat = k) (hprice : price.toNat = p) (hpos : 0 < p) (hfits : m + k * p < 2 ^ 64) :
    Amounts (chargeEach n price gas) (m + k * p) := by
  subst hgas hn hprice
  have hle : gas ≤ 0xffffffffffffffff := by
    have hlt := gas.toNat_lt
    rw [UInt64.le_iff_toNat_le]
    show gas.toNat ≤ 2 ^ 64 - 1
    omega
  have hroom : ¬ (0xffffffffffffffff - gas) / price < n := by
    rw [UInt64.lt_iff_toNat_lt, UInt64.toNat_div, UInt64.toNat_sub_of_le _ _ hle,
      Nat.div_lt_iff_lt_mul hpos]
    show ¬ 2 ^ 64 - 1 - gas.toNat < _
    omega
  refine ⟨gas + n * price, if_neg hroom, ?_⟩
  rw [UInt64.toNat_add, UInt64.toNat_mul, Nat.mod_eq_of_lt (a := n.toNat * _) (by omega),
    Nat.mod_eq_of_lt hfits]

theorem toNat_ofNat_of_lt {n : ℕ} (h : n < 2 ^ 48) : (UInt64.ofNat n).toNat = n :=
  UInt64.toNat_ofNat_of_lt' (h.trans (by decide))

/-- An addition without a check. -/
theorem toNat_add_mul {gas : UInt64} (n : ℕ) (price : UInt64) {m k : ℕ} (hgas : gas.toNat = m)
    (hn : n < 2 ^ 48) (hprice : price.toNat = k) (hfits : m + n * k < 2 ^ 64) :
    (gas + UInt64.ofNat n * price).toNat = m + n * k := by
  rw [UInt64.toNat_add, UInt64.toNat_mul, toNat_ofNat_of_lt hn, hgas, hprice,
    Nat.mod_eq_of_lt (a := n * k) (by omega), Nat.mod_eq_of_lt hfits]

section Sums

variable {data : Bytes} (hdata : data.length < 2 ^ 48)
include hdata

/-- **The price of the data.** -/
theorem chargeData_amounts (isContractCreation isEIP2028 isEIP3860 : Bool) {gas : UInt64}
    (hgas : gas.toNat ≤ 53000) :
    Amounts (chargeData data isContractCreation isEIP2028 isEIP3860 gas)
      (gas.toNat + data.countP (· ≠ 0) * (if isEIP2028 then 16 else 68)
        + (data.length - data.countP (· ≠ 0)) * 4
        + if isContractCreation && isEIP3860 then (data.length + 31) / 32 * 2 else 0) := by
  have hcount : data.countP (· ≠ 0) ≤ data.length := List.countP_le_length
  have hlen := toNat_ofNat_of_lt hdata
  have hnz : (nonZeroBytes data).toNat = data.countP (· ≠ 0) :=
    toNat_ofNat_of_lt (hcount.trans_lt hdata)
  have hz : (UInt64.ofNat data.length - nonZeroBytes data).toNat
      = data.length - data.countP (· ≠ 0) := by
    rw [UInt64.toNat_sub_of_le _ _ (UInt64.le_iff_toNat_le.mpr (by rwa [hnz, hlen])), hnz, hlen]
  unfold chargeData
  by_cases hempty : UInt64.ofNat data.length = 0
  · have hzero : data.length = 0 := by rw [← hlen, hempty]; rfl
    obtain rfl := List.length_eq_zero_iff.mp hzero
    exact ⟨gas, rfl, by simp⟩
  · have hprice : ∀ b : Bool, (if b then Params.txDataNonZeroGasEIP2028
        else Params.txDataNonZeroGasFrontier).toNat = if b then 16 else 68 := by decide
    have hpos : 0 < if isEIP2028 then 16 else 68 := by split <;> decide
    have hmul : data.countP (· ≠ 0) * (if isEIP2028 then 16 else 68)
        ≤ data.countP (· ≠ 0) * 68 := Nat.mul_le_mul_left _ (by split <;> decide)
    simp only [if_neg hempty]
    refine .bind (chargeEach_amounts rfl hnz (hprice _) hpos (by omega)) fun gas₁ h₁ => ?_
    refine .bind (chargeEach_amounts (p := 4) h₁ hz rfl (by decide) (by omega)) fun gas₂ h₂ => ?_
    by_cases hinit : (isContractCreation && isEIP3860) = true
    · simp only [if_pos hinit]
      have hwords : (toWordSize (UInt64.ofNat data.length)).toNat = (data.length + 31) / 32 := by
        rw [toNat_toWordSize (by omega), hlen]
      exact chargeEach_amounts (p := 2) h₂ hwords rfl (by decide) (by omega)
    · simp only [if_neg hinit]
      exact ⟨gas₂, rfl, h₂⟩

/-- **`IntrinsicGas` is the sum**, and never an error. -/
theorem intrinsicGas_amounts (accessList : TxAccessList) (authList : AuthList)
    (isContractCreation isHomestead isEIP2028 isEIP3860 : Bool) :
    Amounts (intrinsicGas data accessList authList isContractCreation isHomestead isEIP2028
        isEIP3860)
      (intrinsicSum data accessList authList isContractCreation isHomestead isEIP2028
        isEIP3860) := by
  have hbase : ∀ b : Bool, (if b then Params.txGasContractCreation else Params.txGas).toNat
      = if b then 53000 else 21000 := by decide
  have hle : (if isContractCreation && isHomestead then 53000 else 21000) ≤ 53000 := by
    split <;> decide
  have hcount : data.countP (· ≠ 0) ≤ data.length := List.countP_le_length
  have hmul : data.countP (· ≠ 0) * (if isEIP2028 then 16 else 68)
      ≤ data.countP (· ≠ 0) * 68 := Nat.mul_le_mul_left _ (by split <;> decide)
  have hwords : (if isContractCreation && isEIP3860 then (data.length + 31) / 32 * 2 else 0)
      ≤ (data.length + 31) / 32 * 2 := by
    split
    · exact le_rfl
    · exact Nat.zero_le _
  have hlists := accessList.fits
  have hauths := authList.fits
  unfold intrinsicGas intrinsicSum
  rw [← hbase] at hle ⊢
  refine .bind (chargeData_amounts hdata _ _ _ hle) fun gas₁ h₁ => ?_
  have hkeys : accessList.tuples.length + accessList.storageKeys < 2 ^ 48 := accessList.fits
  have h₂ := toNat_add_mul accessList.tuples.length Params.txAccessListAddressGas (k := 2400) h₁
    (by omega) rfl (by omega)
  have h₃ := toNat_add_mul accessList.storageKeys Params.txAccessListStorageKeyGas (k := 1900) h₂
    (by omega) rfl (by omega)
  exact ⟨_, rfl, toNat_add_mul _ _ (k := 25000) h₃ authList.fits rfl (by omega)⟩

/-- **`FloorDataGas` is the sum**, and never an error. -/
theorem floorDataGas_amounts : Amounts (floorDataGas data) (floorSum data) := by
  have hcount : data.countP (· = 0) ≤ data.length := List.countP_le_length
  have hz := toNat_ofNat_of_lt (hcount.trans_lt hdata)
  have hnz : (UInt64.ofNat data.length - UInt64.ofNat (data.countP (· = 0))).toNat
      = data.length - data.countP (· = 0) := by
    rw [UInt64.toNat_sub_of_le _ _ (UInt64.le_iff_toNat_le.mpr (by
      rwa [hz, toNat_ofNat_of_lt hdata])), hz, toNat_ofNat_of_lt hdata]
  have htokens : ((UInt64.ofNat data.length - UInt64.ofNat (data.countP (· = 0)))
      * Params.txTokenPerNonZeroByte + UInt64.ofNat (data.countP (· = 0))).toNat
      = (data.length - data.countP (· = 0)) * 4 + data.countP (· = 0) := by
    rw [UInt64.toNat_add, UInt64.toNat_mul, hnz, hz]
    show ((data.length - data.countP (· = 0)) * 4 % 2 ^ 64 + data.countP (· = 0)) % 2 ^ 64 = _
    omega
  exact chargeEach_amounts (m := 21000) (p := 10) rfl htokens rfl (by decide) (by omega)

end Sums

/-- Every message costs 21000. -/
theorem le_intrinsicSum (data : Bytes) (accessList : TxAccessList) (authList : AuthList)
    (isContractCreation isHomestead isEIP2028 isEIP3860 : Bool) :
    21000 ≤ intrinsicSum data accessList authList isContractCreation isHomestead isEIP2028
      isEIP3860 := by
  have hbase : 21000 ≤ if isContractCreation && isHomestead then 53000 else 21000 := by
    split <;> decide
  unfold intrinsicSum
  omega

/-- The sum grows with the forks that make creations more expensive. -/
theorem intrinsicSum_le (data : Bytes) (accessList : TxAccessList) (authList : AuthList)
    (isContractCreation isHomestead isEIP2028 : Bool) {isEIP3860 isEIP3860' : Bool}
    (h : isEIP3860 → isEIP3860') :
    intrinsicSum data accessList authList isContractCreation isHomestead isEIP2028 isEIP3860
      ≤ intrinsicSum data accessList authList isContractCreation true isEIP2028 isEIP3860' := by
  have hbase : (if isContractCreation && isHomestead then 53000 else 21000)
      ≤ if isContractCreation && true then 53000 else 21000 := by
    cases isContractCreation <;> cases isHomestead <;> decide
  have hwords : (if isContractCreation && isEIP3860 then (data.length + 31) / 32 * 2 else 0)
      ≤ if isContractCreation && isEIP3860' then (data.length + 31) / 32 * 2 else 0 := by
    cases isContractCreation <;> cases isEIP3860 <;> cases isEIP3860' <;> simp at h ⊢
  unfold intrinsicSum
  omega

/-! ## After the run -/

/-- A transition that stops without an error. -/
def Stop.Panics (stop : Stop) : Prop := ∀ e, stop ≠ .err e

namespace Transition

theorem stops_settleGas (env : Env) (floor : UInt64) :
    Stops Stop.Panics (settleGas env floor) := by
  refine .bind (fun _ => trivial) fun _ => .bind .get fun _ => .bind (fun _ => trivial) fun _ => ?_
  exact .bind (fun _ => trivial) fun _ => .bind (fun _ => trivial) fun _ =>
    .ite (fun _ => trivial) (.pure ())

theorem stops_settlePayments (env : Env) (msg : Message) :
    Stops Stop.Panics (settlePayments env msg) := by
  have hderef : ∀ x, Stops Stop.Panics (deref x) := by
    intro x
    cases x with
    | none => exact .throw nofun
    | some x => exact .pure x
  have htip : Stops Stop.Panics (effectiveTip env msg) := by
    unfold effectiveTip
    split
    · exact .bind (hderef _) fun _ => .bind (hderef _) fun _ => .pure _
    · exact .pure _
  have hgas : ∀ amount, Stops Stop.Panics (addGas amount) := fun amount =>
    .bind .get fun _ => .bind (.ite (.throw nofun) (.pure ())) fun _ =>
      .bind (fun _ => trivial) fun _ => .modify _
  refine .bind .get fun _ => .bind (fun _ => trivial) fun _ => .bind (hgas _) fun _ => ?_
  exact .bind htip fun _ => .bind (fun _ => trivial) fun _ => fun _ => trivial

end Transition
