import CardinalEvm.GasAccounting

/-!
# What a call can afford

The gas that goes with a call is 63 of 64 parts of what is left after the
price of the call itself, or what the code asks for if that is less. The
difference is taken without a check: if the price is more than there is,
it wraps around, and the callee is promised gas that nobody has. The price
is returned nevertheless, with that gas on top, and is more than the
contract has; so the promise is refused when it is to be paid.

The gas functions of EIP-2929 and EIP-7702 charge for the accounts they
look up before they ask the old ones, and give the charge back to have it
paid with the rest.
-/

variable [Keccak]

namespace CallGasFn

/-- What is charged for an account that is not on the access list. -/
def coldPrice (d : StateDB) (addr : Address) : ℕ :=
  if d.addressInAccessList addr then 0 else 2500

/-- The state after it was charged for. -/
def warmed (d : StateDB) (addr : Address) : StateDB :=
  if d.addressInAccessList addr then d else d.addAddressToAccessList addr

/-- What is charged for the account that code delegates to. -/
def delegationPrice (d : StateDB) (addr : Address) : ℕ :=
  match parseDelegation (d.getCode addr).1 with
  | none => 0
  | some target => if (d.getCode addr).2.addressInAccessList target then 100 else 2600

/-- The state after that account was charged for. -/
def delegated (d : StateDB) (addr : Address) : StateDB :=
  match parseDelegation (d.getCode addr).1 with
  | none => (d.getCode addr).2
  | some target => warmed (d.getCode addr).2 target

/-- A call that sends a value. -/
def TransfersValue (s : GasScope) (f : CallGasFn) : Prop :=
  (f = gasCall ∨ f = gasCallCode) ∧ s.stack.getD 2 0 ≠ 0

end CallGasFn

open CallGasFn

/-- **The charges for accounts** that a gas function adds to the price of
a call. -/
def GasFn.accessPrice (s : GasScope) (d : StateDB) : GasFn → ℕ
  | makeCallVariantGasCallEIP2929 _ => coldPrice d (Word.bytes20 (s.stack.getD 1 0))
  | makeCallVariantGasCallEIP7702 _ =>
    let addr := Word.bytes20 (s.stack.getD 1 0)
    coldPrice d addr + delegationPrice (warmed d addr) addr
  | _ => 0

/-- **The state in which a call is priced**, once the accounts are charged for. -/
def GasFn.accessed (s : GasScope) (d : StateDB) : GasFn → StateDB
  | makeCallVariantGasCallEIP2929 _ => warmed d (Word.bytes20 (s.stack.getD 1 0))
  | makeCallVariantGasCallEIP7702 _ =>
    let addr := Word.bytes20 (s.stack.getD 1 0)
    delegated (warmed d addr) addr
  | _ => d

/-! ## The gas of the callee -/

section Callee

omit [Keccak]

/-- Gas that could be used was there. -/
theorem le_of_useGas {amount : UInt64} {t t' : GasSt} (h : GasM.useGas amount t = .ok true t') :
    amount ≤ t.gas := by
  refine UInt64.not_lt.mp fun hlt => ?_
  have hsat : Sat (GasM.useGas amount) t (fun used _ => used = false) (fun _ _ => False) := by
    unfold GasM.useGas
    rw [sat_modifyGet, if_pos hlt]
  cases hsat.of_ok h

/-- A value costs more than the stipend. -/
theorem CallGasFn.TransfersValue.valueGas {s : GasScope} {f : CallGasFn} (h : f.TransfersValue s) :
    f.valueGas s = 9000 := by
  have htransfer : (transferGas (s.stack.getD 2 0)).toNat = 9000 := by
    rw [transferGas, if_neg h.2]
    rfl
  obtain ⟨rfl | rfl, -⟩ := h <;> exact htransfer

/-- **What the callee gets**: no more than 63 of 64 parts of the
difference, which may have wrapped around, and no more than was asked
for. -/
theorem callGas_le {available base temp : UInt64} {requested : Word}
    (h : callGas true available base requested = some temp) :
    temp.toNat ≤ (available - base).toNat - (available - base).toNat / 64 ∧
      temp.toNat ≤ requested.toNat := by
  unfold callGas at h
  generalize available - base = x at h ⊢
  dsimp only at h
  have hdiv : (x / 64).toNat = x.toNat / 64 := UInt64.toNat_div x 64
  have hgas : (x - x / 64).toNat = x.toNat - x.toNat / 64 := by
    rw [UInt64.toNat_sub_of_le _ _ (UInt64.le_iff_toNat_le.mpr (by omega)), hdiv]
  by_cases hfits : requested.toNat < 2 ^ 64
  · have hword : (Word.uint64 requested).toNat = requested.toNat := UInt64.toNat_ofNat_of_lt' hfits
    have hisfits : Word.isUint64 requested = true := decide_eq_true hfits
    rw [hisfits, Bool.not_true, Bool.false_or, Bool.true_and] at h
    split_ifs at h with hlt
    · have hlt := UInt64.lt_iff_toNat_lt.mp (of_decide_eq_true hlt)
      cases h
      omega
    · have hge := UInt64.le_iff_toNat_le.mp (UInt64.not_lt.mp fun hlt' => hlt (decide_eq_true hlt'))
      rw [Word.uint64WithOverflow, if_pos hisfits] at h
      cases h
      omega
  · have hisfits : Word.isUint64 requested = false := decide_eq_false hfits
    rw [hisfits, Bool.not_false, Bool.true_or, Bool.true_and, if_pos rfl] at h
    cases h
    have := x.toNat_lt
    omega

end Callee

namespace CallGasFn

variable {s : GasScope} {n : UInt64} {t : GasSt}

/-- **What a call was quoted** by the gas function of its kind: the base
price, and the gas of the callee on top. -/
structure Quoted (s : GasScope) (n : UInt64) (f : CallGasFn) (t : GasSt) (base cost : UInt64)
    (t' : GasSt) : Prop where
  priced : ∃ u, f.base s n t = .ok base u
  value : f.valueGas s ≤ base.toNat
  small : base.toNat < 2 ^ 57
  temp : callGas s.rules.isEIP150 t.gas base (s.stack.getD 0 0) = some t'.callGasTemp
  total : cost.toNat = base.toNat + t'.callGasTemp.toNat
  unspent : t.Unspent s.memLen n t'

/-- **The plain gas functions of calls** add what the callee gets to their base
price. -/
theorem quoted_gas (hn : 32 ∣ n.toNat) (f : CallGasFn) (hp : Paid s.memLen n t.lastGasCost) :
    Sat (f.gas s n) t (fun cost t' => ∃ base, f.Quoted s n t base cost t')
      (fun e t' => t.Unspent s.memLen n t' ∧ e.Panics) := by
  have hsat := sat_base hn f hp
  unfold gas
  rw [sat_bind]
  cases hbase : f.base s n t with
  | error e u => exact Sat.stops hbase (hsat.of_error hbase)
  | ok base u =>
    obtain ⟨hu, hvalue, hsmall⟩ := hsat.of_ok hbase
    refine Sat.returns hbase (.bind ((sat_back 0).mono (fun requested v hv => ?_)
      (fun _ v hv => ⟨hv.1 ▸ hu, hv.2⟩)))
    obtain ⟨rfl, hrequested⟩ := hv
    have hset : ∀ temp, t.Unspent s.memLen n { v with callGasTemp := temp } :=
      fun _ => ⟨hu.gas, hu.trace, hu.paid⟩
    refine .bind (sat_get.mpr ?_)
    cases hcall : callGas s.rules.isEIP150 v.gas base requested with
    | none => exact .bind (sat_modify.mpr ⟨hset 0, by decide⟩)
    | some temp =>
      refine .bind (sat_modify.mpr (sat_checked.mono (fun cost w hw => ?_)
        (fun _ _ h => ⟨h.1 ▸ hset temp, h.2⟩)))
      obtain ⟨rfl, hcost⟩ := hw
      refine ⟨base, ⟨v, hbase⟩, hvalue, hsmall, ?_, hcost, hset temp⟩
      rw [hrequested, ← hu.gas]
      exact hcall

omit [Keccak] in
theorem coldPrice_le (d : StateDB) (addr : Address) : coldPrice d addr ≤ 2500 := by
  unfold coldPrice
  split_ifs <;> decide

theorem delegationPrice_le (d : StateDB) (addr : Address) : delegationPrice d addr ≤ 2600 := by
  unfold delegationPrice
  cases parseDelegation (d.getCode addr).1 with
  | none => exact Nat.zero_le _
  | some target =>
    dsimp only
    split_ifs <;> decide

omit [Keccak] in
/-- **The charge for a cold account is its price.** -/
theorem quoted_coldCharge (memLen : ℕ) (n : UInt64) (addr : Address) :
    Sat (coldCharge addr) t
      (fun cold t' => t.Prepaid memLen n cold t' ∧ cold.toNat = coldPrice t.statedb addr ∧
        t'.statedb = warmed t.statedb addr ∧ t'.lastGasCost = t.lastGasCost)
      (fun e t' => t.Spent t' ∧ e.Panics) := by
  unfold coldPrice warmed
  refine .bind (.bind (.ite (fun hwarm => ?_) fun hcold => ?_))
  · rw [if_pos hwarm, if_pos hwarm]
    exact ⟨.zero, rfl, rfl, rfl⟩
  · rw [if_neg hcold, if_neg hcold]
    exact sat_prepayCold memLen n coldCost addr (fun _ hv hd => ⟨hv, toNat_coldCost, hd⟩)
      (fun _ _ => And.intro)

/-- **The charge for a delegation is its price.** -/
theorem quoted_delegationCharge (memLen : ℕ) (n : UInt64) (addr : Address) :
    Sat (delegationCharge addr) t
      (fun charge t' => t.Prepaid memLen n charge t' ∧
        charge.toNat = delegationPrice t.statedb addr ∧
        t'.statedb = delegated t.statedb addr ∧ t'.lastGasCost = t.lastGasCost)
      (fun e t' => t.Spent t' ∧ e.Panics) := by
  unfold delegationPrice delegated warmed
  refine .bind (sat_modifyGet.mpr ?_)
  dsimp only
  cases parseDelegation (t.statedb.getCode addr).1 with
  | none => exact ⟨⟨rfl, .refl _, id⟩, rfl, rfl, rfl⟩
  | some target =>
    dsimp only
    refine .bind (.bind (.ite (fun hwarm => ?_) fun hcold => ?_))
    · rw [if_pos hwarm, if_pos hwarm]
      exact .bind ((sat_prepay memLen n _).mono
        (fun _ v hv => ⟨⟨hv.1.gas, hv.1.trace, hv.1.paid⟩, rfl, hv.2⟩)
        (fun _ _ h => ⟨⟨h.1.gas, h.1.trace⟩, h.2⟩))
    · rw [if_neg hcold, if_neg hcold]
      exact sat_prepayCold memLen n _ target
        (fun v hv hd => ⟨⟨hv.gas, hv.trace, hv.paid⟩, rfl, hd⟩)
        (fun _ _ h he => ⟨⟨h.gas, h.trace⟩, he⟩)

end CallGasFn

/-! ## The price of a call -/

/-- **What a call was quoted in all**: the charges for accounts, paid in
advance, and the quote of the plain gas function in the state they left. -/
structure GasFn.Charged (s : GasScope) (n : UInt64) (g : GasFn) (f : CallGasFn) (t : GasSt)
    (cost : UInt64) (t' : GasSt) : Prop where
  gas : t'.gas = t.gas
  quoted : ∃ (t₁ : GasSt) (base plain : UInt64) (t₂ : GasSt), f.Quoted s n t₁ base plain t₂ ∧
    (t₁.statedb = g.accessed s t.statedb ∧ t₁.lastGasCost = t.lastGasCost) ∧
    t₁.gas.toNat + g.accessPrice s t.statedb = t.gas.toNat ∧
    t'.callGasTemp = t₂.callGasTemp ∧
    cost.toNat = plain.toNat + g.accessPrice s t.statedb

section Price

variable {s : GasScope} {n : UInt64} {t : GasSt}

/-- The plain price of a call leaves room for the charges: one part in 64
stays behind. -/
theorem CallGasFn.Quoted.cost_lt {f : CallGasFn} {base cost : UInt64} {t' : GasSt}
    (h : f.Quoted s n t base cost t') (h150 : s.rules.isEIP150 = true) :
    cost.toNat < 2 ^ 64 - 2 ^ 57 := by
  have htemp := h.temp
  rw [h150] at htemp
  have := (callGas_le htemp).1
  have := (t.gas - base).toNat_lt
  have := h.small
  have := h.total
  omega

section Charged

variable (hn : 32 ∣ n.toNat) (hp : Paid s.memLen n t.lastGasCost)

include hn hp

theorem CallGasFn.charged_gas (f : CallGasFn) :
    Sat (f.gas s n) t
      (fun cost t' => (GasFn.call f).Charged s n f t cost t' ∧ t.Unspent s.memLen n t')
      (fun e t' => t.Spent t' ∧ e.Panics) := by
  refine (quoted_gas hn f hp).mono (fun cost t' h => ?_) (fun _ _ h => ⟨h.1.spent, h.2⟩)
  obtain ⟨base, h⟩ := h
  exact ⟨⟨h.unspent.gas, t, base, cost, t', h, ⟨rfl, rfl⟩, rfl, rfl, rfl⟩, h.unspent⟩

/-- **The price of a call under EIP-2929.** The sum with the price of a
cold account is not checked; the part of the gas that stays behind leaves
room for it. -/
theorem CallGasFn.charged_gasEIP2929 (f : CallGasFn)
    (h150 : s.rules.isEIP150 = true) :
    Sat (f.gasEIP2929 s n) t
      (fun cost t' => (GasFn.makeCallVariantGasCallEIP2929 f).Charged s n f t cost t'
        ∧ t.Unspent s.memLen n t')
      (fun e t' => t.Spent t' ∧ e.Panics) := by
  have hrefl : t.Spent t := ⟨UInt64.le_refl _, .refl _⟩
  have hcost := toNat_coldCost
  refine .bind ((sat_back 1).mono (fun word u hu => ?_) (fun _ u hu => ⟨hu.1 ▸ hrefl, hu.2⟩))
  obtain ⟨rfl, hword⟩ := hu
  have hprice : (GasFn.makeCallVariantGasCallEIP2929 f).accessPrice s u.statedb
      = coldPrice u.statedb (Word.bytes20 word) := by rw [← hword]; rfl
  have hstate : (GasFn.makeCallVariantGasCallEIP2929 f).accessed s u.statedb
      = warmed u.statedb (Word.bytes20 word) := by rw [← hword]; rfl
  generalize coldCost = cold at hcost ⊢
  refine .bind (.bind (.ite (fun hwarm => ?_) fun hcold => ?_))
  · have hzero : (GasFn.makeCallVariantGasCallEIP2929 f).accessPrice s u.statedb = 0 :=
      hprice.trans (if_pos hwarm)
    refine (quoted_gas hn f hp).mono (fun cost t' h => ?_) (fun _ _ h => ⟨h.1.spent, h.2⟩)
    obtain ⟨base, h⟩ := h
    exact ⟨⟨h.unspent.gas, u, base, cost, t', h, ⟨(hstate.trans (if_pos hwarm)).symm, rfl⟩,
      by rw [hzero]; rfl, rfl, by rw [hzero]; rfl⟩, h.unspent⟩
  · have hcharge : (GasFn.makeCallVariantGasCallEIP2929 f).accessPrice s u.statedb = cold.toNat :=
      (hprice.trans (if_neg hcold)).trans hcost.symm
    refine sat_prepayCold s.memLen n cold _ (fun v hv hd => ?_) (fun _ _ => And.intro)
    refine .bind ((quoted_gas hn f (hv.paid hp)).mono (fun plain w hw => ?_)
      (fun _ _ h => ⟨(hv.unspent h.1).spent, h.2⟩))
    obtain ⟨base, h⟩ := hw
    refine (hv.unspent h.unspent).returnGas.next fun _ x hx => ?_
    refine ⟨⟨hx.1.gas, v, base, plain, w, h,
      ⟨hd.1.trans (hstate.trans (if_neg hcold)).symm, hd.2⟩, by rw [hcharge]; exact hv.gas,
      hx.2, ?_⟩, hx.1⟩
    have hroom := h.cost_lt h150
    rw [hcharge, UInt64.toNat_add]
    exact Nat.mod_eq_of_lt (by omega)

/-- **The price of a call under EIP-7702.** -/
theorem CallGasFn.charged_gasEIP7702 (f : CallGasFn) :
    Sat (f.gasEIP7702 s n) t
      (fun cost t' => (GasFn.makeCallVariantGasCallEIP7702 f).Charged s n f t cost t'
        ∧ t.Unspent s.memLen n t')
      (fun e t' => t.Spent t' ∧ e.Panics) := by
  have hrefl : t.Spent t := ⟨UInt64.le_refl _, .refl _⟩
  refine .bind ((sat_back 1).mono (fun word u hu => ?_) (fun _ u hu => ⟨hu.1 ▸ hrefl, hu.2⟩))
  obtain ⟨rfl, hword⟩ := hu
  refine (quoted_coldCharge s.memLen n _).next fun cold v ⟨hcold, hcoldPrice, hwarmed, hfee⟩ => ?_
  refine .bind ((quoted_delegationCharge s.memLen n _).mono
    (fun charge w ⟨hcharge, hchargePrice, hd⟩ => ?_) (fun _ _ h => ?_))
  · have hcoldLe := coldPrice_le u.statedb (Word.bytes20 word)
    have hchargeLe := delegationPrice_le v.statedb (Word.bytes20 word)
    have hsum : (cold + charge).toNat = cold.toNat + charge.toNat := by
      rw [UInt64.toNat_add]
      exact Nat.mod_eq_of_lt (by omega)
    have hprice : (GasFn.makeCallVariantGasCallEIP7702 f).accessPrice s u.statedb
        = (cold + charge).toNat := by
      rw [hsum, hcoldPrice, hchargePrice, hwarmed, ← hword]
      rfl
    have hstate : w.statedb = (GasFn.makeCallVariantGasCallEIP7702 f).accessed s u.statedb := by
      rw [hd.1, hwarmed, ← hword]
      rfl
    have hpre := hcold.trans hcharge hsum
    refine .bind ((quoted_gas hn f (hpre.paid hp)).mono (fun plain x hx => ?_)
      (fun _ _ h => ⟨(hpre.unspent h.1).spent, h.2⟩))
    obtain ⟨base, h⟩ := hx
    refine (hpre.unspent h.unspent).returnGas.next fun _ y hy => ?_
    refine sat_checked.mono (fun cost z hz => ?_) (fun _ _ h => ⟨h.1 ▸ hy.1.spent, h.2⟩)
    obtain ⟨rfl, hcost⟩ := hz
    exact ⟨⟨hy.1.gas, w, base, plain, x, h, ⟨hstate, hd.2.trans hfee⟩,
      by rw [hprice]; exact hpre.gas, hy.2, by rw [hprice]; exact hcost⟩, hy.1⟩
  · exact ⟨⟨UInt64.le_trans h.1.gas hcold.spent.gas, hcold.trace.trans h.1.trace⟩, h.2⟩

/-- **The gas functions of calls** charge for accounts, and leave the rest
to the plain ones. In the end the gas is what it was. -/
theorem GasFn.charged_gas {g : GasFn} {f : CallGasFn} (hg : g.kind = .call f)
    (h150 : g = .makeCallVariantGasCallEIP2929 f → s.rules.isEIP150 = true) :
    Sat (g.gas s n) t (fun cost t' => g.Charged s n f t cost t' ∧ t.Unspent s.memLen n t')
      (fun e t' => t.Spent t' ∧ e.Panics) := by
  cases g with
  | call f' =>
    obtain rfl := GasKind.call.inj hg
    exact CallGasFn.charged_gas hn hp f'
  | makeCallVariantGasCallEIP2929 f' =>
    obtain rfl := GasKind.call.inj hg
    exact CallGasFn.charged_gasEIP2929 hn hp f' (h150 rfl)
  | makeCallVariantGasCallEIP7702 f' =>
    obtain rfl := GasKind.call.inj hg
    exact CallGasFn.charged_gasEIP7702 hn hp f'
  | _ => cases hg

end Charged

/-- The price of a call covers what the callee gets and the value. -/
theorem GasFn.Charged.le_cost {g : GasFn} {f : CallGasFn} {cost : UInt64} {t' : GasSt}
    (h : g.Charged s n f t cost t') : f.valueGas s + t'.callGasTemp.toNat ≤ cost.toNat := by
  obtain ⟨-, t₁, base, plain, t₂, hquoted, -, -, htemp, hcost⟩ := h
  have := hquoted.value
  have := hquoted.total
  rw [htemp]
  omega

/-- **A call can afford its gas.** If the price of a call can be paid, it
is the sum of the base price, the charges for accounts and the gas of the
callee, none of which wrapped around; the base price is that of the state
which the charges leave; the callee gets no more than 63 of
64 parts of what is left, and no more than was asked for; and the stipend
of a call that sends a value can be added to it. -/
theorem GasFn.call_gas_affordable {g : GasFn} {f : CallGasFn} (hg : g.kind = .call f)
    {cost : UInt64} {t' t'' : GasSt} (h150 : s.rules.isEIP150 = true) (hn : 32 ∣ n.toNat)
    (hp : Paid s.memLen n t.lastGasCost) (hrun : g.gas s n t = .ok cost t')
    (huse : GasM.useGas cost t' = .ok true t'') :
    ∃ (t₁ : GasSt) (base : UInt64) (t₂ : GasSt), f.base s n t₁ = .ok base t₂ ∧
      t₁.statedb = g.accessed s t.statedb ∧ t₁.lastGasCost = t.lastGasCost ∧
      t₁.gas.toNat + g.accessPrice s t.statedb = t.gas.toNat ∧
      cost.toNat = base.toNat + g.accessPrice s t.statedb + t'.callGasTemp.toNat ∧
      cost.toNat ≤ t.gas.toNat ∧
      t'.callGasTemp.toNat ≤ (t.gas.toNat - base.toNat - g.accessPrice s t.statedb)
        - (t.gas.toNat - base.toNat - g.accessPrice s t.statedb) / 64 ∧
      t'.callGasTemp.toNat ≤ (s.stack.getD 0 0).toNat ∧
      (f.TransfersValue s → t'.callGasTemp.toNat + 2300 < 2 ^ 64) := by
  obtain ⟨hgas, t₁, base, plain, t₂, hquoted, ⟨hstate, hfee⟩, hgas₁, htemp, hcost⟩ :=
    ((GasFn.charged_gas hn hp hg (fun _ => h150)).of_ok hrun).1
  obtain ⟨u, hbase⟩ := hquoted.priced
  have htotal := hquoted.total
  rw [← htemp] at htotal
  have hpaid : cost.toNat ≤ t.gas.toNat := by
    rw [← hgas]
    exact UInt64.le_iff_toNat_le.mp (le_of_useGas huse)
  have hcovered : base ≤ t₁.gas := UInt64.le_iff_toNat_le.mpr (by omega)
  have hquote := hquoted.temp
  rw [h150, ← htemp] at hquote
  obtain ⟨hparts, hrequested⟩ := callGas_le hquote
  rw [UInt64.toNat_sub_of_le _ _ hcovered] at hparts
  refine ⟨t₁, base, u, hbase, hstate, hfee, hgas₁, by omega, hpaid, ?_, hrequested,
    fun hvalue => ?_⟩
  · rw [show t.gas.toNat - base.toNat - g.accessPrice s t.statedb
      = t₁.gas.toNat - base.toNat by omega]
    exact hparts
  · have hnine := hquoted.value
    rw [hvalue.valueGas] at hnine
    have := t.gas.toNat_lt
    omega

end Price

/-- The scope of a `STATICCALL` of a cold account with 700 gas. -/
def coldScope : GasScope where
  rules := { isEIP150 := true }
  self := 1
  stack := [700, 2, 0, 0, 0, 0]
  memLen := 0

omit [Keccak] in
theorem GasFn.call_gas_affordable_cold :
    letI := Keccak.digests
    let t : GasSt := ⟨StateDB.newStateDB .empty, 0, 5000, 0, []⟩
    ∃ cost t', (makeCallVariantGasCallEIP2929 .gasStaticCall).gas coldScope 0 t = .ok cost t' ∧
      ∃ (t₁ : GasSt) (base : UInt64) (t₂ : GasSt),
        CallGasFn.gasStaticCall.base coldScope 0 t₁ = .ok base t₂ ∧
        t₁.statedb = t.statedb.addAddressToAccessList 2 ∧
        t₁.gas.toNat + 2500 = 5000 ∧ cost.toNat = base.toNat + 2500 + t'.callGasTemp.toNat ∧
        cost.toNat ≤ 5000 := by
  let _ := Keccak.digests
  refine ⟨3200, _, rfl, ?_⟩
  obtain ⟨t₁, base, t₂, hbase, hstate, -, hgas, hcost, hle, -⟩ :=
    GasFn.call_gas_affordable (g := .makeCallVariantGasCallEIP2929 .gasStaticCall) (s := coldScope)
      (n := 0) (t := ⟨StateDB.newStateDB .empty, 0, 5000, 0, []⟩) rfl rfl ⟨0, rfl⟩
      ⟨0, rfl, by decide, by decide⟩ rfl rfl
  exact ⟨t₁, base, t₂, hbase, hstate, hgas, hcost, hle⟩
