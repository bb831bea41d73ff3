import CardinalEvm.Faults
import CardinalEvm.Registers

/-!
# Gas

Gas goes from a frame to the frames it calls and comes back, and nothing
on the way makes more of it. The subtractions of `Contract.UseGas` are
checked. The additions are not: a call gives back what the callee left,
and some gas functions give back what they charged in advance. That these
sums stay below what the caller had rests on the price of the call: it
covers all the callee is given, and the stipend of a call with value is
less than what the transfer costs.

The one sum that could spoil this is in the gas functions of EIP-2929,
which add the price of a cold account to that of the call without a
check. From EIP-150 on a call never gets more than 63 out of 64 parts,
which leaves room for it; so the theorem is about rules in which the one
comes with the other, as in all forks.
-/

/-- **An event that makes no gas**: a subtraction or addition that does
not wrap around, and a call that leaves its caller no richer. -/
def Event.Sound : Event → Prop
  | .useGas gas amount => amount ≤ gas
  | .addGas gas amount => gas.toNat + amount.toNat < 2 ^ 64
  | .called before after => after ≤ before
  | _ => True

/-- A sound event other than that an instruction was executed. -/
def Event.Charge : Event → Prop
  | .executed => False
  | v => v.Sound

variable [Keccak]

/-! ## The price of the memory -/

section Fees

omit [Keccak]

/-- The price of a memory of some words. -/
def memoryFee (w : ℕ) : ℕ := w * 3 + w * w / 512

theorem memoryFee_mono {w w' : ℕ} (h : w ≤ w') : memoryFee w ≤ memoryFee w' :=
  Nat.add_le_add (Nat.mul_le_mul_right 3 h) (Nat.div_le_div_right (Nat.mul_le_mul h h))

theorem memoryFee_lt {w : ℕ} (h : w < 2 ^ 32) : memoryFee w < 2 ^ 56 := by
  have := memoryFee_mono (show w ≤ 2 ^ 32 - 1 by omega)
  exact this.trans_lt (by decide)

theorem toNat_totalFee {words : UInt64} (h : words.toNat < 2 ^ 32) :
    (totalFee words).toNat = memoryFee words.toNat := by
  have hsq : words.toNat * words.toNat < 2 ^ 64 :=
    (Nat.mul_lt_mul'' h h).trans_le (by decide)
  have hlt := memoryFee_lt h
  unfold memoryFee at hlt ⊢
  unfold totalFee
  rw [UInt64.toNat_add, UInt64.toNat_div, UInt64.toNat_mul, UInt64.toNat_mul,
    Nat.mod_eq_of_lt hsq]
  show (words.toNat * 3 % 2 ^ 64 + words.toNat * words.toNat / 512) % 2 ^ 64 = _
  rw [Nat.mod_eq_of_lt (show words.toNat * 3 < 2 ^ 64 by omega), Nat.mod_eq_of_lt (by omega)]

/-- **What was paid for the memory**: the price of some words, all of
which it has or is about to get. -/
def Paid (memLen : ℕ) (n : UInt64) (cost : UInt64) : Prop :=
  ∃ w, cost.toNat = memoryFee w ∧ 32 * w ≤ max memLen n.toNat ∧ w < 2 ^ 32

end Fees

/-! ## Gas functions -/

/-- A panic or an error, and not the end of the fuel. -/
def GasStop.Panics (e : GasStop) : Prop := e ≠ .fault .outOfFuel

instance (e : GasStop) : Decidable e.Panics :=
  match e with
  | .err _ => isTrue nofun
  | .fault f => decidable_of_iff (f ≠ .outOfFuel)
      ⟨fun h h' => h (GasStop.fault.inj h'), fun h h' => h (congrArg GasStop.fault h')⟩

open GasStop (Panics)

/-- **A gas function that gives back what it takes**: the gas of the
contract is what it was, and the memory it has priced is paid for. -/
structure GasSt.Unspent (memLen : ℕ) (n : UInt64) (t t' : GasSt) : Prop where
  gas : t'.gas = t.gas
  trace : Grows Event.Charge t.trace t'.trace
  paid : Paid memLen n t.lastGasCost → Paid memLen n t'.lastGasCost

instance {memLen : ℕ} {n : UInt64} : IsPreorder GasSt (GasSt.Unspent memLen n) where
  refl _ := ⟨rfl, .refl _, id⟩
  trans _ _ _ h h' := ⟨h'.gas.trans h.gas, h.trace.trans h'.trace, h'.paid ∘ h.paid⟩

section Primitives

omit [Keccak]

variable {memLen : ℕ} {n : UInt64} {t t' : GasSt}

/-- A change of the state and of the gas for a call alone. -/
theorem GasSt.Unspent.of_eq (hgas : t'.gas = t.gas) (htrace : t'.trace = t.trace)
    (hfee : t'.lastGasCost = t.lastGasCost) : t.Unspent memLen n t' :=
  ⟨hgas, htrace ▸ .refl _, fun h => hfee ▸ h⟩

theorem unspent_map {α : Type} {e : GasStop} (he : e.Panics) (f : GasSt → Option α) :
    Tame (GasSt.Unspent memLen n) Panics (attempt e fun t => (f t).map fun a => (a, t)) := by
  refine .attempt he fun t _ t' h => ?_
  obtain ⟨_, -, h⟩ := Option.map_eq_some_iff.mp h
  cases h
  exact refl_of _ t

theorem unspent_addSlot (a : Address) (slot : Hash) :
    Tame (GasSt.Unspent memLen n) Panics (GasM.addSlot a slot) :=
  .attempt (by decide) fun t _ t' h => by
    obtain ⟨_, -, h⟩ := Option.map_eq_some_iff.mp h
    cases h
    exact .of_eq rfl rfl rfl

variable {s : GasScope}

/-- The words of a size in whole words. -/
theorem toWordSize_of_dvd (hn : 32 ∣ n.toNat) (hmax : n ≤ 0x1FFFFFFFE0) :
    (toWordSize n).toNat * 32 = n.toNat ∧ (toWordSize n).toNat < 2 ^ 32 := by
  have hle : n.toNat ≤ 0x1FFFFFFFE0 := UInt64.le_iff_toNat_le.mp hmax
  rw [toNat_toWordSize (by omega)]
  omega

/-- **Pricing the memory** takes nothing yet, and the price is never
large. -/
theorem sat_memoryGasCost (hn : 32 ∣ n.toNat) (t : GasSt) :
    Sat (memoryGasCost s n) t
      (fun cost t' => t.Unspent s.memLen n t' ∧ t'.callGasTemp = t.callGasTemp
        ∧ (Paid s.memLen n t.lastGasCost → cost.toNat < 2 ^ 56))
      (fun e t' => t.Unspent s.memLen n t' ∧ e.Panics) := by
  refine .ite (fun _ => ⟨refl_of _ t, rfl, fun _ => by decide⟩) fun _ =>
    .ite (fun _ => ⟨refl_of _ t, by decide⟩) fun hmax => ?_
  obtain ⟨hwords, hlt⟩ := toWordSize_of_dvd hn (UInt64.not_lt.mp hmax)
  have hsize : (toWordSize n * 32).toNat = n.toNat := by
    rw [UInt64.toNat_mul, show (32 : UInt64).toNat = 32 from rfl, hwords]
    exact Nat.mod_eq_of_lt n.toNat_lt
  have hfee := toNat_totalFee hlt
  refine .ite (fun hgrow => ?_) fun _ => ⟨refl_of _ t, rfl, fun _ => by decide⟩
  rw [hsize] at hgrow
  refine ⟨⟨rfl, .refl _, fun _ => ⟨_, hfee, ?_, hlt⟩⟩, rfl, fun ⟨w, hw, hle, _⟩ => ?_⟩
  · exact (Nat.mul_comm _ _).le.trans (hwords.le.trans (le_max_right _ _))
  · have hmono : memoryFee w ≤ memoryFee (toWordSize n).toNat := memoryFee_mono (by omega)
    have hsub : t.lastGasCost ≤ totalFee (toWordSize n) := by
      rw [UInt64.le_iff_toNat_le, hw, hfee]
      exact hmono
    have := memoryFee_lt hlt
    rw [UInt64.toNat_sub_of_le _ _ hsub]
    omega

end Primitives

/-- **The gas functions of everything but calls** leave the gas alone. -/
theorem law_unspent {s : GasScope} {n : UInt64} (hn : 32 ∣ n.toNat) (depth : ℕ) :
    GasLaw s n depth (fun k => ∀ f, k ≠ .call f) fun _ _ =>
      Tame (GasSt.Unspent s.memLen n) Panics where
  pure := .pure
  throw _ := .throw (by rintro ⟨⟩)
  canary := .throw (by decide)
  bind := .bind
  after := .bind
  get := .get
  back _ := unspent_map (by decide) _
  checked _ := unspent_map (by decide) _
  memory t := (sat_memoryGasCost hn t).mono (fun _ _ h => h.1)
  read _ _ _ _ := .of_eq rfl rfl rfl
  slotInAccessList _ _ := unspent_map (by decide) _
  addAddress _ _ := .of_eq rfl rfl rfl
  addSlot := unspent_addSlot
  addRefund _ amount t := ⟨rfl, .cons (e := .addRefund _ amount) trivial t.trace, id⟩
  subRefund _ amount t := ⟨rfl, .cons (e := .subRefund _ amount) trivial t.trace, id⟩
  useGas hK := absurd rfl (hK _)
  returnGas hK := absurd rfl (hK _)
  callGasTemp hK := absurd rfl (hK _)

theorem GasFn.unspent_gas {s : GasScope} {n : UInt64} (hn : 32 ∣ n.toNat) {g : GasFn}
    (hg : ∀ f, g.kind ≠ .call f) : Tame (GasSt.Unspent s.memLen n) Panics (g.gas s n) :=
  (law_unspent hn _).gas hg le_rfl

/-! ## The price of a call -/

/-- **A gas function that failed**: it may have kept what it charged in
advance. -/
structure GasSt.Spent (t t' : GasSt) : Prop where
  gas : t'.gas ≤ t.gas
  trace : Grows Event.Charge t.trace t'.trace

section Calls

omit [Keccak]

variable {s : GasScope} {n : UInt64} {t t' t'' : GasSt}

theorem GasSt.Unspent.spent {memLen : ℕ} (h : t.Unspent memLen n t') : t.Spent t' :=
  ⟨h.gas ▸ UInt64.le_refl _, h.trace⟩

theorem sat_back (k : ℕ) :
    Sat (GasM.back s k) t (fun w t' => t' = t ∧ s.stack.getD k 0 = w)
      (fun e t' => t' = t ∧ e.Panics) := by
  refine sat_attempt (fun w t' h => ?_) (fun _ => ⟨rfl, by decide⟩)
  obtain ⟨w', hw, h⟩ := Option.map_eq_some_iff.mp h
  cases h
  exact ⟨rfl, by rw [List.getD_eq_getElem?_getD, hw, Option.getD_some]⟩

theorem sat_checked {x y : UInt64} :
    Sat (GasM.checked (safeAdd x y)) t (fun z t' => t' = t ∧ z.toNat = x.toNat + y.toNat)
      (fun e t' => t' = t ∧ e.Panics) := by
  refine sat_attempt (fun z t' h => ?_) (fun _ => ⟨rfl, by decide⟩)
  obtain ⟨z', hz, h⟩ := Option.map_eq_some_iff.mp h
  cases h
  unfold safeAdd at hz
  split_ifs at hz with hlt
  cases hz
  refine ⟨rfl, ?_⟩
  rw [UInt64.toNat_add]
  exact Nat.mod_eq_of_lt hlt

namespace CallGasFn

/-- What a call must pay for the value it sends. -/
def valueGas (s : GasScope) : CallGasFn → ℕ
  | gasCall | gasCallCode => (transferGas (s.stack.getD 2 0)).toNat
  | gasDelegateCall | gasStaticCall => 0

theorem toNat_transferGas_le (value : Word) : (transferGas value).toNat ≤ 9000 := by
  unfold transferGas
  split_ifs <;> decide

end CallGasFn

end Calls

namespace CallGasFn

variable {s : GasScope} {n : UInt64}

theorem sat_newAccountGas (transfersValue : Bool) (address : Address) (t : GasSt) :
    Sat (newAccountGas s transfersValue address) t
      (fun gas t' => t.Unspent s.memLen n t' ∧ gas.toNat ≤ 25000)
      (fun e t' => t.Unspent s.memLen n t' ∧ e.Panics) := by
  refine .ite (fun _ => .ite (fun _ => ?_) fun _ => ⟨refl_of _ t, by decide⟩) fun _ => ?_
  all_goals
    exact .bind (.ite (fun _ => ⟨.of_eq rfl rfl rfl, by decide⟩) fun _ =>
      ⟨.of_eq rfl rfl rfl, by decide⟩)

/-- **The base price of a call** covers the value, and is never large. -/
theorem sat_base (hn : 32 ∣ n.toNat) (f : CallGasFn) {t : GasSt}
    (hp : Paid s.memLen n t.lastGasCost) :
    Sat (f.base s n) t
      (fun base t' => t.Unspent s.memLen n t' ∧ f.valueGas s ≤ base.toNat ∧ base.toNat < 2 ^ 57)
      (fun e t' => t.Unspent s.memLen n t' ∧ e.Panics) := by
  have hmem : ∀ {u : GasSt}, t.Unspent s.memLen n u → Sat (memoryGasCost s n) u
      (fun cost u' => t.Unspent s.memLen n u' ∧ cost.toNat < 2 ^ 56)
      (fun e u' => t.Unspent s.memLen n u' ∧ e.Panics) := fun {u} hu =>
    (sat_memoryGasCost hn u).mono
      (fun _ _ h => ⟨trans_of (GasSt.Unspent _ _) hu h.1, h.2.2 (hu.paid hp)⟩)
      (fun _ _ h => ⟨trans_of (GasSt.Unspent _ _) hu h.1, h.2⟩)
  cases f with
  | gasCall =>
    refine .bind
      ((sat_back 2).mono (fun value u hu => ?_) (fun _ u hu => ⟨hu.1 ▸ refl_of _ _, hu.2⟩))
    obtain ⟨rfl, hvalue⟩ := hu
    refine .bind
      ((sat_back 1).mono (fun address v hv => ?_) (fun _ v hv => ⟨hv.1 ▸ refl_of _ _, hv.2⟩))
    obtain ⟨rfl, -⟩ := hv
    refine (sat_newAccountGas _ _ v).next fun gas w hw => ?_
    refine (hmem hw.1).next fun memoryGas x hx => ?_
    have hgas := hw.2
    have htransfer := toNat_transferGas_le value
    have hsum : (gas + transferGas value).toNat = gas.toNat + (transferGas value).toNat := by
      rw [UInt64.toNat_add]
      exact Nat.mod_eq_of_lt (by omega)
    refine sat_checked.mono (fun base y hy => ?_) (fun _ _ h => ⟨h.1 ▸ hx.1, h.2⟩)
    obtain ⟨rfl, hbase⟩ := hy
    refine ⟨hx.1, ?_, by omega⟩
    show (transferGas (s.stack.getD 2 0)).toNat ≤ base.toNat
    rw [hvalue]
    omega
  | gasCallCode =>
    refine (hmem (refl_of _ t)).next fun memoryGas x hx => ?_
    refine .bind ((sat_back 2).mono (fun value u hu => ?_) (fun _ u hu => ⟨hu.1 ▸ hx.1, hu.2⟩))
    obtain ⟨rfl, hvalue⟩ := hu
    have htransfer := toNat_transferGas_le value
    refine sat_checked.mono (fun base y hy => ?_) (fun _ _ h => ⟨h.1 ▸ hx.1, h.2⟩)
    obtain ⟨rfl, hbase⟩ := hy
    refine ⟨hx.1, ?_, by omega⟩
    show (transferGas (s.stack.getD 2 0)).toNat ≤ base.toNat
    rw [hvalue]
    omega
  | gasDelegateCall | gasStaticCall =>
    exact (hmem (refl_of _ t)).mono (fun _ _ h => ⟨h.1, Nat.zero_le _, by omega⟩)

end CallGasFn

section Prepaid

omit [Keccak]

variable {s : GasScope} {n : UInt64} {t : GasSt}

/-- What was charged in advance, and is to be given back. -/
structure GasSt.Prepaid (memLen : ℕ) (n amount : UInt64) (t t' : GasSt) : Prop where
  gas : t'.gas.toNat + amount.toNat = t.gas.toNat
  trace : Grows Event.Charge t.trace t'.trace
  paid : Paid memLen n t.lastGasCost → Paid memLen n t'.lastGasCost

variable {memLen : ℕ} {u : GasSt}

theorem GasSt.Prepaid.spent {n amount : UInt64} {t' : GasSt} (h : t.Prepaid memLen n amount t') :
    t.Spent t' :=
  ⟨UInt64.le_iff_toNat_le.mpr (h.gas ▸ Nat.le_add_right _ _), h.trace⟩

theorem CallGasFn.sat_prepay (memLen : ℕ) (n amount : UInt64) :
    Sat (prepay amount) t (fun _ t' => t.Prepaid memLen n amount t' ∧ t'.statedb = t.statedb ∧
        t'.lastGasCost = t.lastGasCost)
      (fun e t' => t.Spent t' ∧ e.Panics) := by
  unfold prepay GasM.useGas
  refine .bind ?_
  rw [sat_modifyGet]
  by_cases hlt : t.gas < amount
  · rw [if_pos hlt]
    exact ⟨⟨UInt64.le_refl _, .refl _⟩, by decide⟩
  · rw [if_neg hlt]
    have hle : amount ≤ t.gas := UInt64.not_lt.mp hlt
    have hsub : (t.gas - amount).toNat = t.gas.toNat - amount.toNat :=
      UInt64.toNat_sub_of_le _ _ hle
    rw [UInt64.le_iff_toNat_le] at hle
    refine ⟨⟨?_, .cons (e := .useGas t.gas amount) (UInt64.not_lt.mp hlt) _, id⟩, rfl, rfl⟩
    show (t.gas - amount).toNat + amount.toNat = t.gas.toNat
    omega

/-- Nothing charged in advance. -/
theorem GasSt.Prepaid.zero : t.Prepaid memLen n 0 t := ⟨rfl, .refl _, id⟩

theorem GasSt.Prepaid.trans {a b : UInt64} {v : GasSt} (h : t.Prepaid memLen n a u)
    (h' : u.Prepaid memLen n b v) (hab : (a + b).toNat = a.toNat + b.toNat) :
    t.Prepaid memLen n (a + b) v :=
  ⟨by have := h.gas; have := h'.gas; omega, h.trace.trans h'.trace, h'.paid ∘ h.paid⟩

theorem GasSt.Prepaid.unspent {a : UInt64} {v : GasSt} (h : t.Prepaid memLen n a u)
    (h' : u.Unspent memLen n v) : t.Prepaid memLen n a v :=
  ⟨h'.gas ▸ h.gas, h.trace.trans h'.trace, h'.paid ∘ h.paid⟩

/-- **Giving back what was charged in advance** does not wrap around. -/
theorem GasSt.Prepaid.returnGas {amount : UInt64} (h : t.Prepaid memLen n amount u) :
    Sat (GasM.returnGas amount) u
      (fun _ v => t.Unspent memLen n v ∧ v.callGasTemp = u.callGasTemp) (fun _ _ => False) := by
  have hlt : u.gas.toNat + amount.toNat < 2 ^ 64 := h.gas ▸ t.gas.toNat_lt
  have hgas : u.gas + amount = t.gas := by
    refine UInt64.toNat_inj.mp ?_
    rw [UInt64.toNat_add, Nat.mod_eq_of_lt hlt, h.gas]
  exact ⟨⟨hgas, h.trace.trans (.cons (e := .addGas u.gas amount) hlt _), h.paid⟩, rfl⟩

end Prepaid

namespace CallGasFn

variable {s : GasScope} {n : UInt64} {t : GasSt}

omit [Keccak]

theorem toNat_coldCost : coldCost.toNat = 2500 := by decide

/-- **Charging for a cold account in advance.** -/
theorem sat_prepayCold (memLen : ℕ) (n amount : UInt64) (addr : Address) {α : Type}
    {f : Unit → GasM α} {Q : α → GasSt → Prop} {E : GasStop → GasSt → Prop}
    (hQ : ∀ v, t.Prepaid memLen n amount v → v.statedb = t.statedb.addAddressToAccessList addr ∧
      v.lastGasCost = t.lastGasCost → Sat (f ()) v Q E) (hE : ∀ e v, t.Spent v → e.Panics → E e v) :
    Sat (do GasM.addAddress addr; prepay amount >>= f) t Q E := by
  refine .bind (sat_modify.mpr (.bind ((sat_prepay memLen n amount).mono
    (fun _ v hv => hQ v ?_ hv.2) (fun e v hv => hE e v ?_ hv.2))))
  · exact ⟨hv.1.gas, hv.1.trace, hv.1.paid⟩
  · exact ⟨hv.1.gas, hv.1.trace⟩

end CallGasFn
