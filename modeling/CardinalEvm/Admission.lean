import CardinalEvm.IntrinsicGas
import CardinalEvm.Submission

/-!
# Submission and execution

The checks of a submission are a second version of those of the state
transition. Both are made on the same state, so a transaction that passes
the first should not fail the second for want of gas or funds. It does not
for want of funds (`SignedTx.gas_mul_feeCap_le`). But the checks of a
submission leave out two: that the gas covers the floor for the data, from
Prague on, and that the code of a creation is not too long, from Shanghai
on. And they read the time of the header as a signed number, so Shanghai
is over for them when the time reaches `2 ^ 63`
(`SignedTx.precluded_iff`).
-/

/-- **The errors a submission should rule out.** -/
def TxErr.precluded : TxErr → Bool
  | .intrinsicGas .. | .floorDataGas .. | .maxInitCodeSizeExceeded .. | .gasLimitReached
  | .insufficientFunds .. | .insufficientFundsForTransfer .. => true
  | _ => false

/-- A transition may stop for other reasons. -/
def Stop.Allowed (stop : Stop) : Prop := ∀ e, stop = .err e → e.precluded = false

theorem Stop.Panics.allowed {stop : Stop} (h : stop.Panics) : stop.Allowed :=
  fun e heq => absurd heq (h e)

/-- **What the checks of a submission leave out**: the gas covers the
intrinsic gas, if the time is beyond the signed numbers, and the floor for
the data, and the code of a creation is not too long. -/
structure Message.Priced (rules : Rules) (time : UInt64) (msg : Message) : Prop where
  intrinsic : 2 ^ 63 ≤ time.toNat → msg.intrinsicCost rules ≤ msg.gas.toNat
  floor : rules.isPrague → floorSum msg.data ≤ msg.gas.toNat
  initCode : rules.isShanghai → msg.recipient = none → msg.data.length ≤ Params.maxInitCodeSize

open StateDB Transition

namespace Transition

variable {env : Env} {noBaseFee : Bool} {msg : Message} {t : Transition}

/-- **The fees are accepted**: without a base fee, or if it is switched
off and they are zero, all are. -/
def FeesAccepted (env : Env) (noBaseFee : Bool) (feeCap tip : ℤ) : Prop :=
  env.rules.isLondon → ∀ baseFee, env.baseFee = some baseFee →
    (noBaseFee → feeCap ≠ 0 ∨ tip ≠ 0) →
    bitLen feeCap ≤ 256 ∧ bitLen tip ≤ 256 ∧ tip ≤ feeCap ∧ baseFee ≤ feeCap

section Checks

variable {Q : Unit → Transition → Prop} {E : Stop → Transition → Prop}

/-- A nonce that matches. -/
theorem sat_checkNonce (hnonce : (t.evm.statedb.getNonce msg.sender).1 = msg.nonce) :
    Sat (checkNonce msg) t Q E
      ↔ Q () (if msg.checkNonce then t.putDb (t.evm.statedb.getNonce msg.sender).2 else t) := by
  unfold checkNonce
  by_cases hcheck : msg.checkNonce = true
  · simp only [if_pos hcheck, sat_bind, sat_onDb, sat_failIf, hnonce, UInt64.lt_irrefl]
    simp
  · simp only [if_neg hcheck, sat_pure]

/-- Whether the fees are checked. -/
theorem sat_feesChecked {Q : Bool → Transition → Prop} {feeCap tip : ℤ}
    (hcap : msg.gasFeeCap = some feeCap) (htip : msg.gasTipCap = some tip) :
    Sat (feesChecked noBaseFee msg) t Q E
      ↔ Q (decide (noBaseFee → feeCap ≠ 0 ∨ tip ≠ 0)) t := by
  unfold feesChecked
  rw [hcap, htip]
  cases noBaseFee with
  | false => simp
  | true =>
    simp only [deref, pure_bind, bitLen_pos]
    by_cases hzero : feeCap = 0 <;> simp [hzero]

/-- The fees are accepted, or the transition stops for a reason that is
allowed. -/
theorem sat_checkFees_iff {feeCap tip : ℤ} (hcap : msg.gasFeeCap = some feeCap)
    (htip : msg.gasTipCap = some tip) (hE : ∀ stop t, stop.Allowed → E stop t) :
    Sat (checkFees env noBaseFee msg) t Q E
      ↔ (FeesAccepted env noBaseFee feeCap tip → Q () t) := by
  unfold checkFees FeesAccepted
  cases env.rules.isLondon with
  | false => simp
  | true =>
    cases env.baseFee with
    | none => simp
    | some baseFee =>
      have herr : ∀ {e : TxErr} {t}, e.precluded = false → E (.err e) t := by
        intro e t he
        refine hE _ _ fun e' heq => ?_
        obtain rfl := Stop.err.inj heq
        exact he
      simp only [sat_bind, sat_feesChecked hcap htip, sat_ite]
      by_cases hcheck : noBaseFee = true → feeCap ≠ 0 ∨ tip ≠ 0
      · simp only [decide_eq_true_eq, if_pos hcheck, hcap, htip, deref, sat_failIf, sat_pure]
        constructor
        · intro h haccepted
          obtain ⟨hcap₁, htip₁, htip₂, hcap₂⟩ := haccepted trivial baseFee rfl hcheck
          exact (((h.2 (not_lt.mpr hcap₁)).2 (not_lt.mpr htip₁)).2 (not_lt.mpr htip₂)).2
            (not_lt.mpr hcap₂)
        · intro h
          refine ⟨fun _ => herr rfl, fun hcap₁ => ⟨fun _ => herr rfl, fun htip₁ => ?_⟩⟩
          refine ⟨fun _ => herr rfl, fun htip₂ => ⟨fun _ => herr rfl, fun hcap₂ => h ?_⟩⟩
          rintro - _ ⟨⟩ -
          exact ⟨not_lt.mp hcap₁, not_lt.mp htip₁, not_lt.mp htip₂, not_lt.mp hcap₂⟩
      · simp only [decide_eq_true_eq, if_neg hcheck, sat_pure]
        exact ⟨fun h _ => h, fun h => h fun _ _ _ hchecked => absurd hchecked hcheck⟩

/-- The gas is bought if the sender has the funds and the pool the gas. -/
theorem sat_buyGas_of_le (hfunds : msg.funds ≤ (t.evm.statedb.getBalance msg.sender).1)
    (hgp : msg.gas ≤ t.gp) : Sat (buyGas msg) t Q E ↔ Q () (t.bought msg) := by
  rw [sat_buyGas]
  constructor
  · intro h
    exact (h.2 (not_lt.mpr hfunds)).2 (UInt64.not_lt.mpr hgp)
  · intro h
    exact ⟨fun hlt => absurd hlt (not_lt.mpr hfunds), fun _ =>
      ⟨fun hlt => absurd hgp (UInt64.not_le.mpr hlt), fun _ => h⟩⟩

end Checks

/-- **The checks between the purchase and the run**: the first that fails
gives the error. -/
theorem sat_checkMessage {Q : Prop} {E : Stop → Prop} (hdata : msg.data.length < 2 ^ 48)
    (hgas : t.gas = msg.gas) :
    Sat (checkMessage env msg) t (fun _ _ => Q) (fun stop _ => E stop) ↔
      if msg.gas.toNat < msg.intrinsicCost env.rules then
        E (.err (.intrinsicGas msg.gas (.ofNat (msg.intrinsicCost env.rules))))
      else if env.rules.isPrague ∧ msg.gas.toNat < floorSum msg.data then
        E (.err (.floorDataGas msg.gas (.ofNat (floorSum msg.data))))
      else if 0 < msg.value ∧ (t.evm.statedb.getBalance msg.sender).1 < msg.value then
        E (.err (.insufficientFundsForTransfer msg.sender))
      else if env.rules.isShanghai ∧ msg.recipient = none
          ∧ Params.maxInitCodeSize < msg.data.length then
        E (.err (.maxInitCodeSizeExceeded msg.data.length Params.maxInitCodeSize))
      else Q := by
  obtain ⟨gas, hgas', hcost⟩ := intrinsicGas_amounts hdata msg.accessList msg.authList
    msg.recipient.isNone env.rules.isHomestead env.rules.isIstanbul env.rules.isShanghai
  obtain ⟨floor, hfloor, hsum⟩ := floorDataGas_amounts hdata
  unfold checkMessage Message.intrinsic floorOf checkValue Evm.canTransfer Message.intrinsicCost
  rw [hgas', hfloor, ← hcost, ← hsum, UInt64.ofNat_toNat, UInt64.ofNat_toNat]
  simp only [← UInt64.lt_iff_toNat_lt, sat_bind, orFail, sat_pure, sat_get, sat_failIf, sat_ite,
    sat_sub64, sat_setGas, sat_onEvm, Evm.sat_onDb, hgas]
  split_ifs <;> simp_all

variable [Keccak]

omit [Keccak] in
theorem sat_allowed_iff {α : Type} {m : TransitionM α} :
    Sat m t (fun _ _ => True) (fun stop _ => stop.Allowed)
      ↔ ∀ e t', m t = .error (.err e) t' → e.precluded = false := by
  unfold Sat
  cases m t with
  | ok a t' => exact ⟨fun _ => nofun, fun _ => trivial⟩
  | error stop t' =>
    constructor
    · rintro h e _ ⟨⟩
      exact h e rfl
    · rintro h e rfl
      exact h e t' rfl

/-- What the sender has left after the purchase. -/
theorem le_getBalance_bought (hprice : 0 ≤ msg.gasPrice) :
    (t.evm.statedb.getBalance msg.sender).1 - msg.gas.toNat * msg.gasPrice
      ≤ ((t.bought msg).evm.statedb.getBalance msg.sender).1 := by
  have hpaid : 0 ≤ msg.gas.toNat * msg.gasPrice := Int.mul_nonneg (Int.natCast_nonneg _) hprice
  have hledger := ledger_subBalance (t.evm.statedb.getBalance msg.sender).2 msg.sender
    (msg.gas.toNat * msg.gasPrice) msg.sender
  rw [ledger_getBalance] at hledger
  refine le_of_le_of_eq ?_ hledger.symm
  unfold ledger
  split_ifs <;> omega

/-- **After the checks** a transition does not stop with an error. -/
theorem exists_rest (env : Env) (noBaseFee : Bool) (fuel : ℕ) (msg : Message) :
    ∃ rest : UInt64 → TransitionM ExecutionResult,
      transitionDb env noBaseFee fuel msg
          = (preCheck env noBaseFee msg >>= fun _ => checkMessage env msg >>= rest)
        ∧ ∀ floor, Stops Stop.Panics (rest floor) := by
  have honEvm : ∀ {α : Type} (m : EStateM Fault Evm α), Stops Stop.Panics (onEvm m) :=
    fun m t => sat_onEvm.mpr (.of_forall (fun _ _ => trivial) fun _ _ => nofun)
  have hnonce : Stops Stop.Panics (incrementNonce msg) :=
    .ite (.bind (honEvm _) fun _ => .bind (fun _ => trivial) fun _ => honEvm _) (.pure ())
  refine ⟨_, rfl, fun floor => .bind (honEvm _) fun _ => .bind hnonce fun _ => .bind .get fun t =>
    .bind (honEvm _) ?_⟩
  · rintro ⟨ret, gas, vmerr⟩
    exact .bind (fun _ => trivial) fun _ => .bind (stops_settleGas env floor) fun _ =>
      .bind (stops_settlePayments env msg) fun _ => .bind (fun _ => trivial) fun _ => .pure _

/-- **The transition of a message** whose nonce matches and whose sender
has the funds. -/
theorem sat_transitionDb {feeCap tip : ℤ} (hcap : msg.gasFeeCap = some feeCap)
    (htip : msg.gasTipCap = some tip) (hdata : msg.data.length < 2 ^ 48)
    (hnonce : (t.evm.statedb.getNonce msg.sender).1 = msg.nonce) (hgas : t.gas = 0)
    (hgp : msg.gas ≤ t.gp) (hprice : 0 ≤ msg.gasPrice)
    (hfunds : msg.funds ≤ (t.evm.statedb.getBalance msg.sender).1)
    (hvalue : msg.gas.toNat * msg.gasPrice + msg.value
      ≤ (t.evm.statedb.getBalance msg.sender).1) (fuel : ℕ) :
    Sat (transitionDb env noBaseFee fuel msg) t (fun _ _ => True) (fun stop _ => stop.Allowed)
      ↔ (FeesAccepted env noBaseFee feeCap tip → msg.intrinsicCost env.rules ≤ msg.gas.toNat
        ∧ (env.rules.isPrague → floorSum msg.data ≤ msg.gas.toNat)
        ∧ (env.rules.isShanghai → msg.recipient = none →
          msg.data.length ≤ Params.maxInitCodeSize)) := by
  obtain ⟨rest, heq, hrest⟩ := exists_rest env noBaseFee fuel msg
  have hdone : ∀ floor t, Sat (rest floor) t (fun _ _ => True) (fun stop _ => stop.Allowed) :=
    fun floor t => (hrest floor t).mono (fun _ _ h => h) fun _ _ h => h.allowed
  have herr : ∀ e : TxErr, e.precluded = true → ¬ (Stop.err e).Allowed :=
    fun e he h => by simpa [he] using h e rfl
  rw [heq, preCheck, sat_bind, sat_bind, sat_checkNonce hnonce, sat_bind,
    sat_checkFees_iff hcap htip fun _ _ h => h]
  generalize ht : (if msg.checkNonce then t.putDb (t.evm.statedb.getNonce msg.sender).2 else t)
    = t₁
  have hread : Looks t t₁ ∧ t₁.gas = t.gas ∧ t₁.gp = t.gp := by
    rw [← ht]
    split_ifs
    · exact ⟨Calls.of_op (.getNonce msg.sender) rfl rfl, rfl, rfl⟩
    · exact ⟨refl_of Looks t, rfl, rfl⟩
  obtain ⟨hlooks, hgas₁, hgp₁⟩ := hread
  have hbalance : (t₁.evm.statedb.getBalance msg.sender).1
      = (t.evm.statedb.getBalance msg.sender).1 := hlooks.le.sameReads.getBalance msg.sender
  rw [← hbalance] at hfunds hvalue
  rw [← hgp₁] at hgp
  refine imp_congr_right fun _ => ?_
  have hbought : (t₁.bought msg).gas = msg.gas := by
    show t₁.gas + msg.gas = msg.gas
    rw [hgas₁, hgas, UInt64.zero_add]
  have hleft := le_getBalance_bought (t := t₁) hprice
  simp only [sat_buyGas_of_le hfunds hgp, sat_bind, hdone, sat_checkMessage hdata hbought]
  rw [← not_lt, ← not_lt]
  split_ifs with hintrinsic hfloor hpay hsize
  · exact ⟨fun h => (herr _ rfl h).elim, fun h => (h.1 hintrinsic).elim⟩
  · exact ⟨fun h => (herr _ rfl h).elim, fun h => (h.2.1 hfloor.1 hfloor.2).elim⟩
  · omega
  · exact ⟨fun h => (herr _ rfl h).elim,
      fun h => (not_lt.mpr (h.2.2 hsize.1 hsize.2.1) hsize.2.2).elim⟩
  · refine iff_of_true trivial ⟨hintrinsic, fun hp hlt => hfloor ⟨hp, hlt⟩, fun hs hnone => ?_⟩
    exact not_lt.mp fun hlt => hsize ⟨hs, hnone, hlt⟩

end Transition

/-! ## What a submission ensures -/

theorem refuseIf_ok {p : Prop} [Decidable p] {e : SendErr} : refuseIf p e = .ok () ↔ ¬ p := by
  unfold refuseIf
  split_ifs with hp
  · exact ⟨nofun, fun h => absurd hp h⟩
  · exact ⟨fun _ => hp, fun _ => rfl⟩

theorem signedTime_of_lt {header : Header} (h : header.time.toNat < 2 ^ 63) :
    SignedTx.signedTime header = header.time.toNat := by
  exact BitVec.toInt_eq_toNat_of_lt (show 2 * header.time.toNat < 2 ^ 64 by omega)

namespace SignedTx

variable {tx : SignedTx}

/-- **What a transaction that passed the checks has.** -/
structure Passed (tx : SignedTx) (chaincfg : ChainConfig) (header : Header) (d : StateDB)
    (sender : Address) : Prop where
  gas : tx.gas ≤ header.gasLimit
  value : 0 ≤ tx.value
  funds : tx.cost ≤ (d.getBalance sender).1
  intrinsic : intrinsicSum tx.data tx.accessList tx.authList tx.recipient.isNone true
    (chaincfg.isIstanbul header.number) (chaincfg.isShanghai (signedTime header) header.number)
      ≤ tx.gas.toNat

variable [Keccak]

/-- What is emitted passed the checks for its sender. -/
theorem Passed.of_submit {node : Node} {chaincfg : ChainConfig} {header : Header} {d : StateDB}
    {sender : Address} (hchain : node.chain = some (chaincfg, header, d))
    (hsender : tx.sender chaincfg header = some sender) (h : tx.submit node = .ok ()) :
    tx.Passed chaincfg header d sender := by
  obtain ⟨_, _, _, _, hchain', hsender', hstate⟩ := exists_of_submit h
  cases hchain.symm.trans hchain'
  cases hsender.symm.trans hsender'
  obtain ⟨-, h⟩ := refuseIf_bind.mp hstate
  obtain ⟨hgas, h⟩ := refuseIf_bind.mp h
  obtain ⟨-, h⟩ := refuseIf_bind.mp h
  obtain ⟨hvalue, h⟩ := refuseIf_bind.mp h
  obtain ⟨hfunds, h⟩ := refuseIf_bind.mp h
  have hread : Reads d (d.getNonce sender).2 := Calls.of_op (.getNonce sender) rfl rfl
  obtain ⟨gas, hsubmitted, hsum⟩ := intrinsicGas_amounts tx.data_fits tx.accessList tx.authList
    tx.recipient.isNone true (chaincfg.isIstanbul header.number)
    (chaincfg.isShanghai (signedTime header) header.number)
  unfold submittedGas at h
  rw [hsubmitted] at h
  refine ⟨UInt64.not_lt.mp hgas, not_lt.mp hvalue, ?_, ?_⟩
  · exact (not_lt.mp hfunds).trans_eq (hread.le.sameReads.getBalance sender)
  · exact hsum ▸ UInt64.le_iff_toNat_le.mp (UInt64.not_lt.mp (refuseIf_ok.mp h))

omit [Keccak] in
/-- **The price of a transaction** is at most its cap, and no fee is
negative. -/
theorem asMessage_gasPrice (tx : SignedTx) (sender : Address) (baseFee : Option ℕ)
    (checkNonce : Bool) :
    0 ≤ (tx.asMessage sender baseFee checkNonce).gasPrice
      ∧ (tx.asMessage sender baseFee checkNonce).gasPrice ≤ tx.gasFeeCap := by
  have hcap : (0 : ℤ) ≤ tx.gasFeeCap := Int.natCast_nonneg _
  cases baseFee with
  | none => exact ⟨hcap, le_rfl⟩
  | some baseFee =>
    exact ⟨le_min (Int.add_nonneg (Int.natCast_nonneg _) (Int.natCast_nonneg _)) hcap,
      min_le_right _ _⟩

omit [Keccak] in
theorem gas_mul_feeCap_le (tx : SignedTx) : (tx.gas.toNat : ℤ) * tx.gasFeeCap + tx.value
    ≤ tx.cost := by
  unfold cost
  have hcomm : (tx.gas.toNat : ℤ) * tx.gasFeeCap = tx.gasFeeCap * tx.gas.toNat := Int.mul_comm _ _
  cases tx.kind with
  | blob feeCap gas =>
    have hblob : (0 : ℤ) ≤ feeCap * gas.toNat :=
      Int.mul_nonneg (Int.natCast_nonneg _) (Int.natCast_nonneg _)
    dsimp only
    omega
  | _ => exact (congrArg (· + tx.value) hcomm).le

/-- **A transaction that is emitted fails no check that should have been
made before**, if and only if – its fees being accepted – its gas covers
the floor and, where the time is not a signed number, the intrinsic gas,
and it is no creation with too long a code. -/
theorem precluded_iff (tx : SignedTx) (v : View) (host : Host) (a : BuildArgs) (c : Captured)
    {node : Node} {sender : Address} (hchain : node.chain = some (v.chaincfg, v.header, a.sdb))
    (hsender : tx.sender v.chaincfg v.header = some sender) (hemitted : tx.submit node = .ok ())
    (hnonce : (a.sdb.getNonce sender).1 = tx.nonce) (checkNonce : Bool) (fuel : ℕ) :
    (∀ e t, (v.evmFn a c).1.applyMessage host fuel
        (tx.asMessage sender v.header.baseFee checkNonce) v.header.gasLimit = .error (.err e) t →
        e.precluded = false)
      ↔ (Transition.FeesAccepted ((v.evmFn a c).1.env host) (v.evmFn a c).1.config.noBaseFee
          tx.gasFeeCap tx.gasTipCap →
        (tx.asMessage sender v.header.baseFee checkNonce).Priced (v.evmFn a c).1.chainRules
          v.header.time) := by
  have hpassed := Passed.of_submit hchain hsender hemitted
  obtain ⟨hprice, hle⟩ := tx.asMessage_gasPrice sender v.header.baseFee checkNonce
  have hpaid := Int.mul_le_mul_of_nonneg_left hle (Int.natCast_nonneg tx.gas.toNat)
  have hcost := tx.gas_mul_feeCap_le
  have hvalue := hpassed.value
  have hfunds := hpassed.funds
  have hcap : (tx.asMessage sender v.header.baseFee checkNonce).funds
      = tx.gas.toNat * tx.gasFeeCap := rfl
  refine sat_allowed_iff.symm.trans ((sat_transitionDb rfl rfl tx.data_fits hnonce rfl
    hpassed.gas hprice ?_ ?_ fuel).trans (imp_congr_right fun _ => ?_))
  · rw [hcap]
    exact (by omega : (tx.gas.toNat : ℤ) * tx.gasFeeCap ≤ tx.cost).trans hfunds
  · refine le_trans ?_ hfunds
    refine le_trans ?_ hcost
    exact Int.add_le_add_right hpaid _
  -- below `2 ^ 63` a submission sees the forks of the header
  · have hcovered : v.header.time.toNat < 2 ^ 63 →
        (tx.asMessage sender v.header.baseFee checkNonce).intrinsicCost (v.evmFn a c).1.chainRules
          ≤ tx.gas.toNat := by
      intro htime
      rw [v.evmFn_chainRules]
      refine (intrinsicSum_le _ _ _ _ _ _ fun hshanghai => ?_).trans hpassed.intrinsic
      rw [signedTime_of_lt htime]
      exact hshanghai
    constructor
    · rintro ⟨hintrinsic, hfloor, hinit⟩
      exact ⟨fun _ => hintrinsic, hfloor, hinit⟩
    · intro h
      refine ⟨?_, h.floor, h.initCode⟩
      by_cases htime : v.header.time.toNat < 2 ^ 63
      · exact hcovered htime
      · exact h.intrinsic (not_lt.mp htime)

end SignedTx

section Prague

/-- A view of a Prague block with a base fee of 7. -/
def View.prague : View where
  chaincfg :=
    { homesteadBlock := some 0
      eip150Block := some 0
      istanbulBlock := some 0
      berlinBlock := some 0
      londonBlock := some 0
      shanghaiTime := some 0
      cancunTime := some 0
      pragueTime := some 0 }
  header := { baseFee := some 7, coinbase := 0x5000, gasLimit := 30000 }

/-- A call with data, signed by a key of `0x3000`. -/
def SignedTx.withData (data : Bytes) (hdata : data.length < 2 ^ 48) (gas : UInt64) :
    SignedTx where
  hash := 2
  kind := .dynamicFee
  gas := gas
  gasFeeCap := 7
  recipient := some 0x1000
  data := data
  accessList := default
  authList := default
  sender _ _ := some 0x3000
  data_fits := hdata

/-- **A transaction with much data**: 22600 gas are enough for a hundred
bytes when it is submitted, but they cost at least 25000 when it is
executed. -/
theorem SignedTx.not_precluded :
    letI := Keccak.digests
    let tx := withData (List.replicate 100 1) (by decide) 22600
    let a : BuildArgs := { sdb := newStateDB (.sender 1000000) }
    tx.submit { chain := some (View.prague.chaincfg, View.prague.header, a.sdb) } = .ok ()
      ∧ (a.sdb.getNonce 0x3000).1 = tx.nonce
      ∧ ∃ t, (View.prague.evmFn a {}).1.applyMessage {} 10
          (tx.asMessage 0x3000 View.prague.header.baseFee true) View.prague.header.gasLimit
        = .error (.err (.floorDataGas 22600 25000)) t := by
  let _ := Keccak.digests
  intro tx a
  refine ⟨by decide +kernel, by decide +kernel, ?_⟩
  obtain ⟨msg, hmsg⟩ : ∃ msg, msg = tx.asMessage 0x3000 View.prague.header.baseFee true :=
    ⟨_, rfl⟩
  obtain ⟨stop, t, hrun, rfl⟩ : ∃ stop t, transitionDb ((View.prague.evmFn a {}).1.env {}) false 10
      msg { evm := { statedb := a.sdb }, gp := 30000 } = .error stop t
      ∧ stop = .err (.floorDataGas 22600 25000) := by
    rw [hmsg]
    exact exists_error_of_sat (by decide +kernel)
  exact ⟨t, hmsg ▸ hrun⟩

/-- A plain transfer fails no check that it passed. -/
theorem SignedTx.precluded_iff_transfer :
    letI := Keccak.digests
    let tx := withData [] (by decide) 21000
    let a : BuildArgs := { sdb := newStateDB (.sender 1000000) }
    tx.submit { chain := some (View.prague.chaincfg, View.prague.header, a.sdb) } = .ok ()
      ∧ ∀ e t, (View.prague.evmFn a {}).1.applyMessage {} 10
          (tx.asMessage 0x3000 View.prague.header.baseFee true) View.prague.header.gasLimit
        = .error (.err e) t → e.precluded = false := by
  let _ := Keccak.digests
  intro tx a
  have hemitted : tx.submit { chain := some (View.prague.chaincfg, View.prague.header, a.sdb) }
      = .ok () := by decide +kernel
  refine ⟨hemitted, (precluded_iff tx View.prague {} a {} rfl rfl hemitted (by decide +kernel)
    true 10).mpr fun _ => ⟨?_, ?_, ?_⟩⟩
  · intro htime
    exact absurd htime (by decide)
  · intro _
    decide
  · intro _ hnone
    exact nomatch hnone

end Prague
