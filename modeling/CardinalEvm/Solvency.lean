import CardinalEvm.Accounting
import CardinalEvm.DoCall
import CardinalEvm.Ether

/-!
# Solvency

Whether a message can overdraw an account. The run itself cannot
(`Evm.Method.exec_spends`). What a message pays outside of the run is its
gas, at the price, and the tip to the coinbase, per gas the lesser of the
tip cap and what the fee cap leaves over the base fee. But the balance is
checked against the fee cap and not the price, and the fee cap against the
base fee only if the fees are not all zero.

The messages of `ToMessage` have a price that is at most the fee cap. The
messages of traced runs have caps of zero and any price, so their sender
can be overdrawn. And with the base fee switched off, a message with caps
of zero takes the base fee from the coinbase.
-/

variable [Keccak]

open Ledger StateDB

/-! ## Before the run -/

namespace Evm

/-- **The state was prepared for a run**: nothing was paid, and nothing
recorded but refunds. -/
structure Prepares (e e' : Evm) : Prop where
  calls : StateDB.Calls (fun o => o.keepsBalance) e.statedb e'.statedb
  trace : Grows (fun v => v.isRefund) e.trace e'.trace
  depth : e'.depth = e.depth
  readOnly : e'.readOnly = e.readOnly

instance : IsPreorder Evm Prepares where
  refl _ := ⟨.refl _, .refl _, rfl, rfl⟩
  trans _ _ _ h h' := ⟨h.calls.trans h'.calls, h.trace.trans h'.trace, h'.depth.trans h.depth,
    h'.readOnly.trans h.readOnly⟩

theorem keeps_onDb {α : Type} {f : StateDB → α × StateDB} (o : Op) (ho : o.keepsBalance)
    (h : ∀ d, o.apply d = some (f d).2) : Keeps Prepares (onDb f) := fun e =>
  ⟨.of_op o ho (h e.statedb), .refl _, rfl, rfl⟩

theorem keeps_setDb {f : StateDB → StateDB} (o : Op) (ho : o.keepsBalance)
    (h : ∀ d, o.apply d = some (f d)) : Keeps Prepares (setDb f) := fun e =>
  ⟨.of_op o ho (h e.statedb), .refl _, rfl, rfl⟩

theorem keeps_addAddress (a : Address) : Keeps Prepares (addAddressToAccessList a) :=
  keeps_setDb (.addAddressToAccessList a) rfl fun _ => rfl

theorem keeps_addSlot (a : Address) (k : Hash) : Keeps Prepares (addSlotToAccessList a k) := by
  refine fun e => sat_attempt (fun _ e' h => ?_) fun _ => refl_of Prepares e
  obtain ⟨d, hd, heq⟩ := Option.map_eq_some_iff.mp h
  obtain rfl : { e with statedb := d } = e' := congrArg Prod.snd heq
  exact ⟨.of_op (.addSlotToAccessList a k) rfl hd, .refl _, rfl, rfl⟩

theorem keeps_addAddresses (as : List Address) : Keeps Prepares (addAddresses as) := by
  induction as with
  | nil => exact .pure ()
  | cons a as ih => exact .bind (keeps_addAddress a) fun _ => ih

theorem keeps_addSlots (a : Address) (ks : List Hash) : Keeps Prepares (addSlots a ks) := by
  induction ks with
  | nil => exact .pure ()
  | cons k ks ih => exact .bind (keeps_addSlot a k) fun _ => ih

theorem keeps_addTuples (els : List AccessTuple) : Keeps Prepares (addTuples els) := by
  induction els with
  | nil => exact .pure ()
  | cons el els ih =>
    exact .bind (keeps_addAddress _) fun _ => .bind (keeps_addSlots _ _) fun _ => ih

theorem keeps_prepareAccessList (rules : Rules) (sender coinbase : Address)
    (dst : Option Address) (precompiles : List Address) (txAccesses : TxAccessList) :
    Keeps Prepares (prepareAccessList rules sender coinbase dst precompiles txAccesses) := by
  refine .ite (.bind (keeps_addAddress _) fun _ => .bind (keeps_addAddresses _) fun _ => ?_)
    (.pure ())
  exact .bind (keeps_addAddresses _) fun _ => .bind (keeps_addTuples _) fun _ =>
    .ite (keeps_addAddress _) (.pure ())

variable (env : Env)

theorem keeps_delegate (authority : Address) (auth : Authorization) :
    Keeps Prepares (delegate authority auth) := by
  have hrefund : Keeps Prepares (addRefund (25000 - 12500)) := by
    intro e
    have hrecord : (Event.addRefund e.statedb.refund (25000 - 12500)).isRefund = true := rfl
    exact ⟨.of_op (.addRefund _) rfl rfl, .cons hrecord _, rfl, rfl⟩
  refine .bind (keeps_onDb (.exist authority) rfl fun _ => rfl) fun _ => ?_
  refine .bind (.ite hrefund (.pure ())) fun _ => ?_
  exact .bind (keeps_setDb (.setCode _ _) rfl fun _ => rfl) fun _ =>
    keeps_setDb (.setNonce _ _) rfl fun _ => rfl

theorem keeps_applyAuthorization (auth : Authorization) :
    Keeps Prepares (applyAuthorization env auth) := by
  have hchain : Keeps Prepares (authorizedChain env auth) := by
    refine .ite (.pure _) ?_
    split
    · exact .pure _
    · exact .throw _
  have hcode : ∀ code, Keeps Prepares (hasOtherCode code) := fun code =>
    .ite (.pure _) (.ite (.throw _) (.pure _))
  refine .bind hchain fun _ => .ite (.pure _) ?_
  split
  · exact .pure _
  · refine .bind (keeps_addAddress _) fun _ => ?_
    refine .bind (keeps_onDb (.getCode _) rfl fun _ => rfl) fun code => ?_
    refine .bind (hcode code) fun _ => .ite (.pure _) ?_
    refine .bind (keeps_onDb (.getNonce _) rfl fun _ => rfl) fun _ => .ite (.pure _) ?_
    exact .bind (keeps_delegate _ _) fun _ => .pure _

theorem keeps_applyAuthorizations (auths : List Authorization) :
    Keeps Prepares (applyAuthorizations env auths) := by
  induction auths with
  | nil => exact .pure ()
  | cons auth auths ih => exact .bind (keeps_applyAuthorization env auth) fun _ => ih

theorem keeps_prepareCall (msg : Message) (addr : Address) :
    Keeps Prepares (prepareCall env msg addr) := by
  have hwarm : Keeps Prepares (warmDelegation addr) := by
    refine .bind (keeps_onDb (.getCode _) rfl fun _ => rfl) fun code => ?_
    split
    · exact keeps_addAddress _
    · exact .pure ()
  exact .bind (keeps_applyAuthorizations env _) fun _ => hwarm

end Evm

/-! ## The run -/

/-- **Nobody is overdrawn.** -/
def StateDB.Solvent (d : StateDB) : Prop := ∀ a, 0 ≤ (d.getBalance a).1

/-- Nobody is overdrawn, and the access list is as it should be. -/
structure StateDB.Sane (d : StateDB) : Prop where
  solvent : d.Solvent
  wf : d.accessList.WF

/-- Calls that pay nothing. -/
theorem StateDB.Sane.of_calls {d d' : StateDB} (h : d.Sane)
    (hcalls : Calls (fun o => o.keepsBalance) d d') : d'.Sane where
  solvent a := le_of_le_of_eq (h.solvent a) (hcalls.ledger_eq a).symm
  wf := (hcalls.run.extends h.wf).2

theorem StateDB.Sane.of_reads {d d' : StateDB} (h : d.Sane) (hreads : Reads d d') : d'.Sane :=
  h.of_calls (hreads.mono fun o ho => by cases o <;> first | rfl | cases ho)

/-- **A run overdraws nobody.** -/
theorem Evm.solvent_runMessage (env : Env) (fuel : ℕ) {msg : Message} (hv : 0 ≤ msg.value)
    (gas : UInt64) {e : Evm} (h : e.statedb.Sane) :
    Sat (runMessage env fuel msg gas) e (fun _ e' => e'.statedb.Solvent) (fun _ _ => True) := by
  unfold runMessage
  cases msg.recipient with
  | none =>
    have hrun := Method.exec_spends env fuel msg.sender (.create msg.data gas msg.value) hv h.wf
    refine (sat_bind.mp hrun).next fun _ e' hspends => ?_
    exact (hspends h.solvent).1
  | some addr =>
    refine (keeps_prepareCall env msg addr).sat_bind (refl_of Prepares e) (fun _ e₁ h₁ => ?_)
      fun _ _ _ => trivial
    have hsane₁ := h.of_calls h₁.calls
    have hrun := Method.exec_spends env fuel msg.sender (.call addr msg.data gas msg.value) hv
      hsane₁.wf
    exact (sat_bind.mp hrun).mono (fun _ e' hspends => (hspends hsane₁.solvent).1)
      fun _ _ _ => trivial

/-! ## The transition -/

namespace Transition

variable {env : Env} {noBaseFee : Bool} {msg : Message} {t : Transition}

/-- The state was only read. -/
def Looks (t t' : Transition) : Prop := Reads t.evm.statedb t'.evm.statedb

instance : IsPreorder Transition Looks where
  refl t := Calls.refl t.evm.statedb
  trans _ _ _ h h' := Relation.ReflTransGen.trans h h'

section Looks

variable {α : Type}

theorem looks_onDb {f : StateDB → α × StateDB} (o : Op) (ho : o.isRead)
    (h : ∀ d, o.apply d = some (f d).2) : Keeps Looks (onDb f) := fun t =>
  sat_onDb.mpr (.of_op o ho (h t.evm.statedb))

theorem looks_failIf (p : Prop) [Decidable p] (e : TxErr) : Keeps Looks (failIf p e) :=
  .ite (.throw _) (.pure ())

theorem looks_orFail (r : Except TxErr α) : Keeps Looks (orFail r) := by
  cases r with
  | ok a => exact .pure a
  | error e => exact .throw _

theorem looks_checkNonce (msg : Message) : Keeps Looks (checkNonce msg) :=
  .ite (.bind (looks_onDb (.getNonce _) rfl fun _ => rfl) fun _ =>
    .bind (looks_failIf _ _) fun _ => looks_failIf _ _) (.pure ())

theorem looks_checkValue (msg : Message) : Keeps Looks (checkValue msg) := by
  have hfunds : Keeps Looks (onEvm (Evm.canTransfer msg.sender msg.value)) := fun t =>
    sat_onEvm.mpr (Calls.of_op (.getBalance msg.sender) rfl rfl)
  exact .ite (.bind hfunds fun _ => looks_failIf _ _) (.pure ())

theorem looks_checkMessage (env : Env) (msg : Message) : Keeps Looks (checkMessage env msg) := by
  have hfloor : Keeps Looks (floorOf env msg) :=
    .ite (.bind (looks_orFail _) fun _ => .bind (looks_failIf _ _) fun _ => .pure _) (.pure _)
  refine .bind (looks_orFail _) fun _ => .bind .get fun _ => .bind (looks_failIf _ _) fun _ => ?_
  refine .bind hfloor fun _ => .bind (fun _ => Calls.refl _) fun _ =>
    .bind (fun _ => Calls.refl _) fun _ => ?_
  exact .bind (looks_checkValue msg) fun _ => .bind (looks_failIf _ _) fun _ => .pure _

theorem looks_settleGas (env : Env) (floor : UInt64) : Keeps Looks (settleGas env floor) := by
  have hrefund : Keeps Looks (calcRefund env) := fun _ => Calls.refl _
  refine .bind hrefund fun _ => .bind .get fun _ => .bind (fun _ => Calls.refl _) fun _ => ?_
  refine .bind (fun _ => Calls.refl _) fun _ => .bind (fun _ => Calls.refl _) fun _ => ?_
  exact .ite (fun _ => Calls.refl _) (.pure ())

end Looks

/-- **The fees that pass the checks**: if there is a base fee, the cap is
no less than it and the tip no more than the cap – or all are zero and the
base fee is switched off. -/
def FeesPass (env : Env) (noBaseFee : Bool) (msg : Message) : Prop :=
  env.rules.isLondon → ∀ baseFee, env.baseFee = some baseFee →
    ∃ feeCap tip, msg.gasFeeCap = some feeCap ∧ msg.gasTipCap = some tip
      ∧ (baseFee ≤ feeCap ∧ tip ≤ feeCap ∨ noBaseFee ∧ feeCap = 0 ∧ tip = 0)

variable {x : ℤ} {d : StateDB}

omit [Keccak] in
theorem bitLen_pos : 0 < bitLen x ↔ x ≠ 0 := by
  rw [bitLen, Nat.size_pos, Int.natAbs_pos]

omit [Keccak] in
/-- The checks of the fees change nothing. -/
theorem sat_checkFees (env : Env) (noBaseFee : Bool) (msg : Message) (t : Transition) :
    Sat (checkFees env noBaseFee msg) t (fun _ t' => t = t' ∧ FeesPass env noBaseFee msg)
      (fun _ _ => True) := by
  unfold checkFees FeesPass
  cases env.rules.isLondon with
  | false => exact ⟨rfl, fun h => nomatch h⟩
  | true =>
    cases env.baseFee with
    | none => exact ⟨rfl, fun _ _ h => nomatch h⟩
    | some baseFee =>
      have hchecked : Sat (feesChecked noBaseFee msg) t
          (fun b t' => t = t' ∧ (b = false → noBaseFee ∧ msg.gasFeeCap = some 0
            ∧ msg.gasTipCap = some 0)) (fun _ _ => True) := by
        refine .ite (fun _ => ⟨rfl, fun h => nomatch h⟩) fun hno => ?_
        refine .bind (sat_deref.mpr ⟨fun feeCap hcap => ?_, fun _ => trivial⟩)
        refine .ite (fun _ => ⟨rfl, fun h => nomatch h⟩) fun hzero => ?_
        refine .bind (sat_deref.mpr ⟨fun tip htip => ⟨rfl, fun hfalse => ?_⟩, fun _ => trivial⟩)
        rw [bitLen_pos, not_not] at hzero
        rw [decide_eq_false_iff_not, bitLen_pos, not_not] at hfalse
        exact ⟨by simpa using hno, hzero ▸ hcap, hfalse ▸ htip⟩
      refine hchecked.next ?_
      rintro b _ ⟨rfl, hb⟩
      refine .ite (fun _ => ?_) fun hfalse => ?_
      · refine .bind (sat_deref.mpr ⟨fun feeCap hcap => ?_, fun _ => trivial⟩)
        refine .bind (sat_failIf.mpr ⟨fun _ => trivial, fun _ => ?_⟩)
        refine .bind (sat_deref.mpr ⟨fun tip htip => ?_, fun _ => trivial⟩)
        refine .bind (sat_failIf.mpr ⟨fun _ => trivial, fun _ => ?_⟩)
        refine .bind (sat_failIf.mpr ⟨fun _ => trivial, fun habove => ?_⟩)
        refine sat_failIf.mpr ⟨fun _ => trivial, fun hlow => ⟨rfl, fun _ _ hfee => ?_⟩⟩
        cases hfee
        exact ⟨feeCap, tip, hcap, htip, .inl ⟨not_lt.mp hlow, not_lt.mp habove⟩⟩
      · obtain ⟨hno, hcap, htip⟩ := hb (Bool.not_eq_true b ▸ hfalse)
        exact ⟨rfl, fun _ _ _ => ⟨0, 0, hcap, htip, .inr ⟨hno, rfl, rfl⟩⟩⟩

/-- **A message whose payments are covered**: no amount is negative, the
balance that is checked or the balance there is pays for the gas, and the
base fee is not taken from the coinbase. -/
structure Covered (env : Env) (noBaseFee : Bool) (msg : Message) (d : StateDB) : Prop where
  value : 0 ≤ msg.value
  price : 0 ≤ msg.gasPrice
  tip : ∀ tip, msg.gasTipCap = some tip → 0 ≤ tip
  purchase : msg.gas.toNat * msg.gasPrice ≤ max msg.funds (d.getBalance msg.sender).1
  baseFee : noBaseFee → env.rules.isLondon → msg.gasFeeCap = some 0 → msg.gasTipCap = some 0 →
    ∀ baseFee, env.baseFee = some baseFee → baseFee ≤ 0

omit [Keccak] in
/-- Fees that pass the checks give the coinbase something. -/
theorem FeesPass.tip_nonneg (h : FeesPass env noBaseFee msg) (hcov : Covered env noBaseFee msg d) :
    0 ≤ msg.tip env := by
  unfold Message.tip
  split
  next baseFee hlondon hfee =>
    obtain ⟨feeCap, tip, hcap, htip, hpass | ⟨hno, rfl, rfl⟩⟩ := h hlondon baseFee hfee
    · have hpos := hcov.tip tip htip
      rw [hcap, htip]
      exact le_min hpos (sub_nonneg.mpr hpass.1)
    · have hzero := hcov.baseFee hno hlondon hcap htip baseFee hfee
      rw [hcap, htip]
      exact le_min le_rfl (sub_nonneg.mpr hzero)
  next => exact hcov.price

omit [Keccak] in
theorem solvent_addBalance (h : d.Solvent) (a : Address) (hx : 0 ≤ x) :
    (d.addBalance a x).Solvent := by
  intro b
  have hledger := ledger_addBalance d a x b
  have hb := h b
  unfold ledger at hledger
  split_ifs at hledger <;> omega

omit [Keccak] in
/-- A debit of no more than there is. -/
theorem solvent_subBalance (h : d.Solvent) {a : Address} (hx : x ≤ (d.getBalance a).1) :
    (d.subBalance a x).Solvent := by
  intro b
  have hledger := ledger_subBalance d a x b
  have hb := h b
  unfold ledger at hledger
  split_ifs at hledger with hself
  · rw [hledger, hself.1]
    exact sub_nonneg.mpr hx
  · omega

/-- **The purchase of the gas.** -/
theorem sane_buyGas (hcov : Covered env noBaseFee msg d) (h : t.evm.statedb.Sane)
    (hd : (t.evm.statedb.getBalance msg.sender).1 = (d.getBalance msg.sender).1) :
    Sat (buyGas msg) t (fun _ t' => t'.evm.statedb.Sane) (fun _ _ => True) := by
  refine sat_buyGas.mpr ⟨fun _ => trivial, fun hfunds => ⟨fun _ => trivial, fun _ => ?_⟩⟩
  have hread : Reads t.evm.statedb (t.evm.statedb.getBalance msg.sender).2 :=
    Calls.of_op (.getBalance msg.sender) rfl rfl
  have hsane := h.of_reads hread
  have hsame : ((t.evm.statedb.getBalance msg.sender).2.getBalance msg.sender).1
      = (t.evm.statedb.getBalance msg.sender).1 := ledger_getBalance _ _ _
  have hpay : msg.gas.toNat * msg.gasPrice
      ≤ ((t.evm.statedb.getBalance msg.sender).2.getBalance msg.sender).1 := by
    rw [hsame]
    exact hcov.purchase.trans (max_le (not_lt.mp hfunds) hd.ge)
  exact ⟨solvent_subBalance hsane.solvent hpay,
    (Op.step (o := .subBalance msg.sender _) rfl).wf hsane.wf⟩

omit [Keccak] in
/-- **What is paid after the run** is paid to the sender and the
coinbase. -/
theorem solvent_settlePayments (hprice : 0 ≤ msg.gasPrice) (htip : 0 ≤ msg.tip env)
    (h : t.evm.statedb.Solvent) :
    Sat (settlePayments env msg) t (fun _ t' => t'.evm.statedb.Solvent) (fun _ _ => True) := by
  have hback := solvent_addBalance h msg.sender
    (Int.mul_nonneg (Int.natCast_nonneg t.gas.toNat) hprice)
  refine .bind (sat_get.mpr (.bind (sat_addBalance.mpr
    (.bind (sat_addGas.mpr ⟨fun _ => trivial, fun _ => ?_⟩)))))
  refine (sat_effectiveTip env msg _).next ?_
  rintro tip _ ⟨rfl, rfl⟩
  refine .bind (sat_gasUsed.mpr (sat_addBalance.mpr ?_))
  exact solvent_addBalance hback env.coinbase (Int.mul_nonneg (Int.natCast_nonneg _) htip)

/-- Nobody pays for the access list. -/
theorem sane_warmMessage (env : Env) (msg : Message) (h : t.evm.statedb.Sane) :
    Sat (onEvm (Evm.warmMessage env msg)) t (fun _ t' => t'.evm.statedb.Sane)
      (fun _ _ => True) := by
  have hwarm : Keeps Evm.Prepares (Evm.warmMessage env msg) :=
    .ite (Evm.keeps_prepareAccessList _ _ _ _ _ _) (.pure ())
  exact sat_onEvm.mpr ((hwarm t.evm).mono (fun _ _ hcalls => h.of_calls hcalls.calls)
    fun _ _ _ => trivial)

/-- Nobody pays for a nonce. -/
theorem sane_incrementNonce (h : t.evm.statedb.Sane) :
    Sat (incrementNonce msg) t (fun _ t' => t'.evm.statedb.Sane) (fun _ _ => False) := by
  refine .ite (fun _ => ?_) fun _ => h
  refine .bind (sat_onDb.mpr (.bind (sat_record.mpr (sat_onDb.mpr ?_))))
  have hread :
      Calls (fun o => o.keepsBalance) t.evm.statedb (t.evm.statedb.getNonce msg.sender).2 :=
    .of_op (.getNonce msg.sender) rfl rfl
  exact (h.of_calls hread).of_calls (.of_op (.setNonce msg.sender _) rfl rfl)

/-- **A message that is covered overdraws nobody.** -/
theorem solvent_transitionDb (hcov : Covered env noBaseFee msg d) (h : d.Sane) (fuel : ℕ)
    (gp : UInt64) :
    Sat (transitionDb env noBaseFee fuel msg) { evm := { statedb := d }, gp }
      (fun _ t => t.evm.statedb.Solvent) (fun _ _ => True) := by
  refine .bind ((looks_checkNonce msg _).next fun _ t₁ h₁ => ?_)
  have hsane₁ : t₁.evm.statedb.Sane := h.of_reads h₁
  have hbalance : (t₁.evm.statedb.getBalance msg.sender).1 = (d.getBalance msg.sender).1 :=
    h₁.le.sameReads.getBalance msg.sender
  refine (sat_checkFees env noBaseFee msg t₁).next ?_
  rintro _ _ ⟨rfl, hfees⟩
  refine (sane_buyGas hcov hsane₁ hbalance).mono (fun _ t₂ hsane₂ => ?_) fun _ _ _ => trivial
  refine (looks_checkMessage env msg t₂).next fun floor t₃ h₃ => ?_
  have hsane₃ : t₃.evm.statedb.Sane := hsane₂.of_reads h₃
  refine (sane_warmMessage env msg hsane₃).next fun _ t₄ hsane₄ => ?_
  refine (sane_incrementNonce hsane₄).next fun _ t₅ hsane₅ => ?_
  refine .bind (sat_get.mpr (.bind (sat_onEvm.mpr ?_)))
  refine (Evm.solvent_runMessage env fuel hcov.value _ hsane₅).mono ?_ fun _ _ _ => trivial
  rintro ⟨ret, gas, vmerr⟩ e₆ hsolvent
  refine .bind (sat_setGas.mpr (.bind ?_))
  refine (looks_settleGas env floor _).mono (fun _ t₇ h₇ => ?_) fun _ _ _ => trivial
  have hsolvent₇ : t₇.evm.statedb.Solvent := by
    intro a
    have hsame : (t₇.evm.statedb.getBalance a).1 = (e₆.statedb.getBalance a).1 :=
      h₇.le.sameReads.getBalance a
    exact le_of_le_of_eq (hsolvent a) hsame.symm
  refine (solvent_settlePayments hcov.price (hfees.tip_nonneg hcov) hsolvent₇).next
    fun _ t₈ h₈ => ?_
  exact .bind (sat_gasUsed.mpr h₈)

end Transition

/-! ## The messages of the API -/

/-- **A message the API builds**: by `ToMessage`, or for a traced run. -/
inductive ApiMessage (header : Header) : Message → Prop
  | called {args : TransactionArgs} {globalGasCap : UInt64} {msg : Message} :
    args.toMessage globalGasCap header.baseFee = .ok msg → ApiMessage header msg
  | traced (args : TransactionArgs) (nonce gas : UInt64) (acl : TxAccessList) :
    ApiMessage header (args.tracedMessage nonce gas acl)

omit [Keccak] in
/-- The price is at most the fee cap, and none of the fees is negative. -/
theorem TransactionArgs.fees_le (args : TransactionArgs) (baseFee : Option ℕ) :
    0 ≤ (args.fees baseFee).1 ∧ (args.fees baseFee).1 ≤ (args.fees baseFee).2.1
      ∧ 0 ≤ (args.fees baseFee).2.2 := by
  unfold fees
  split
  · exact ⟨Int.natCast_nonneg _, le_rfl, Int.natCast_nonneg _⟩
  · exact ⟨Int.natCast_nonneg _, le_rfl, Int.natCast_nonneg _⟩
  · have hcap : (0 : ℤ) ≤ (args.maxFeePerGas.getD 0 : ℕ) := Int.natCast_nonneg _
    refine ⟨?_, ?_, Int.natCast_nonneg _⟩
    · dsimp only
      split_ifs
      · exact le_min (Int.add_nonneg (Int.natCast_nonneg _) (Int.natCast_nonneg _)) hcap
      · exact le_rfl
    · dsimp only
      split_ifs
      · exact min_le_right _ _
      · exact hcap

omit [Keccak] in
/-- What all messages of the API have in common: no amount is negative,
and the fee cap is zero or no less than the price. -/
theorem ApiMessage.fees {header : Header} {msg : Message} (h : ApiMessage header msg) :
    0 ≤ msg.value ∧ 0 ≤ msg.gasPrice
      ∧ ∃ feeCap tip, msg.gasFeeCap = some feeCap ∧ msg.gasTipCap = some tip ∧ 0 ≤ tip
        ∧ (feeCap = 0 ∨ msg.gasPrice ≤ feeCap) := by
  cases h with
  | @called args cap msg h =>
    obtain ⟨hprice, hle, htip⟩ := args.fees_le header.baseFee
    unfold TransactionArgs.toMessage at h
    split_ifs at h
    cases h
    exact ⟨Int.natCast_nonneg _, hprice, _, _, rfl, rfl, htip, .inr hle⟩
  | traced args nonce gas acl =>
    exact ⟨Int.natCast_nonneg _, Int.natCast_nonneg _, 0, 0, rfl, rfl, le_rfl, .inl rfl⟩

namespace View

variable (v : View) (host : Host)

/-- **Nobody is overdrawn by a message of the API**, if the sender of a
message with a fee cap of zero can pay for its gas at its price, and there
is no base fee to be taken from the coinbase: the header has none or zero,
it is before London, the base fee is not switched off, or a fee is not
zero. -/
theorem getBalance_nonneg (a : BuildArgs) (c : Captured) {msg : Message}
    (hmsg : ApiMessage v.header msg) (hd : Reachable a.sdb)
    (hpos : ∀ addr, 0 ≤ (a.sdb.getBalance addr).1)
    (hpay : msg.gasFeeCap = some 0 →
      msg.gas.toNat * msg.gasPrice ≤ (a.sdb.getBalance msg.sender).1)
    (hfee : (v.evmFn a c).1.config.noBaseFee → (v.evmFn a c).1.chainRules.isLondon →
      msg.gasFeeCap = some 0 → msg.gasTipCap = some 0 → v.header.baseFee.getD 0 = 0)
    (fuel : ℕ) (gp : UInt64) {r : ExecutionResult} {t : Transition}
    (hrun : (v.evmFn a c).1.applyMessage host fuel msg gp = .ok r t) (addr : Address) :
    0 ≤ (t.evm.statedb.getBalance addr).1 := by
  obtain ⟨hvalue, hprice, feeCap, tip, hcap, htip, htip₀, hle⟩ := hmsg.fees
  have hcov : Transition.Covered ((v.evmFn a c).1.env host) (v.evmFn a c).1.config.noBaseFee msg
      a.sdb := by
    refine ⟨hvalue, hprice, ?_, ?_, ?_⟩
    · intro tip' htip'
      obtain rfl := Option.some.inj (htip.symm.trans htip')
      exact htip₀
    · obtain rfl | hle := hle
      · exact (hpay hcap).trans (le_max_right _ _)
      · have hfunds : msg.funds = msg.gas.toNat * feeCap := by
          unfold Message.funds
          rw [hcap]
          rfl
        rw [hfunds]
        exact (Int.mul_le_mul_of_nonneg_left hle (Int.natCast_nonneg _)).trans (le_max_left _ _)
    · intro hno hlondon hcap₀ htip₀ baseFee hbase
      obtain ⟨n, hn, rfl⟩ := Option.map_eq_some_iff.mp
        ((congrArg BlockContext.baseFee (v.evmFn_context a c)).symm.trans hbase)
      have hzero := hfee hno hlondon hcap₀ htip₀
      rw [hn] at hzero
      exact_mod_cast hzero.le
  exact (Transition.solvent_transitionDb hcov ⟨hpos, hd.wf⟩ fuel gp).of_ok hrun addr

end View

section Overdrawn

omit [Keccak]

/-- The accounts of a sender and of a coinbase, with this balance. -/
def StorageTx.sender (balance : ℕ) : StorageTx where
  accountData a :=
    let codeHash := (Keccak.digests.keccak256Hash []).bytes
    if a = 0x3000 then some { balance := some balance, codeHash }
    else if a = 0x5000 then some { balance := some 0, codeHash } else none
  accountCode _ := none
  accountStorage _ _ := none

theorem StateDB.solvent_sender (balance : ℕ) : (newStateDB (.sender balance)).Solvent := by
  intro a
  rw [getBalance_fst]
  by_cases h : a = 0x3000
  · rw [h]
    show (0 : ℤ) ≤ 0 + balance
    omega
  by_cases h' : a = 0x5000
  · rw [h']
    rfl
  · have hnone : (StorageTx.sender balance).accountData a = none := (if_neg h).trans (if_neg h')
    rw [StateObject.balance_of_no_record]
    show ¬ ((StorageTx.sender balance).accountData a).isSome
    simp [hnone]

/-- A view of a London block with a base fee of 7. -/
def View.london (noBaseFee : Bool) : View where
  chaincfg := { homesteadBlock := some 0, eip150Block := some 0, londonBlock := some 0 }
  defaultCfg := { noBaseFee }
  header := { baseFee := some 7, coinbase := 0x5000 }

/-- With a price of 7, a traced run of the sender, who has nothing, leaves
them with minus the price of 21000 gas. And with the base fee switched off,
a call without fees takes the base fee on 21000 gas from the coinbase. -/
theorem View.getBalance_overdrawn :
    letI := Keccak.digests
    let d := newStateDB (.sender 0)
    let traced : TransactionArgs :=
      { sender := some 0x3000, recipient := some 0x1000, gasPrice := some 7 }
    let called : TransactionArgs := { sender := some 0x3000, recipient := some 0x1000 }
    Reachable d ∧ (∀ addr, 0 ≤ (d.getBalance addr).1)
      ∧ (∃ msg r t, ApiMessage (View.london true).header msg
        ∧ msg = traced.tracedMessage 0 30000 {}
        ∧ ((View.london true).evmFn { sdb := d } {}).1.applyMessage {} 10 msg 30000 = .ok r t
        ∧ (t.evm.statedb.getBalance 0x3000).1 = -147000)
      ∧ ∃ msg r t, ApiMessage (View.london true).header msg
        ∧ called.toMessage 30000 (View.london true).header.baseFee = .ok msg
        ∧ ((View.london true).evmFn { sdb := d } {}).1.applyMessage {} 10 msg 30000 = .ok r t
        ∧ (t.evm.statedb.getBalance 0x5000).1 = -147000 := by
  let _ := Keccak.digests
  intro d traced called
  refine ⟨.new _, solvent_sender 0, ?_, ?_⟩
  · obtain ⟨msg, hmsg⟩ : ∃ msg, msg = traced.tracedMessage 0 30000 {} := ⟨_, rfl⟩
    obtain ⟨r, t, hrun, hbalance⟩ : ∃ r t, Transition.transitionDb
        (((View.london true).evmFn { sdb := d } {}).1.env {}) true 10
        msg { evm := { statedb := d }, gp := 30000 } = .ok r t
        ∧ (t.evm.statedb.getBalance 0x3000).1 = -147000 := by
      rw [hmsg]
      exact exists_of_sat (by decide +kernel)
    exact ⟨msg, r, t, hmsg ▸ .traced _ _ _ _, hmsg, hrun, hbalance⟩
  · obtain ⟨msg, hmsg⟩ : ∃ msg, called.toMessage 30000 (View.london true).header.baseFee
      = .ok msg := ⟨_, rfl⟩
    obtain ⟨r, t, hrun, hbalance⟩ : ∃ r t, Transition.transitionDb
        (((View.london true).evmFn { sdb := d } {}).1.env {}) true 10
        msg { evm := { statedb := d }, gp := 30000 } = .ok r t
        ∧ (t.evm.statedb.getBalance 0x5000).1 = -147000 := by
      cases hmsg
      exact exists_of_sat (by decide +kernel)
    exact ⟨msg, r, t, .called hmsg, hmsg, hrun, hbalance⟩

/-- A call at a price of 8, which is no less than the base fee. -/
theorem View.getBalance_nonneg_called :
    letI := Keccak.digests
    let d := newStateDB (.sender 1000000)
    let args : TransactionArgs :=
      { sender := some 0x3000, recipient := some 0x1000, gasPrice := some 8 }
    ∃ msg r t, args.toMessage 30000 (View.london true).header.baseFee = .ok msg
      ∧ ((View.london true).evmFn { sdb := d } {}).1.applyMessage {} 10 msg 30000 = .ok r t
      ∧ (t.evm.statedb.getBalance 0x5000).1 = 21000
      ∧ ∀ addr, 0 ≤ (t.evm.statedb.getBalance addr).1 := by
  let _ := Keccak.digests
  intro d args
  obtain ⟨msg, hmsg⟩ : ∃ msg, args.toMessage 30000 (View.london true).header.baseFee
    = .ok msg := ⟨_, rfl⟩
  have hcap : msg.gasFeeCap = some 8 := by
    cases hmsg
    rfl
  obtain ⟨r, t, hrun, htip⟩ : ∃ r t, Transition.transitionDb
      (((View.london true).evmFn { sdb := d } {}).1.env {}) true 10
      msg { evm := { statedb := d }, gp := 30000 } = .ok r t
      ∧ (t.evm.statedb.getBalance 0x5000).1 = 21000 := by
    cases hmsg
    exact exists_of_sat (by decide +kernel)
  refine ⟨msg, r, t, hmsg, hrun, htip, ?_⟩
  have hne : msg.gasFeeCap ≠ some 0 := by
    rw [hcap]
    decide
  exact View.getBalance_nonneg (View.london true) {} { sdb := d } {} (.called hmsg) (.new _)
    (solvent_sender 1000000) (fun h => absurd h hne) (fun _ _ h => absurd h hne) 10 30000 hrun

end Overdrawn
