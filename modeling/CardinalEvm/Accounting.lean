import CardinalEvm.Spending
import CardinalEvm.StateTransition

/-!
# The accounts of a message

The gas of a message is bought, used, refunded and given back. What is
used lies between the floor and the limit of the message, the pool and
the sender lose exactly what is used, and none of the `uint64` arithmetic
on the way wraps around: each subtraction has the bound it needs from the
step before – the run returns no more gas than it is given, and the refund
is a share of what was used.
-/

/-- The share of the entries of a log that are payments. -/
def Entry.payment : Entry → Option (Address × ℤ)
  | paid addr amount => some (addr, amount)
  | _ => none

/-- **Arithmetic that does not wrap around**, and refunds within their
bounds. -/
def Entry.Sound (rules : Rules) : Entry → Prop
  | add a b => a.toNat + b.toNat < 2 ^ 64
  | sub a b => b ≤ a
  | nonce n => n.toNat + 1 < 2 ^ 64
  | paid _ _ => True
  | refund used counter granted =>
    granted.toNat ≤ used.toNat / (if rules.isLondon then 5 else 2) ∧ granted ≤ counter

/-- The floor on the gas a message uses, zero before Prague. -/
def Message.floor (rules : Rules) (msg : Message) : UInt64 :=
  if rules.isPrague then
    match floorDataGas msg.data with
    | .ok floor => floor
    | .error _ => 0
  else 0

/-- The tip for each gas: what the cap leaves over the base fee, but no
more than the tip cap – and before London all of the price. -/
def Message.tip (env : Env) (msg : Message) : ℤ :=
  match env.rules.isLondon, env.baseFee with
  | true, some baseFee => min (msg.gasTipCap.getD 0) (msg.gasFeeCap.getD 0 - baseFee)
  | _, _ => msg.gasPrice

namespace Transition

variable {env : Env} {msg : Message} {t : Transition}

/-- The payments made so far, the newest first. -/
def payments (t : Transition) : List (Address × ℤ) := t.log.filterMap Entry.payment

/-- **The arithmetic done so far is sound**, all but the next nonce of a
sender who has the last one. -/
def Fine (rules : Rules) (t : Transition) : Prop :=
  ∀ x ∈ t.log, x.Sound rules ∨ x = .nonce 0xffffffffffffffff

/-- **The accounts of a message in progress**: its gas is bought from a
pool of `gp`, no more is left than was bought, and these payments were
made. -/
structure Held (rules : Rules) (msg : Message) (gp : UInt64) (paid : List (Address × ℤ))
    (t : Transition) : Prop where
  initialGas : t.initialGas = msg.gas
  le : t.gas ≤ msg.gas
  pool : t.gp.toNat + msg.gas.toNat = gp.toNat
  payments : t.payments = paid
  fine : t.Fine rules

theorem Fine.cons {rules : Rules} {x : Entry} (h : t.Fine rules) (hx : x.Sound rules) :
    Fine rules { t with log := x :: t.log } := by
  intro y hy
  obtain rfl | hy := List.mem_cons.mp hy
  · exact .inl hx
  · exact h y hy

/-- The same books, on another EVM. -/
def SameBooks (t t' : Transition) : Prop := ∃ e, t' = { t with evm := e }

instance : IsPreorder Transition SameBooks where
  refl t := ⟨t.evm, rfl⟩
  trans := by
    rintro t _ _ ⟨e, rfl⟩ ⟨e', rfl⟩
    exact ⟨e', rfl⟩

/-- What leaves the books alone, and does not stop because of the pool. -/
abbrev Aside {α : Type} (m : TransitionM α) : Prop := Tame SameBooks (· ≠ .gasPool) m

section Aside

variable {α : Type}

theorem aside_onEvm (m : EStateM Fault Evm α) : Aside (onEvm m) := fun _ =>
  sat_onEvm.mpr (.of_forall (fun _ e => ⟨e, rfl⟩) (fun _ e => ⟨⟨e, rfl⟩, Stop.noConfusion⟩))

theorem aside_fail (e : TxErr) : Aside (fail e : TransitionM α) := .throw Stop.noConfusion

theorem aside_failIf (p : Prop) [Decidable p] (e : TxErr) : Aside (failIf p e) :=
  .ite (aside_fail e) (.pure ())

theorem aside_deref (x : Option ℤ) : Aside (deref x) := by
  cases x with
  | none => exact .throw Stop.noConfusion
  | some a => exact .pure a

theorem aside_checkNonce (msg : Message) : Aside (checkNonce msg) :=
  .ite (.bind (aside_onEvm _) fun _ => .bind (aside_failIf _ _) fun _ => aside_failIf _ _)
    (.pure ())

theorem aside_feesChecked (noBaseFee : Bool) (msg : Message) :
    Aside (feesChecked noBaseFee msg) :=
  .ite (.pure _) (.bind (aside_deref _) fun _ =>
    .ite (.pure _) (.bind (aside_deref _) fun _ => .pure _))

theorem aside_checkFees (env : Env) (noBaseFee : Bool) (msg : Message) :
    Aside (checkFees env noBaseFee msg) := by
  unfold checkFees
  split
  · refine .bind (aside_feesChecked noBaseFee msg) fun _ => .ite ?_ (.pure ())
    refine .bind (aside_deref _) fun _ => .bind (aside_failIf _ _) fun _ => ?_
    refine .bind (aside_deref _) fun _ => .bind (aside_failIf _ _) fun _ => ?_
    exact .bind (aside_failIf _ _) fun _ => aside_failIf _ _
  · exact .pure ()

theorem aside_checkValue (msg : Message) : Aside (checkValue msg) :=
  .ite (.bind (aside_onEvm _) fun _ => aside_failIf _ _) (.pure ())

end Aside

/-! ## Buying gas -/

variable {gp : UInt64} {paid : List (Address × ℤ)} {rules : Rules}

theorem Fine.of_sameBooks {t' : Transition} (h : t.Fine rules) (hs : SameBooks t t') :
    t'.Fine rules := by
  obtain ⟨e, rfl⟩ := hs
  exact h

theorem Held.of_sameBooks {t' : Transition} (h : Held rules msg gp paid t)
    (hs : SameBooks t t') : Held rules msg gp paid t' := by
  obtain ⟨e, rfl⟩ := hs
  exact ⟨h.initialGas, h.le, h.pool, h.payments, h.fine⟩

/-- **Before the run**: the pool has lost the gas of the message, and the
sender its price. -/
theorem held_preCheck (env : Env) (noBaseFee : Bool) (msg : Message) (e : Evm) (gp : UInt64) :
    Sat (preCheck env noBaseFee msg) { evm := e, gp }
      (fun _ t => t.gas = msg.gas
        ∧ Held rules msg gp [(msg.sender, -(msg.gas.toNat * msg.gasPrice))] t)
      (fun x t => x ≠ .gasPool ∧ t.Fine rules) := by
  have hstart : Fine rules { evm := e, gp } := fun x hx => nomatch hx
  refine (aside_checkNonce msg).sat_bind (refl_of SameBooks _) (fun _ t₁ h₁ => ?_)
    fun x t' h' hx => ⟨hx, hstart.of_sameBooks h'⟩
  refine (aside_checkFees env noBaseFee msg).sat_bind h₁ (fun _ t₂ h₂ => ?_)
    fun x t' h' hx => ⟨hx, hstart.of_sameBooks h'⟩
  obtain ⟨e₂, rfl⟩ := h₂
  refine sat_buyGas.mpr ⟨fun _ => ⟨Stop.noConfusion, hstart⟩, fun _ =>
    ⟨fun _ => ⟨Stop.noConfusion, hstart⟩, fun hpool => ?_⟩⟩
  have hle : msg.gas ≤ gp := UInt64.not_lt.mp hpool
  have hzero : 0 + msg.gas = msg.gas := UInt64.zero_add _
  refine ⟨hzero, rfl, hzero ▸ UInt64.le_refl _, ?_, rfl, ?_⟩
  · show (gp - msg.gas).toNat + msg.gas.toNat = gp.toNat
    rw [UInt64.toNat_sub_of_le _ _ hle]
    exact Nat.sub_add_cancel hle
  · have hadd : (0 : UInt64).toNat + msg.gas.toNat < 2 ^ 64 := by
      rw [UInt64.toNat_zero, Nat.zero_add]
      exact msg.gas.toNat_lt
    intro x hx
    simp only [bought, List.mem_cons, List.not_mem_nil, or_false] at hx
    obtain rfl | rfl | rfl := hx
    · exact .inl trivial
    · exact .inl hadd
    · exact .inl hle

/-! ## Gas on the way -/

/-- Arithmetic is no payment. -/
theorem Held.entry {x : Entry} (h : Held rules msg gp paid t) (hx : x.Sound rules)
    (hpay : x.payment = none) : Held rules msg gp paid { t with log := x :: t.log } where
  initialGas := h.initialGas
  le := h.le
  pool := h.pool
  payments := (List.filterMap_cons_none hpay).trans h.payments
  fine := h.fine.cons hx

/-- The next nonce is one more, or there is none. -/
theorem Held.nonce (h : Held rules msg gp paid t) (n : UInt64) :
    Held rules msg gp paid { t with log := .nonce n :: t.log } where
  initialGas := h.initialGas
  le := h.le
  pool := h.pool
  payments := h.payments
  fine := by
    intro y hy
    obtain rfl | hy := List.mem_cons.mp hy
    · refine or_iff_not_imp_right.mpr fun hlast => ?_
      have hne : n.toNat ≠ 2 ^ 64 - 1 := fun heq => hlast (congrArg _ (UInt64.toNat_inj.mp heq))
      have hlt := n.toNat_lt
      show n.toNat + 1 < 2 ^ 64
      omega
    · exact h.fine y hy

theorem Held.setGas (h : Held rules msg gp paid t) {gas : UInt64} (hle : gas ≤ msg.gas) :
    Held rules msg gp paid { t with gas } :=
  ⟨h.initialGas, hle, h.pool, h.payments, h.fine⟩

/-- What was used, so far. -/
theorem Held.toNat_used (h : Held rules msg gp paid t) :
    (t.initialGas - t.gas).toNat = msg.gas.toNat - t.gas.toNat := by
  rw [h.initialGas, UInt64.toNat_sub_of_le _ _ h.le]

theorem Held.gasUsed (h : Held rules msg gp paid t) :
    Held rules msg gp paid { t with log := .sub t.initialGas t.gas :: t.log } :=
  h.entry (x := .sub t.initialGas t.gas) (h.initialGas ▸ h.le) rfl

/-- The floor that is checked is the floor. -/
theorem sat_floorOf (env : Env) (msg : Message) (t : Transition) :
    Sat (floorOf env msg) t
      (fun floor t' => t = t' ∧ floor = msg.floor env.rules ∧ floor ≤ msg.gas)
      (fun x t' => t = t' ∧ x ≠ .gasPool) := by
  unfold floorOf Message.floor
  refine .ite (fun hprague => ?_) fun hprague => ?_
  · rw [if_pos hprague]
    refine .bind (sat_orFail.mpr ⟨fun floor hfloor => ?_, fun _ _ => ⟨rfl, Stop.noConfusion⟩⟩)
    refine .bind (sat_failIf.mpr ⟨fun _ => ⟨rfl, Stop.noConfusion⟩, fun hle => ?_⟩)
    rw [hfloor]
    exact ⟨rfl, rfl, UInt64.not_lt.mp hle⟩
  · rw [if_neg hprague]
    exact ⟨rfl, rfl, UInt64.zero_le⟩

/-- **The checks before the run** deduct what is charged first. -/
theorem held_checkMessage (h : Held env.rules msg gp paid t) :
    Sat (checkMessage env msg) t
      (fun floor t' => Held env.rules msg gp paid t'
        ∧ floor = msg.floor env.rules ∧ floor ≤ msg.gas)
      (fun x t' => x ≠ .gasPool ∧ t'.Fine env.rules) := by
  refine .bind (sat_orFail.mpr ⟨fun gas _ => ?_, fun _ _ => ⟨Stop.noConfusion, h.fine⟩⟩)
  refine .bind (sat_get.mpr (.bind (sat_failIf.mpr
    ⟨fun _ => ⟨Stop.noConfusion, h.fine⟩, fun hgas => ?_⟩)))
  refine .bind ((sat_floorOf env msg t).mono ?_ ?_)
  · rintro floor _ ⟨rfl, hfloor⟩
    have hle : gas ≤ t.gas := UInt64.not_lt.mp hgas
    have h' := (h.entry (x := .sub t.gas gas) hle rfl).setGas
      (UInt64.le_trans (UInt64.sub_le hle) h.le)
    refine .bind (sat_sub64.mpr (.bind (sat_setGas.mpr ?_)))
    refine (aside_checkValue msg).sat_bind (refl_of SameBooks _) (fun _ t₁ h₁ => ?_)
      fun x t' hs hx => ⟨hx, h'.fine.of_sameBooks hs⟩
    have h'' := h'.of_sameBooks h₁
    exact .bind (sat_failIf.mpr ⟨fun _ => ⟨Stop.noConfusion, h''.fine⟩, fun _ => ⟨h'', hfloor⟩⟩)
  · rintro x _ ⟨rfl, hx⟩
    exact ⟨hx, h.fine⟩

/-! ## After the run -/

/-- The refund is a share of what was used, and no more than the
counter. -/
theorem held_calcRefund (h : Held env.rules msg gp paid t) :
    Sat (calcRefund env) t
      (fun refund t' => Held env.rules msg gp paid t' ∧ t'.gas = t.gas
        ∧ refund.toNat ≤ msg.gas.toNat - t.gas.toNat)
      (fun _ _ => False) := by
  have hquot : (t.initialGas - t.gas).toNat / (refundQuotient env.rules).toNat
      ≤ msg.gas.toNat - t.gas.toNat := by
    rw [← h.toNat_used]
    exact Nat.div_le_self _ _
  refine .bind (sat_gasUsed.mpr (.bind (sat_get.mpr (.bind (sat_record.mpr ?_)))))
  have hq : (refundQuotient env.rules).toNat = if env.rules.isLondon then 5 else 2 := by
    unfold refundQuotient
    split <;> rfl
  have hrefund : ∀ refund : UInt64, refund = (if t.evm.statedb.refund
        < (t.initialGas - t.gas) / refundQuotient env.rules then t.evm.statedb.refund
      else (t.initialGas - t.gas) / refundQuotient env.rules) →
      refund ≤ (t.initialGas - t.gas) / refundQuotient env.rules
        ∧ refund ≤ t.evm.statedb.refund := by
    rintro _ rfl
    split
    · exact ⟨UInt64.le_of_lt ‹_›, UInt64.le_refl _⟩
    · exact ⟨UInt64.le_refl _, UInt64.not_lt.mp ‹_›⟩
  obtain ⟨hshare, hcounter⟩ := hrefund _ rfl
  have hshare' := UInt64.le_iff_toNat_le.mp hshare
  rw [UInt64.toNat_div] at hshare'
  exact ⟨h.gasUsed.entry ⟨hq ▸ hshare', hcounter⟩ rfl, rfl, hshare'.trans hquot⟩

/-- **The gas after a run**: at least the floor is used. -/
theorem held_settleGas (h : Held env.rules msg gp paid t) {floor : UInt64}
    (hfloor : floor ≤ msg.gas) :
    Sat (settleGas env floor) t
      (fun _ t' => Held env.rules msg gp paid t' ∧ floor.toNat ≤ msg.gas.toNat - t'.gas.toNat)
      (fun _ _ => False) := by
  refine .bind ((held_calcRefund h).mono ?_ fun _ _ hfalse => hfalse)
  rintro refund t₁ ⟨h₁, hgas, hrefund⟩
  refine .bind (sat_get.mpr (.bind (sat_add64.mpr (.bind (sat_setGas.mpr ?_)))))
  -- the refund puts back no more than was used
  have hle := UInt64.le_iff_toNat_le.mp h.le
  have hlt := msg.gas.toNat_lt
  have hsum : t₁.gas.toNat + refund.toNat ≤ msg.gas.toNat := by
    rw [hgas]
    omega
  have hadd : (t₁.gas + refund).toNat = t₁.gas.toNat + refund.toNat := by
    rw [UInt64.toNat_add]
    exact Nat.mod_eq_of_lt (by omega)
  have h₂ := (h₁.entry (x := .add t₁.gas refund) (by show _ < _; omega) rfl).setGas
    (UInt64.le_iff_toNat_le.mpr (hadd ▸ hsum))
  refine .bind (sat_gasUsed.mpr ?_)
  refine .ite (fun hless => ?_) fun hless => ?_
  · refine .bind (sat_get.mpr (.bind (sat_sub64.mpr (sat_setGas.mpr ?_))))
    have hsub : floor ≤ t₁.initialGas := h₁.initialGas ▸ hfloor
    have hcut : (t₁.initialGas - floor).toNat = msg.gas.toNat - floor.toNat := by
      rw [UInt64.toNat_sub_of_le _ _ hsub, h₁.initialGas]
    have hfloor' := UInt64.le_iff_toNat_le.mp hfloor
    refine ⟨(h₂.gasUsed.entry (x := .sub t₁.initialGas floor) hsub rfl).setGas ?_, ?_⟩
    · exact h₁.initialGas ▸ UInt64.sub_le hsub
    · show floor.toNat ≤ msg.gas.toNat - (t₁.initialGas - floor).toNat
      omega
  · refine ⟨h₂.gasUsed, ?_⟩
    have hused := UInt64.le_iff_toNat_le.mp (UInt64.not_lt.mp hless)
    exact hused.trans h₂.toNat_used.le

theorem sat_effectiveTip (env : Env) (msg : Message) (t : Transition) :
    Sat (effectiveTip env msg) t (fun tip t' => t = t' ∧ tip = msg.tip env)
      (fun x t' => t = t' ∧ x ≠ .gasPool) := by
  unfold effectiveTip Message.tip
  cases env.rules.isLondon with
  | false => exact ⟨rfl, rfl⟩
  | true =>
    cases env.baseFee with
    | none => exact ⟨rfl, rfl⟩
    | some baseFee =>
      refine .bind (sat_deref.mpr ⟨fun feeCap hcap => ?_, fun _ => ⟨rfl, Stop.noConfusion⟩⟩)
      refine .bind (sat_deref.mpr ⟨fun tip htip => ?_, fun _ => ⟨rfl, Stop.noConfusion⟩⟩)
      rw [hcap, htip]
      exact ⟨rfl, rfl⟩

/-- **The accounts of a message that was executed.** -/
structure Accounted (env : Env) (msg : Message) (gp : UInt64) (used : UInt64) (t : Transition) :
    Prop where
  floor_le : msg.floor env.rules ≤ used
  used_le : used ≤ msg.gas
  /-- The pool loses what is used. -/
  pool : t.gp.toNat + used.toNat = gp.toNat
  /-- The sender pays for the gas of the message and gets the price of
  what was not used back, and the coinbase gets the tip. -/
  payments : ∃ back, t.payments = [(env.coinbase, used.toNat * msg.tip env), (msg.sender, back),
      (msg.sender, -(msg.gas.toNat * msg.gasPrice))]
    ∧ msg.gas.toNat * msg.gasPrice - back = used.toNat * msg.gasPrice
  fine : t.Fine env.rules

/-- **What is paid after a run.** -/
theorem accounted_settlePayments
    (h : Held env.rules msg gp [(msg.sender, -(msg.gas.toNat * msg.gasPrice))] t)
    (hfloor : (msg.floor env.rules).toNat ≤ msg.gas.toNat - t.gas.toNat) :
    Sat (settlePayments env msg) t
      (fun _ t' => t'.initialGas = t.initialGas ∧ t'.gas = t.gas
        ∧ Accounted env msg gp (t.initialGas - t.gas) t')
      (fun x t' => x ≠ .gasPool ∧ t'.Fine env.rules) := by
  have hle := UInt64.le_iff_toNat_le.mp h.le
  have hpool := h.pool
  have hlt := gp.toNat_lt
  have hmax : (0xffffffffffffffff - t.gas).toNat = 2 ^ 64 - 1 - t.gas.toNat :=
    UInt64.toNat_sub_of_le _ _ (UInt64.le_iff_toNat_le.mpr (Nat.le_pred_of_lt t.gas.toNat_lt))
  have hsum : t.gp.toNat + t.gas.toNat < 2 ^ 64 := by omega
  have hadd : (t.gp + t.gas).toNat = t.gp.toNat + t.gas.toNat := by
    rw [UInt64.toNat_add]
    exact Nat.mod_eq_of_lt hsum
  have hfine := (h.fine.cons (x := .paid msg.sender (t.gas.toNat * msg.gasPrice)) trivial).cons
    (x := .add t.gp t.gas) hsum
  refine .bind (sat_get.mpr (.bind (sat_addBalance.mpr (.bind (sat_addGas.mpr ⟨?_, fun _ => ?_⟩)))))
  · -- the pool has room: what comes back was in it
    intro hfull
    have hfull' := UInt64.lt_iff_toNat_lt.mp hfull
    change _ < t.gp.toNat at hfull'
    omega
  refine .bind ((sat_effectiveTip env msg _).mono ?_ ?_)
  · rintro tip _ ⟨rfl, rfl⟩
    refine .bind (sat_gasUsed.mpr (sat_addBalance.mpr ⟨rfl, rfl, ?_⟩))
    have hused := h.toNat_used
    refine ⟨?_, ?_, ?_, ⟨t.gas.toNat * msg.gasPrice, ?_, ?_⟩, ?_⟩
    · exact UInt64.le_iff_toNat_le.mpr (hfloor.trans hused.ge)
    · exact h.initialGas ▸ UInt64.sub_le (h.initialGas ▸ h.le)
    · show (t.gp + t.gas).toNat + _ = _
      omega
    · show (env.coinbase, _) :: (msg.sender, _) :: t.payments = _
      rw [h.payments]
      rfl
    · rw [hused, Nat.cast_sub hle]
      ring
    · exact (hfine.cons (x := .sub t.initialGas t.gas) (h.initialGas ▸ h.le)).cons
        (x := .paid _ _) trivial
  · rintro x _ ⟨rfl, hx⟩
    exact ⟨hx, hfine⟩

/-- **The nonce of the sender** is not part of the accounts. -/
theorem held_incrementNonce (h : Held rules msg gp paid t) :
    Sat (incrementNonce msg) t (fun _ t' => Held rules msg gp paid t') (fun _ _ => False) := by
  refine .ite (fun _ => ?_) fun _ => h
  refine .bind (sat_onDb.mpr (.bind (sat_record.mpr (sat_onDb.mpr ?_))))
  exact (h.nonce _).of_sameBooks ⟨_, rfl⟩

variable [Keccak]

/-- A run returns no more gas than it is given. -/
theorem returns_runMessage (hcap : env.CapsCalls) (fuel : ℕ) (msg : Message) (gas : UInt64) :
    Returns (fun r => r.2.1 ≤ gas) (Evm.runMessage env fuel msg gas) := by
  have hrun := Evm.within_run hcap fuel
  unfold Evm.runMessage
  split
  · refine .bind_of (P := fun r : Evm.CreateResult => r.2.2.1 ≤ gas) (fun e => ?_)
      fun r hr => .pure hr
    exact (Evm.budget_create hrun _ _ _ _ e).mono (fun _ _ h => h.le) fun _ _ _ => trivial
  · refine .bind fun _ => fun e => ?_
    exact (Evm.budget_call hrun _ _ _ _ _ e).mono (fun _ _ h => h.le) fun _ _ _ => trivial

/-- **The accounts of a message**: if it is executed then what it uses is
between its floor and its limit, the refund is at most the share of the
gas used before it and the counter, the pool loses what is used, the
sender pays for what is used, and the coinbase gets the tip on it. And in
any case no addition or subtraction wraps around, but for the nonce of a
sender who has the last one, and the pool does not overflow. -/
theorem transitionDb_accounted (hcap : env.CapsCalls) (noBaseFee : Bool) (fuel : ℕ)
    (msg : Message) (gp : UInt64) (e : Evm) :
    Sat (transitionDb env noBaseFee fuel msg) { evm := e, gp }
      (fun r t => Accounted env msg gp r.usedGas t)
      (fun x t => x ≠ .gasPool ∧ t.Fine env.rules) := by
  refine (held_preCheck env noBaseFee msg e gp).next ?_
  rintro _ t₁ ⟨-, h₁⟩
  refine (held_checkMessage h₁).next ?_
  rintro floor t₂ ⟨h₂, rfl, hfloor⟩
  refine (aside_onEvm _).sat_bind (refl_of SameBooks t₂) (fun _ t₃ hbooks => ?_)
    fun x t' hs hx => ⟨hx, h₂.fine.of_sameBooks hs⟩
  refine (held_incrementNonce (h₂.of_sameBooks hbooks)).next ?_
  rintro _ t₄ h₄
  refine .bind (sat_get.mpr (.bind ?_))
  refine sat_onEvm.mpr ((returns_runMessage hcap fuel msg t₄.gas t₄.evm).mono ?_ ?_)
  · rintro ⟨ret, gas, vmerr⟩ e₅ hgas
    have h₅ := (h₄.of_sameBooks ⟨e₅, rfl⟩).setGas (UInt64.le_trans hgas h₄.le)
    refine .bind (sat_setGas.mpr ((held_settleGas h₅ hfloor).next ?_))
    rintro _ t₆ ⟨h₆, hfloor₆⟩
    refine (accounted_settlePayments h₆ hfloor₆).next ?_
    rintro _ t₇ ⟨hinit, hgas₇, h₇⟩
    refine .bind (sat_gasUsed.mpr ?_)
    rw [hinit, hgas₇]
    refine ⟨h₇.floor_le, h₇.used_le, h₇.pool, h₇.payments, ?_⟩
    exact h₇.fine.cons (x := .sub t₆.initialGas t₆.gas) (h₆.initialGas ▸ h₆.le)
  · intro f e₅ _
    exact ⟨Stop.noConfusion, h₄.fine⟩

omit [Keccak]

/-- A call with data under the Prague rules, at a price of 5 with a base
fee of 3. -/
theorem transitionDb_accounted_prague :
    letI := Keccak.digests
    let env : Env := { rules := .prague, baseFee := some 3, coinbase := 0x5000 }
    let msg : Message :=
      { sender := 0x3000
        recipient := some 0x1000
        gas := 100000
        gasPrice := 5
        gasFeeCap := some 6
        gasTipCap := some 2
        data := [1, 2, 3, 0] }
    let tx : StorageTx := .single 0x3000 { balance := some 1000000, codeHash := emptyCode.bytes } []
    ∃ r t, transitionDb env false 10 msg { evm := { statedb := .newStateDB tx }, gp := 200000 }
        = .ok r t ∧ r.usedGas = 21130 ∧ Accounted env msg 200000 r.usedGas t := by
  let _ := Keccak.digests
  intro env msg tx
  obtain ⟨r, t, hrun, hused⟩ : ∃ r t, transitionDb env false 10 msg
      { evm := { statedb := .newStateDB tx }, gp := 200000 } = .ok r t ∧ r.usedGas = 21130 :=
    exists_of_sat (by decide +kernel)
  have hcap : env.CapsCalls := fun _ => rfl
  have h := (transitionDb_accounted hcap false 10 msg 200000 _).of_ok hrun
  exact ⟨r, t, hrun, hused, h⟩

/-- **The last nonce**: a call whose sender has it is executed, and the
sender's nonce is zero afterwards. -/
theorem incrementNonce_wraps :
    letI := Keccak.digests
    let env : Env := { rules := .prague, baseFee := some 3, coinbase := 0x5000 }
    let msg : Message :=
      { sender := 0x3000
        recipient := some 0x1000
        nonce := 0xffffffffffffffff
        gas := 100000
        gasPrice := 5
        gasFeeCap := some 6
        gasTipCap := some 2
        checkNonce := true }
    let tx : StorageTx := .single 0x3000
      { nonce := 0xffffffffffffffff, balance := some 1000000, codeHash := emptyCode.bytes } []
    ¬ (Entry.nonce 0xffffffffffffffff).Sound env.rules
      ∧ ∃ r t, transitionDb env false 10 msg { evm := { statedb := .newStateDB tx }, gp := 200000 }
        = .ok r t ∧ .nonce 0xffffffffffffffff ∈ t.log ∧ (t.evm.statedb.getNonce 0x3000).1 = 0 :=
  letI := Keccak.digests
  ⟨show ¬ _ < _ by decide, exists_of_sat (by decide +kernel)⟩

end Transition
