import CardinalEvm.CallGas

/-!
# What a run spends

Every instruction that does not end its frame costs something, in every
table (`law_costs`). So the gas of a frame and the number of instructions
that it and the frames below it have executed never exceed, together,
what it began with. This bounds the length of a run, and with it the fuel
that the loop needs: one turn more than there is gas.
-/

open Operation OpCode JumpTable Frame Regs Event

/-! ## Every instruction costs something -/

/-- The gas functions that never come to nothing. -/
def GasFn.costs : GasFn → Bool
  | gasSStore | gasSStoreEIP2200 | makeGasSStoreFunc _ | makeGasLog _ | gasExpFrontier
  | gasExpEIP158 | gasSLoadEIP2929 => true
  | _ => false

/-- The opcodes whose price may be that of their gas function alone. -/
def pricedOps : List UInt8 := [EXP, SLOAD, SSTORE, LOG0, LOG0 + 1, LOG0 + 2, LOG0 + 3, LOG0 + 4]

/-- **An operation that ends its frame or costs something.** -/
def Operation.Costs (op : UInt8) (o : Operation) : Prop :=
  o.execute.halts ∨ o.constantGas ≠ 0
    ∨ op ∈ pricedOps ∧ (o.dynamicGas.map GasFn.costs).getD false

instance (op : UInt8) (o : Operation) : Decidable (o.Costs op) := by
  unfold Operation.Costs
  infer_instance

/-- Whether an assignment leaves something to pay. Only `SLOAD` ever gets a
price of nothing, and then with a gas function. -/
def Assign.costs : Assign → Bool
  | set op o => decide (o.Costs op)
  | constantGas _ price => price ≠ 0
  | dynamicGas op f => op ∈ pricedOps → f.costs
  | gas op price f => price ≠ 0 ∨ op ∈ pricedOps ∧ f.costs

theorem kept_costs : Kept Costs := by
  have hcosts : ∀ a ∈ assignments, a.costs := by decide +kernel
  intro a ha o ho
  have h := hcosts a ha
  cases a with
  | set op o => exact of_decide_eq_true h
  | constantGas op price => exact ho.imp_right fun _ => .inl (of_decide_eq_true h)
  | dynamicGas op f =>
    exact ho.imp_right (Or.imp_right fun hop => ⟨hop.1, of_decide_eq_true h hop.1⟩)
  | gas op price f => exact ho.imp_right fun _ => of_decide_eq_true h

/-- **In every table, an operation ends its frame or costs something.** -/
theorem Env.costs_jumpTable (env : Env) : All Costs env.jumpTable :=
  kept_costs.jumpTable (fun _ => .inl rfl)
    (all_frontier (fun _ => .inl rfl) (by decide +kernel)) env

variable [Keccak]

/-! ### Gas functions -/

section Prices

variable {s : GasScope} {n : UInt64}

/-- A price the metering of storage asks for. -/
def NetCosts.Price (p : NetCosts) (cost : UInt64) : Prop :=
  cost = p.noop ∨ cost = p.init ∨ cost = p.clean ∨ cost = p.dirty

theorem returns_netSStore (p : NetCosts) (self : Address) (slot value current : Hash) :
    Returns p.Price (netSStore p self slot value current) :=
  .ite (.pure (.inl rfl)) (.bind fun _ => .ite
    (.ite (.pure (.inr (.inl rfl))) (.ite (.bind fun _ => .pure (.inr (.inr (.inl rfl))))
      (.pure (.inr (.inr (.inl rfl))))))
    (.bind fun _ => .bind fun _ => .pure (.inr (.inr (.inr rfl)))))

omit [Keccak] in
theorem returns_warmSlot (self : Address) (slot : Hash) :
    Returns (fun cost => cost = 0 ∨ cost = Params.coldSloadCostEIP2929) (warmSlot self slot) :=
  .bind fun _ => .ite (.pure (.inl rfl)) (.bind fun _ => .ite (.pure (.inr rfl)) (.throw _))

omit [Keccak] in
theorem returns_checked {x y : UInt64} (h : x ≠ 0 ∨ y ≠ 0) :
    Returns (fun cost => cost ≠ 0) (GasM.checked (safeAdd x y)) := by
  intro t
  refine sat_checked.mono (fun cost _ hsum hcost => ?_)
  have hzero : x.toNat + y.toNat = 0 := by
    rw [← hsum.2, hcost]
    rfl
  obtain ⟨hx, hy⟩ := Nat.add_eq_zero_iff.mp hzero
  exact h.elim (fun h => h (UInt64.toNat_inj.mp hx)) (fun h => h (UInt64.toNat_inj.mp hy))

/-- **The gas functions that never come to nothing.** -/
theorem GasFn.returns_of_costs {g : GasFn} (hg : g.costs) :
    Returns (fun cost => cost ≠ 0) (g.gas s n) := by
  have hnet : ∀ {p : NetCosts} {self : Address} {slot value current : Hash}, ¬ p.Price 0 →
      Returns (fun cost => cost ≠ 0) (netSStore p self slot value current) := fun hp t =>
    (returns_netSStore _ _ _ _ _ t).mono (fun _ _ hprice h0 => hp (h0 ▸ hprice))
  cases g with
  | gasSStore =>
    refine .bind fun _ => .bind fun _ => .bind fun _ => .ite ?_ (hnet ?_)
    · exact .ite (.pure (by decide)) (.ite (.bind fun _ => .pure (by decide)) (.pure (by decide)))
    · unfold NetCosts.Price
      decide
  | gasSStoreEIP2200 =>
    refine .bind fun _ => .bind fun _ => .bind fun _ => .bind fun _ => hnet ?_
    unfold NetCosts.Price
    decide
  | makeGasSStoreFunc refund =>
    refine .bind fun _ => .bind fun _ => .bind fun _ => .bind fun _ =>
      .bind_of (returns_warmSlot _ _) fun cost hcost =>
        .bind_of (returns_netSStore _ _ _ _ _) fun net hprice => .pure ?_
    obtain rfl | rfl := hcost <;> obtain rfl | rfl | rfl | rfl := hprice <;>
      simp only [netCostsEIP2929] <;> decide
  | makeGasLog k =>
    exact .bind fun _ => .bind fun _ => .bind fun _ =>
      .bind_of (returns_checked (.inr (by decide))) fun _ h =>
        .bind_of (returns_checked (.inl h)) fun _ h => .bind fun _ => returns_checked (.inl h)
  | gasExpFrontier | gasExpEIP158 => exact .bind fun _ => returns_checked (.inr (by decide))
  | gasSLoadEIP2929 =>
    exact .bind fun _ => .bind fun _ => .ite (.pure (by decide)) (.bind fun _ => .pure (by decide))
  | _ => cases hg

end Prices

/-! ## Paying -/

/-- **The memory of a frame is paid for.** -/
def Frame.Funded (s : Frame) : Prop :=
  Paid s.regs.memory.store.length 0 s.regs.memory.lastGasCost

/-- **Rules in which the prices of EIP-2929 come with EIP-150**, as they do
in every fork: `CheckConfigForkOrder` refuses a chain that skips one. -/
def Env.CapsCalls (env : Env) : Prop :=
  env.rules.isBerlin ∨ env.rules.isLondon ∨ env.rules.isMerge ∨ env.rules.isShanghai
    ∨ env.rules.isCancun ∨ env.rules.isPrague ∨ env.rules.isOsaka ∨ Eip.eip2929 ∈ env.extraEips →
  env.rules.isEIP150

instance (env : Env) : Decidable env.CapsCalls := by
  unfold Env.CapsCalls
  infer_instance

section Tables

omit [Keccak]

variable {env : Env} {jt : JumpTable}

/-- Whether a gas function is one of the calls' in EIP-2929. -/
def GasFn.isCall2929 : GasFn → Bool
  | makeCallVariantGasCallEIP2929 _ => true
  | _ => false

/-- Whether an assignment is of one. -/
def Assign.isCall2929 : Assign → Bool
  | set _ o => (o.dynamicGas.map GasFn.isCall2929).getD false
  | constantGas .. => false
  | dynamicGas _ f | gas _ _ f => f.isCall2929

/-- A call without the price of EIP-2929. -/
def Operation.Before2929 (op : UInt8) (o : Operation) : Prop :=
  op ∈ [CALL, CALLCODE, DELEGATECALL, STATICCALL] →
    (o.dynamicGas.map GasFn.isCall2929).getD false = false

instance (op : UInt8) (o : Operation) : Decidable (o.Before2929 op) := by
  unfold Operation.Before2929
  infer_instance

/-- No other EIP brings the prices. -/
theorem JumpTable.All.before2929_enableEIP (h : All Before2929 jt) {e : Eip} (he : e ≠ .eip2929) :
    All Before2929 (jt.enableEIP e) := by
  have hassigns : ∀ a ∈ activator e, a.isCall2929 = false := by
    cases e with
    | eip2929 => exact absurd rfl he
    | _ => decide
  refine fun op => assignAll_keeps (fun a ha o ho => ?_) (h op)
  have hnot := hassigns a ha
  cases a with
  | set op o => exact fun _ => hnot
  | constantGas op price => exact ho
  | dynamicGas op f | gas op price f => exact fun _ => hnot

/-- **Where EIP-2929 prices calls, EIP-150 caps their gas.** -/
theorem Env.CapsCalls.isEIP150 (h : env.CapsCalls) {op : UInt8}
    (hop : op ∈ [CALL, CALLCODE, DELEGATECALL, STATICCALL])
    (hg : ((env.jumpTable op).dynamicGas.map GasFn.isCall2929).getD false) :
    env.rules.isEIP150 = true := by
  by_contra h150
  have hnot : ∀ {p : Prop}, (p → _) → ¬ p := fun hp hc => h150 (h (hp hc))
  have hset : All Before2929 env.rules.instructionSet := by
    unfold Rules.instructionSet
    rw [if_neg (hnot fun h => .inr (.inr (.inr (.inr (.inr (.inr (.inl h))))))),
      if_neg (hnot fun h => .inr (.inr (.inr (.inr (.inr (.inl h)))))),
      if_neg (hnot fun h => .inr (.inr (.inr (.inr (.inl h))))),
      if_neg (hnot fun h => .inr (.inr (.inr (.inl h)))),
      if_neg (hnot fun h => .inr (.inr (.inl h))),
      if_neg (hnot fun h => .inr (.inl h)), if_neg (hnot fun h => .inl h)]
    intro op hop
    revert hop op
    split_ifs <;> decide +kernel
  have hjt : All Before2929 env.jumpTable := by
    refine List.foldlRecOn env.extraEips _ ?_ fun jt hjt e he =>
      hjt.before2929_enableEIP fun heq =>
        hnot (fun h => .inr (.inr (.inr (.inr (.inr (.inr (.inr h))))))) (heq ▸ he)
    refine List.foldlRecOn _ _ hset fun jt hjt e _ => ?_
    cases e with
    | disable op => exact hjt.set fun _ => rfl
    | difficulty => exact hjt.set fun h => absurd h (by decide)
  rw [hjt op hop] at hg
  cases hg

end Tables

section Sizes

omit [Keccak]

variable {α β : Type} {stack : List Word} {o : Operation}

/-- A size that is missing for want of an operand only. -/
def MemFn.Finds (x : Except Fault α) : Prop := ∀ e, x = .error e → e = .stack

namespace MemFn

theorem Finds.pure (a : α) : Finds (Pure.pure a : Except Fault α) := nofun

theorem Finds.bind {x : Except Fault α} {f : α → Except Fault β} (hx : Finds x)
    (hf : ∀ a, Finds (f a)) : Finds (x >>= f) := by
  cases x with
  | error e => exact fun _ h => hx _ (Except.error.inj h ▸ rfl)
  | ok a => exact hf a

theorem finds_back (n : ℕ) : Finds (back stack n) := by
  intro e h
  unfold back at h
  cases hn : stack[n]? with
  | some w =>
    rw [hn] at h
    cases h
  | none =>
    rw [hn] at h
    exact (Except.error.inj h).symm

theorem finds_range (off len : ℕ) : Finds (range off len stack) :=
  .bind (finds_back off) fun _ => .bind (finds_back len) fun _ => .pure _

theorem finds_call (outOff inOff : ℕ) : Finds (call outOff inOff stack) := by
  refine .bind (finds_range _ _) fun x => ?_
  cases x with
  | none => exact .pure _
  | some x =>
    refine .bind (finds_range _ _) fun y => ?_
    cases y with
    | none => exact .pure _
    | some y => exact .pure _

theorem finds_size (f : MemFn) : Finds (f.size stack) := by
  cases f with
  | memoryMLoad | memoryMStore8 | memoryMStore => exact .bind (finds_back _) fun _ => .pure _
  | memoryMcopy =>
    exact .bind (finds_back _) fun _ => .bind (finds_back _) fun _ =>
      .bind (finds_back _) fun _ => .pure _
  | memoryCall | memoryDelegateCall | memoryStaticCall => exact finds_call _ _
  | _ => exact finds_range _ _

end MemFn

theorem Operation.finds_memoryNeeded : MemFn.Finds (o.memoryNeeded stack) := by
  unfold Operation.memoryNeeded
  cases o.memorySize with
  | none => exact .pure _
  | some f =>
    refine .bind f.finds_size fun n => ?_
    cases n with
    | none => exact .pure _
    | some n => exact .pure _

/-- The memory is measured in whole words. -/
theorem Operation.dvd_of_memoryNeeded {n : UInt64} (h : o.memoryNeeded stack = .ok (some n)) :
    32 ∣ n.toNat := by
  unfold Operation.memoryNeeded at h
  cases hm : o.memorySize with
  | none =>
    rw [hm] at h
    obtain rfl : 0 = n := Option.some.inj (Except.ok.inj h)
    exact dvd_zero 32
  | some f =>
    rw [hm] at h
    obtain ⟨_ | k, -, h⟩ := MemFn.ok_of_bind h
    · cases h
    · have hmul : safeMul (toWordSize k) 32 = some n := Except.ok.inj h
      unfold safeMul at hmul
      split_ifs at hmul with hlt
      rw [← Option.some.inj hmul, UInt64.toNat_mul, Nat.mod_eq_of_lt hlt]
      exact Nat.dvd_mul_left _ _

end Sizes

section Prepare

variable {env : Env} {o : Operation} {op : UInt8} {s t : Frame}

/-- **What a frame has paid** for an operation: one at least, unless the
operation ends the frame, and for a call also the gas and the value it
sends. -/
structure Frame.Charged (env : Env) (o : Operation) (s t : Frame) : Prop where
  gas : t.contract.gas.toNat + (if o.execute.halts then 0 else 1) ≤ s.contract.gas.toNat
  call : ∀ f, o.gasKind = .call f → o.execute.halts = false →
    t.contract.gas.toNat + f.valueGas (s.gasScope env) + t.evm.callGasTemp.toNat + 1
      ≤ s.contract.gas.toNat
  trace : Grows Charge s.evm.trace t.evm.trace
  funded : t.Funded

/-- **A frame that has paid**, or has failed to pay. -/
structure Frame.Pays (s t : Frame) : Prop where
  gas : t.contract.gas ≤ s.contract.gas
  trace : Grows Charge s.evm.trace t.evm.trace

instance : IsPreorder Frame Frame.Pays where
  refl _ := ⟨UInt64.le_refl _, .refl _⟩
  trans _ _ _ h h' := ⟨UInt64.le_trans h'.gas h.gas, h.trace.trans h'.trace⟩

omit [Keccak] in
theorem Frame.toNat_paid {amount : UInt64} (h : amount ≤ s.contract.gas) :
    (s.paid amount).contract.gas.toNat + amount.toNat = s.contract.gas.toNat := by
  have hsub : (s.contract.gas - amount).toNat = s.contract.gas.toNat - amount.toNat :=
    UInt64.toNat_sub_of_le _ _ h
  have hle := UInt64.le_iff_toNat_le.mp h
  show (s.contract.gas - amount).toNat + amount.toNat = _
  omega

omit [Keccak] in
theorem Frame.pays_paid {amount : UInt64} (h : amount ≤ s.contract.gas) : s.Pays (s.paid amount) :=
  ⟨UInt64.le_iff_toNat_le.mpr (toNat_paid h ▸ Nat.le_add_right _ _), .cons (e := .useGas _ _) h _⟩

omit [Keccak] in
/-- The memory that is paid for is paid for once it is there. -/
theorem Frame.Funded.paid (h : s.Funded) (n : UInt64) :
    Paid s.regs.memory.store.length n s.regs.memory.lastGasCost := by
  obtain ⟨w, hw, hle, hlt⟩ := h
  refine ⟨w, hw, ?_, hlt⟩
  rw [UInt64.toNat_zero, Nat.max_zero] at hle
  exact hle.trans (le_max_left _ _)

omit [Keccak] in
/-- Only the opcodes of calls have the gas functions of calls. -/
theorem Operation.Fits.mem_of_call (ho : o.Fits op) {f : CallGasFn} (h : o.gasKind = .call f) :
    op ∈ [CALL, CALLCODE, DELEGATECALL, STATICCALL] := by
  have hop : opKind op = .call f := by
    obtain hk | ⟨-, hk⟩ := ho.gas
    · exact hk ▸ h
    · rw [hk] at h
      cases h
  unfold opKind at hop
  split_ifs at hop with _ _ h₁ h₂ h₃ h₄
  · exact List.mem_cons.mpr (.inl h₁)
  all_goals simp [*]

/-- **What the gas function of an operation asks for** covers what the gas
of a call and its value cost. -/
theorem Frame.sat_gasFn (hs : s.Funded) (hcap : env.CapsCalls) {g : GasFn}
    (hg : (env.jumpTable op).dynamicGas = some g) {n : UInt64} (hn : 32 ∣ n.toNat)
    (price : UInt64) :
    Sat (g.gas (s.gasScope env) n) (s.paid price).gasSt
      (fun cost st => (s.paid price).gasSt.Unspent s.regs.memory.store.length n st
        ∧ ∀ f, (env.jumpTable op).gasKind = .call f →
          f.valueGas (s.gasScope env) + st.callGasTemp.toNat ≤ cost.toNat)
      (fun e st => (s.paid price).gasSt.Spent st ∧ e.Panics) := by
  have hkind : (env.jumpTable op).gasKind = g.kind := by
    unfold Operation.gasKind
    rw [hg]
    rfl
  by_cases hcall : ∃ f, g.kind = .call f
  · obtain ⟨f, hf⟩ := hcall
    have hop := (env.fits_jumpTable op).mem_of_call (hkind.trans hf)
    refine (GasFn.charged_gas hn (hs.paid n) hf (fun h2929 => ?_)).mono
      (fun cost st h => ⟨h.2, ?_⟩) (fun _ _ h => h)
    · exact hcap.isEIP150 hop (by rw [hg, h2929]; rfl)
    · intro f' hf'
      obtain rfl := GasKind.call.inj (hf.symm.trans (hkind.symm.trans hf'))
      exact h.1.le_cost
  · refine (GasFn.unspent_gas hn (fun f hf => hcall ⟨f, hf⟩) _).mono (fun cost st h => ⟨h, ?_⟩)
      (fun _ _ h => ⟨h.1.spent, h.2⟩)
    exact fun f hf => absurd ⟨f, hkind.symm.trans hf⟩ hcall

omit [Keccak] in
/-- A memory that has grown to the size that was paid for. -/
theorem Paid.resize {m : Memory} {n cost : UInt64} (h : Paid m.store.length n cost) :
    Paid (m.resize n).store.length 0 cost := by
  obtain ⟨w, hw, hle, hlt⟩ := h
  refine ⟨w, hw, ?_, hlt⟩
  show 32 * w ≤ max (m.store ++ List.replicate (n.toNat - m.store.length) 0).length _
  rw [List.length_append, List.length_replicate]
  omega

omit [Keccak] in
theorem UInt64.one_le_toNat {x : UInt64} (h : x ≠ 0) : 1 ≤ x.toNat :=
  Nat.one_le_iff_ne_zero.mpr fun h0 => h (UInt64.toNat_inj.mp h0)

/-- **A frame that is about to execute an operation has paid for it.** -/
theorem Frame.Prepared.charged (h : Prepared env (env.jumpTable op) s t) (hs : s.Funded)
    (hcap : env.CapsCalls) : s.Charged env (env.jumpTable op) t := by
  have hcosts := env.costs_jumpTable op
  cases h with
  | constant hdyn hmin hmax hgas =>
    have hpaid := toNat_paid hgas
    refine ⟨?_, fun f hf => ?_, .cons (e := .useGas _ _) hgas _, hs⟩
    · by_cases hhalts : (env.jumpTable op).execute.halts
      · rw [if_pos hhalts]
        omega
      · rw [if_neg hhalts]
        obtain hprice | ⟨-, hprice⟩ := hcosts.resolve_left hhalts
        · have := UInt64.one_le_toNat hprice
          omega
        · rw [hdyn] at hprice
          cases hprice
    · unfold Operation.gasKind at hf
      rw [hdyn] at hf
      cases hf
  | @dynamic g n cost st hdyn hmin hmax hgas hmem hcost hle =>
    have hpaid := toNat_paid hgas
    obtain ⟨hunspent, hcall⟩ :=
      (sat_gasFn hs hcap hdyn (dvd_of_memoryNeeded hmem) _).of_ok hcost
    have hst : st.gas.toNat = (s.paid (env.jumpTable op).constantGas).contract.gas.toNat :=
      congrArg UInt64.toNat hunspent.gas
    have hpaid' := toNat_paid (s := (s.paid (env.jumpTable op).constantGas).putGasSt st) hle
    replace hpaid' : ((((s.paid (env.jumpTable op).constantGas).putGasSt st).paid cost).resized
      n).contract.gas.toNat + cost.toNat = st.gas.toNat := hpaid'
    refine ⟨?_, fun f hf hhalts => ?_, ?_, (hunspent.paid (hs.paid n)).resize⟩
    · by_cases hhalts : (env.jumpTable op).execute.halts
      · rw [if_pos hhalts]
        omega
      · rw [if_neg hhalts]
        obtain hprice | ⟨-, hprice⟩ := hcosts.resolve_left hhalts
        · have := UInt64.one_le_toNat hprice
          omega
        · rw [hdyn] at hprice
          have := UInt64.one_le_toNat ((GasFn.returns_of_costs hprice _).of_ok hcost)
          omega
    · have hop := (env.fits_jumpTable op).mem_of_call hf
      have hprice : (env.jumpTable op).constantGas ≠ 0 := by
        refine (hcosts.resolve_left (by simp [hhalts])).resolve_right fun h => ?_
        have hnone :
            [CALL, CALLCODE, DELEGATECALL, STATICCALL].all (! pricedOps.contains ·) := by decide
        have := List.all_eq_true.mp hnone op hop
        simp [h.1] at this
      have := UInt64.one_le_toNat hprice
      have := hcall f hf
      show _ + _ + st.callGasTemp.toNat + 1 ≤ _
      omega
    · exact ((pays_paid hgas).trace.trans hunspent.trace).trans (.cons (e := .useGas _ _) hle _)

/-- **A frame that pays or fails to pay** has no more gas than before. -/
theorem Frame.pays_prepare (hs : s.Funded) (hcap : env.CapsCalls) :
    Sat (prepare env (env.jumpTable op)) s (fun _ t => s.Pays t)
      (fun f t => s.Pays t ∧ f.Panics) := by
  have hrefl : s.Pays s := refl_of _ s
  refine .bind (.ite (fun _ => hrefl) fun _ => .ite (fun _ => hrefl) fun _ => ?_)
  refine .bind (sat_useGas (fun hgas => ?_) (fun _ => hrefl))
  have hpaid := pays_paid hgas
  cases hdyn : (env.jumpTable op).dynamicGas with
  | none => exact hpaid
  | some g =>
    refine .bind (sat_get.mpr ?_)
    have hstack : (s.paid (env.jumpTable op).constantGas).regs.stack = s.regs.stack := rfl
    rw [hstack]
    cases hmem : (env.jumpTable op).memoryNeeded s.regs.stack with
    | error f =>
      obtain rfl := Operation.finds_memoryNeeded _ hmem
      exact ⟨hpaid, by decide⟩
    | ok n =>
      cases n with
      | none => exact hpaid
      | some n =>
        have hsat := sat_gasFn hs hcap hdyn (dvd_of_memoryNeeded hmem)
          (env.jumpTable op).constantGas
        have hfails : ∀ {st : GasSt}, (s.paid (env.jumpTable op).constantGas).gasSt.Spent st →
            s.Pays ((s.paid (env.jumpTable op).constantGas).putGasSt st) := fun h =>
          ⟨UInt64.le_trans h.gas hpaid.gas, hpaid.trace.trans h.trace⟩
        refine .bind (sat_dynamicCost (fun cost st hcost => ?_)
          (fun _ _ h => hfails (hsat.of_error h).1)
          (fun f _ h => ⟨hfails (hsat.of_error h).1,
            fun hf => (hsat.of_error h).2 (congrArg GasStop.fault hf)⟩))
        have hput := hfails (hsat.of_ok hcost).1.spent
        refine .bind (sat_useGas (fun hle => ?_) (fun _ => hput))
        have hpays := trans_of Frame.Pays hput (pays_paid hle)
        exact ⟨hpays.gas, hpays.trace⟩

end Prepare

/-! ## Frames -/

/-- How many instructions that did not end their frame have been executed,
in all frames. -/
def Evm.executed (e : Evm) : ℕ := e.trace.count .executed

/-- **What a part of a run spends** of the gas it got: what it leaves, and
the instructions it executed, are together no more than that. -/
structure Evm.Spends (g : UInt64) (e : Evm) (left : UInt64) (e' : Evm) : Prop where
  trace : Grows Sound e.trace e'.trace
  gas : left.toNat + e'.executed ≤ g.toNat + e.executed

section Budgets

omit [Keccak]

theorem Event.Charge.sound {v : Event} (h : v.Charge) : v.Sound := by
  cases v with
  | executed => cases h
  | _ => exact h

/-- Gas events are the only ones that could be unsound. -/
theorem Event.charge_of_isGas {v : Event} (h : v.isGas = false) : v.Charge := by
  cases v with
  | useGas | addGas | called | executed => cases h
  | _ => trivial

theorem Grows.count_eq {t t' : List Event} (h : Grows Charge t t') :
    t'.count .executed = t.count .executed := by
  obtain ⟨es, rfl, hes⟩ := h
  have hzero : es.count .executed = 0 := List.count_eq_zero.mpr fun h => hes _ h
  rw [List.count_append, hzero, Nat.zero_add]

theorem Grows.count_le {P : Event → Prop} {t t' : List Event} (h : Grows P t t') :
    t.count .executed ≤ t'.count .executed := by
  obtain ⟨es, rfl, -⟩ := h
  rw [List.count_append]
  exact Nat.le_add_left _ _

namespace Evm

variable {g g' : UInt64} {e e' e'' : Evm}

theorem Spends.of_charge (h : Grows Charge e.trace e'.trace) (hg : g' ≤ g) : e.Spends g g' e' := by
  refine ⟨h.mono fun _ => Charge.sound, ?_⟩
  have hcount : e'.executed = e.executed := h.count_eq
  have := UInt64.le_iff_toNat_le.mp hg
  omega

theorem Spends.after (h : Grows Charge e.trace e'.trace) (h' : e'.Spends g g' e'') :
    e.Spends g g' e'' := by
  refine ⟨(h.mono fun _ => Charge.sound).trans h'.trace, ?_⟩
  have hcount : e'.executed = e.executed := h.count_eq
  exact hcount ▸ h'.gas

theorem Spends.trans {left : UInt64} (h : e.Spends g g' e') (h' : e'.Spends g' left e'') :
    e.Spends g left e'' :=
  ⟨h.trace.trans h'.trace, h'.gas.trans h.gas⟩

theorem Spends.le (h : e.Spends g g' e') : g' ≤ g := by
  have hle : e.executed ≤ e'.executed := h.trace.count_le
  have := h.gas
  exact UInt64.le_iff_toNat_le.mpr (by omega)

end Evm

end Budgets

/-- **The law of what calls spend.** -/
def CallLaw.spending (b : ℕ) : CallLaw where
  idle := Grows Charge
  spends g e := e.Spends g
  stops g f := f = .outOfFuel → b ≤ g.toNat
  refl := .refl
  trans := .trans
  routine {v} hv t := .cons (by cases v <;> first | exact hv | exact hv.elim) t
  of_idle := Evm.Spends.of_charge
  first := Evm.Spends.after
  last := Evm.Spends.trans
  snapshot _ := nofun
  assertion _ := nofun

/-! ## Instructions -/

section Instructions

/-- A change of the registers alone. -/
structure Frame.Still (s t : Frame) : Prop where
  evm : t.evm = s.evm
  contract : t.contract = s.contract

/-- **What a frame spent** of its gas: what is left, the instructions that
were executed, and `k` that are about to be recorded. -/
structure Frame.Spent (k : ℕ) (s t : Frame) : Prop where
  trace : Grows Sound s.evm.trace t.evm.trace
  gas : t.contract.gas.toNat + t.evm.executed + k ≤ s.contract.gas.toNat + s.evm.executed

/-- **A frame that stopped** has spent no more than its gas, and ran out
of fuel only if it had more than `b`. -/
structure Frame.Stopped (b : ℕ) (s : Frame) (f : Fault) (t : Frame) : Prop where
  trace : Grows Sound s.evm.trace t.evm.trace
  gas : t.evm.executed ≤ s.contract.gas.toNat + s.evm.executed
  fuel : f = .outOfFuel → b + 1 ≤ s.contract.gas.toNat

/-- A frame that got gas back. -/
structure Frame.Regains (amount : UInt64) (s t : Frame) : Prop where
  gas : t.contract.gas = s.contract.gas + amount
  trace : t.evm.trace = .addGas s.contract.gas amount :: s.evm.trace

namespace Frame

omit [Keccak]

variable {b k : ℕ} {s t u : Frame}

instance : IsPreorder Frame Still where
  refl _ := ⟨rfl, rfl⟩
  trans _ _ _ h h' := ⟨h'.evm.trans h.evm, h'.contract.trans h.contract⟩

/-- The footprint of the registers alone. -/
def stillFootprint : Footprint Fault Frame where
  rel := Still
  stops := Fault.Panics
  finds _ := True
  height := height
  refl := refl_of Still
  trans := trans_of Still

theorem onRegs_still : OnRegs stillFootprint :=
  ⟨fun _ => rfl, fun _ _ => rfl, fun _ _ _ => ⟨rfl, rfl⟩, fun _ h => h.1, fun _ _ => trivial⟩

theorem still_push (w : Word) : Tame Still Fault.Panics (onRegs (push w)) :=
  ((moves_push 0 w).zoom onRegs_still).tame

/-- A frame that stopped for a reason of its own. -/
theorem Stopped.of_panic {f : Fault} (hf : f.Panics) (htrace : Grows Charge s.evm.trace
    t.evm.trace) : s.Stopped b f t := by
  refine ⟨htrace.mono fun _ => Charge.sound, ?_, fun h => absurd h hf⟩
  have hcount : t.evm.executed = s.evm.executed := htrace.count_eq
  omega

theorem Spent.of_charge (htrace : Grows Charge s.evm.trace t.evm.trace)
    (hgas : t.contract.gas.toNat + k ≤ s.contract.gas.toNat) : s.Spent k t := by
  refine ⟨htrace.mono fun _ => Charge.sound, ?_⟩
  have hcount : t.evm.executed = s.evm.executed := htrace.count_eq
  omega

theorem Spent.le (h : s.Spent k t) : t.contract.gas.toNat + k ≤ s.contract.gas.toNat := by
  have hle : s.evm.executed ≤ t.evm.executed := h.trace.count_le
  have := h.gas
  omega

/-- **Running another frame** with part of the gas, and getting back what
it left. -/
theorem sat_child {α : Type} {m : EStateM Fault Evm α} {left : α → UInt64} {g : UInt64}
    {cont : α → EStateM Fault Frame Outcome} (hm : (CallLaw.spending b).Budget g left m)
    (htrace : Grows Charge s.evm.trace t.evm.trace)
    (hgas : t.contract.gas.toNat + g.toNat + 1 ≤ s.contract.gas.toNat)
    (hcont : ∀ a v, Sat (cont a) v (fun _ u => v.Regains (left a) u)
      (fun f u => v.evm.trace = u.evm.trace ∧ f.Panics)) :
    Sat (onEvm m >>= cont) t (fun _ u => s.Spent 1 u) (fun f u => s.Stopped b f u) := by
  have hsound := htrace.mono fun _ => Charge.sound
  have hcount : t.evm.executed = s.evm.executed := htrace.count_eq
  refine .bind (sat_zoom.mpr ((hm t.evm).mono (fun a e h => ?_) (fun f e h => ?_)))
  · have hspent := h.gas
    have hleft := UInt64.le_iff_toNat_le.mp h.le
    have hlt : t.contract.gas.toNat + (left a).toNat < 2 ^ 64 := by
      have := s.contract.gas.toNat_lt
      omega
    refine (hcont a _).mono (fun _ u hu => ?_) (fun f u hu => ?_)
    · have hback : u.contract.gas.toNat = t.contract.gas.toNat + (left a).toNat := by
        rw [hu.gas, UInt64.toNat_add]
        exact Nat.mod_eq_of_lt hlt
      have hadd : u.evm.executed = e.executed := by
        show u.evm.trace.count _ = _
        rw [hu.trace]
        exact Grows.count_eq (.cons (e := .addGas _ _) hlt _)
      refine ⟨(hsound.trans h.trace).trans (hu.trace ▸ .cons (e := .addGas _ _) hlt _), ?_⟩
      omega
    · have hsame : u.evm.executed = e.executed := congrArg (List.count _) hu.1.symm
      refine ⟨hu.1 ▸ hsound.trans h.trace, ?_, fun hf => absurd hf hu.2⟩
      omega
  · have hspent := h.1.gas
    rw [UInt64.toNat_zero] at hspent
    refine ⟨hsound.trans h.1.trace, ?_, fun hf => ?_⟩
    · show e.executed ≤ _
      omega
    · have := h.2 hf
      omega

theorem regains_concludeCall (retOffset retSize : Word) (r : CallResult) (s : Frame) :
    Sat (concludeCall retOffset retSize r) s (fun _ u => s.Regains r.2.1 u)
      (fun f u => s.evm.trace = u.evm.trace ∧ f.Panics) := by
  refine (still_push _).sat_bind (refl_of _ s) (fun _ t ht => ?_)
    (fun f t ht hf => ⟨congrArg Evm.trace ht.evm.symm, hf⟩)
  have hstore : Tame Still Fault.Panics (onRegs (store
      fun m => m.set retOffset.uint64 retSize.uint64 r.1)) :=
    ((moves_store 0 (stops_slice trivial) fun _ _ => Memory.stays_set).zoom onRegs_still).tame
  refine Tame.sat_bind (.ite hstore (.pure _)) ht
    (fun _ u hu => ?_) (fun f u hu hf => ⟨congrArg Evm.trace hu.evm.symm, hf⟩)
  exact ⟨by rw [← hu.contract], by rw [← hu.contract, ← hu.evm]⟩

theorem regains_concludeCreate (w : Word) (r : Evm.CreateResult) (s : Frame) :
    Sat (concludeCreate w r) s (fun _ u => s.Regains r.2.2.1 u)
      (fun f u => s.evm.trace = u.evm.trace ∧ f.Panics) := by
  refine (still_push _).sat_bind (refl_of _ s) (fun _ t ht => ?_)
    (fun f t ht hf => ⟨congrArg Evm.trace ht.evm.symm, hf⟩)
  have hback : s.Regains r.2.2.1 { t with
      contract := { t.contract with gas := t.contract.gas + r.2.2.1 }
      evm := { t.evm with trace := .addGas t.contract.gas r.2.2.1 :: t.evm.trace } } :=
    ⟨by rw [← ht.contract], by rw [← ht.contract, ← ht.evm]⟩
  exact .bind (.ite (fun _ => ⟨hback.gas, hback.trace⟩) fun _ => ⟨hback.gas, hback.trace⟩)

theorem still_callOperands (withValue : Bool) :
    Tame Still Fault.Panics (callOperands withValue) :=
  (moves_callOperands onRegs_still withValue).tame

theorem still_createOperands (salted : Bool) :
    Tame Still Fault.Panics (createOperands salted) :=
  (moves_createOperands onRegs_still salted).tame

/-- The value of a call is the third word of the stack. -/
theorem value_callOperands (s : Frame) :
    Sat (callOperands true) s (fun p _ => s.regs.stack.getD 2 0 = p.2.1) (fun _ _ => True) := by
  refine sat_zoom.mpr (sat_pop₃ (fun _ _ value ws h => ?_) fun _ => trivial)
  have hvalue : s.regs.stack.getD 2 0 = value := by
    rw [h]
    rfl
  exact Returns.bind
    (P := fun p : Address × Word × Bytes × Word × Word => s.regs.stack.getD 2 0 = p.2.1)
    (fun _ => .bind fun _ => .bind fun _ => .bind fun _ => .bind fun _ => .pure hvalue) _

/-- The stipend is less than what the transfer of the value costs. -/
theorem toNat_withStipend_le (gas : UInt64) (value : Word)
    (h : gas.toNat + (CallGasFn.transferGas value).toNat < 2 ^ 64) :
    (withStipend gas value).toNat ≤ gas.toNat + (CallGasFn.transferGas value).toNat := by
  unfold withStipend CallGasFn.transferGas at *
  by_cases hv : value = 0
  · rw [if_pos hv]
    exact Nat.le_add_right _ _
  · rw [if_neg hv] at h ⊢
    rw [if_neg hv]
    have hstipend : Params.callStipend.toNat ≤ Params.callValueTransferGas.toNat := by decide
    rw [UInt64.toNat_add, Nat.mod_eq_of_lt (by omega)]
    omega

end Frame

variable {b : ℕ} {env : Env} {run : Runner} {op : UInt8} {s t : Frame}

/-- **A call or creation** gives its caller back no more than it took. -/
theorem CallFn.spends_exec (hrun : run.Within (.spending b)) {f : CallFn}
    (hf : (env.jumpTable op).execute = .call f) (hc : s.Charged env (env.jumpTable op) t)
    (hstack : t.regs.stack = s.regs.stack) :
    Sat (f.exec env run) t (fun _ u => s.Spent 1 u) (fun x u => s.Stopped b x u) := by
  have hkind : (env.jumpTable op).gasKind = (ExecFn.call f).kind :=
    hf ▸ (env.fits_jumpTable op).gasKind_eq (by rw [hf]; nofun)
  have hhalts : (env.jumpTable op).execute.halts = false := by
    rw [hf]
    rfl
  have hgas : t.contract.gas.toNat + 1 ≤ s.contract.gas.toNat := by
    have := hc.gas
    rwa [hhalts] at this
  have hlt := s.contract.gas.toNat_lt
  have hopen : ∀ {v : Frame}, t.Still v → Grows Charge s.evm.trace v.evm.trace :=
    fun hv => hv.evm ▸ hc.trace
  have hpanic : ∀ (x : Fault) (v : Frame), t.Still v → x.Panics → s.Stopped b x v :=
    fun _ _ hv hx => .of_panic hx (hopen hv)
  have hfails : ∀ {v : Frame}, t.Still v → s.Spent 1 v :=
    fun hv => .of_charge (hopen hv) (hv.contract ▸ hgas)
  -- what the price of the instruction leaves for the callee
  have hsent : ∀ {g : CallGasFn}, (ExecFn.call f).kind = .call g → t.contract.gas.toNat
      + g.valueGas (s.gasScope env) + t.evm.callGasTemp.toNat + 1 ≤ s.contract.gas.toNat :=
    fun hg => hc.call _ (hkind.trans hg) hhalts
  have hvalued : ∀ {v : Frame}, t.Still v → t.contract.gas.toNat
      + (CallGasFn.transferGas (s.regs.stack.getD 2 0)).toNat + t.evm.callGasTemp.toNat + 1
        ≤ s.contract.gas.toNat → ∀ value, t.regs.stack.getD 2 0 = value →
      v.contract.gas.toNat + (withStipend v.evm.callGasTemp value).toNat + 1
        ≤ s.contract.gas.toNat := by
    intro v hv hle value hvalue
    rw [hv.contract, hv.evm, ← hvalue, hstack]
    have := toNat_withStipend_le t.evm.callGasTemp (s.regs.stack.getD 2 0) (by omega)
    omega
  have hunvalued : ∀ {v : Frame} {g : CallGasFn}, t.Still v → (ExecFn.call f).kind = .call g →
      v.contract.gas.toNat + v.evm.callGasTemp.toNat + 1 ≤ s.contract.gas.toNat := by
    intro v g hv hg
    rw [hv.contract, hv.evm]
    have := hsent hg
    omega
  have hcreate : ∀ {v : Frame} {gas : UInt64} {m : Contract → EStateM Fault Evm Evm.CreateResult}
      (w : Evm.CreateResult → Word), t.Still v → gas ≤ v.contract.gas →
      (∀ c, (CallLaw.spending b).Budget gas (fun r => r.2.2.1) (m c)) →
      Sat (do
        let _ ← useGas gas
        let s ← get
        let r ← onEvm (m s.contract)
        concludeCreate (w r) r) v (fun _ u => s.Spent 1 u) (fun x u => s.Stopped b x u) := by
    intro v gas m w hv hle hm
    refine .bind (sat_useGas (fun _ => .bind (sat_get.mpr ?_)) fun hlt => ?_)
    · refine sat_child (hm _) ((hopen hv).trans (pays_paid hle).trace) ?_
        (fun _ _ => regains_concludeCreate _ _ _)
      have := toNat_paid hle
      rw [hv.contract] at this
      omega
    · exact absurd hle (UInt64.not_le.mpr hlt)
  have hsub : ∀ x : UInt64, x - x / 64 ≤ x := fun x =>
    UInt64.sub_le (UInt64.le_iff_toNat_le.mpr (by rw [UInt64.toNat_div]; exact Nat.div_le_self _ _))
  cases f with
  | opCreate =>
    refine .bind (sat_get.mpr (.ite (fun _ => hfails (refl_of _ t)) fun _ => ?_))
    refine (still_createOperands false).sat_bind (refl_of _ t) (fun p v hv => ?_) hpanic
    refine .bind (sat_get.mpr (hcreate _ hv ?_ fun c => Evm.budget_create hrun _ _ _ _))
    split_ifs
    · exact hsub _
    · exact UInt64.le_refl _
  | opCreate2 =>
    refine .bind (sat_get.mpr (.ite (fun _ => hfails (refl_of _ t)) fun _ => ?_))
    refine (still_createOperands true).sat_bind (refl_of _ t) (fun p v hv => ?_) hpanic
    exact .bind (sat_get.mpr (hcreate _ hv (hsub _) fun c => Evm.budget_create2 hrun _ _ _ _ _))
  | opCall =>
    refine .bind (((still_callOperands true t).and (value_callOperands t)).mono
      (fun p v hv => ?_) (fun x v hx => hpanic x v hx.1.1 hx.1.2))
    refine .bind (sat_get.mpr (.ite (fun _ => hfails hv.1) fun _ => ?_))
    exact sat_child (Evm.budget_call hrun _ _ _ _ _) (hopen hv.1)
      (hvalued hv.1 (hsent rfl) _ hv.2) (fun _ _ => regains_concludeCall _ _ _ _)
  | opCallCode =>
    refine .bind (((still_callOperands true t).and (value_callOperands t)).mono
      (fun p v hv => .bind (sat_get.mpr ?_)) (fun x v hx => hpanic x v hx.1.1 hx.1.2))
    exact sat_child (Evm.budget_callCode hrun _ _ _ _ _) (hopen hv.1)
      (hvalued hv.1 (hsent rfl) _ hv.2) (fun _ _ => regains_concludeCall _ _ _ _)
  | opDelegateCall =>
    refine (still_callOperands false).sat_bind (refl_of _ t)
      (fun p v hv => .bind (sat_get.mpr ?_)) hpanic
    exact sat_child (Evm.budget_delegateCall hrun _ _ _ _) (hopen hv) (hunvalued hv rfl)
      (fun _ _ => regains_concludeCall _ _ _ _)
  | opStaticCall =>
    refine (still_callOperands false).sat_bind (refl_of _ t)
      (fun p v hv => .bind (sat_get.mpr ?_)) hpanic
    exact sat_child (Evm.budget_staticCall hrun _ _ _ _) (hopen hv) (hunvalued hv rfl)
      (fun _ _ => regains_concludeCall _ _ _ _)

omit [Keccak] in
theorem Frame.Funded.stays {u : Frame} (h : t.Funded) (hm : t.regs.memory.Stays u.regs.memory) :
    u.Funded := by
  obtain ⟨w, hw, hle, hlt⟩ := h
  refine ⟨w, hm.lastGasCost ▸ hw, ?_, hlt⟩
  rwa [hm.length]

/-- **What an instruction spends**, once it is paid for. -/
theorem ExecFn.spends_exec (hrun : run.Within (.spending b))
    (hc : s.Charged env (env.jumpTable op) t) (hstack : t.regs.stack = s.regs.stack) :
    Sat ((env.jumpTable op).execute.exec env run) t
      (fun out u => u.Funded ∧ s.Spent (if out.2 = none then 1 else 0) u)
      (fun x u => s.Stopped b x u) := by
  cases hcall : (env.jumpTable op).execute.isCall with
  | false =>
    have hout : Returns (fun out => (env.jumpTable op).execute.halts = true → out.2 ≠ none)
        ((env.jumpTable op).execute.exec env run) := by
      by_cases hh : (env.jumpTable op).execute.halts
      · exact fun v => (returns_of_halts hh v).mono (fun _ _ h _ => h)
      · exact fun v => .of_forall (fun _ _ h => absurd h hh) (fun _ _ => trivial)
    have hgrow : ∀ {u : Frame}, t.Local u → Grows Charge s.evm.trace u.evm.trace :=
      fun h => hc.trace.trans (h.trace.mono fun _ => charge_of_isGas)
    refine ((local_exec hcall t).and (hout t)).mono (fun out u h => ?_)
      (fun x u h => .of_panic h.1.2 (hgrow h.1.1))
    refine ⟨hc.funded.stays h.1.memory, .of_charge (hgrow h.1) ?_⟩
    have hgas := hc.gas
    rw [h.1.gas]
    by_cases hnone : out.2 = none
    · rw [if_pos hnone]
      rwa [if_neg fun hh => h.2 hh hnone] at hgas
    · rw [if_neg hnone]
      exact (Nat.le_add_right _ _).trans hgas
  | true =>
    obtain ⟨f, hf⟩ : ∃ f, (env.jumpTable op).execute = .call f := by
      cases hx : (env.jumpTable op).execute with
      | call f => exact ⟨f, rfl⟩
      | _ =>
        rw [hx] at hcall
        cases hcall
    have hspends := CallFn.spends_exec hrun hf hc hstack
    rw [hf]
    refine (hspends.and (works_exec (x := .call f) rfl t)).mono (fun out u h => ?_)
      (fun x u h => h.1)
    refine ⟨hc.funded.stays h.2.regs.memory, h.1.trace, le_trans ?_ h.1.gas⟩
    refine Nat.add_le_add_left ?_ _
    split_ifs
    · exact le_refl _
    · exact Nat.zero_le _

/-! ## Runs -/

omit [Keccak] in
/-- Recording a call is sound: its caller has no more gas than before. -/
theorem Frame.spent_recordCall {k : ℕ} (h : s.Spent k t) (f : ExecFn) :
    Sat (recordCall f s.contract.gas) t
      (fun _ u => s.Spent k u ∧ u.contract = t.contract ∧ u.regs = t.regs) (fun _ _ => False) := by
  have hle : t.contract.gas ≤ s.contract.gas :=
    UInt64.le_iff_toNat_le.mpr ((Nat.le_add_right _ _).trans h.le)
  have hcount : ({ t.evm with trace := .called s.contract.gas t.contract.gas :: t.evm.trace } :
      Evm).executed = t.evm.executed := Grows.count_eq (.cons (e := .called _ _) hle _)
  unfold recordCall
  split
  · exact ⟨⟨h.trace.trans (.cons (e := .called _ _) hle _), hcount ▸ h.gas⟩, rfl, rfl⟩
  · exact ⟨h, rfl, rfl⟩

omit [Keccak] in
/-- Recording an instruction takes up what was put aside for it. -/
theorem Frame.spent_recordExecuted {err : Option VmErr}
    (h : s.Spent (if err = none then 1 else 0) t) :
    Sat (recordExecuted err) t
      (fun _ u => s.Spent 0 u ∧ u.contract = t.contract ∧ u.regs = t.regs) (fun _ _ => False) := by
  cases err with
  | none =>
    have hgas := h.gas
    refine ⟨⟨h.trace.trans (.cons (e := .executed) trivial _), ?_⟩, rfl, rfl⟩
    show t.contract.gas.toNat + List.count .executed (.executed :: t.evm.trace) ≤ _
    rw [List.count_cons_self]
    exact (Nat.add_assoc _ _ _).ge.trans hgas
  | some _ => exact ⟨⟨h.trace, h.gas⟩, rfl, rfl⟩

/-- **What one turn of the loop spends**: something at least, if the frame
goes on. -/
theorem Frame.spends_step (hcap : env.CapsCalls) (hrun : run.Within (.spending b)) (hs : s.Funded) :
    Sat (step env run) s
      (fun out t => s.Spent 0 t
        ∧ (out.2 = none → t.Funded ∧ t.contract.gas.toNat < s.contract.gas.toNat))
      (fun x t => s.Stopped b x t) := by
  refine .bind (sat_get.mpr (.bind (((sat_prepare s).and (pays_prepare hs hcap)).mono
    (fun err t ht => ?_) (fun x t hx => .of_panic hx.2.2 hx.2.1.trace))))
  cases err with
  | some err =>
    refine ⟨.of_charge ht.2.trace ?_, nofun⟩
    exact UInt64.le_iff_toNat_le.mp ht.2.gas
  | none =>
    have hprep := ht.1 rfl
    have hc := hprep.charged hs hcap
    refine (ExecFn.spends_exec hrun hc hprep.stack_eq).next fun out u hu => ?_
    refine (spent_recordCall hu.2 _).next fun _ v hv => ?_
    refine (spent_recordExecuted hv.1).next fun _ w hw => ?_
    refine ⟨hw.1, fun hnone => ?_⟩
    have hle := hu.2.le
    rw [if_pos hnone] at hle
    rw [Frame.Funded, hw.2.1, hw.2.2, hv.2.1, hv.2.2]
    exact ⟨hu.1, hle⟩

/-- **What a frame spends**: it runs out of fuel only if there is as much
gas as fuel. -/
theorem Frame.spends_loop (hcap : env.CapsCalls) (fuel : ℕ) (hs : s.Funded)
    (hrun : ∀ n < fuel, (Evm.runWith (loop env n)).Within (.spending n)) :
    Sat (loop env fuel) s (fun _ t => s.Spent 0 t)
      (fun x t => Grows Sound s.evm.trace t.evm.trace
        ∧ t.evm.executed ≤ s.contract.gas.toNat + s.evm.executed
        ∧ (x = .outOfFuel → fuel ≤ s.contract.gas.toNat)) := by
  induction fuel generalizing s with
  | zero => exact ⟨.refl _, Nat.le_add_left _ _, fun _ => Nat.zero_le _⟩
  | succ fuel ih =>
    refine .bind ((spends_step hcap (hrun fuel (Nat.lt_succ_self fuel)) hs).mono
      (fun out t ht => ?_) (fun x t hx => ⟨hx.trace, hx.gas, hx.fuel⟩))
    obtain ⟨res, err⟩ := out
    cases err with
    | none =>
      obtain ⟨hfunded, hlt⟩ := ht.2 rfl
      have hspent := ht.1.gas
      refine .bind (sat_zoom.mpr (sat_modify.mpr ?_))
      refine (ih (s := { t with regs := { t.regs with pc := t.regs.pc + 1 } }) hfunded
        (fun n hn => hrun n (Nat.lt_succ_of_lt hn))).mono (fun _ u hu => ?_) (fun x u hu => ?_)
      · exact ⟨ht.1.trace.trans hu.trace, hu.gas.trans hspent⟩
      · refine ⟨ht.1.trace.trans hu.1, hu.2.1.trans hspent, fun hx => ?_⟩
        have := hu.2.2 hx
        exact Nat.succ_le_of_lt (lt_of_le_of_lt this hlt)
    | some err =>
      cases err with
      | _ => exact ht.1

/-- **Every frame spends what it gets**, and one turn more than it has gas
is all the fuel it needs. -/
theorem Evm.within_run (hcap : env.CapsCalls) (fuel : ℕ) :
    (Evm.run env fuel).Within (.spending fuel) := by
  induction fuel using Nat.strong_induction_on with
  | h fuel ih =>
    intro c input readOnly
    refine .first .get fun _ => .first (fun e => .refl e.trace) fun _ =>
      have hloop : (CallLaw.spending fuel).Budget c.gas (fun r : Outcome × Contract => r.2.gas) _ :=
        .ite (.pure (UInt64.le_refl _)) fun e => ?_
      hloop.last (fun _ => .bind (fun e => .refl e.trace) fun _ => .pure _)
        (fun _ => .bind fun _ => .pure (UInt64.le_refl _))
    refine sat_inFrame.mpr ((Frame.spends_loop hcap fuel ⟨0, rfl, Nat.zero_le _, by decide⟩ ih).mono
      (fun out t ht => ⟨ht.trace, ht.gas⟩) (fun x t hx => ⟨⟨hx.1, ?_⟩, hx.2.2⟩))
    rw [UInt64.toNat_zero, Nat.zero_add]
    exact hx.2.1

end Instructions

/-! ## Whole messages -/

namespace Evm

/-- The gas a message comes with. -/
def Method.gas : Method → UInt64
  | call _ _ gas _ | callCode _ _ gas _ | delegateCall _ _ gas | staticCall _ _ gas
  | create _ gas _ | create2 _ gas _ _ => gas

/-- Calls a method, and returns the gas that is left over. -/
def Method.leftOver (env : Env) (fuel : ℕ) (caller : ContractRef) :
    Method → EStateM Fault Evm UInt64
  | call addr input gas value => do
    pure (← Evm.call env (run env fuel) caller addr input gas value).2.1
  | callCode addr input gas value => do
    pure (← Evm.callCode env (run env fuel) caller addr input gas value).2.1
  | delegateCall addr input gas => do
    pure (← Evm.delegateCall env (run env fuel) caller addr input gas).2.1
  | staticCall addr input gas => do
    pure (← Evm.staticCall env (run env fuel) caller addr input gas).2.1
  | create code gas value => do
    pure (← Evm.create env (run env fuel) caller code gas value).2.2.1
  | create2 code gas value salt => do
    pure (← Evm.create2 env (run env fuel) caller code gas value salt).2.2.1

variable {env : Env}

/-- **What a message spends.** -/
theorem Method.budget_leftOver (hcap : env.CapsCalls) (fuel : ℕ) (caller : ContractRef)
    (m : Method) : (CallLaw.spending fuel).Budget m.gas id (m.leftOver env fuel caller) := by
  have hrun := within_run hcap fuel
  have hleft : ∀ {α : Type} {g : UInt64} {left : α → UInt64} {p : EStateM Fault Evm α},
      (CallLaw.spending fuel).Budget g left p →
      (CallLaw.spending fuel).Budget g id (do pure (left (← p))) := fun hp =>
    hp.last (fun _ => .pure _) fun _ => .pure (UInt64.le_refl _)
  cases m with
  | call => exact hleft (budget_call hrun _ _ _ _ _)
  | callCode => exact hleft (budget_callCode hrun _ _ _ _ _)
  | delegateCall => exact hleft (budget_delegateCall hrun _ _ _ _)
  | staticCall => exact hleft (budget_staticCall hrun _ _ _ _)
  | create => exact hleft (budget_create hrun _ _ _ _)
  | create2 => exact hleft (budget_create2 hrun _ _ _ _ _)

/-- **Gas is never created**: whatever the state and the bytecode, a
message returns no more gas than it came with, every call and creation on
the way leaves its caller no more gas than it had before the instruction,
and no addition to the gas of a contract or subtraction from it wraps
around. -/
theorem Method.gas_not_created (hcap : env.CapsCalls) (fuel : ℕ) (caller : ContractRef)
    (m : Method) (e : Evm) :
    Sat (m.leftOver env fuel caller) e
      (fun left e' => left ≤ m.gas ∧ Grows Sound e.trace e'.trace)
      (fun _ e' => Grows Sound e.trace e'.trace) :=
  (m.budget_leftOver hcap fuel caller e).mono (fun _ _ h => ⟨h.le, h.trace⟩)
    (fun _ _ h => h.1.trace)

omit [Keccak] in
/-- A call that sends value, and the stipend with it. -/
theorem Method.gas_not_created_stipend :
    letI := Keccak.digests
    let code : Bytes := [0x60, 0, 0x60, 0, 0x60, 0, 0x60, 0, 0x60, 1, 0x61, 0x20, 0x00,
      0x61, 0x10, 0x00, 0xf1, 0x00]
    let tx : StorageTx := .single 0x1000
      { balance := some 7, codeHash := Hash.bytes (keccak256Hash code) } code
    ∃ left e', (Method.call 0x1000 [] 100000 0).leftOver {} 20 (.accountRef 0x3000)
        { statedb := StateDB.newStateDB tx } = .ok left e'
      ∧ .called 99979 68239 ∈ e'.trace ∧ left ≤ 100000 ∧ Grows Sound [] e'.trace := by
  let _ := Keccak.digests
  intro code tx
  obtain ⟨left, e', hrun, hcalled⟩ : ∃ left e',
      (Method.call 0x1000 [] 100000 0).leftOver {} 20 (.accountRef 0x3000)
        { statedb := StateDB.newStateDB tx } = .ok left e' ∧ .called 99979 68239 ∈ e'.trace :=
    exists_of_sat (by decide +kernel)
  have h := (@Method.gas_not_created _ {} (by decide) 20 (.accountRef 0x3000)
    (.call 0x1000 [] 100000 0) { statedb := StateDB.newStateDB tx }).of_ok hrun
  exact ⟨left, e', hrun, hcalled, h⟩

/-- **Runs end for want of gas**: whatever the state and the bytecode, one
turn more than there is gas is fuel enough for a message, abort flag or
not, and all its frames together execute no more instructions that do not
end their frame than it has gas. -/
theorem Method.terminates (hcap : env.CapsCalls) (caller : ContractRef) (m : Method) (e : Evm)
    {fuel : ℕ} (hfuel : m.gas.toNat < fuel) :
    Sat (m.leftOver env fuel caller) e (fun _ e' => e'.executed ≤ m.gas.toNat + e.executed)
      (fun f e' => f ≠ .outOfFuel ∧ e'.executed ≤ m.gas.toNat + e.executed) := by
  refine (m.budget_leftOver hcap fuel caller e).mono (fun _ _ h => ?_) (fun f _ h => ⟨?_, ?_⟩)
  · exact (Nat.le_add_left _ _).trans h.gas
  · exact fun hf => absurd (h.2 hf) (Nat.not_le.mpr hfuel)
  · exact (Nat.le_add_left _ _).trans h.1.gas

omit [Keccak] in
/-- A loop without end. -/
theorem Method.terminates_loop :
    letI := Keccak.digests
    let code : Bytes := [0x5b, 0x60, 0x00, 0x56]
    let tx : StorageTx := .single 0x1000 { codeHash := Hash.bytes (keccak256Hash code) } code
    ∃ left e', (Method.call 0x1000 [] 50 0).leftOver {} 51 (.accountRef 0x3000)
        { statedb := StateDB.newStateDB tx } = .ok left e'
      ∧ 0 < e'.executed ∧ e'.executed ≤ 50 := by
  let _ := Keccak.digests
  intro code tx
  obtain ⟨left, e', hrun, hpos⟩ : ∃ left e',
      (Method.call 0x1000 [] 50 0).leftOver {} 51 (.accountRef 0x3000)
        { statedb := StateDB.newStateDB tx } = .ok left e' ∧ 0 < e'.executed :=
    exists_of_sat (by decide +kernel)
  have h := (@Method.terminates _ {} (by decide) (.accountRef 0x3000)
    (.call 0x1000 [] 50 0) { statedb := StateDB.newStateDB tx } 51 (by decide)).of_ok hrun
  exact ⟨left, e', hrun, hpos, h⟩

end Evm
