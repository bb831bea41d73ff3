import CardinalEvm.MemorySafety
import CardinalEvm.Spending

/-!
# The price of the memory does not depend on the path

The memory of a frame is paid for as it grows: each time the difference
between the price of all its words and what was paid before. So what has
been paid in all is the price of the words there are, however the memory
came to have them.

This rests on `lastGasCost` being that price whenever an instruction
begins. A gas function writes it before the memory has grown; the loop
resizes the memory once the instruction is paid for, to the very size
that was priced. If it cannot be paid for, the frame ends.
-/

variable [Keccak]

/-! ## Gas functions and the record of what was paid -/

/-- What was paid for the memory is what it was. -/
def GasSt.SameFee (t t' : GasSt) : Prop := t'.lastGasCost = t.lastGasCost

instance : IsPreorder GasSt GasSt.SameFee where
  refl _ := rfl
  trans _ _ _ h h' := h'.trans h

section Fee

omit [Keccak]

variable {α β : Type} {s : GasScope} {n : UInt64}

/-- **The memory is priced once**: what the record holds afterwards is what
`memoryGasCost` leaves there. -/
def PricesOnce (s : GasScope) (n : UInt64) (m : GasM α) : Prop :=
  ∀ t, Sat m t
    (fun _ t' => ∃ fee u, memoryGasCost s n t = .ok fee u ∧ t'.lastGasCost = u.lastGasCost)
    (fun _ _ => True)

/-- `memoryGasCost` looks at nothing but the memory. -/
theorem memoryGasCost_congr {t t' u : GasSt} {fee : UInt64}
    (h : t'.lastGasCost = t.lastGasCost) (hok : memoryGasCost s n t = .ok fee u) :
    ∃ u', memoryGasCost s n t' = .ok fee u' ∧ u'.lastGasCost = u.lastGasCost := by
  unfold memoryGasCost at hok ⊢
  dsimp only at hok ⊢
  split_ifs at hok ⊢
  · cases hok
    exact ⟨_, rfl, h⟩
  · cases hok
  · cases hok
    refine ⟨{ t' with lastGasCost := totalFee (toWordSize n) }, ?_, rfl⟩
    show EStateM.Result.ok _ _ = _
    rw [h]
  · cases hok
    exact ⟨_, rfl, h⟩

namespace PricesOnce

theorem memory : PricesOnce s n (memoryGasCost s n) := by
  intro t
  cases h : memoryGasCost s n t with
  | ok fee u => exact .returns h ⟨fee, u, rfl, rfl⟩
  | error e u => exact .stops h trivial

theorem bind {m : GasM α} {f : α → GasM β} (hm : PricesOnce s n m)
    (hf : ∀ a, Keeps GasSt.SameFee (f a)) : PricesOnce s n (m >>= f) := by
  refine fun t => (hm t).next fun a u h => ?_
  obtain ⟨fee, v, hv, hu⟩ := h
  exact (hf a u).mono (fun _ w hw => ⟨fee, v, hv, hw.trans hu⟩)

theorem after {m : GasM α} {f : α → GasM β} (hm : Keeps GasSt.SameFee m)
    (hf : ∀ a, PricesOnce s n (f a)) : PricesOnce s n (m >>= f) := by
  refine fun t => (hm t).next fun a u h => ?_
  refine (hf a u).mono (fun _ w hw => ?_)
  obtain ⟨fee, v, hv, hw⟩ := hw
  obtain ⟨v', hv', hsame⟩ := memoryGasCost_congr h.symm hv
  exact ⟨fee, v', hv', hw.trans hsame.symm⟩

end PricesOnce

/-! ### What leaves the record alone -/

theorem sameFee_attempt {e : GasStop} {f : GasSt → Option (α × GasSt)}
    (h : ∀ t a t', f t = some (a, t') → t.SameFee t') : Keeps GasSt.SameFee (attempt e f) :=
  fun t => sat_attempt (fun a t' hf => h t a t' hf) fun _ => rfl

theorem sameFee_map {e : GasStop} (f : GasSt → Option α) :
    Keeps GasSt.SameFee (attempt e fun t => (f t).map fun a => (a, t)) := by
  refine sameFee_attempt fun t a t' h => ?_
  obtain ⟨_, -, h⟩ := Option.map_eq_some_iff.mp h
  cases h
  rfl

theorem sameFee_addSlot (a : Address) (slot : Hash) :
    Keeps GasSt.SameFee (GasM.addSlot a slot) := by
  refine sameFee_attempt fun t _ t' h => ?_
  obtain ⟨_, -, h⟩ := Option.map_eq_some_iff.mp h
  cases h
  rfl

theorem sameFee_useGas (amount : UInt64) : Keeps GasSt.SameFee (GasM.useGas amount) := by
  intro t
  unfold GasM.useGas
  rw [sat_modifyGet]
  split_ifs <;> rfl

end Fee

/-- A program that prices the memory once, or one that leaves the record
alone. -/
def Prices (s : GasScope) (n : UInt64) : Bool → (α : Type) → GasM α → Prop
  | true, _, m => PricesOnce s n m
  | false, _, m => Keeps GasSt.SameFee m

/-- **A gas function that prices the memory prices it once**, and the
others leave the record alone. -/
theorem law_prices (s : GasScope) (n : UInt64) (depth : ℕ) :
    GasLaw s n depth (fun _ => True) (Prices s n) where
  pure := Keeps.pure
  throw _ := Keeps.throw _
  canary := Keeps.throw _
  bind {_ _ b} _ _ hm hf := by
    cases b with
    | false => exact Keeps.bind hm hf
    | true => exact PricesOnce.after hm hf
  after := PricesOnce.bind
  get := Keeps.get
  back _ := sameFee_map _
  checked _ := sameFee_map _
  memory := PricesOnce.memory
  read _ _ _ _ := rfl
  slotInAccessList _ _ := sameFee_map _
  addAddress _ _ := rfl
  addSlot := sameFee_addSlot
  addRefund _ _ _ := rfl
  subRefund _ _ _ := rfl
  useGas _ := sameFee_useGas
  returnGas _ _ _ := rfl
  callGasTemp _ _ _ := rfl

/-! ## The price of a size -/

/-- **A memory that is paid for**: it has whole words, no more than can be
priced, and what was paid is their price. -/
structure Memory.Settled (m : Memory) : Prop where
  words : 32 ∣ m.store.length
  le : m.store.length ≤ 0x1FFFFFFFE0
  paid : m.lastGasCost.toNat = memoryFee (m.store.length / 32)

section Price

omit [Keccak]

variable {m : Memory} {s : GasScope} {t : GasSt} {n : UInt64}

theorem Memory.Settled.new : Memory.Settled {} := ⟨⟨0, rfl⟩, by decide, rfl⟩

/-- The words that a size takes up, and the size of these. -/
theorem toNat_words (hn : n ≤ 0x1FFFFFFFE0) :
    (toWordSize n).toNat = (n.toNat + 31) / 32 ∧ (toWordSize n).toNat < 2 ^ 32 ∧
      (toWordSize n * 32).toNat = (n.toNat + 31) / 32 * 32 := by
  have hle : n.toNat ≤ 0x1FFFFFFFE0 := UInt64.le_iff_toNat_le.mp hn
  have hwords : (toWordSize n).toNat = (n.toNat + 31) / 32 := toNat_toWordSize (by omega)
  refine ⟨hwords, by omega, ?_⟩
  rw [UInt64.toNat_mul, hwords]
  exact Nat.mod_eq_of_lt (show (n.toNat + 31) / 32 * 32 < 2 ^ 64 by omega)

/-- **The price of a size** is the difference between what all words cost
and what was paid, as natural numbers, and is recorded. -/
theorem Memory.Settled.memoryGasCost_eq (h : m.Settled) (hs : s.memLen = m.store.length)
    (ht : t.lastGasCost = m.lastGasCost) (hn : n ≤ 0x1FFFFFFFE0) :
    ∃ fee u, memoryGasCost s n t = .ok fee u ∧
      fee.toNat + memoryFee (m.store.length / 32)
        = memoryFee (max (m.store.length / 32) ((n.toNat + 31) / 32)) ∧
      u.lastGasCost.toNat = memoryFee (max (m.store.length / 32) ((n.toNat + 31) / 32)) := by
  obtain ⟨hwords, hlt, hsize⟩ := toNat_words hn
  obtain ⟨w, hw⟩ := h.words
  have hpaid := h.paid
  rw [← ht] at hpaid
  unfold memoryGasCost
  by_cases hzero : n = 0
  · subst hzero
    rw [if_pos rfl]
    exact ⟨0, t, rfl, by simp, by simpa using hpaid⟩
  rw [if_neg hzero, if_neg (UInt64.not_lt.mpr hn), hs, hsize]
  by_cases hgrow : m.store.length < (n.toNat + 31) / 32 * 32
  · rw [if_pos hgrow, max_eq_right (by omega)]
    have hfee := toNat_totalFee hlt
    rw [hwords] at hfee
    have hmono : memoryFee (m.store.length / 32) ≤ memoryFee ((n.toNat + 31) / 32) :=
      memoryFee_mono (by omega)
    refine ⟨_, _, rfl, ?_, hfee⟩
    rw [UInt64.toNat_sub_of_le _ _ (UInt64.le_iff_toNat_le.mpr (by omega)), hfee, hpaid]
    omega
  · rw [if_neg hgrow, max_eq_left (by omega)]
    exact ⟨0, t, rfl, by simp, hpaid⟩

/-- A memory that was priced and has grown is paid for. -/
theorem Memory.Settled.resize (h : m.Settled) {last : UInt64} (hdvd : 32 ∣ n.toNat)
    (hn : n ≤ 0x1FFFFFFFE0)
    (hlast : last.toNat = memoryFee (max (m.store.length / 32) ((n.toNat + 31) / 32))) :
    (({ m with lastGasCost := last } : Memory).resize n).Settled ∧
      (({ m with lastGasCost := last } : Memory).resize n).store.length / 32
        = max (m.store.length / 32) ((n.toNat + 31) / 32) := by
  have hle : n.toNat ≤ 0x1FFFFFFFE0 := UInt64.le_iff_toNat_le.mp hn
  have hlength : (({ m with lastGasCost := last } : Memory).resize n).store.length
      = max m.store.length n.toNat := by
    show (m.store ++ List.replicate (n.toNat - m.store.length) 0).length = _
    rw [List.length_append, List.length_replicate]
    omega
  have hwords := h.words
  have hbound := h.le
  have hquot : max m.store.length n.toNat / 32
      = max (m.store.length / 32) ((n.toNat + 31) / 32) := by omega
  rw [hlength, hquot]
  refine ⟨⟨?_, ?_, ?_⟩, rfl⟩
  · rw [hlength]
    omega
  · rw [hlength]
    omega
  · rw [hlength, hquot]
    exact hlast

end Price

/-! ## Turns of the loop -/

/-- **The fee of a turn**: what `memoryGasCost` returns for the memory the
instruction needs. -/
def Frame.memoryCharge (env : Env) (f : Frame) : UInt64 :=
  match (env.jumpTable (f.contract.getOp f.regs.pc)).memoryNeeded f.regs.stack with
  | .ok (some n) =>
    match memoryGasCost (f.gasScope env) n f.gasSt with
    | .ok fee _ => fee
    | .error _ _ => 0
  | _ => 0

section Turns

variable {env : Env} {run : Runner} {f t : Frame}

/-- The execution of an instruction leaves the memory as long as it was. -/
theorem ExecFn.stays_exec (x : ExecFn) :
    Keeps (fun s t : Frame => s.regs.memory.Stays t.regs.memory) (x.exec env run) := by
  cases hcall : x.isCall with
  | false =>
    exact fun s =>
      (ExecFn.local_exec hcall s).mono (fun _ _ h => h.memory) (fun _ _ h => h.1.memory)
  | true =>
    cases x with
    | call => exact (ExecFn.works_exec rfl).mono fun _ _ h => h.regs.memory
    | _ => cases hcall

/-- **The gas function of an operation** prices the memory the operation
needs, or the operation needs none. -/
theorem Operation.Measured.priced {op : UInt8} {o : Operation} (ho : o.Measured op) {g : GasFn}
    (hg : o.dynamicGas = some g) {n cost : UInt64} {u st : GasSt}
    (hn : o.memoryNeeded f.regs.stack = .ok (some n)) (hu : u.lastGasCost = f.gasSt.lastGasCost)
    (hgas : g.gas (f.gasScope env) n u = .ok cost st) :
    n ≤ 0x1FFFFFFFE0 ∧ ∃ fee v, memoryGasCost (f.gasScope env) n f.gasSt = .ok fee v ∧
      st.lastGasCost = v.lastGasCost := by
  have hlaw := (law_prices (f.gasScope env) n g.reads).gas trivial le_rfl
  cases hprices : g.pricesMemory with
  | true =>
    rw [hprices] at hlaw
    obtain ⟨fee, v, hv, hst⟩ := (hlaw u).of_ok hgas
    obtain ⟨v', hv', hsame⟩ := memoryGasCost_congr hu.symm hv
    exact ⟨(GasFn.returns_gas hprices u).of_ok hgas, fee, v', hv', hst.trans hsame.symm⟩
  | false =>
    have hnone : o.memorySize = none := by
      refine Decidable.byContradiction fun hsome => ?_
      have := ho.dynamicGas hsome
      rw [hg, Option.any_some, hprices] at this
      exact absurd this Bool.false_ne_true
    have hzero : n = 0 := by
      unfold memoryNeeded at hn
      rw [hnone] at hn
      exact (Option.some.inj (Except.ok.inj hn)).symm
    subst hzero
    rw [hprices] at hlaw
    exact ⟨by decide, 0, f.gasSt, rfl, ((hlaw u).of_ok hgas).trans hu⟩

/-- **A frame that has passed the checks** has its memory paid for. -/
theorem Frame.Prepared.settled
    (h : Prepared env (env.jumpTable (f.contract.getOp f.regs.pc)) f t)
    (hf : f.regs.memory.Settled) :
    t.regs.memory.Settled ∧ (f.memoryCharge env).toNat + memoryFee (f.regs.memory.store.length / 32)
      = memoryFee (t.regs.memory.store.length / 32) := by
  have hmeasured := law_measured.jumpTable env (f.contract.getOp f.regs.pc)
  unfold memoryCharge
  generalize env.jumpTable (f.contract.getOp f.regs.pc) = o at h hmeasured
  cases h with
  | constant hdyn =>
    have hnone : o.memorySize = none := by
      refine Decidable.byContradiction fun hsome => ?_
      have := hmeasured.dynamicGas hsome
      rw [hdyn] at this
      exact absurd this Bool.false_ne_true
    have hneeded : o.memoryNeeded f.regs.stack = .ok (some 0) := by
      unfold Operation.memoryNeeded
      rw [hnone]
    rw [hneeded]
    exact ⟨hf, Nat.zero_add _⟩
  | @dynamic g n cost st hdyn _ _ _ hneeded hgas =>
    obtain ⟨hmax, fee, v, hv, hst⟩ :=
      hmeasured.priced (u := (f.paid o.constantGas).gasSt) hdyn hneeded rfl hgas
    obtain ⟨fee', v', hv', hfee, hlast⟩ := hf.memoryGasCost_eq (s := f.gasScope env) rfl
      (t := f.gasSt) rfl hmax
    obtain ⟨rfl, rfl⟩ := EStateM.Result.ok.inj (hv.symm.trans hv')
    rw [← hst] at hlast
    obtain ⟨hsettled, hlength⟩ := hf.resize (Operation.dvd_of_memoryNeeded hneeded) hmax hlast
    refine ⟨hsettled, ?_⟩
    rw [hneeded]
    dsimp only
    rw [hv]
    exact hfee.trans (congrArg memoryFee hlength.symm)

/-- **A turn of the loop** that passes its checks leaves a memory that is
paid for. -/
theorem Frame.sat_step_settled
    (hp : prepare env (env.jumpTable (f.contract.getOp f.regs.pc)) f = .ok none t)
    (hf : f.regs.memory.Settled) :
    Sat (step env run) f
      (fun _ f' => f'.regs.memory.Settled ∧
        (f.memoryCharge env).toNat + memoryFee (f.regs.memory.store.length / 32)
          = memoryFee (f'.regs.memory.store.length / 32))
      (fun _ _ => True) := by
  obtain ⟨hsettled, hfee⟩ := ((sat_prepare f).of_ok hp rfl).settled hf
  refine .bind (sat_get.mpr (.bind (.returns hp ?_)))
  refine (ExecFn.stays_exec _ t).next fun out u hu => ?_
  have hstays : t.regs.memory.Stays u.regs.memory := hu
  have hend : u.regs.memory.Settled ∧
      (f.memoryCharge env).toNat + memoryFee (f.regs.memory.store.length / 32)
        = memoryFee (u.regs.memory.store.length / 32) := by
    rw [hstays.length]
    refine ⟨⟨?_, ?_, ?_⟩, hfee⟩
    · rw [hstays.length]
      exact hsettled.words
    · rw [hstays.length]
      exact hsettled.le
    · rw [hstays.length, hstays.lastGasCost]
      exact hsettled.paid
  refine (regs_recordCall _ _ u).next fun _ v hv => .bind ?_
  refine (regs_recordExecuted out.2 v).mono (fun _ w hw => ?_)
  rw [← hv.1, ← hw.1] at hend
  exact hend

end Turns

/-! ## Sizes that do not fit -/

/-- The end of a part of the memory, if there is anything in it. -/
def extent (off len : Word) : ℕ := if len = 0 then 0 else off.toNat + len.toNat

/-- **The size an instruction asks for**, as a natural number. -/
def MemFn.requested (stack : List Word) : MemFn → ℕ
  | memoryKeccak256 | memoryReturn | memoryRevert | memoryLog =>
    extent (stack.getD 0 0) (stack.getD 1 0)
  | memoryCallDataCopy | memoryReturnDataCopy | memoryCodeCopy =>
    extent (stack.getD 0 0) (stack.getD 2 0)
  | memoryExtCodeCopy => extent (stack.getD 1 0) (stack.getD 3 0)
  | memoryMLoad | memoryMStore => (stack.getD 0 0).toNat + 32
  | memoryMStore8 => (stack.getD 0 0).toNat + 1
  | memoryMcopy =>
    max (extent (stack.getD 0 0) (stack.getD 2 0)) (extent (stack.getD 1 0) (stack.getD 2 0))
  | memoryCreate | memoryCreate2 => extent (stack.getD 1 0) (stack.getD 2 0)
  | memoryCall =>
    max (extent (stack.getD 5 0) (stack.getD 6 0)) (extent (stack.getD 3 0) (stack.getD 4 0))
  | memoryDelegateCall | memoryStaticCall =>
    max (extent (stack.getD 4 0) (stack.getD 5 0)) (extent (stack.getD 2 0) (stack.getD 3 0))

section Sizes

variable {stack : List Word} {n : UInt64}

omit [Keccak] in
theorem extent_le {r : Range} {n : ℕ} (h : r.Below n) : extent r.offset r.size ≤ n := by
  unfold extent
  split_ifs with hsize
  · exact Nat.zero_le n
  · exact h hsize

omit [Keccak] in
/-- A size that fits is at least what was asked for. -/
theorem MemFn.requested_le {mf : MemFn} (h : mf.size stack = .ok (some n)) :
    mf.requested stack ≤ n.toNat := by
  cases mf with
  | memoryKeccak256 | memoryReturn | memoryRevert | memoryLog | memoryCallDataCopy
  | memoryReturnDataCopy | memoryCodeCopy | memoryExtCodeCopy | memoryCreate | memoryCreate2 =>
    exact extent_le (below_of_range h)
  | memoryMLoad | memoryMStore =>
    exact below_of_fixed h (by decide) (show BitVec.ofNat 256 32 ≠ 0 by decide)
  | memoryMStore8 => exact below_of_fixed h (by decide) (show BitVec.ofNat 256 1 ≠ 0 by decide)
  | memoryMcopy =>
    obtain ⟨hdst, hsrc⟩ := below_of_memoryMcopy h
    exact max_le (extent_le hdst) (extent_le hsrc)
  | memoryCall | memoryDelegateCall | memoryStaticCall =>
    obtain ⟨hin, hout⟩ := below_of_call h
    exact max_le (extent_le hout) (extent_le hin)

/-- **A size that does not fit ends the frame** before anything is
priced. -/
theorem Frame.chargeDynamic_overflow (env : Env) (f : Frame) {o : Operation} {mf : MemFn}
    {r : Option UInt64} (g : GasFn) (hmf : o.memorySize = some mf)
    (hr : mf.size f.regs.stack = .ok r) (hbig : 2 ^ 64 ≤ mf.requested f.regs.stack) :
    chargeDynamic env o g f = .ok (some .gasUintOverflow) f := by
  have hnone : r = none := by
    cases r with
    | none => rfl
    | some n =>
      have := MemFn.requested_le hr
      have := n.toNat_lt
      omega
  have hneeded : o.memoryNeeded f.regs.stack = .ok none := by
    unfold Operation.memoryNeeded
    rw [hmf]
    dsimp only
    rw [hr, hnone]
    rfl
  have hsat : Sat (chargeDynamic env o g) f (fun out t => out = some .gasUintOverflow ∧ t = f)
      (fun _ _ => False) := by
    refine .bind (sat_get.mpr ?_)
    rw [hneeded]
    exact ⟨rfl, rfl⟩
  obtain ⟨out, t, hok, rfl, rfl⟩ := exists_of_sat hsat
  exact hok

end Sizes

/-! ## Frames -/

/-- **A run of a frame** with the fees of its turns: each turn passes the
checks of the loop, and the next one begins wherever the program counter
is then. -/
inductive Frame.Turns (env : Env) (f : Frame) : List UInt64 → Frame → Prop
  | start : Turns env f [] f
  | turn {fees : List UInt64} {g t g' : Frame} {run : Runner} {out : Outcome} (pc : UInt64) :
    Turns env f fees g →
    prepare env (env.jumpTable (g.contract.getOp g.regs.pc)) g = .ok none t →
    step env run g = .ok out g' →
    Turns env f (fees ++ [g.memoryCharge env]) { g' with regs := { g'.regs with pc := pc } }

section Frames

variable {env : Env} {f g : Frame} {fees : List UInt64}

/-- **What was paid in all is the price of the memory.** -/
theorem Frame.Turns.settled (h : Turns env f fees g) (hf : f.regs.memory = {}) :
    g.regs.memory.Settled ∧
      (fees.map UInt64.toNat).sum = memoryFee (g.regs.memory.store.length / 32) := by
  induction h with
  | start =>
    rw [hf]
    exact ⟨.new, rfl⟩
  | turn pc _ hprep hstep ih =>
    obtain ⟨hsettled, hfee⟩ := (sat_step_settled hprep ih.1).of_ok hstep
    refine ⟨hsettled, ?_⟩
    rw [List.map_append, List.sum_append, ih.2, ← hfee]
    simp [Nat.add_comm]

/-- **Memory gas is path independent.** However a frame came to have the
memory it has, the fees it paid for it add up to `3 * w + w * w / 512`,
where `w` is the number of its words, which is what is recorded; the next
fee is the difference between the prices of the words then and now, for
every size that can be priced; and any other size is refused. -/
theorem Frame.memoryGas_path_independent (h : Turns env f fees g) (hf : f.regs.memory = {}) :
    ∃ w, g.regs.memory.store.length = 32 * w ∧
      (fees.map UInt64.toNat).sum = 3 * w + w * w / 512 ∧
      g.regs.memory.lastGasCost.toNat = 3 * w + w * w / 512 ∧
      (∀ n : UInt64, n ≤ 0x1FFFFFFFE0 →
        let w' := max w ((n.toNat + 31) / 32)
        ∃ fee u, memoryGasCost (g.gasScope env) n g.gasSt = .ok fee u ∧
          3 * w + w * w / 512 ≤ 3 * w' + w' * w' / 512 ∧
          fee.toNat = 3 * w' + w' * w' / 512 - (3 * w + w * w / 512) ∧
          u.lastGasCost.toNat = 3 * w' + w' * w' / 512) ∧
      (∀ n : UInt64, 0x1FFFFFFFE0 < n →
        memoryGasCost (g.gasScope env) n g.gasSt = .error (.err .gasUintOverflow) g.gasSt) ∧
      ∀ (o : Operation) (mf : MemFn) (r : Option UInt64) (dynamicGas : GasFn),
        o.memorySize = some mf → mf.size g.regs.stack = .ok r →
        2 ^ 64 ≤ mf.requested g.regs.stack →
        chargeDynamic env o dynamicGas g = .ok (some .gasUintOverflow) g := by
  obtain ⟨hsettled, hsum⟩ := h.settled hf
  obtain ⟨w, hw⟩ := hsettled.words
  have hquot : g.regs.memory.store.length / 32 = w := by omega
  have hfee : ∀ w, memoryFee w = 3 * w + w * w / 512 := fun w => by
    unfold memoryFee
    rw [Nat.mul_comm]
  refine ⟨w, hw, ?_, ?_, fun n hn => ?_, fun n hn => ?_, fun o mf r dynamicGas hmf hr hbig => ?_⟩
  · rw [hsum, hquot, hfee]
  · rw [hsettled.paid, hquot, hfee]
  · obtain ⟨fee, u, hok, hprice, hlast⟩ :=
      hsettled.memoryGasCost_eq (s := g.gasScope env) rfl (t := g.gasSt) rfl hn
    rw [hquot, hfee, hfee] at hprice
    rw [hquot, hfee] at hlast
    exact ⟨fee, u, hok, by omega, by omega, hlast⟩
  · have hne : n ≠ 0 := fun h0 => absurd (h0 ▸ hn) (by decide)
    unfold memoryGasCost
    rw [if_neg hne, if_pos hn]
    rfl
  · exact chargeDynamic_overflow env g dynamicGas hmf hr hbig

end Frames

/-- The frame after a turn of the loop, at `pc`. -/
def Frame.turned (env : Env) (run : Runner) (g : Frame) (pc : UInt64) : Frame :=
  let g' := lastState (step env run) g
  { g' with regs := { g'.regs with pc := pc } }

/-- One more turn of the loop. -/
theorem Frame.Turns.next {env : Env} {f g : Frame} {fees : List UInt64} {fee : UInt64}
    (h : Turns env f fees g) (run : Runner) (pc : UInt64)
    (hprep : Sat (prepare env (env.jumpTable (g.contract.getOp g.regs.pc))) g
      (fun failed _ => failed = none) (fun _ _ => False))
    (hstep : Sat (step env run) g (fun _ _ => True) (fun _ _ => False))
    (hfee : g.memoryCharge env = fee) :
    Turns env f (fees ++ [fee]) (turned env run g pc) := by
  obtain ⟨failed, t, hprep, rfl⟩ := exists_of_sat hprep
  obtain ⟨out, hstep, -⟩ := eq_lastState_of_sat hstep
  exact hfee ▸ h.turn pc hprep hstep

omit [Keccak] in
/-- **The memory grows twice**, to one word and then to 101: the second
time it costs what is between the prices of the two sizes. -/
theorem Frame.memoryGas_path_independent_grown :
    letI := Keccak.digests
    let f : Frame := {
      evm := { statedb := StateDB.newStateDB .empty }
      regs := { stack := [0, 7, 3200, 7] }
      contract :=
        { callerAddress := 2, self := 1, code := [OpCode.MSTORE, OpCode.MSTORE], gas := 1000
          value := 0 } }
    ∃ g w, Turns {} f [3, 319] g ∧ g.regs.memory.store.length = 32 * w ∧ w = 101 ∧
      3 + 319 = 3 * w + w * w / 512 := by
  let _ := Keccak.digests
  intro f
  let run : Runner := fun _ _ _ => throw .nil
  have h₀ : Turns {} f [] f := .start
  have h₁ := h₀.next run 1 (by decide +kernel) (by decide +kernel) (show _ = 3 by decide +kernel)
  have h₂ := h₁.next run 2 (by decide +kernel) (by decide +kernel) (show _ = 319 by decide +kernel)
  obtain ⟨w, hw, hsum, -⟩ := memoryGas_path_independent h₂ rfl
  have hlength := hw.symm.trans (show _ = 3232 by decide +kernel)
  exact ⟨_, w, h₂, hw, by omega, hsum⟩
