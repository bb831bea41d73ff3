import CardinalEvm.GasLaws
import CardinalEvm.Registers

/-!
# The operand stack

The loop compares the height of the stack with two bounds of the
operation and then runs three functions on it, none of which checks
anything. The bounds are made from the number of words the operation pops
and pushes; `ExecFn.arity` says what the execution function really does,
`GasFn.reads` and `MemFn.reads` how far the other two look down, and
`Operation.Sized`, which holds of every entry of every table, that the
bounds fit.

There is one gap. An extra EIP assigns its gas functions to the entries
of the table whatever they are, and an opcode that is disabled, or that
the fork does not have, has an entry for an undefined operation, with a
lower bound of zero. The gas function then looks for operands on a stack
that need not have any. `Env.stackSafe_iff` says that this is the only
way to miss an operand.
-/

variable [Keccak]

/-! ## Gas and memory size functions -/

/-- A gas function that does not miss an operand. -/
def Finds {α : Type} (m : GasM α) : Prop := Stops (· ≠ .fault .stack) m

/-- **A gas function finds what it looks for** on a stack that is high
enough. -/
theorem GasFn.finds_gas {s : GasScope} {n : UInt64} {g : GasFn} (h : g.reads ≤ s.stack.length) :
    Finds (g.gas s n) := by
  have hlaw : GasLaw s n s.stack.length (fun _ => True) fun _ _ => Finds :=
    { pure := .pure
      throw := fun _ => .throw (by rintro ⟨⟩)
      canary := .throw (by decide)
      bind := .bind
      after := .bind
      get := .get
      back := fun hk st => sat_attempt (fun _ _ _ => trivial) fun hnone => by
        rw [List.getElem?_eq_getElem hk] at hnone
        cases hnone
      checked := fun _ => .attempt (by decide) _
      memory := .ite (.pure _) (.ite (.throw (by decide)) (.ite (.modifyGet _) (.pure _)))
      read := fun _ _ _ => .modifyGet _
      slotInAccessList := fun _ _ => .attempt (by decide) _
      addAddress := fun _ => .modify _
      addSlot := fun _ _ => .attempt (by decide) _
      addRefund := fun _ _ => .modify _
      subRefund := fun _ _ => .modify _
      useGas := fun _ _ => .modifyGet _
      returnGas := fun _ _ => .modify _
      callGasTemp := fun _ _ => .modify _ }
  exact hlaw.gas trivial h

section Memory

omit [Keccak]

/-- **How far down a memory size function looks.** -/
def MemFn.reads : MemFn → ℕ
  | memoryMLoad | memoryMStore8 | memoryMStore => 1
  | memoryKeccak256 | memoryReturn | memoryRevert | memoryLog => 2
  | memoryCallDataCopy | memoryReturnDataCopy | memoryCodeCopy | memoryMcopy
  | memoryCreate | memoryCreate2 => 3
  | memoryExtCodeCopy => 4
  | memoryDelegateCall | memoryStaticCall => 6
  | memoryCall => 7

variable {stack : List Word}

theorem MemFn.back_ok {n : ℕ} (h : n < stack.length) : ∃ w, MemFn.back stack n = .ok w := by
  unfold MemFn.back
  rw [List.getElem?_eq_getElem h]
  exact ⟨_, rfl⟩

theorem MemFn.range_ok {off len : ℕ} (hoff : off < stack.length) (hlen : len < stack.length) :
    ∃ r, MemFn.range off len stack = .ok r := by
  obtain ⟨x, hx⟩ := back_ok hoff
  obtain ⟨y, hy⟩ := back_ok hlen
  unfold MemFn.range
  rw [hx, hy]
  exact ⟨_, rfl⟩

theorem MemFn.fixed_ok (n : UInt64) (h : 0 < stack.length) : ∃ r, MemFn.fixed n stack = .ok r := by
  obtain ⟨x, hx⟩ := back_ok h
  unfold MemFn.fixed
  rw [hx]
  exact ⟨_, rfl⟩

theorem MemFn.call_ok {outOff inOff : ℕ} (hout : outOff + 1 < stack.length)
    (hin : inOff + 1 < stack.length) : ∃ r, MemFn.call outOff inOff stack = .ok r := by
  obtain ⟨x, hx⟩ := range_ok (Nat.lt_of_succ_lt hout) hout
  obtain ⟨y, hy⟩ := range_ok (Nat.lt_of_succ_lt hin) hin
  unfold MemFn.call
  rw [hx, hy]
  cases x with
  | none => exact ⟨_, rfl⟩
  | some x => cases y <;> exact ⟨_, rfl⟩

/-- A memory size function does not miss an operand. -/
theorem MemFn.size_ok {f : MemFn} (h : f.reads ≤ stack.length) : ∃ r, f.size stack = .ok r := by
  cases f with
  | memoryKeccak256 | memoryReturn | memoryRevert | memoryLog | memoryCallDataCopy
  | memoryReturnDataCopy | memoryCodeCopy | memoryCreate | memoryCreate2 | memoryExtCodeCopy =>
    simp only [MemFn.reads] at h
    exact range_ok (by omega) (by omega)
  | memoryMLoad | memoryMStore8 | memoryMStore => exact fixed_ok _ h
  | memoryMcopy =>
    have h' : 3 ≤ stack.length := h
    obtain ⟨x, hx⟩ := back_ok (show 0 < stack.length by omega)
    obtain ⟨y, hy⟩ := back_ok (show 1 < stack.length by omega)
    obtain ⟨z, hz⟩ := back_ok (show 2 < stack.length by omega)
    unfold MemFn.size
    rw [hx, hy, hz]
    exact ⟨_, rfl⟩
  | memoryCall | memoryDelegateCall | memoryStaticCall =>
    simp only [MemFn.reads] at h
    exact call_ok (by omega) (by omega)

end Memory

/-! ## Tables -/

section Tables

omit [Keccak]

open JumpTable Operation OpCode

/-- How far down the gas functions look that a fork or an EIP assigns to
an opcode. -/
def opReads (op : UInt8) : ℕ :=
  ((assignedGas.filter fun e => e.1 = op).map fun e => e.2.reads).foldr max 0

/-- **An operation whose bounds fit.** -/
structure Operation.Sized (op : UInt8) (o : Operation) : Prop where
  minStack : o.minStack = o.execute.arity.1
  maxStack : o.maxStack + o.execute.arity.2 = Params.stackLimit + o.execute.arity.1
  memory : (o.memorySize.map MemFn.reads).getD 0 ≤ o.minStack
  gas : o.execute ≠ .scope .opUndefined →
    (o.dynamicGas.map GasFn.reads).getD 0 ≤ o.minStack ∧ opReads op ≤ o.minStack
  undefined : o.execute = .scope .opUndefined → o.memorySize = none
  dup : o.execute ≠ .scope (.makeDup 0)

instance (op : UInt8) (o : Operation) : Decidable (o.Sized op) :=
  decidable_of_iff
    (o.minStack = o.execute.arity.1
      ∧ o.maxStack + o.execute.arity.2 = Params.stackLimit + o.execute.arity.1
      ∧ (o.memorySize.map MemFn.reads).getD 0 ≤ o.minStack
      ∧ (o.execute ≠ .scope .opUndefined →
        (o.dynamicGas.map GasFn.reads).getD 0 ≤ o.minStack ∧ opReads op ≤ o.minStack)
      ∧ (o.execute = .scope .opUndefined → o.memorySize = none)
      ∧ o.execute ≠ .scope (.makeDup 0))
    ⟨fun h => ⟨h.1, h.2.1, h.2.2.1, h.2.2.2.1, h.2.2.2.2.1, h.2.2.2.2.2⟩,
      fun h => ⟨h.minStack, h.maxStack, h.memory, h.gas, h.undefined, h.dup⟩⟩

theorem law_sized : Law Sized where
  undefined op := ⟨rfl, rfl, le_rfl, fun h => absurd rfl h, fun _ => rfl, nofun⟩
  entry := by decide +kernel
  constantGas _ _ _ h := ⟨h.minStack, h.maxStack, h.memory, h.gas, h.undefined, h.dup⟩
  dynamicGas e he o h := by
    have hreads : ∀ e ∈ assignedGas, e.2.reads ≤ opReads e.1 := by decide +kernel
    exact ⟨h.minStack, h.maxStack, h.memory,
      fun hu => ⟨(hreads e he).trans (h.gas hu).2, (h.gas hu).2⟩, h.undefined, h.dup⟩

/-- The opcodes an EIP assigns a gas function to. -/
def Eip.gasOps : Eip → List UInt8
  | .eip3860 => [CREATE, CREATE2]
  | .eip3529 => [SSTORE, SELFDESTRUCT]
  | .eip2929 => [SSTORE, SLOAD, EXTCODECOPY, EXTCODESIZE, EXTCODEHASH, BALANCE, CALL, CALLCODE,
      STATICCALL, DELEGATECALL, SELFDESTRUCT]
  | .eip2200 => [SSTORE]
  | _ => []

/-- **Every extra EIP prices only operations the table has.** -/
def Env.EipsApply (env : Env) : Prop :=
  ∀ e ∈ env.extraEips, ∀ op ∈ e.gasOps, (env.jumpTable op).execute ≠ .scope .opUndefined

/-- An undefined operation has no gas function, with exceptions. -/
def Operation.Bare (except : UInt8 → Prop) (op : UInt8) (o : Operation) : Prop :=
  o.execute = .scope .opUndefined → o.dynamicGas = none ∨ except op

namespace Assign

/-- Whether an assignment leaves an operation that is defined. -/
def defines : Assign → Bool
  | set _ o => o.execute ≠ .scope .opUndefined
  | _ => true

/-- Whether an assignment is of a gas function. -/
def prices : Assign → Bool
  | dynamicGas .. | gas .. => true
  | _ => false

end Assign

namespace JumpTable

variable {jt : JumpTable} {except : UInt8 → Prop}

theorem assignments_define : ∀ a ∈ assignments, a.defines := by decide +kernel

/-- An EIP makes exceptions of the opcodes it prices. -/
theorem All.bare_enableEIP (h : All (Bare except) jt) {e : Eip} (he : ∀ op ∈ e.gasOps, except op) :
    All (Bare except) (jt.enableEIP e) := by
  have hassigns : ∀ a ∈ activator e, a.defines ∧ (a.prices → a.op ∈ e.gasOps) := by
    cases e <;> decide
  refine fun op => assignAll_keeps (fun a ha o ho => ?_) (h op)
  obtain ⟨hdefines, hprices⟩ := hassigns a ha
  cases a with
  | set op o => exact fun hu => absurd hu (of_decide_eq_true hdefines)
  | constantGas op gas => exact ho
  | dynamicGas op gas | gas op price gas => exact fun _ => .inr (he _ (hprices rfl))

/-- No fork has a gas function for an operation it does not have. -/
theorem bare_instructionSet (rules : Rules) : All (Bare fun _ => False) rules.instructionSet := by
  have hsets : ∀ jt ∈ instructionSets, ∀ i, (jt (.ofFin i)).execute = .scope .opUndefined →
      (jt (.ofFin i)).dynamicGas = none := by decide +kernel
  exact fun op hu => .inl (hsets _ (mem_instructionSets rules) op.toFin hu)

/-- **The only gas functions of undefined operations** are those the extra
EIPs brought. -/
theorem bare_jumpTable (env : Env) :
    All (Bare fun op => ∃ e ∈ env.extraEips, op ∈ e.gasOps) env.jumpTable := by
  refine List.foldlRecOn env.extraEips _ ?_ fun jt h e he =>
    h.bare_enableEIP fun op hop => ⟨e, he, hop⟩
  have hedits : All (Bare fun _ => False)
      ((env.tableEdits ++ env.ownEdits).foldl TableEdit.apply env.rules.instructionSet) := by
    refine List.foldlRecOn _ _ (bare_instructionSet env.rules) fun jt h e _ => ?_
    cases e with
    | disable op => exact h.set fun _ => .inl rfl
    | difficulty => exact h.set fun hu => absurd hu (by decide +kernel)
  exact fun op hu => .inl ((hedits op hu).resolve_right id)

/-- An undefined operation has one of the gas functions that are
assigned. -/
def Priced (op : UInt8) (o : Operation) : Prop :=
  o.execute = .scope .opUndefined → ∃ gas, o.dynamicGas = some gas ∧ (op, gas) ∈ assignedGas

theorem kept_priced : Kept Priced := by
  intro a ha o ho
  cases a with
  | set op o => exact fun hu => absurd hu (of_decide_eq_true (assignments_define _ ha))
  | constantGas op gas => exact ho
  | dynamicGas op gas | gas op price gas =>
    exact fun _ => ⟨gas, rfl, List.mem_filterMap.mpr ⟨_, ha, rfl⟩⟩

theorem priced_enableEIP (jt : JumpTable) (e : Eip) {op : UInt8} (hop : op ∈ e.gasOps) :
    Priced op (jt.enableEIP e op) := by
  cases e with
  | eip3860 | eip3529 =>
    obtain rfl | rfl := List.mem_pair.mp hop <;> exact fun _ => ⟨_, rfl, by decide +kernel⟩
  | eip2200 =>
    obtain rfl := List.mem_singleton.mp hop
    exact fun _ => ⟨_, rfl, by decide +kernel⟩
  | eip2929 =>
    simp only [Eip.gasOps, List.mem_cons, List.not_mem_nil, or_false] at hop
    rcases hop with rfl | rfl | rfl | rfl | rfl | rfl | rfl | rfl | rfl | rfl | rfl <;>
      exact fun _ => ⟨_, rfl, by decide +kernel⟩
  | _ => exact absurd hop List.not_mem_nil

/-- An extra EIP leaves a gas function at every opcode it prices. -/
theorem priced_jumpTable {env : Env} {e : Eip} (he : e ∈ env.extraEips) {op : UInt8}
    (hop : op ∈ e.gasOps) : Priced op (env.jumpTable op) := by
  obtain ⟨l₁, l₂, heq⟩ := List.append_of_mem he
  unfold Env.jumpTable
  rw [heq, List.foldl_append, List.foldl_cons]
  exact List.foldlRecOn (motive := fun jt : JumpTable => Priced op (jt op)) l₂ _
    (priced_enableEIP _ e hop) fun jt h e _ => kept_priced.enableEIP h e

end JumpTable

end Tables

/-! ## Runs -/

section Runs

variable {env : Env} {o : Operation}

omit [Keccak] in
theorem Env.sized (env : Env) (op : UInt8) : (env.jumpTable op).Sized op :=
  law_sized.jumpTable env op

omit [Keccak] in
/-- Where the extra EIPs apply, no gas function looks further down than
the lower bound. -/
theorem Env.EipsApply.reads_le (h : env.EipsApply) (op : UInt8) :
    ((env.jumpTable op).dynamicGas.map GasFn.reads).getD 0 ≤ (env.jumpTable op).minStack := by
  by_cases hu : (env.jumpTable op).execute = .scope .opUndefined
  · obtain hnone | ⟨e, he, hop⟩ := JumpTable.bare_jumpTable env op hu
    · rw [hnone]
      exact Nat.zero_le _
    · exact absurd hu (h e he op hop)
  · exact ((env.sized op).gas hu).1

omit [Keccak] in
theorem Operation.memoryNeeded_ok {stack : List Word}
    (h : (o.memorySize.map MemFn.reads).getD 0 ≤ stack.length) :
    ∃ n, o.memoryNeeded stack = .ok n := by
  unfold Operation.memoryNeeded
  cases hm : o.memorySize with
  | none => exact ⟨_, rfl⟩
  | some f =>
    rw [hm] at h
    obtain ⟨r, hr⟩ := MemFn.size_ok h
    dsimp only
    rw [hr]
    cases r with
    | none => exact ⟨_, rfl⟩
    | some memSize => exact ⟨_, rfl⟩

/-- The checks before an operation miss no operand of its memory size and
gas functions. -/
theorem Frame.PreparePanics.ne_stack {s : Frame} {f : Fault} (h : PreparePanics env o s f)
    (hmem : (o.memorySize.map MemFn.reads).getD 0 ≤ o.minStack)
    (hgas : (o.dynamicGas.map GasFn.reads).getD 0 ≤ o.minStack) : f ≠ .stack := by
  cases h with
  | memory hmin hf =>
    obtain ⟨n, hn⟩ := o.memoryNeeded_ok (hmem.trans hmin)
    cases hn.symm.trans hf
  | @gas g n _ st hdyn hmin hf =>
    rw [hdyn] at hgas
    have hfinds : Finds (g.gas (s.gasScope env) n) := GasFn.finds_gas (hgas.trans hmin)
    rintro rfl
    exact (hfinds _).of_error hf rfl

/-- **What an operation does to a stack within its bounds**: the change
is the one that its upper bound was made from, unless it refuses to
run. -/
theorem Operation.Sized.sat_exec {op : UInt8} (ho : o.Sized op) (run : Runner) {s : Frame}
    (hmin : o.minStack ≤ s.height) :
    Sat (o.execute.exec env run) s
      (fun out t => t.height + o.maxStack = s.height + Params.stackLimit
        ∨ o.execute.Refuses out ∧ t.height ≤ s.height)
      (fun f _ => run.Safe (· ≠ .stack) → f ≠ .stack) := by
  have hmax := ho.maxStack
  rw [ho.minStack] at hmin
  refine (o.execute.does_exec.sat s).mono (fun out t h => (h.2 hmin).imp_left fun h => ?_)
    (fun _ _ h => h.2.2 hmin ho.dup)
  have heq : t.height + _ = s.height + _ := h
  omega

/-- **One turn of the loop**: if the frame goes on, its stack is at most
as high as it may be, and where the extra EIPs apply no operand is
missed. -/
theorem Frame.sat_step (env : Env) (run : Runner) (s : Frame) :
    Sat (step env run) s (fun out t => out.2 = none → t.height ≤ Params.stackLimit)
      (fun f _ => env.EipsApply → run.Safe (· ≠ .stack) → f ≠ .stack) := by
  have ho := env.sized (s.contract.getOp s.regs.pc)
  refine .bind (.bind ((sat_prepare s).mono (fun err t ht => ?_)
    (fun _ _ hf h _ => hf.ne_stack ho.memory (h.reads_le _))))
  cases err with
  | some err => exact nofun
  | none =>
    have hmin : _ ≤ s.height := (ht rfl).minStack_le
    have hmax : s.height ≤ _ := (ht rfl).le_maxStack
    have hheight : t.height = s.height := congrArg List.length (ht rfl).stack_eq
    refine .bind ((ho.sat_exec run (hheight ▸ hmin)).mono (fun out u hu => ?_)
      fun _ _ hf _ => hf)
    have hout : out.2 = none → u.height ≤ Params.stackLimit := by
      intro hnone
      replace hu : u.height + (env.jumpTable (s.contract.getOp s.regs.pc)).maxStack
        = t.height + Params.stackLimit ∨ _ := hu
      obtain hu | ⟨hr, -⟩ := hu
      · omega
      · -- whoever refuses to run ends the frame
        cases hexec : (env.jumpTable (s.contract.getOp s.regs.pc)).execute <;>
          rw [hexec] at hr <;> cases hnone.symm.trans hr
    obtain ⟨ret, err⟩ := out
    cases (env.jumpTable (s.contract.getOp s.regs.pc)).execute <;> cases err <;> exact hout

/-- **No run misses an operand**, however deep the calls. -/
theorem Evm.safe_run (h : env.EipsApply) (fuel : ℕ) : (Evm.run env fuel).Safe (· ≠ .stack) :=
  safe_runWith (Frame.stops_loop (by decide) (fun _ hrun s =>
    (Frame.sat_step env _ s).mono (fun _ _ _ => trivial) (fun _ _ hf => hf h hrun)) fuel)

/-- **The states a frame can be in between two turns of its loop.** -/
inductive Frame.Reaches (env : Env) : Frame → Prop
  | start (e : Evm) (c : Contract) : Reaches env { evm := e, contract := c }
  | step {s t : Frame} {ret : Bytes} (fuel : ℕ) : Reaches env s →
      Frame.step env (Evm.run env fuel) s = .ok (ret, none) t →
      Reaches env { t with regs := { t.regs with pc := t.regs.pc + 1 } }

/-- An operation that finds its operands on a frame's stack, and changes
its height by what its bounds were made from. -/
structure Operation.StackSafe (env : Env) (o : Operation) (s : Frame) : Prop where
  memory : ∃ n, o.memoryNeeded s.regs.stack = .ok n
  gas : ∀ g, o.dynamicGas = some g → ∀ n, o.memoryNeeded s.regs.stack = .ok (some n) →
    Finds (g.gas (s.gasScope env) n)
  execute : ∀ fuel t, t.regs.stack = s.regs.stack → Sat (o.execute.exec env (Evm.run env fuel)) t
    (fun out u => u.height + o.maxStack = s.height + Params.stackLimit
      ∨ o.execute.Refuses out ∧ u.height ≤ s.height)
    (fun f _ => f ≠ .stack)

/-- **Stack safety**: in every state a frame reaches, the stack is at
most 1024 words high, and an operation whose bounds allow that height is
safe. -/
def Env.StackSafe (env : Env) : Prop :=
  ∀ s, Frame.Reaches env s → s.height ≤ Params.stackLimit
    ∧ ((env.jumpTable (s.contract.getOp s.regs.pc)).minStack ≤ s.height →
      s.height ≤ (env.jumpTable (s.contract.getOp s.regs.pc)).maxStack →
      (env.jumpTable (s.contract.getOp s.regs.pc)).StackSafe env s)

theorem Frame.Reaches.height_le {s : Frame} (hs : Reaches env s) :
    s.height ≤ Params.stackLimit := by
  induction hs with
  | start => exact Nat.zero_le _
  | @step s t ret fuel _ hstep _ =>
    have ht : _ → t.height ≤ Params.stackLimit :=
      (sat_step env _ s).of_ok hstep
    exact ht rfl

/-- Any of the gas functions that are assigned misses an operand on an
empty stack. -/
theorem not_finds_assignedGas (s : GasScope) (hs : s.stack = []) :
    ∀ e ∈ JumpTable.assignedGas, ¬ Finds (e.2.gas s 0) := by
  obtain ⟨rules, self, stack, memLen⟩ := s
  obtain rfl : stack = [] := hs
  -- enough gas for the sentry of the storage writes
  let st : GasSt := ⟨StateDB.newStateDB .empty, 0, 10000, 0, []⟩
  have hmiss : ∀ e ∈ JumpTable.assignedGas,
      e.2.gas ⟨rules, self, [], memLen⟩ 0 st = .error (.fault .stack) st := by
    refine List.forall_iff_forall_mem.mp ?_
    repeat' constructor
  exact fun e he h => (h st).of_error (hmiss e he) rfl

/-- **The stack is safe where the extra EIPs apply**, and nowhere else:
an EIP that prices an opcode the table does not have makes the gas
function of that opcode look for operands on a stack that has none. -/
theorem Env.stackSafe_iff (env : Env) : env.StackSafe ↔ env.EipsApply := by
  constructor
  · intro hsafe e he op hop hu
    let s : Frame :=
      { evm := { statedb := StateDB.newStateDB .empty }
        contract := { callerAddress := 0, self := 0, code := [op], gas := 0, value := 0 } }
    obtain ⟨g, hg, hassigned⟩ := JumpTable.priced_jumpTable he hop hu
    have hmin : (env.jumpTable op).minStack = 0 := by
      rw [(env.sized op).minStack, hu]
      rfl
    have hmem : (env.jumpTable op).memoryNeeded [] = .ok (some 0) := by
      unfold Operation.memoryNeeded
      rw [(env.sized op).undefined hu]
    have h := (hsafe s (.start _ _)).2 (hmin.le.trans (Nat.zero_le _)) (Nat.zero_le _)
    exact not_finds_assignedGas _ rfl _ hassigned (h.gas g hg 0 hmem)
  · intro h s hs
    refine ⟨hs.height_le, fun hmin _ => ?_⟩
    have ho := env.sized (s.contract.getOp s.regs.pc)
    refine ⟨Operation.memoryNeeded_ok (ho.memory.trans hmin), fun g hg n _ => ?_,
      fun fuel t ht => ?_⟩
    · have hreads := h.reads_le (s.contract.getOp s.regs.pc)
      rw [hg] at hreads
      exact GasFn.finds_gas (hreads.trans hmin)
    · have hheight : t.height = s.height := congrArg List.length ht
      rw [← hheight] at hmin ⊢
      exact (ho.sat_exec _ hmin).mono (fun _ _ h => h) fun _ _ hf => hf (Evm.safe_run h fuel)

omit [Keccak] in
/-- On the first fork with the access list EIP, the code `STATICCALL`
panics: the fork has no such operation, so the table asks for no operand,
but the EIP's gas function reads the second word of the stack. -/
theorem Evm.call_staticcall_frontier :
    letI := Keccak.digests
    let env : Env := { extraEips := [.eip2929] }
    let tx := StorageTx.single 0x1000 { codeHash := Hash.bytes (keccak256Hash [0xfa]) } [0xfa]
    ∃ e, Evm.call env (Evm.run env 5) (.accountRef 1) 0x1000 [] 100000 0
      { statedb := StateDB.newStateDB tx } = .error .stack e := by
  let _ := Keccak.digests
  intro env tx
  obtain ⟨f, e, hcall, rfl⟩ : ∃ f e, Evm.call env (Evm.run env 5) (.accountRef 1) 0x1000 [] 100000 0
      { statedb := StateDB.newStateDB tx } = .error f e ∧ f = .stack :=
    exists_error_of_sat (by decide +kernel)
  exact ⟨e, hcall⟩

end Runs
