import CardinalEvm.JumpTable

/-!
# Laws of the gas functions

Gas functions are put together from a few operations: they look at the
stack, read the state, warm up what they name, change the refund counter,
price the memory, and, for a call, charge in advance. A `GasLaw` is a
property of programs that the operations have and that composition keeps.
It is then one of every gas function (`GasLaw.gas`).

A law can tell the programs that price the memory from the others, as no
gas function does so twice. It can leave out what only some kinds of gas
functions do, and is then about the other kinds.
-/

variable [Keccak]

/-- How far down a gas function of a call looks. -/
def CallGasFn.reads : CallGasFn → ℕ
  | gasCall | gasCallCode => 3
  | gasDelegateCall | gasStaticCall => 1

/-- **How far down a gas function looks.** -/
def GasFn.reads : GasFn → ℕ
  | memoryCopierGas stackpos => stackpos + 1
  | pureMemoryGascost => 0
  | gasSLoadEIP2929 | gasEip2929AccountCheck | gasSelfdestruct | makeSelfdestructGasFn _ => 1
  | gasSStore | gasSStoreEIP2200 | makeGasSStoreFunc _ | makeGasLog _ | gasKeccak256
  | gasExpFrontier | gasExpEIP158 => 2
  | gasCreate2 | gasCreateEip3860 | gasCreate2Eip3860 => 3
  | gasExtCodeCopyEIP2929 => 4
  | call f => f.reads
  | makeCallVariantGasCallEIP2929 f | makeCallVariantGasCallEIP7702 f => max 2 f.reads

/-- The gas functions that price the memory, and so refuse to make it too
large. -/
def GasFn.pricesMemory : GasFn → Bool
  | memoryCopierGas _ | makeGasLog _ | gasKeccak256 | pureMemoryGascost | gasCreate2
  | gasCreateEip3860 | gasCreate2Eip3860 | gasExtCodeCopyEIP2929 | call _
  | makeCallVariantGasCallEIP2929 _ | makeCallVariantGasCallEIP7702 _ => true
  | _ => false

open GasM

/-- **A law of the gas functions** of the kinds in `K`, for a stack with
`depth` words: `L true` is about programs that price the memory, `L false`
about those that do not. -/
structure GasLaw (s : GasScope) (n : UInt64) (depth : ℕ) (K : GasKind → Prop)
    (L : Bool → (α : Type) → GasM α → Prop) : Prop where
  pure {α : Type} (a : α) : L false α (Pure.pure a)
  throw {α : Type} (e : VmErr) : L false α (MonadExcept.throw (.err e))
  canary {α : Type} : L false α (MonadExcept.throw (.fault .canary))
  bind {α β : Type} {b : Bool} {m : GasM α} {f : α → GasM β} :
    L false α m → (∀ a, L b β (f a)) → L b β (m >>= f)
  after {α β : Type} {m : GasM α} {f : α → GasM β} :
    L true α m → (∀ a, L false β (f a)) → L true β (m >>= f)
  get : L false GasSt MonadState.get
  back {k : ℕ} : k < depth → L false Word (back s k)
  checked (o : Option UInt64) : L false UInt64 (checked o)
  memory : L true UInt64 (memoryGasCost s n)
  read {α : Type} {f : StateDB → α × StateDB} (o : StateDB.Op) : o.isRead →
    (∀ d, o.apply d = some (f d).2) → L false α (onDb f)
  slotInAccessList (a : Address) (k : Hash) : L false (Bool × Bool) (slotInAccessList a k)
  addAddress (a : Address) : L false Unit (addAddress a)
  addSlot (a : Address) (k : Hash) : L false Unit (addSlot a k)
  addRefund : K .sstore ∨ K .selfdestruct → ∀ amount, L false Unit (addRefund amount)
  subRefund : K .sstore → ∀ amount, L false Unit (subRefund amount)
  useGas {f : CallGasFn} : K (.call f) → ∀ amount, L false Bool (useGas amount)
  returnGas {f : CallGasFn} : K (.call f) → ∀ amount, L false Unit (returnGas amount)
  callGasTemp {f : CallGasFn} : K (.call f) → ∀ temp,
    L false Unit (modify fun st => { st with callGasTemp := temp })

namespace GasLaw

variable {s : GasScope} {n : UInt64} {depth : ℕ} {K : GasKind → Prop}
  {L : Bool → (α : Type) → GasM α → Prop} (h : GasLaw s n depth K L)

omit [Keccak] in
theorem ite {α : Type} {b : Bool} {c : Prop} [Decidable c] {m m' : GasM α} (hm : L b α m)
    (hm' : L b α m') : L b α (if c then m else m') := by
  split
  · exact hm
  · exact hm'

include h

/-- A program with a part for addresses that are not warm, which it warms
up. -/
theorem ifCold {α : Type} {b : Bool} (a : Address) {warm cold : GasM α} (hw : L b α warm)
    (hc : L b α cold) :
    L b α (do if (← addressInAccessList a) then warm else do GasM.addAddress a; cold) :=
  h.bind (h.bind h.get fun _ => h.pure _) fun _ => ite hw (h.bind (h.addAddress a) fun _ => hc)

theorem wordGas {pos : ℕ} (hpos : pos < depth) (rate : UInt64) :
    L true _ (wordGas pos rate s n) :=
  h.after h.memory fun _ => h.bind (h.back hpos) fun _ => h.bind (h.checked _) fun _ =>
    h.bind (h.checked _) fun _ => h.checked _

theorem gasLog (hdepth : 1 < depth) (k : UInt64) : L true _ (gasLog k s n) :=
  h.bind (h.back hdepth) fun _ => h.bind (h.checked _) fun _ => h.after h.memory fun _ =>
    h.bind (h.checked _) fun _ => h.bind (h.checked _) fun _ => h.bind (h.checked _) fun _ =>
      h.checked _

theorem gasInitCode (hdepth : 2 < depth) (rate : UInt64) : L true _ (gasInitCode rate s n) :=
  h.after h.memory fun _ => h.bind (h.back hdepth) fun _ => h.bind (h.checked _) fun _ =>
    ite (h.throw _) (h.checked _)

/-! ### Stores -/

theorem sentry : L false _ sentry := h.bind h.get fun _ => ite (h.throw _) (h.pure _)

theorem warmSlot (self : Address) (slot : Hash) : L false _ (warmSlot self slot) :=
  h.bind (h.slotInAccessList _ _) fun _ => ite (h.pure _)
    (h.bind (h.addSlot _ _) fun _ => ite (h.pure _) h.canary)

theorem resettingRefunds (hK : K .sstore) (p : NetCosts) (original value : Hash) :
    L false _ (resettingRefunds p original value) :=
  ite (ite (h.addRefund (.inl hK) _) (h.addRefund (.inl hK) _)) (h.pure _)

theorem legacySStore (hK : K .sstore) (value current : Hash) :
    L false _ (legacySStore value current) :=
  ite (h.pure _) (ite (h.bind (h.addRefund (.inl hK) _) fun _ => h.pure _) (h.pure _))

theorem netSStore (hK : K .sstore) (p : NetCosts) (self : Address) (slot value current : Hash) :
    L false _ (netSStore p self slot value current) := by
  have hadd := h.addRefund (.inl hK)
  refine ite (h.pure _)
    (h.bind (h.read (.getCommittedState self slot) rfl fun _ => rfl) fun _ => ite
    (ite (h.pure _) (ite (h.bind (hadd _) fun _ => h.pure _) (h.pure _))) ?_)
  exact h.bind (ite (ite (h.subRefund hK _) (ite (hadd _) (h.pure _))) (h.pure _)) fun _ =>
    h.bind (h.resettingRefunds hK p _ _) fun _ => h.pure _

/-! ### Self-destructions -/

theorem fundsEmpty (self beneficiary : Address) : L false _ (fundsEmpty self beneficiary) :=
  h.bind (h.read (.empty beneficiary) rfl fun _ => rfl) fun _ =>
    ite (h.bind (h.read (.getBalance self) rfl fun _ => rfl) fun _ => h.pure _) (h.pure _)

theorem selfdestructCost (hdepth : 0 < depth) : L false _ (selfdestructCost s) := by
  refine h.bind (h.back hdepth) fun w => h.bind (ite (h.fundsEmpty _ _) ?_) fun _ =>
    ite (h.pure _) (h.pure _)
  exact h.bind (h.read (.exist (Word.bytes20 w)) rfl fun _ => rfl) fun _ => h.pure _

theorem selfdestructRefund (hK : K .selfdestruct) (self : Address) :
    L false _ (selfdestructRefund self) :=
  h.bind (h.read (.hasSuicided self) rfl fun _ => rfl) fun _ =>
    ite (h.addRefund (.inr hK) _) (h.pure _)

theorem warmBeneficiary (a : Address) : L false _ (warmBeneficiary a) :=
  h.ifCold a (h.pure _) (h.pure _)

/-! ### Calls -/

theorem newAccountGas (transfers : Bool) (a : Address) :
    L false _ (CallGasFn.newAccountGas s transfers a) := by
  refine ite (ite ?_ (h.pure _)) ?_
  · exact h.bind (h.read (.empty a) rfl fun _ => rfl) fun _ => ite (h.pure _) (h.pure _)
  · exact h.bind (h.read (.exist a) rfl fun _ => rfl) fun _ => ite (h.pure _) (h.pure _)

theorem base {f : CallGasFn} (hf : f.reads ≤ depth) : L true _ (f.base s n) := by
  cases f with
  | gasCall =>
    have hdepth : 3 ≤ depth := hf
    exact h.bind (h.back hf) fun _ => h.bind (h.back (by omega)) fun _ =>
      h.bind (h.newAccountGas _ _) fun _ => h.after h.memory fun _ => h.checked _
  | gasCallCode =>
    exact h.after h.memory fun _ => h.bind (h.back hf) fun _ => h.checked _
  | gasDelegateCall => exact h.memory
  | gasStaticCall => exact h.memory

theorem call {f : CallGasFn} (hK : K (.call f)) (hf : f.reads ≤ depth) :
    L true _ (f.gas s n) := by
  have hdepth : 0 < depth := lt_of_lt_of_le (by cases f <;> decide) hf
  refine h.after (h.base hf) fun base => h.bind (h.back hdepth) fun requested =>
    h.bind h.get fun st => ?_
  cases callGas s.rules.isEIP150 st.gas base requested with
  | none => exact h.bind (h.callGasTemp hK _) fun _ => h.throw _
  | some temp => exact h.bind (h.callGasTemp hK _) fun _ => h.checked _

variable {f : CallGasFn} (hK : K (.call f))
include hK

theorem prepay (amount : UInt64) : L false _ (CallGasFn.prepay amount) :=
  h.bind (h.useGas hK amount) fun _ => ite (h.throw _) (h.pure _)

theorem coldCharge (a : Address) : L false _ (CallGasFn.coldCharge a) :=
  h.ifCold a (h.pure _) (h.bind (h.prepay hK _) fun _ => h.pure _)

theorem delegationCharge (a : Address) : L false _ (CallGasFn.delegationCharge a) := by
  refine h.bind (h.read (.getCode a) rfl fun _ => rfl) fun code => ?_
  cases parseDelegation code with
  | none => exact h.pure _
  | some target =>
    exact h.ifCold target (h.bind (h.prepay hK _) fun _ => h.pure _)
      (h.bind (h.prepay hK _) fun _ => h.pure _)

omit hK in
/-- **A law of the gas functions.** -/
theorem gas {g : GasFn} (hK : K g.kind) (hg : g.reads ≤ depth) :
    L g.pricesMemory _ (g.gas s n) := by
  cases g with
  | memoryCopierGas | gasKeccak256 | gasCreate2 => exact h.wordGas hg _
  | makeGasLog => exact h.gasLog hg _
  | pureMemoryGascost => exact h.memory
  | gasExpFrontier | gasExpEIP158 => exact h.bind (h.back hg) fun _ => h.checked _
  | gasCreateEip3860 | gasCreate2Eip3860 => exact h.gasInitCode hg _
  | gasSStore =>
    have hdepth : 2 ≤ depth := hg
    exact h.bind (h.back hg) fun _ => h.bind (h.back (by omega)) fun x =>
      h.bind (h.read (.getState s.self x) rfl fun _ => rfl) fun _ =>
        ite (h.legacySStore hK _ _) (h.netSStore hK _ _ _ _ _)
  | gasSStoreEIP2200 =>
    have hdepth : 2 ≤ depth := hg
    exact h.bind h.sentry fun _ => h.bind (h.back hg) fun _ => h.bind (h.back (by omega)) fun x =>
      h.bind (h.read (.getState s.self x) rfl fun _ => rfl) fun _ => h.netSStore hK _ _ _ _ _
  | makeGasSStoreFunc =>
    have hdepth : 2 ≤ depth := hg
    exact h.bind h.sentry fun _ => h.bind (h.back hg) fun _ => h.bind (h.back (by omega)) fun x =>
      h.bind (h.read (.getState s.self x) rfl fun _ => rfl) fun _ =>
        h.bind (h.warmSlot _ _) fun _ =>
        h.bind (h.netSStore hK _ _ _ _ _) fun _ => h.pure _
  | gasSLoadEIP2929 =>
    exact h.bind (h.back hg) fun _ => h.bind (h.slotInAccessList _ _) fun _ => ite (h.pure _)
      (h.bind (h.addSlot _ _) fun _ => h.pure _)
  | gasExtCodeCopyEIP2929 =>
    have hdepth : 4 ≤ depth := hg
    exact h.after (h.wordGas hg _) fun _ => h.bind (h.back (by omega)) fun _ =>
      h.ifCold _ (h.pure _) (h.checked _)
  | gasEip2929AccountCheck =>
    exact h.bind (h.back hg) fun _ => h.ifCold _ (h.pure _) (h.pure _)
  | gasSelfdestruct =>
    exact h.bind (ite (h.selfdestructCost hg) (h.pure _)) fun _ =>
      h.bind (h.selfdestructRefund hK _) fun _ => h.pure _
  | makeSelfdestructGasFn =>
    exact h.bind (h.back hg) fun _ => h.bind (h.warmBeneficiary _) fun _ =>
      h.bind (h.fundsEmpty _ _) fun _ =>
        h.bind (ite (h.selfdestructRefund hK _) (h.pure _)) fun _ => h.pure _
  | call f => exact h.call hK hg
  | makeCallVariantGasCallEIP2929 f =>
    obtain ⟨hdepth, hf⟩ := max_le_iff.mp hg
    refine h.bind (h.back hdepth) fun _ => h.ifCold _ (h.call hK hf) ?_
    exact h.bind (h.prepay hK _) fun _ => h.after (h.call hK hf) fun _ =>
      h.bind (h.returnGas hK _) fun _ => h.pure _
  | makeCallVariantGasCallEIP7702 f =>
    obtain ⟨hdepth, hf⟩ := max_le_iff.mp hg
    exact h.bind (h.back hdepth) fun _ => h.bind (h.coldCharge hK _) fun _ =>
      h.bind (h.delegationCharge hK _) fun _ => h.after (h.call hK hf) fun _ =>
        h.bind (h.returnGas hK _) fun _ => h.checked _

end GasLaw

/-- What keeps a relation keeps a weaker one, with other kinds of gas
functions if it has what only these do. -/
theorem GasLaw.mono {s : GasScope} {n : UInt64} {depth : ℕ} {K K' : GasKind → Prop}
    {R R' : GasSt → GasSt → Prop} [IsPreorder GasSt R']
    (h : GasLaw s n depth K fun _ _ => Keeps R) (hR : ∀ t t', R t t' → R' t t')
    (hadd : K' .sstore ∨ K' .selfdestruct → ∀ amount, Keeps R' (GasM.addRefund amount))
    (hsub : K' .sstore → ∀ amount, Keeps R' (GasM.subRefund amount))
    (hcall : ∀ f, K' (.call f) → K (.call f)) : GasLaw s n depth K' fun _ _ => Keeps R' where
  pure := .pure
  throw _ := .throw _
  canary := .throw _
  bind := .bind
  after := .bind
  get := .get
  back hk := (h.back hk).mono hR
  checked o := (h.checked o).mono hR
  memory := h.memory.mono hR
  read o ho hf := (h.read o ho hf).mono hR
  slotInAccessList a k := (h.slotInAccessList a k).mono hR
  addAddress a := (h.addAddress a).mono hR
  addSlot a k := (h.addSlot a k).mono hR
  addRefund := hadd
  subRefund := hsub
  useGas hK amount := (h.useGas (hcall _ hK) amount).mono hR
  returnGas hK amount := (h.returnGas (hcall _ hK) amount).mono hR
  callGasTemp hK temp := (h.callGasTemp (hcall _ hK) temp).mono hR
