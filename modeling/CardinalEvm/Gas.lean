import CardinalEvm.Machine

/-!
# The gas functions

The dynamic gas functions of `vm/gas_table.go` and
`vm/operations_acl.go`. A gas function looks at the contract's address,
the stack and the length of the memory. What it can change is the state
of a `GasM` program: the state database, `callGasTemp`, the gas left in
the contract, and the fee paid for the memory so far.

A gas function returns an error where the source does, and the
interpreter turns every such error into `ErrOutOfGas`; a panic is kept
apart.
-/

open Params

/-- How a gas function ends other than by giving a cost. -/
inductive GasStop where
  | err (e : VmErr)
  | fault (f : Fault)
  deriving DecidableEq

/-- What a gas function can change. -/
structure GasSt where
  statedb : StateDB
  callGasTemp : UInt64
  /-- `contract.Gas`. -/
  gas : UInt64
  /-- `mem.lastGasCost`. -/
  lastGasCost : UInt64
  trace : List Event

/-- What a gas function looks at. -/
structure GasScope where
  rules : Rules
  self : Address
  stack : List Word
  /-- `mem.Len()`. -/
  memLen : Nat

abbrev GasM := EStateM GasStop GasSt

namespace GasM

/-- `stack.Back(n)`. -/
def back (s : GasScope) (n : Nat) : GasM Word :=
  attempt (.fault .stack) (fun st => (s.stack[n]?).map (fun w => (w, st)))

/-- A checked sum or product, or `ErrGasUintOverflow`. -/
def checked (n : Option UInt64) : GasM UInt64 :=
  attempt (.err .gasUintOverflow) (fun st => n.map (fun n => (n, st)))

/-- Calls a getter of the state. -/
def onDb {α : Type} (f : StateDB → α × StateDB) : GasM α :=
  modifyGet (fun st => ((f st.statedb).1, { st with statedb := (f st.statedb).2 }))

/-- `AddRefund`. -/
def addRefund (amount : UInt64) : GasM Unit :=
  modify (fun st => { st with
    statedb := st.statedb.addRefund amount
    trace := .addRefund st.statedb.refund amount :: st.trace })

/-- `SubRefund`. -/
def subRefund (amount : UInt64) : GasM Unit :=
  modify (fun st => { st with
    statedb := st.statedb.subRefund amount
    trace := .subRefund st.statedb.refund amount :: st.trace })

/-- `UseGas`. -/
def useGas (amount : UInt64) : GasM Bool :=
  modifyGet (fun st =>
    if st.gas < amount then (false, st)
    else (true, { st with
      gas := st.gas - amount
      trace := .useGas st.gas amount :: st.trace }))

/-- `contract.Gas += amount`. -/
def returnGas (amount : UInt64) : GasM Unit :=
  modify (fun st => { st with
    gas := st.gas + amount
    trace := .addGas st.gas amount :: st.trace })

/-- `AddAddressToAccessList`, which the gas functions call for an address
that is not on the list. -/
def addAddress (a : Address) : GasM Unit :=
  modify (fun st => { st with statedb := st.statedb.addAddressToAccessList a })

/-- `AddressInAccessList`. -/
def addressInAccessList (a : Address) : GasM Bool := do
  pure ((← get).statedb.addressInAccessList a)

/-- `SlotInAccessList`. -/
def slotInAccessList (a : Address) (slot : Hash) : GasM (Bool × Bool) :=
  attempt (.fault .slice) (fun st =>
    (st.statedb.slotInAccessList a slot).map (fun p => (p, st)))

/-- `AddSlotToAccessList`, which the gas functions call for a slot that is
not on the list. -/
def addSlot (a : Address) (slot : Hash) : GasM Unit :=
  attempt (.fault .slice) (fun st =>
    (st.statedb.addSlotToAccessList a slot).map (fun d =>
      ((), { st with statedb := d })))

end GasM

open GasM

/-! ## Memory -/

/-- `newTotalFee` of `memoryGasCost`. -/
def totalFee (words : UInt64) : UInt64 :=
  words * Params.memoryGas + words * words / quadCoeffDiv

/-- `memoryGasCost`. -/
def memoryGasCost (s : GasScope) (newMemSize : UInt64) : GasM UInt64 :=
  if newMemSize = 0 then pure 0
  else if 0x1FFFFFFFE0 < newMemSize then throw (.err .gasUintOverflow)
  else
    let newMemSizeWords := toWordSize newMemSize
    let newMemSize := newMemSizeWords * 32
    if s.memLen < newMemSize.toNat then
      modifyGet (fun st => (totalFee newMemSizeWords - st.lastGasCost,
        { st with lastGasCost := totalFee newMemSizeWords }))
    else pure 0

/-- `memoryCopierGas`, `gasKeccak256` and `gasCreate2`: a rate for each
word of the size at a position of the stack, on top of the memory. -/
def wordGas (pos : Nat) (rate : UInt64) (s : GasScope) (memorySize : UInt64) : GasM UInt64 := do
  let gas ← memoryGasCost s memorySize
  let words ← back s pos
  let words ← checked (Word.uint64WithOverflow words)
  let words ← checked (safeMul (toWordSize words) rate)
  checked (safeAdd gas words)

/-- `makeGasLog`. -/
def gasLog (n : UInt64) (s : GasScope) (memorySize : UInt64) : GasM UInt64 := do
  let requestedSize ← back s 1
  let requestedSize ← checked (Word.uint64WithOverflow requestedSize)
  let gas ← memoryGasCost s memorySize
  let gas ← checked (safeAdd gas logGas)
  let gas ← checked (safeAdd gas (n * logTopicGas))
  let memorySizeGas ← checked (safeMul requestedSize logDataGas)
  checked (safeAdd gas memorySizeGas)

/-- `gasExpFrontier` and `gasExpEIP158`. -/
def gasExp (expByte : UInt64) (s : GasScope) : GasM UInt64 := do
  let exponent ← back s 1
  checked (safeAdd (UInt64.ofNat ((Word.bitLen exponent + 7) / 8) * expByte) expGas)

/-- `gasCreateEip3860` and `gasCreate2Eip3860`. -/
def gasInitCode (rate : UInt64) (s : GasScope) (memorySize : UInt64) : GasM UInt64 := do
  let gas ← memoryGasCost s memorySize
  let size ← back s 2
  let size ← checked (Word.uint64WithOverflow size)
  if maxInitCodeSize < size.toNat then throw (.err .gasUintOverflow)
  else checked (safeAdd gas (rate * ((size + 31) / 32)))

/-! ## Storage -/

variable [Keccak]

/-- What the net metering of storage charges and refunds. -/
structure NetCosts where
  noop : UInt64
  init : UInt64
  clean : UInt64
  dirty : UInt64
  clearRefund : UInt64
  resetToZeroRefund : UInt64
  resetToOriginalRefund : UInt64

/-- EIP-1283. -/
def netCostsEIP1283 : NetCosts where
  noop := netSstoreNoopGas
  init := netSstoreInitGas
  clean := netSstoreCleanGas
  dirty := netSstoreDirtyGas
  clearRefund := netSstoreClearRefund
  resetToZeroRefund := netSstoreResetClearRefund
  resetToOriginalRefund := netSstoreResetRefund

/-- EIP-2200. -/
def netCostsEIP2200 : NetCosts where
  noop := sloadGasEIP2200
  init := sstoreSetGasEIP2200
  clean := sstoreResetGasEIP2200
  dirty := sloadGasEIP2200
  clearRefund := sstoreClearsScheduleRefundEIP2200
  resetToZeroRefund := sstoreSetGasEIP2200 - sloadGasEIP2200
  resetToOriginalRefund := sstoreResetGasEIP2200 - sloadGasEIP2200

/-- EIP-2929, and EIP-3529 with another clearing refund. -/
def netCostsEIP2929 (clearingRefund : UInt64) : NetCosts where
  noop := warmStorageReadCostEIP2929
  init := sstoreSetGasEIP2200
  clean := sstoreResetGasEIP2200 - coldSloadCostEIP2929
  dirty := warmStorageReadCostEIP2929
  clearRefund := clearingRefund
  resetToZeroRefund := sstoreSetGasEIP2200 - warmStorageReadCostEIP2929
  resetToOriginalRefund :=
    (sstoreResetGasEIP2200 - coldSloadCostEIP2929)
      - warmStorageReadCostEIP2929

/-- The refund for clearing a slot, or its return, in a slot that was
changed before. -/
def clearingRefunds (p : NetCosts) (original current value : Hash) : GasM Unit :=
  if original ≠ 0 then
    if current = 0 then subRefund p.clearRefund
    else if value = 0 then addRefund p.clearRefund
    else pure ()
  else pure ()

/-- The refund for putting the original value back. -/
def resettingRefunds (p : NetCosts) (original value : Hash) : GasM Unit :=
  if original = value then
    if original = 0 then addRefund p.resetToZeroRefund
    else addRefund p.resetToOriginalRefund
  else pure ()

/-- **The net metering of a store**, once the current value is known. -/
def netSStore (p : NetCosts) (self : Address) (slot value current : Hash) : GasM UInt64 :=
  if current = value then pure p.noop
  else do
    let original ← onDb (fun d => d.getCommittedState self slot)
    if original = current then
      if original = 0 then pure p.init
      else if value = 0 then do
        addRefund p.clearRefund
        pure p.clean
      else pure p.clean
    else do
      clearingRefunds p original current value
      resettingRefunds p original value
      pure p.dirty

/-- The legacy metering in `gasSStore`. -/
def legacySStore (value current : Hash) : GasM UInt64 :=
  if current = 0 ∧ value ≠ 0 then pure sstoreSetGas
  else if current ≠ 0 ∧ value = 0 then do
    addRefund sstoreRefundGas
    pure sstoreClearGas
  else pure sstoreResetGas

/-- `gasSStore`. -/
def GasM.gasSStore (s : GasScope) : GasM UInt64 := do
  let y ← back s 1
  let x ← back s 0
  let current ← onDb (fun d => d.getState s.self x)
  if s.rules.isPetersburg || !s.rules.isConstantinople then legacySStore y current
  else netSStore netCostsEIP1283 s.self x y current

/-- The reentrancy sentry. -/
def sentry : GasM Unit := do
  if (← get).gas ≤ sstoreSentryGasEIP2200 then throw (.err .reentrancySentry)

/-- `gasSStoreEIP2200`. -/
def GasM.gasSStoreEIP2200 (s : GasScope) : GasM UInt64 := do
  sentry
  let y ← back s 1
  let x ← back s 0
  let current ← onDb (fun d => d.getState s.self x)
  netSStore netCostsEIP2200 s.self x y current

/-- The access list's part of `makeGasSStoreFunc`. -/
def warmSlot (self : Address) (slot : Hash) : GasM UInt64 := do
  let (addrPresent, slotPresent) ← slotInAccessList self slot
  if slotPresent then pure 0
  else do
    addSlot self slot
    if addrPresent then pure coldSloadCostEIP2929 else throw (.fault .canary)

/-- `makeGasSStoreFunc`. -/
def gasSStoreFunc (clearingRefund : UInt64) (s : GasScope) : GasM UInt64 := do
  sentry
  let y ← back s 1
  let x ← back s 0
  let current ← onDb (fun d => d.getState s.self x)
  let cost ← warmSlot s.self x
  let net ← netSStore (netCostsEIP2929 clearingRefund) s.self x y current
  pure (cost + net)

/-! ## The access list -/

/-- `gasSLoadEIP2929`. -/
def GasM.gasSLoadEIP2929 (s : GasScope) : GasM UInt64 := do
  let slot ← back s 0
  let (_, slotPresent) ← slotInAccessList s.self slot
  if slotPresent then pure warmStorageReadCostEIP2929
  else do
    addSlot s.self slot
    pure coldSloadCostEIP2929

/-- What a cold account costs beyond the warm price, which is charged as
constant gas. -/
def coldCost : UInt64 := coldAccountAccessCostEIP2929 - warmStorageReadCostEIP2929

/-- `gasExtCodeCopyEIP2929`. -/
def GasM.gasExtCodeCopyEIP2929 (s : GasScope) (memorySize : UInt64) : GasM UInt64 := do
  let gas ← wordGas 3 copyGas s memorySize
  let addr := Word.bytes20 (← back s 0)
  if (← addressInAccessList addr) then pure gas
  else do
    addAddress addr
    checked (safeAdd gas coldCost)

/-- `gasEip2929AccountCheck`. -/
def GasM.gasEip2929AccountCheck (s : GasScope) : GasM UInt64 := do
  let addr := Word.bytes20 (← back s 0)
  if (← addressInAccessList addr) then pure 0
  else do
    addAddress addr
    pure coldCost

/-! ## Self-destruction -/

/-- Whether a self-destruction moves a balance to an empty account. -/
def fundsEmpty (self beneficiary : Address) : GasM Bool := do
  if (← onDb (fun d => d.empty beneficiary)) then
    pure ((← onDb (fun d => d.getBalance self)) ≠ 0)
  else pure false

/-- Whether `gasSelfdestruct` charges for a new account. -/
def selfdestructCreates (rules : Rules) (self beneficiary : Address) : GasM Bool := do
  if rules.isEIP158 then fundsEmpty self beneficiary
  else pure (!(← onDb (fun d => d.exist beneficiary)))

/-- The part of `gasSelfdestruct` from EIP-150 on. -/
def selfdestructCost (s : GasScope) : GasM UInt64 := do
  let address := Word.bytes20 (← back s 0)
  if (← selfdestructCreates s.rules s.self address) then
    pure (selfdestructGasEIP150 + createBySelfdestructGas)
  else pure selfdestructGasEIP150

/-- The refund for a contract's first self-destruction. -/
def selfdestructRefund (self : Address) : GasM Unit := do
  let suicided ← onDb (fun d => d.hasSuicided self)
  if !suicided then addRefund selfdestructRefundGas else pure ()

/-- `gasSelfdestruct`. -/
def GasM.gasSelfdestruct (s : GasScope) : GasM UInt64 := do
  let gas ← (if s.rules.isEIP150 then selfdestructCost s else pure 0)
  selfdestructRefund s.self
  pure gas

/-- What warming the beneficiary up costs. -/
def warmBeneficiary (address : Address) : GasM UInt64 := do
  if (← addressInAccessList address) then pure 0
  else do
    addAddress address
    pure coldAccountAccessCostEIP2929

/-- `makeSelfdestructGasFn`. -/
def selfdestructGasFn (refundsEnabled : Bool) (s : GasScope) : GasM UInt64 := do
  let address := Word.bytes20 (← back s 0)
  let gas ← warmBeneficiary address
  let creates ← fundsEmpty s.self address
  let gas := if creates then gas + createBySelfdestructGas else gas
  (if refundsEnabled then selfdestructRefund s.self else pure ())
  pure gas

/-! ## Calls -/

/-- `callGas`, with nothing for `ErrGasUintOverflow`. -/
def callGas (isEip150 : Bool) (availableGas base : UInt64) (callCost : Word) : Option UInt64 :=
  let gas := (availableGas - base) - (availableGas - base) / 64
  if isEip150 && (!Word.isUint64 callCost || gas < Word.uint64 callCost) then some gas
  else Word.uint64WithOverflow callCost

/-- The gas functions of the four calls. -/
inductive CallGasFn where
  | gasCall | gasCallCode | gasDelegateCall | gasStaticCall
  deriving DecidableEq

namespace CallGasFn

/-- What `gasCall` charges for a new account. -/
def newAccountGas (s : GasScope) (transfersValue : Bool) (address : Address) : GasM UInt64 := do
  if s.rules.isEIP158 then
    if transfersValue then
      if (← onDb (fun d => d.empty address)) then pure callNewAccountGas else pure 0
    else pure 0
  else if (← onDb (fun d => d.exist address)) then pure 0
  else pure callNewAccountGas

/-- What a transfer of the value on the stack costs. -/
def transferGas (value : Word) : UInt64 :=
  if value = 0 then 0 else callValueTransferGas

/-- The cost of a call before the gas that goes with it. -/
def base (s : GasScope) (memorySize : UInt64) : CallGasFn → GasM UInt64
  | gasCall => do
    let value ← back s 2
    let address ← back s 1
    let gas ← newAccountGas s (value ≠ 0) (Word.bytes20 address)
    let memoryGas ← memoryGasCost s memorySize
    checked (safeAdd (gas + transferGas value) memoryGas)
  | gasCallCode => do
    let memoryGas ← memoryGasCost s memorySize
    let value ← back s 2
    checked (safeAdd (transferGas value) memoryGas)
  | gasDelegateCall => memoryGasCost s memorySize
  | gasStaticCall => memoryGasCost s memorySize

/-- The body of each function. -/
def gas (s : GasScope) (memorySize : UInt64) (f : CallGasFn) : GasM UInt64 := do
  let base ← f.base s memorySize
  let requested ← back s 0
  match callGas s.rules.isEIP150 (← get).gas base requested with
  | none =>
    modify (fun st => { st with callGasTemp := 0 })
    throw (.err .gasUintOverflow)
  | some temp =>
    modify (fun st => { st with callGasTemp := temp })
    checked (safeAdd base temp)

/-- Charges in advance, or `ErrOutOfGas`. -/
def prepay (amount : UInt64) : GasM Unit := do
  if !(← useGas amount) then throw (.err .outOfGas)

/-- `makeCallVariantGasCallEIP2929`. The last sum is not checked. -/
def gasEIP2929 (s : GasScope) (memorySize : UInt64) (f : CallGasFn) : GasM UInt64 := do
  let addr := Word.bytes20 (← back s 1)
  if (← addressInAccessList addr) then f.gas s memorySize
  else do
    addAddress addr
    prepay coldCost
    let gas ← f.gas s memorySize
    returnGas coldCost
    pure (gas + coldCost)

end CallGasFn

/-- `types.ParseDelegation`. -/
def parseDelegation (b : Bytes) : Option Address :=
  if b.length ≠ 23 || b.take 3 ≠ [0xef, 0x01, 0x00] then none
  else some (bytesToAddress (b.drop 3))

namespace CallGasFn

/-- The charge for a cold account in `makeCallVariantGasCallEIP7702`. -/
def coldCharge (addr : Address) : GasM UInt64 := do
  if (← addressInAccessList addr) then pure 0
  else do
    addAddress addr
    prepay coldCost
    pure coldCost

/-- The charge for resolving a delegation. -/
def delegationCharge (addr : Address) : GasM UInt64 := do
  match parseDelegation (← onDb (fun d => d.getCode addr)) with
  | none => pure 0
  | some target =>
    if (← addressInAccessList target) then do
      prepay warmStorageReadCostEIP2929
      pure warmStorageReadCostEIP2929
    else do
      addAddress target
      prepay coldAccountAccessCostEIP2929
      pure coldAccountAccessCostEIP2929

/-- `makeCallVariantGasCallEIP7702`. -/
def gasEIP7702 (s : GasScope) (memorySize : UInt64) (f : CallGasFn) : GasM UInt64 := do
  let addr := Word.bytes20 (← back s 1)
  let cold ← coldCharge addr
  let delegation ← delegationCharge addr
  let total := cold + delegation
  let old ← f.gas s memorySize
  returnGas total
  checked (safeAdd old total)

end CallGasFn

/-! ## The gas functions as data -/

/-- The dynamic gas functions the instruction tables name. -/
inductive GasFn where
  | memoryCopierGas (stackpos : Nat)
  | gasSStore
  | gasSStoreEIP2200
  | makeGasSStoreFunc (clearingRefund : UInt64)
  | makeGasLog (n : UInt64)
  | gasKeccak256
  | pureMemoryGascost
  | gasCreate2
  | gasExpFrontier
  | gasExpEIP158
  | gasCreateEip3860
  | gasCreate2Eip3860
  | gasSLoadEIP2929
  | gasExtCodeCopyEIP2929
  | gasEip2929AccountCheck
  | gasSelfdestruct
  | makeSelfdestructGasFn (refundsEnabled : Bool)
  | call (f : CallGasFn)
  | makeCallVariantGasCallEIP2929 (f : CallGasFn)
  | makeCallVariantGasCallEIP7702 (f : CallGasFn)
  deriving DecidableEq

/-- The function each name stands for. -/
def GasFn.gas (s : GasScope) (memorySize : UInt64) : GasFn → GasM UInt64
  | memoryCopierGas stackpos => wordGas stackpos copyGas s memorySize
  | gasSStore => GasM.gasSStore s
  | gasSStoreEIP2200 => GasM.gasSStoreEIP2200 s
  | makeGasSStoreFunc clearingRefund => gasSStoreFunc clearingRefund s
  | makeGasLog n => gasLog n s memorySize
  | gasKeccak256 => wordGas 1 keccak256WordGas s memorySize
  | pureMemoryGascost => memoryGasCost s memorySize
  | gasCreate2 => wordGas 2 keccak256WordGas s memorySize
  | gasExpFrontier => gasExp expByteFrontier s
  | gasExpEIP158 => gasExp expByteEIP158 s
  | gasCreateEip3860 => gasInitCode initCodeWordGas s memorySize
  | gasCreate2Eip3860 =>
    gasInitCode (initCodeWordGas + keccak256WordGas) s memorySize
  | gasSLoadEIP2929 => GasM.gasSLoadEIP2929 s
  | gasExtCodeCopyEIP2929 => GasM.gasExtCodeCopyEIP2929 s memorySize
  | gasEip2929AccountCheck => GasM.gasEip2929AccountCheck s
  | gasSelfdestruct => GasM.gasSelfdestruct s
  | makeSelfdestructGasFn refundsEnabled => selfdestructGasFn refundsEnabled s
  | call f => f.gas s memorySize
  | makeCallVariantGasCallEIP2929 f => f.gasEIP2929 s memorySize
  | makeCallVariantGasCallEIP7702 f => f.gasEIP7702 s memorySize
