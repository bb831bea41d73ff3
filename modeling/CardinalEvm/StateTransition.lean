import CardinalEvm.Interpreter
import Mathlib.Data.Nat.Size

/-!
# Applying messages

`ApplyMessage` of the API: the checks before a message, the purchase of
its gas, the run, and what is paid back. The state passed along is the
`StateTransition` with the EVM and the gas pool it points to. Where the
Go code returns an error the program stops with it (`Stop.err`), and what
was written before stays written, as in Go.

The code asks the chain configuration for the forks again and again, with
the number and the time the EVM was made with. It always gets the rules of
the EVM, so these are asked here.

`Entry` is a record of the `uint64` arithmetic, of the refund, and of what
is paid to whom. The program has no such record and nothing it does
depends on it.
-/

/-! ## Messages -/

/-- `types.AccessTuple`. -/
structure AccessTuple where
  address : Address
  storageKeys : List Hash
  deriving DecidableEq

/-- **`types.AccessList`.** It is in memory with all its keys, so it has
fewer elements than there are bytes in the address space of the
runtime. -/
structure TxAccessList where
  tuples : List AccessTuple := []
  fits : tuples.length + (tuples.map fun t => t.storageKeys.length).sum < 2 ^ 48 := by decide

instance : Inhabited TxAccessList := ⟨{}⟩

/-- `AccessList.StorageKeys`. -/
def TxAccessList.storageKeys (l : TxAccessList) : ℕ :=
  (l.tuples.map fun t => t.storageKeys.length).sum

/-- `types.Authorization`, with the account that its signature recovers
to in place of the signature – nothing if it is invalid. -/
structure Authorization where
  chainID : Word := 0
  address : Address := 0
  nonce : UInt64 := 0
  authority : Option Address := none
  deriving DecidableEq

/-- The authorizations of a message, in memory as the access list. -/
structure AuthList where
  auths : List Authorization := []
  fits : auths.length < 2 ^ 48 := by decide

instance : Inhabited AuthList := ⟨{}⟩

/-- **A message**: what `ApplyMessage` is told to do. A fee cap is a
pointer and may be nil, the price is not. -/
structure Message where
  sender : Address
  recipient : Option Address
  nonce : UInt64 := 0
  value : ℤ := 0
  gas : UInt64
  gasPrice : ℤ := 0
  gasFeeCap : Option ℤ := some 0
  gasTipCap : Option ℤ := some 0
  data : Bytes := []
  accessList : TxAccessList := {}
  authList : AuthList := {}
  checkNonce : Bool := false

/-- What the sender has to have to buy the gas of a message. -/
def Message.funds (msg : Message) : ℤ :=
  (msg.gasFeeCap.map fun cap => (msg.gas.toNat : ℤ) * cap).getD (msg.gas.toNat * msg.gasPrice)

/-- **The errors of a message that is not executed**, with what their
texts say. -/
inductive TxErr where
  | nonceTooHigh (addr : Address) (tx state : UInt64)
  | nonceTooLow (addr : Address) (tx state : UInt64)
  | feeCapVeryHigh (addr : Address) (bitLen : ℕ)
  | tipVeryHigh (addr : Address) (bitLen : ℕ)
  | tipAboveFeeCap (addr : Address) (tip feeCap : ℤ)
  | feeCapTooLow (addr : Address) (feeCap baseFee : ℤ)
  | insufficientFunds (addr : Address) (have_ want : ℤ)
  | gasLimitReached
  | gasUintOverflow
  | intrinsicGas (have_ want : UInt64)
  | floorDataGas (have_ want : UInt64)
  | insufficientFundsForTransfer (addr : Address)
  | maxInitCodeSizeExceeded (size limit : ℕ)
  deriving DecidableEq

/-- `ExecutionResult`. -/
structure ExecutionResult where
  usedGas : UInt64
  err : Option VmErr
  returnData : Bytes
  deriving DecidableEq

/-- `ExecutionResult.Failed`. -/
def ExecutionResult.failed (r : ExecutionResult) : Bool := r.err.isSome

/-! ## Intrinsic gas -/

/-- Adds the price of `n` things to an amount of gas, unless it exceeds a
`uint64`. -/
def chargeEach (n price gas : UInt64) : Except TxErr UInt64 :=
  if (0xffffffffffffffff - gas) / price < n then .error .gasUintOverflow
  else .ok (gas + n * price)

/-- The number of bytes of the data that are not zero. -/
def nonZeroBytes (data : Bytes) : UInt64 := UInt64.ofNat (data.countP (· ≠ 0))

/-- The part of `IntrinsicGas` for the data. -/
def chargeData (data : Bytes) (isContractCreation isEIP2028 isEIP3860 : Bool) (gas : UInt64) :
    Except TxErr UInt64 := do
  let dataLen := UInt64.ofNat data.length
  if dataLen = 0 then return gas
  let nz := nonZeroBytes data
  let nonZeroGas :=
    if isEIP2028 then Params.txDataNonZeroGasEIP2028 else Params.txDataNonZeroGasFrontier
  let gas ← chargeEach nz nonZeroGas gas
  let gas ← chargeEach (dataLen - nz) Params.txDataZeroGas gas
  if isContractCreation && isEIP3860 then chargeEach (toWordSize dataLen) Params.initCodeWordGas gas
  else return gas

/-- **`IntrinsicGas`.** What the lists cost is added without a check. -/
def intrinsicGas (data : Bytes) (accessList : TxAccessList) (authList : AuthList)
    (isContractCreation isHomestead isEIP2028 isEIP3860 : Bool) : Except TxErr UInt64 := do
  let gas := if isContractCreation && isHomestead then Params.txGasContractCreation
    else Params.txGas
  let gas ← chargeData data isContractCreation isEIP2028 isEIP3860 gas
  let gas := gas + UInt64.ofNat accessList.tuples.length * Params.txAccessListAddressGas
  let gas := gas + UInt64.ofNat accessList.storageKeys * Params.txAccessListStorageKeyGas
  return gas + UInt64.ofNat authList.auths.length * Params.callNewAccountGas

/-- The intrinsic gas of a message under the rules. -/
def Message.intrinsic (rules : Rules) (msg : Message) : Except TxErr UInt64 :=
  intrinsicGas msg.data msg.accessList msg.authList msg.recipient.isNone rules.isHomestead
    rules.isIstanbul rules.isShanghai

/-- `FloorDataGas`. -/
def floorDataGas (data : Bytes) : Except TxErr UInt64 :=
  let z := UInt64.ofNat (data.countP (· = 0))
  let nz := UInt64.ofNat data.length - z
  let tokens := nz * Params.txTokenPerNonZeroByte + z
  if (0xffffffffffffffff - Params.txGas) / Params.txCostFloorPerToken < tokens then
    .error .gasUintOverflow
  else .ok (Params.txGas + tokens * Params.txCostFloorPerToken)

/-! ## State transitions -/

/-- **What happened in a transition.** -/
inductive Entry where
  /-- `a + b` on `uint64`. -/
  | add (a b : UInt64)
  /-- `a - b` on `uint64`. -/
  | sub (a b : UInt64)
  /-- `nonce + 1`, for the nonce of the sender of a call. -/
  | nonce (nonce : UInt64)
  /-- `AddBalance(addr, amount)`, or `SubBalance(addr, -amount)`. -/
  | paid (addr : Address) (amount : ℤ)
  /-- `calcRefund` with this much gas used and the refund counter at
  `counter`, and what it granted. -/
  | refund (used counter granted : UInt64)
  deriving DecidableEq

/-- **The changing part of a `StateTransition`**: the EVM with its state,
the gas pool, and the gas. -/
structure Transition where
  evm : Evm
  gp : UInt64
  gas : UInt64 := 0
  initialGas : UInt64 := 0
  /-- What happened so far, the newest first. -/
  log : List Entry := []

/-- **Why a transition ends early**: with an error, a panic of the EVM or
one of the gas pool ("gas pool pushed above uint64"). -/
inductive Stop where
  | err (e : TxErr)
  | fault (f : Fault)
  | gasPool
  deriving DecidableEq

abbrev TransitionM := EStateM Stop Transition

namespace Transition

/-- Runs something in the EVM. -/
def onEvm {α : Type} (m : EStateM Fault Evm α) : TransitionM α := fun t =>
  match m t.evm with
  | .ok a e => .ok a { t with evm := e }
  | .error f e => .error (.fault f) { t with evm := e }

/-- Calls a method of the state. -/
def onDb {α : Type} (f : StateDB → α × StateDB) : TransitionM α := onEvm (Evm.onDb f)

def fail {α : Type} (e : TxErr) : TransitionM α := throw (.err e)

def failIf (p : Prop) [Decidable p] (e : TxErr) : TransitionM Unit :=
  if p then fail e else pure ()

/-- The value of a function that may return an error. -/
def orFail {α : Type} : Except TxErr α → TransitionM α
  | .ok a => pure a
  | .error e => fail e

/-- Reads a number through a pointer. -/
def deref : Option ℤ → TransitionM ℤ
  | some x => pure x
  | none => throw (.fault .nil)

def record (x : Entry) : TransitionM Unit := modify fun t => { t with log := x :: t.log }

def add64 (a b : UInt64) : TransitionM UInt64 := do
  record (.add a b)
  return a + b

def sub64 (a b : UInt64) : TransitionM UInt64 := do
  record (.sub a b)
  return a - b

/-- `GasPool.SubGas`. -/
def subGas (amount : UInt64) : TransitionM Unit := do
  let gp := (← get).gp
  failIf (gp < amount) .gasLimitReached
  let gp ← sub64 gp amount
  modify fun t => { t with gp }

/-- `GasPool.AddGas`. -/
def addGas (amount : UInt64) : TransitionM Unit := do
  let gp := (← get).gp
  (if 0xffffffffffffffff - amount < gp then throw .gasPool else pure ())
  let gp ← add64 gp amount
  modify fun t => { t with gp }

def subBalance (addr : Address) (amount : ℤ) : TransitionM Unit := do
  onEvm (Evm.setDb fun d => d.subBalance addr amount)
  record (.paid addr (-amount))

def addBalance (addr : Address) (amount : ℤ) : TransitionM Unit := do
  onEvm (Evm.setDb fun d => d.addBalance addr amount)
  record (.paid addr amount)

def setGas (gas : UInt64) : TransitionM Unit := modify fun t => { t with gas }

/-- `StateTransition.gasUsed`. -/
def gasUsed : TransitionM UInt64 := do
  let t ← get
  sub64 t.initialGas t.gas

/-! ### The checks before a run -/

/-- `BitLen`. -/
def bitLen (x : ℤ) : ℕ := x.natAbs.size

/-- `StateTransition.buyGas`. -/
def buyGas (msg : Message) : TransitionM Unit := do
  let mgval := (msg.gas.toNat : ℤ) * msg.gasPrice
  let balanceCheck := (msg.gasFeeCap.map fun cap => (msg.gas.toNat : ℤ) * cap).getD mgval
  let balance ← onDb fun d => d.getBalance msg.sender
  failIf (balance < balanceCheck) (.insufficientFunds msg.sender balance balanceCheck)
  subGas msg.gas
  let gas ← add64 (← get).gas msg.gas
  setGas gas
  modify fun t => { t with initialGas := msg.gas }
  subBalance msg.sender mgval

/-- The part of `preCheck` for the nonce. -/
def checkNonce (msg : Message) : TransitionM Unit :=
  if msg.checkNonce then do
    let stNonce ← onDb fun d => d.getNonce msg.sender
    failIf (stNonce < msg.nonce) (.nonceTooHigh msg.sender msg.nonce stNonce)
    failIf (msg.nonce < stNonce) (.nonceTooLow msg.sender msg.nonce stNonce)
  else pure ()

variable (env : Env) (noBaseFee : Bool)

/-- Whether the fees are to be compared with the base fee: not if it is
switched off and both are zero. -/
def feesChecked (msg : Message) : TransitionM Bool := do
  if !noBaseFee then return true
  if 0 < bitLen (← deref msg.gasFeeCap) then return true
  return decide (0 < bitLen (← deref msg.gasTipCap))

/-- The part of `preCheck` for the fees. -/
def checkFees (msg : Message) : TransitionM Unit :=
  match env.rules.isLondon, env.baseFee with
  | true, some baseFee => do
    if ← feesChecked noBaseFee msg then
      let feeCap ← deref msg.gasFeeCap
      failIf (256 < bitLen feeCap) (.feeCapVeryHigh msg.sender (bitLen feeCap))
      let tip ← deref msg.gasTipCap
      failIf (256 < bitLen tip) (.tipVeryHigh msg.sender (bitLen tip))
      failIf (feeCap < tip) (.tipAboveFeeCap msg.sender tip feeCap)
      failIf (feeCap < baseFee) (.feeCapTooLow msg.sender feeCap baseFee)
  | _, _ => pure ()

/-- **`StateTransition.preCheck`.** -/
def preCheck (msg : Message) : TransitionM Unit := do
  checkNonce msg
  checkFees env noBaseFee msg
  buyGas msg

/-- The floor on the gas of a message, none before Prague. -/
def floorOf (msg : Message) : TransitionM UInt64 := do
  if env.rules.isPrague then
    let floor ← orFail (floorDataGas msg.data)
    failIf (msg.gas < floor) (.floorDataGas msg.gas floor)
    return floor
  else return 0

/-- The sender has the value of the message. -/
def checkValue (msg : Message) : TransitionM Unit := do
  if 0 < msg.value then
    let funded ← onEvm (Evm.canTransfer msg.sender msg.value)
    failIf (!funded) (.insufficientFundsForTransfer msg.sender)

/-- The checks between the purchase of the gas and the run: what is
deducted first, the value, and the size of the code of a creation. -/
def checkMessage (msg : Message) : TransitionM UInt64 := do
  let gas ← orFail (msg.intrinsic env.rules)
  let have_ := (← get).gas
  failIf (have_ < gas) (.intrinsicGas have_ gas)
  let floor ← floorOf env msg
  setGas (← sub64 have_ gas)
  checkValue msg
  failIf (env.rules.isShanghai ∧ msg.recipient.isNone ∧ Params.maxInitCodeSize < msg.data.length)
    (.maxInitCodeSizeExceeded msg.data.length Params.maxInitCodeSize)
  return floor

end Transition

/-! ## The run -/

namespace Evm

/-- `AddSlotToAccessList`. -/
def addSlotToAccessList (addr : Address) (slot : Hash) : EStateM Fault Evm Unit :=
  attempt .slice fun e =>
    (e.statedb.addSlotToAccessList addr slot).map fun d => ((), { e with statedb := d })

def addAddressToAccessList (addr : Address) : EStateM Fault Evm Unit :=
  setDb fun d => d.addAddressToAccessList addr

/-- The addresses of a list, one after the other. -/
def addAddresses : List Address → EStateM Fault Evm Unit
  | [] => pure ()
  | addr :: addrs => do
    addAddressToAccessList addr
    addAddresses addrs

/-- The storage keys of an access tuple. -/
def addSlots (addr : Address) : List Hash → EStateM Fault Evm Unit
  | [] => pure ()
  | key :: keys => do
    addSlotToAccessList addr key
    addSlots addr keys

/-- The tuples of a transaction's access list. -/
def addTuples : List AccessTuple → EStateM Fault Evm Unit
  | [] => pure ()
  | el :: els => do
    addAddressToAccessList el.address
    addSlots el.address el.storageKeys
    addTuples els

/-- `ActivePrecompiles`. -/
def activePrecompiles (rules : Rules) : List Address := rules.precompiles.map Prod.fst

/-- `PrepareAccessList`. -/
def prepareAccessList (rules : Rules) (sender coinbase : Address) (dst : Option Address)
    (precompiles : List Address) (txAccesses : TxAccessList) : EStateM Fault Evm Unit := do
  if rules.isBerlin then
    addAddressToAccessList sender
    addAddresses dst.toList
    addAddresses precompiles
    addTuples txAccesses.tuples
    if rules.isShanghai then addAddressToAccessList coinbase

variable [Keccak] (env : Env)

/-- Why an authorization is skipped. -/
inductive AuthErr where
  | wrongChainID | invalidSignature | destinationHasCode | nonceMismatch
  deriving DecidableEq

/-- `AddRefund`. -/
def addRefund (amount : UInt64) : EStateM Fault Evm Unit :=
  modify fun e => { e with
    statedb := e.statedb.addRefund amount
    trace := .addRefund e.statedb.refund amount :: e.trace }

/-- Whether code is there that is no delegation: `code[:3]` is out of
range for code of one or two bytes. -/
def hasOtherCode (code : Bytes) : EStateM Fault Evm Bool :=
  if code.isEmpty then pure false
  else if code.length < 3 then throw .slice
  else pure (decide (code.take 3 ≠ [0xef, 0x01, 0x00]))

/-- The chain an authorization is for: any if it is zero. -/
def authorizedChain (auth : Authorization) : EStateM Fault Evm Bool :=
  if auth.chainID = 0 then pure true
  else match env.chainID with
    | some id => pure (decide ((auth.chainID.toNat : ℤ) = id))
    | none => throw .nil

/-- The part of `applyAuthorization` that writes the account. -/
def delegate (authority : Address) (auth : Authorization) : EStateM Fault Evm Unit := do
  let existing ← onDb fun d => d.exist authority
  (if existing then addRefund (25000 - 12500) else pure ())
  let code := if auth.address = 0 then [] else [0xef, 0x01, 0x00] ++ auth.address.bytes
  setDb fun d => d.setCode authority code
  setDb fun d => d.setNonce authority (auth.nonce + 1)

/-- **`StateTransition.applyAuthorization`**, with the error it
returns. -/
def applyAuthorization (auth : Authorization) : EStateM Fault Evm (Option AuthErr) := do
  if !(← authorizedChain env auth) then return some .wrongChainID
  match auth.authority with
  | none => return some .invalidSignature
  | some authority =>
    addAddressToAccessList authority
    if ← hasOtherCode (← onDb fun d => d.getCode authority) then
      return some .destinationHasCode
    if (← onDb fun d => d.getNonce authority) ≠ auth.nonce then return some .nonceMismatch
    delegate authority auth
    return none

/-- The loop over the authorizations, whose errors are ignored. -/
def applyAuthorizations : List Authorization → EStateM Fault Evm Unit
  | [] => pure ()
  | auth :: auths => do
    let _ ← applyAuthorization env auth
    applyAuthorizations auths

/-- The target of a delegation at the recipient is put on the access
list. -/
def warmDelegation (addr : Address) : EStateM Fault Evm Unit := do
  match parseDelegation (← onDb fun d => d.getCode addr) with
  | some target => addAddressToAccessList target
  | none => pure ()

/-- The access list before a run, from Berlin on. -/
def warmMessage (msg : Message) : EStateM Fault Evm Unit :=
  if env.rules.isBerlin then
    prepareAccessList env.rules msg.sender env.coinbase msg.recipient
      (activePrecompiles env.rules) msg.accessList
  else pure ()

/-- What a call from outside does before the call, when the nonce of its
sender is incremented. -/
def prepareCall (msg : Message) (addr : Address) : EStateM Fault Evm Unit := do
  applyAuthorizations env msg.authList.auths
  warmDelegation addr

/-- **The run of a message**, with this much gas. -/
def runMessage (fuel : ℕ) (msg : Message) (gas : UInt64) : EStateM Fault Evm CallResult := do
  match msg.recipient with
  | none =>
    let (ret, _, gas, err) ←
      create env (run env fuel) (.accountRef msg.sender) msg.data gas msg.value
    return (ret, gas, err)
  | some addr =>
    prepareCall env msg addr
    call env (run env fuel) (.accountRef msg.sender) addr msg.data gas msg.value

end Evm

/-! ## The settlement -/

namespace Transition

variable (env : Env)

/-- The share of the used gas that may be refunded. -/
def refundQuotient (rules : Rules) : UInt64 :=
  if rules.isLondon then Params.refundQuotientEIP3529 else Params.refundQuotient

/-- `StateTransition.calcRefund`. -/
def calcRefund : TransitionM UInt64 := do
  let used ← gasUsed
  let counter := (← get).evm.statedb.refund
  let refund := used / refundQuotient env.rules
  let refund := if counter < refund then counter else refund
  record (.refund used counter refund)
  return refund

/-- The tip the coinbase gets for each gas. -/
def effectiveTip (msg : Message) : TransitionM ℤ :=
  match env.rules.isLondon, env.baseFee with
  | true, some baseFee => do
    let feeCap ← deref msg.gasFeeCap
    return min (← deref msg.gasTipCap) (feeCap - baseFee)
  | _, _ => return msg.gasPrice

/-- What happens to the gas after a run: the refund is added, and what is
left is cut to leave the floor. -/
def settleGas (floor : UInt64) : TransitionM Unit := do
  let refund ← calcRefund env
  setGas (← add64 (← get).gas refund)
  if (← gasUsed) < floor then setGas (← sub64 (← get).initialGas floor)

/-- What is paid after a run. -/
def settlePayments (msg : Message) : TransitionM Unit := do
  let left := (← get).gas
  addBalance msg.sender (left.toNat * msg.gasPrice)
  addGas left
  let tip ← effectiveTip env msg
  addBalance env.coinbase ((← gasUsed).toNat * tip)

/-- The nonce of the sender of a call is incremented: a creation does so
itself. -/
def incrementNonce (msg : Message) : TransitionM Unit :=
  if msg.recipient.isSome then do
    let nonce ← onDb fun d => d.getNonce msg.sender
    record (.nonce nonce)
    onDb fun d => ((), d.setNonce msg.sender (nonce + 1))
  else pure ()

variable [Keccak] (noBaseFee : Bool) (fuel : ℕ)

/-- **`StateTransition.TransitionDb`.** -/
def transitionDb (msg : Message) : TransitionM ExecutionResult := do
  preCheck env noBaseFee msg
  let floor ← checkMessage env msg
  onEvm (Evm.warmMessage env msg)
  incrementNonce msg
  let (ret, gas, vmerr) ← onEvm (Evm.runMessage env fuel msg (← get).gas)
  setGas gas
  settleGas env floor
  settlePayments env msg
  return { usedGas := ← gasUsed, err := vmerr, returnData := ret }

end Transition

/-! ## Rules -/

namespace Transition

variable {α : Type} {t : Transition} {Q : α → Transition → Prop} {E : Stop → Transition → Prop}

@[simp] theorem sat_onEvm {m : EStateM Fault Evm α} :
    Sat (onEvm m) t Q E ↔ Sat m t.evm (fun a e => Q a { t with evm := e })
      (fun f e => E (.fault f) { t with evm := e }) := by
  unfold Sat onEvm
  cases m t.evm with
  | ok a e => exact Iff.rfl
  | error f e => exact Iff.rfl

@[simp] theorem sat_fail {e : TxErr} : Sat (fail e : TransitionM α) t Q E ↔ E (.err e) t := Iff.rfl

@[simp] theorem sat_orFail {r : Except TxErr α} :
    Sat (orFail r) t Q E ↔ (∀ a, r = .ok a → Q a t) ∧ ∀ e, r = .error e → E (.err e) t := by
  cases r with
  | ok a => simp [orFail]
  | error e => simp [orFail]

@[simp] theorem sat_deref {x : Option ℤ} {Q : ℤ → Transition → Prop} :
    Sat (deref x) t Q E ↔ (∀ a, x = some a → Q a t) ∧ (x = none → E (.fault .nil) t) := by
  cases x with
  | none => simp [deref]
  | some a => simp [deref]

section Units

variable {Q : Unit → Transition → Prop}

@[simp] theorem sat_failIf {p : Prop} [Decidable p] {e : TxErr} :
    Sat (failIf p e) t Q E ↔ (p → E (.err e) t) ∧ (¬ p → Q () t) := by
  unfold failIf
  rw [sat_ite]
  split <;> simp [*]

@[simp] theorem sat_record {x : Entry} :
    Sat (record x) t Q E ↔ Q () { t with log := x :: t.log } := Iff.rfl

@[simp] theorem sat_setGas {gas : UInt64} : Sat (setGas gas) t Q E ↔ Q () { t with gas } := Iff.rfl

end Units

section Numbers

variable {Q : UInt64 → Transition → Prop} {a b : UInt64}

@[simp] theorem sat_add64 :
    Sat (add64 a b) t Q E ↔ Q (a + b) { t with log := .add a b :: t.log } := Iff.rfl

@[simp] theorem sat_sub64 :
    Sat (sub64 a b) t Q E ↔ Q (a - b) { t with log := .sub a b :: t.log } := Iff.rfl

@[simp] theorem sat_gasUsed :
    Sat gasUsed t Q E
      ↔ Q (t.initialGas - t.gas) { t with log := .sub t.initialGas t.gas :: t.log } := Iff.rfl

end Numbers

/-- The transition with another state. -/
def putDb (d : StateDB) (t : Transition) : Transition :=
  { t with evm := { t.evm with statedb := d } }

@[simp] theorem sat_onDb {f : StateDB → α × StateDB} :
    Sat (onDb f) t Q E ↔ Q (f t.evm.statedb).1 (t.putDb (f t.evm.statedb).2) := sat_onEvm

section Units

variable {Q : Unit → Transition → Prop}

@[simp] theorem sat_subBalance {addr : Address} {amount : ℤ} :
    Sat (subBalance addr amount) t Q E
      ↔ Q () { t.putDb (t.evm.statedb.subBalance addr amount) with
          log := .paid addr (-amount) :: t.log } := Iff.rfl

@[simp] theorem sat_addBalance {addr : Address} {amount : ℤ} :
    Sat (addBalance addr amount) t Q E
      ↔ Q () { t.putDb (t.evm.statedb.addBalance addr amount) with
          log := .paid addr amount :: t.log } := Iff.rfl

@[simp] theorem sat_subGas {amount : UInt64} :
    Sat (subGas amount) t Q E ↔ (t.gp < amount → E (.err .gasLimitReached) t)
      ∧ (¬ t.gp < amount →
        Q () { t with gp := t.gp - amount, log := .sub t.gp amount :: t.log }) := by
  unfold subGas
  simp

@[simp] theorem sat_addGas {amount : UInt64} :
    Sat (addGas amount) t Q E ↔ (0xffffffffffffffff - amount < t.gp → E .gasPool t)
      ∧ (¬ 0xffffffffffffffff - amount < t.gp →
          Q () { t with gp := t.gp + amount, log := .add t.gp amount :: t.log }) := by
  unfold addGas
  simp only [sat_bind, sat_get, sat_ite, sat_throw, sat_pure, sat_add64, sat_modify]
  split <;> simp [*]

/-- A transition after the purchase of the gas. -/
def bought (msg : Message) (t : Transition) : Transition :=
  { t.putDb ((t.evm.statedb.getBalance msg.sender).2.subBalance msg.sender
      (msg.gas.toNat * msg.gasPrice)) with
    gp := t.gp - msg.gas
    gas := t.gas + msg.gas
    initialGas := msg.gas
    log := .paid msg.sender (-(msg.gas.toNat * msg.gasPrice)) :: .add t.gas msg.gas
      :: .sub t.gp msg.gas :: t.log }

/-- **The purchase of the gas**, by cases. -/
theorem sat_buyGas {msg : Message} :
    Sat (buyGas msg) t Q E
      ↔ ((t.evm.statedb.getBalance msg.sender).1 < msg.funds →
          E (.err (.insufficientFunds msg.sender (t.evm.statedb.getBalance msg.sender).1 msg.funds))
            (t.putDb (t.evm.statedb.getBalance msg.sender).2))
        ∧ (¬ (t.evm.statedb.getBalance msg.sender).1 < msg.funds →
          (t.gp < msg.gas → E (.err .gasLimitReached)
            (t.putDb (t.evm.statedb.getBalance msg.sender).2))
          ∧ (¬ t.gp < msg.gas → Q () (t.bought msg))) := by
  unfold buyGas
  simp only [sat_bind, sat_onDb, sat_failIf, sat_subGas, sat_get, sat_add64, sat_setGas,
    sat_modify, sat_subBalance]
  rfl

end Units

end Transition
