import CardinalEvm.Manager
import CardinalEvm.StateOverride
import CardinalEvm.StateTransition

/-!
# Calls

The arguments of the API's calls, the messages that are made of them, and
`DoCall`, which runs such a message on a state and finalises it.

The function `getEVM` that `DoCall` is given is the one of a view
(`View.evmFn`), so a call reads and writes the variables the view's EVMs
share.
-/

/-- **`TransactionArgs`.** A `hexutil.Big` is decoded from digits and has
no sign. The bytes are in memory, like the lists. -/
structure TransactionArgs where
  sender : Option Address := none
  recipient : Option Address := none
  gas : Option UInt64 := none
  gasPrice : Option ℕ := none
  maxFeePerGas : Option ℕ := none
  maxPriorityFeePerGas : Option ℕ := none
  value : Option ℕ := none
  nonce : Option UInt64 := none
  data : Option Bytes := none
  input : Option Bytes := none
  accessList : Option TxAccessList := none
  authList : AuthList := {}
  data_fits : ∀ bytes ∈ data, bytes.length < 2 ^ 48 := by simp
  input_fits : ∀ bytes ∈ input, bytes.length < 2 ^ 48 := by simp

/-- **The errors of the API's calls.** -/
inductive ApiErr where
  /-- "both header and state must be set". -/
  | unset
  /-- "both gasPrice and (maxFeePerGas or maxPriorityFeePerGas)
  specified". -/
  | bothFeeStyles
  /-- "account … has both 'state' and 'stateDiff'". -/
  | stateAndStateDiff (addr : Address)
  /-- An error of the state transition. -/
  | tx (e : TxErr)
  /-- "execution aborted". -/
  | aborted
  /-- `ErrInsufficientFundsForTransfer` of `DoEstimateGas`, which says no
  more. -/
  | insufficientFundsForTransfer
  /-- The error of a reverted execution, with the data. -/
  | reverted (data : Bytes)
  /-- The error of an execution that failed. -/
  | vm (err : VmErr)
  /-- "gas required exceeds allowance". -/
  | gasRequiredExceedsAllowance (cap : UInt64)
  deriving DecidableEq

/-- **Why a call of the API ends early**: with an error, or a panic. -/
inductive ApiStop where
  | err (e : ApiErr)
  | fault (f : Fault)
  | gasPool
  /-- The search for an estimate is bounded in the model. -/
  | outOfFuel
  deriving DecidableEq

namespace TransactionArgs

variable (args : TransactionArgs)

/-- `TransactionArgs.from`. -/
def sentFrom : Address := args.sender.getD 0

/-- `TransactionArgs.data`: the input is preferred. -/
def callData : Bytes := (args.input <|> args.data).getD []

theorem length_callData : args.callData.length < 2 ^ 48 := by
  unfold callData
  cases hinput : args.input with
  | some bytes => exact args.input_fits bytes hinput
  | none =>
    cases hdata : args.data with
    | some bytes => exact args.data_fits bytes hdata
    | none => decide

/-- Whether both styles of fees are given. -/
def bothFeeStyles : Bool :=
  args.gasPrice.isSome && (args.maxFeePerGas.isSome || args.maxPriorityFeePerGas.isSome)

/-- The gas of a message: what is asked for, or else the cap, and at most
the cap. A cap of zero is none. -/
def cappedGas (globalGasCap : UInt64) : UInt64 :=
  let gas := if globalGasCap = 0 then 0xffffffffffffffff / 2 else globalGasCap
  let gas := args.gas.getD gas
  if globalGasCap ≠ 0 ∧ globalGasCap < gas then globalGasCap else gas

/-- The fees of a message: the price, the cap and the tip. -/
def fees (baseFee : Option ℕ) : ℤ × ℤ × ℤ :=
  match baseFee, args.gasPrice with
  | none, price =>
    let price : ℤ := price.getD 0
    (price, price, price)
  | some _, some price => (price, price, price)
  | some baseFee, none =>
    let feeCap : ℤ := args.maxFeePerGas.getD 0
    let tip : ℤ := args.maxPriorityFeePerGas.getD 0
    let price := if 0 < Transition.bitLen feeCap ∨ 0 < Transition.bitLen tip then
      min (tip + baseFee) feeCap else 0
    (price, feeCap, tip)

/-- **`TransactionArgs.ToMessage`.** -/
def toMessage (globalGasCap : UInt64) (baseFee : Option ℕ) : Except ApiErr Message :=
  if args.bothFeeStyles then .error .bothFeeStyles
  else
    let (gasPrice, gasFeeCap, gasTipCap) := args.fees baseFee
    .ok
      { sender := args.sentFrom
        recipient := args.recipient
        nonce := 0
        value := args.value.getD 0
        gas := args.cappedGas globalGasCap
        gasPrice := gasPrice
        gasFeeCap := some gasFeeCap
        gasTipCap := some gasTipCap
        data := args.callData
        accessList := args.accessList.getD default
        authList := args.authList
        checkNonce := false }

/-- **The message of a traced run**, of `AccessList` and `TraceStructLog`:
the caps are zero whatever the price. -/
def tracedMessage (nonce gas : UInt64) (acl : TxAccessList) : Message where
  sender := args.sentFrom
  recipient := args.recipient
  nonce := nonce
  value := args.value.getD 0
  gas := gas
  gasPrice := args.gasPrice.getD 0
  gasFeeCap := some 0
  gasTipCap := some 0
  data := args.callData
  accessList := acl
  authList := args.authList
  checkNonce := false

end TransactionArgs

/-- What a call does in a view. -/
abbrev ApiM := EStateM ApiStop Captured

/-- A call of the function that makes EVMs. -/
def View.getEVM (v : View) (a : BuildArgs) : ApiM EvmSetup := modifyGet (v.evmFn a)

variable [Keccak]

/-- **`ApplyMessage`** with an EVM, and this much gas in the pool. -/
def EvmSetup.applyMessage (host : Host) (fuel : ℕ) (msg : Message) (gp : UInt64) (e : EvmSetup) :
    EStateM.Result Stop Transition ExecutionResult :=
  Transition.transitionDb (e.env host) e.config.noBaseFee fuel msg
    { evm := { statedb := e.statedb }, gp }

/-- **`DoCall`** on a state, which it leaves finalised. -/
def doCall (v : View) (host : Host) (fuel : ℕ) (args : TransactionArgs) (d : StateDB)
    (overrides : Option StateOverride) (globalGasCap : UInt64) :
    ApiM (ExecutionResult × StateDB) := do
  let d ← match StateOverride.apply overrides d with
    | .ok _ d => pure d
    | .error (.stateAndStateDiff addr) _ => throw (.err (.stateAndStateDiff addr))
    | .error .nilMap _ => throw (.fault .nil)
  let msg ← match args.toMessage globalGasCap v.header.baseFee with
    | .ok msg => pure msg
    | .error e => throw (.err e)
  let evm ← v.getEVM { sdb := d, sender := args.sentFrom, gp := some msg.gasPrice }
  match evm.applyMessage host fuel msg 0xffffffffffffffff with
  | .error (.err e) _ => throw (.err (.tx e))
  | .error (.fault f) _ => throw (.fault f)
  | .error .gasPool _ => throw .gasPool
  | .ok result t =>
    if host.abort t.evm.polls then throw (.err .aborted)
    else return (result, t.evm.statedb.finalise)
