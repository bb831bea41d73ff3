import CardinalEvm.Bisection
import CardinalEvm.DoCall
import CardinalEvm.IntrinsicGas

/-!
# Estimating gas

`DoEstimateGas` looks for the least gas limit with which a call does not
fail, by a bisection between 20999 and a cap. The cap is what the caller
asks for or the gas limit of the block, at most what the sender can pay
for, and at most the gas cap of the node if that is not zero. Every gas
limit is tried on a copy of the state the search is given, and the state
after the last call that did not fail is returned with the estimate.

The variables the helper `executable` shares with the search and the
view's variables are one state here, `Estimation`.
-/

/-- **The variables of an estimation.** -/
structure Estimation where
  /-- The variables of the view. -/
  captured : Captured := {}
  /-- `prevState.state`. -/
  prior : StateDB
  stateData : Option StateDB := none
  /-- The gas limits that were tried so far, and whether they failed, the
  newest first. The program has no such record. -/
  tried : List (UInt64 × Bool) := []

abbrev EstimateM := EStateM ApiStop Estimation

/-- `ExecutionResult.Revert`. -/
def ExecutionResult.revert (r : ExecutionResult) : Bytes :=
  if r.err = some .executionReverted then r.returnData else []

namespace TransactionArgs

variable (args : TransactionArgs)

/-- The arguments a gas limit is tried with. -/
def withGas (gas : UInt64) : TransactionArgs :=
  { args with sender := some args.sentFrom, gas := some gas }

/-- The highest gas limit before it is capped: what is asked for, if that
is at least 21000, or the gas limit of the block. -/
def requestedGas (header : Header) : UInt64 :=
  match args.gas with
  | some gas => if Params.txGas ≤ gas then gas else header.gasLimit
  | none => header.gasLimit

/-- The fee the allowance is calculated with. -/
def offeredFee : ℕ := (args.gasPrice <|> args.maxFeePerGas).getD 0

/-- What the sender can spend on gas. -/
def available (balance : ℤ) : Except ApiErr ℤ :=
  match args.value with
  | some value =>
    if balance ≤ value then .error .insufficientFundsForTransfer else .ok (balance - value)
  | none => .ok balance

/-- The highest gas limit, capped by the funds of the sender. An allowance
that is no `uint64` is not looked at. -/
def funded (balance : ℤ) (hi : UInt64) : Except ApiErr UInt64 := do
  let allowance := (← args.available balance) / args.offeredFee
  return if 0 ≤ allowance ∧ allowance < 2 ^ 64 ∧ allowance < hi.toNat then
    UInt64.ofNat allowance.toNat else hi

end TransactionArgs

/-- A value or an error. -/
def EstimateM.ofExcept {α : Type} : Except ApiErr α → EstimateM α
  | .ok a => pure a
  | .error e => throw (.err e)

namespace Estimation

variable (v : View) (args : TransactionArgs) (gasCap : UInt64)

/-- The balance of an account in the given state. -/
def balanceOf (addr : Address) : EstimateM ℤ := modifyGet fun est =>
  ((est.prior.getBalance addr).1, { est with prior := (est.prior.getBalance addr).2 })

/-- **The cap of an estimation.** -/
def capOf : EstimateM UInt64 := do
  (if args.bothFeeStyles then throw (.err .bothFeeStyles) else pure ())
  let hi := args.requestedGas v.header
  let hi ← if args.offeredFee ≠ 0 then do
      let balance ← balanceOf args.sentFrom
      .ofExcept (args.funded balance hi)
    else pure hi
  return if gasCap ≠ 0 ∧ gasCap < hi then gasCap else hi

variable [Keccak] (host : Host) (fuel : ℕ)

/-- **`executable`**: whether a gas limit fails. Too little for the
intrinsic gas is a failure, any other error is returned. -/
def executable (gas : UInt64) : EstimateM (Bool × Option ExecutionResult) := fun est =>
  match doCall v host fuel (args.withGas gas) est.prior.copy none gasCap est.captured with
  | .ok (result, d) c =>
    .ok (result.failed, some result)
      { est with
        captured := c
        stateData := if result.failed then est.stateData else some d
        tried := (gas, result.failed) :: est.tried }
  | .error (.err (.tx (.intrinsicGas _ _))) c =>
    .ok (true, none) { est with captured := c, tried := (gas, true) :: est.tried }
  | .error stop c => .error stop { est with captured := c }

/-- The error for a cap that fails. A result that failed has an error. -/
def failure (cap : UInt64) : Option ExecutionResult → ApiErr
  | none => .gasRequiredExceedsAllowance cap
  | some result =>
    match result.err with
    | none | some .outOfGas => .gasRequiredExceedsAllowance cap
    | some err => if result.revert ≠ [] then .reverted result.revert else .vm err

/-- Whether the bounds are close enough for an approximate search. -/
def close (approx : Bool) (b : Bisection.Bounds) : Bool :=
  approx && decide (b.hi - b.lo < b.hi / 100)

/-- The last test, of a cap that was not tried yet. -/
def conclude (cap hi : UInt64) : EstimateM UInt64 := do
  (if hi = cap then do
    let (failed, result) ← executable v args gasCap host fuel hi
    if failed then throw (.err (failure cap result))
  else pure ())
  return hi

/-- **`DoEstimateGas`**, with a bound on the steps of the search. -/
def doEstimateGas (approx : Bool) (steps : ℕ) : EstimateM UInt64 := do
  let cap ← capOf v args gasCap
  let b ← Bisection.search (fun gas => Prod.fst <$> executable v args gasCap host fuel gas)
    (close approx) (throw .outOfFuel) steps ⟨Params.txGas - 1, cap⟩
  conclude v args gasCap host fuel cap b.hi

end Estimation
