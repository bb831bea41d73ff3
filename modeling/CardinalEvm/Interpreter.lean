import CardinalEvm.JumpTable

/-!
# The interpreter

`vm/evm.go`, the loop of `vm/interpreter.go` and the execution functions
that run other frames. The calls take the function that runs a frame as
a parameter, a `Runner`; the loop ties the knot, by recursion on a bound
on the number of steps. A run that needs more steps than the bound stops
with a fault of its own, so whatever is proved of the runs that return
is proved of the runs of the program.
-/

/-! ## Precompiled contracts -/

namespace Rules

open Precompile

/-- `PrecompiledContractsHomestead`. -/
def precompilesHomestead : List (Address × Precompile) :=
  [(1, ecrecover), (2, sha256hash), (3, ripemd160hash), (4, dataCopy)]

/-- `PrecompiledContractsByzantium`. -/
def precompilesByzantium : List (Address × Precompile) :=
  precompilesHomestead ++ [(5, bigModExp false false false), (6, bn256AddByzantium),
    (7, bn256ScalarMulByzantium), (8, bn256PairingByzantium)]

/-- The contracts from Istanbul on, which differ in `bigModExp`. -/
def precompilesWith (modExp : Precompile) : List (Address × Precompile) :=
  precompilesHomestead ++ [(5, modExp), (6, bn256AddIstanbul),
    (7, bn256ScalarMulIstanbul), (8, bn256PairingIstanbul), (9, blake2F)]

/-- `PrecompiledContractsIstanbul`. -/
def precompilesIstanbul : List (Address × Precompile) :=
  precompilesWith (bigModExp false false false)

/-- `PrecompiledContractsBerlin`. -/
def precompilesBerlin : List (Address × Precompile) :=
  precompilesWith (bigModExp true false false)

/-- `PrecompiledContractsCancun`. -/
def precompilesCancun : List (Address × Precompile) :=
  precompilesBerlin ++ [(10, kzgPointEvaluation)]

/-- `PrecompiledContractsNapoli`. -/
def precompilesNapoli : List (Address × Precompile) :=
  precompilesCancun ++ [(0x100, p256Verify 3450)]

/-- The contracts of EIP-2537. -/
def precompilesBls : List (Address × Precompile) :=
  [(0x0b, bls12381G1Add), (0x0c, bls12381G1MultiExp), (0x0d, bls12381G2Add),
   (0x0e, bls12381G2MultiExp), (0x0f, bls12381Pairing), (0x10, bls12381MapG1),
   (0x11, bls12381MapG2)]

/-- `PrecompiledContractsPrague`. -/
def precompilesPrague : List (Address × Precompile) := precompilesCancun ++ precompilesBls

/-- `PrecompiledContractsNapoliPrague`. -/
def precompilesNapoliPrague : List (Address × Precompile) :=
  precompilesPrague ++ [(0x100, p256Verify 3450)]

/-- `PrecompiledContractsOsaka`. -/
def precompilesOsaka : List (Address × Precompile) :=
  precompilesWith (bigModExp true true true) ++ [(10, kzgPointEvaluation)] ++ precompilesBls
    ++ [(0x100, p256Verify 6900)]

/-- The table of `EVM.precompile`. -/
def precompiles (rules : Rules) : List (Address × Precompile) :=
  if rules.isOsaka then precompilesOsaka
  else if rules.isPrague && rules.isNapoli then precompilesNapoliPrague
  else if rules.isPrague then precompilesPrague
  else if rules.isNapoli then precompilesNapoli
  else if rules.isCancun then precompilesCancun
  else if rules.isBerlin then precompilesBerlin
  else if rules.isIstanbul then precompilesIstanbul
  else if rules.isByzantium then precompilesByzantium
  else precompilesHomestead

end Rules

/-- `EVM.precompile`. -/
def Env.precompile (env : Env) (addr : Address) : Option Precompiled :=
  (env.rules.precompiles.lookup addr).map env.precompiled

/-- What a call returns: its output, the gas left over and an error. -/
abbrev CallResult := Bytes × UInt64 × Option VmErr

/-- `RunPrecompiledContract`. -/
def runPrecompiledContract (p : Precompiled) (input : Bytes) (suppliedGas : UInt64) :
    CallResult :=
  if suppliedGas < p.requiredGas input then ([], 0, some .outOfGas)
  else ((p.run input).1, suppliedGas - p.requiredGas input, (p.run input).2.map .precompile)

/-! ## Addresses of created contracts -/

/-- The big-endian bytes of a number without leading zeros. -/
def minimalBytes (n : UInt64) : Bytes := (toBytes 8 n.toNat).dropWhile (· == 0)

/-- The RLP encoding of a number. -/
def rlpUint (n : UInt64) : Bytes :=
  if n ≠ 0 ∧ n < 0x80 then [n.toUInt8]
  else UInt8.ofNat (0x80 + (minimalBytes n).length) :: minimalBytes n

section Addresses

variable [Keccak]

/-- `crypto.CreateAddress`. The RLP list of an address and a nonce is
always short. -/
def createAddress (b : Address) (nonce : UInt64) : Address :=
  let payload := 0x94 :: Address.bytes b ++ rlpUint nonce
  bytesToAddress (Hash.bytes
    (keccak256Hash (UInt8.ofNat (0xc0 + payload.length) :: payload)))

/-- `crypto.CreateAddress2`. -/
def createAddress2 (b : Address) (salt : Word) (inithash : Hash) : Address :=
  bytesToAddress (Hash.bytes
    (keccak256Hash (0xff :: Address.bytes b ++ Hash.bytes salt ++ Hash.bytes inithash)))

end Addresses

/-! ## Calls -/

/-- **What runs a frame**: `EVMInterpreter.Run`, which changes the
contract it is given. -/
abbrev Runner := Contract → Bytes → Bool → EStateM Fault Evm (Outcome × Contract)

namespace Evm

/-- Calls a method of the state. -/
def onDb {α : Type} (f : StateDB → α × StateDB) : EStateM Fault Evm α :=
  modifyGet (fun s => ((f s.statedb).1, { s with statedb := (f s.statedb).2 }))

/-- Calls a setter of the state. -/
def setDb (f : StateDB → StateDB) : EStateM Fault Evm Unit :=
  modify (fun s => { s with statedb := f s.statedb })

/-- `CreateAccount`. -/
def createAccount (addr : Address) (byCreation : Bool) : EStateM Fault Evm Unit :=
  modify (fun s => { s with
    statedb := s.statedb.createAccount addr
    trace := .created addr s.statedb.snapshot byCreation :: s.trace })

/-- `RevertToSnapshot`. -/
def revertToSnapshot (snapshot : Nat) : EStateM Fault Evm Unit :=
  attempt .snapshot (fun s =>
    (s.statedb.revertToSnapshot snapshot).map (fun d =>
      ((), { s with statedb := d, trace := .reverted snapshot :: s.trace })))

/-- `Contract.UseGas`. -/
def useGas (c : Contract) (amount : UInt64) : EStateM Fault Evm (Bool × Contract) :=
  if c.gas < amount then pure (false, c)
  else do
    modify (fun s => { s with trace := .useGas c.gas amount :: s.trace })
    pure (true, { c with gas := c.gas - amount })

/-- `defaultCanTransfer`. -/
def canTransfer (addr : Address) (amount : Int) : EStateM Fault Evm Bool := do
  pure (decide (amount ≤ (← onDb (fun d => d.getBalance addr))))

/-- `defaultTransfer`. -/
def transfer (sender recipient : Address) (amount : Int) : EStateM Fault Evm Unit := do
  setDb (fun d => d.subBalance sender amount)
  setDb (fun d => d.addBalance recipient amount)

/-- The map of analyses in `NewContract`: a contract called by a contract
shares its map, any other gets a new one. -/
def newJumpdests (caller : ContractRef) : EStateM Fault Evm Unit :=
  match caller with
  | .contract _ => pure ()
  | .accountRef _ => modify (fun s => { s with jumpdests := fun _ => none })

/-- `NewContract`. -/
def newContract (caller : ContractRef) (object : Address) (value : Int) (gas : UInt64) :
    EStateM Fault Evm Contract := do
  newJumpdests caller
  pure { callerAddress := caller.address, self := object, gas := gas, value := value }

/-- Runs a contract, and reads the gas that is left. -/
def execute (run : Runner) (c : Contract) (input : Bytes) (readOnly : Bool) :
    EStateM Fault Evm CallResult := do
  let ((ret, err), c) ← run c input readOnly
  pure (ret, c.gas, err)

/-- The end of every call: an error takes the state back to the
snapshot, and the gas with it unless it is a revert. -/
def conclude (snapshot : Nat) (r : CallResult) : EStateM Fault Evm CallResult :=
  match r with
  | (ret, gas, none) => pure (ret, gas, none)
  | (ret, gas, some err) => do
    revertToSnapshot snapshot
    pure (ret, if err ≠ .executionReverted then 0 else gas, some err)

variable [Keccak]

/-- `resolveCode`. -/
def resolveCode (env : Env) (addr : Address) : EStateM Fault Evm Bytes := do
  let code ← onDb (fun d => d.getCode addr)
  if env.rules.isPrague then
    match parseDelegation code with
    | some target => onDb (fun d => d.getCode target)
    | none => pure code
  else pure code

/-- `resolveCodeHash`. -/
def resolveCodeHash (env : Env) (addr : Address) : EStateM Fault Evm Hash := do
  if env.rules.isPrague then
    match parseDelegation (← onDb (fun d => d.getCode addr)) with
    | some target => onDb (fun d => d.getCodeHash target)
    | none => onDb (fun d => d.getCodeHash addr)
  else onDb (fun d => d.getCodeHash addr)

variable (env : Env) (run : Runner)

variable (caller : ContractRef) (addr : Address) (input : Bytes)

/-- The part of `Call` that runs the code at the address. -/
def callCodeAt (gas : UInt64) (value : Int) : EStateM Fault Evm CallResult := do
  match env.precompile addr with
  | some p => pure (runPrecompiledContract p input gas)
  | none => do
    let code ← resolveCode env addr
    if code.isEmpty then pure ([], gas, none)
    else do
      let contract ← newContract caller addr value gas
      let hash ← resolveCodeHash env addr
      execute run (contract.setCallCode hash code) input false

/-- The part of `Call` after the checks: create the account, move the
value, and run the code there. -/
def callBody (gas : UInt64) (value : Int) (existing : Bool) : EStateM Fault Evm CallResult := do
  (if existing then pure () else createAccount addr false)
  transfer caller.address addr value
  callCodeAt env run caller addr input gas value

/-- **`Call`.** -/
def call (gas : UInt64) (value : Int) : EStateM Fault Evm CallResult := do
  if Params.callCreateDepth < (← get).depth then pure ([], gas, some .depth)
  else
    let funded ← (if value = 0 then pure true else canTransfer caller.address value)
    if !funded then pure ([], gas, some .insufficientBalance)
    else do
      let snapshot := (← get).statedb.snapshot
      let existing ← onDb (fun d => d.exist addr)
      if !existing && (env.precompile addr).isNone && env.rules.isEIP158 && value = 0 then
        pure ([], gas, none)
      else do
        let r ← callBody env run caller addr input gas value existing
        conclude snapshot r

/-- The part of `CallCode` and `DelegateCall` after the checks. -/
def codeBody (gas : UInt64)
    (contract : EStateM Fault Evm Contract) : EStateM Fault Evm CallResult := do
  match env.precompile addr with
  | some p => pure (runPrecompiledContract p input gas)
  | none => do
    let contract ← contract
    let hash ← resolveCodeHash env addr
    let code ← resolveCode env addr
    execute run (contract.setCallCode hash code) input false

/-- **`CallCode`.** -/
def callCode (gas : UInt64) (value : Int) : EStateM Fault Evm CallResult := do
  if Params.callCreateDepth < (← get).depth then pure ([], gas, some .depth)
  else if !(← canTransfer caller.address value) then
    pure ([], gas, some .insufficientBalance)
  else do
    let snapshot := (← get).statedb.snapshot
    let r ← codeBody env run addr input gas (newContract caller caller.address value gas)
    conclude snapshot r

/-- `NewContract` and `AsDelegate`. The caller has to be a contract. -/
def newDelegate (gas : UInt64) : EStateM Fault Evm Contract :=
  match caller with
  | .accountRef _ => throw .assertion
  | .contract parent => do
    let c ← newContract caller caller.address parent.value gas
    pure { c with callerAddress := parent.callerAddress }

/-- **`DelegateCall`.** -/
def delegateCall (gas : UInt64) : EStateM Fault Evm CallResult := do
  if Params.callCreateDepth < (← get).depth then pure ([], gas, some .depth)
  else do
    let snapshot := (← get).statedb.snapshot
    let r ← codeBody env run addr input gas (newDelegate caller gas)
    conclude snapshot r

/-- The part of `StaticCall` after the checks. It does not resolve
delegations. -/
def staticBody (gas : UInt64) : EStateM Fault Evm CallResult := do
  setDb (fun d => d.addBalance addr 0)
  match env.precompile addr with
  | some p => pure (runPrecompiledContract p input gas)
  | none => do
    let contract ← newContract caller addr 0 gas
    let hash ← onDb (fun d => d.getCodeHash addr)
    let code ← onDb (fun d => d.getCode addr)
    execute run (contract.setCallCode hash code) input true

/-- **`StaticCall`.** -/
def staticCall (gas : UInt64) : EStateM Fault Evm CallResult := do
  if Params.callCreateDepth < (← get).depth then pure ([], gas, some .depth)
  else do
    let snapshot := (← get).statedb.snapshot
    let r ← staticBody env run caller addr input gas
    conclude snapshot r

/-! ## Creations -/

/-- What a creation returns: its output, the address, the gas left over
and an error. -/
abbrev CreateResult := Bytes × Address × UInt64 × Option VmErr

/-- The checks on the code a creation returned. -/
def checkCode (rules : Rules) (ret : Bytes) (err : Option VmErr) : Option VmErr :=
  let err :=
    if err.isNone && rules.isEIP158 then
      if rules.isPip30 && decide (Params.maxCodeSizePIP30 < ret.length) then
        some .maxCodeSizeExceeded
      else if Params.maxCodeSize < ret.length then some .maxCodeSizeExceeded
      else none
    else err
  if err.isNone && ret.head? == some 0xEF && rules.isLondon then some .invalidCode else err

/-- Charges for the code and stores it. -/
def storeCode (address : Address) (ret : Bytes) (c : Contract) :
    EStateM Fault Evm (Option VmErr × Contract) := do
  let (paid, c) ← useGas c (UInt64.ofNat ret.length * Params.createDataGas)
  if paid then do
    setDb (fun d => d.setCode address ret)
    pure (none, c)
  else pure (some .codeStoreOutOfGas, c)

/-- Takes a failed creation back, and its gas unless it reverted. -/
def revertCreate (snapshot : Nat) (c : Contract) (err : VmErr) : EStateM Fault Evm Contract := do
  revertToSnapshot snapshot
  if err ≠ .executionReverted then pure (← useGas c c.gas).2 else pure c

/-- The end of `create`. Before Homestead, running out of gas for the
code leaves the state and the gas as they are. -/
def concludeCreate (snapshot : Nat) (c : Contract) (err : Option VmErr) :
    EStateM Fault Evm Contract :=
  match err with
  | none => pure c
  | some err =>
    if env.rules.isHomestead || err ≠ .codeStoreOutOfGas then revertCreate snapshot c err
    else pure c

/-- The part of `create` after the init code has run. -/
def finishCreate (address : Address) (snapshot : Nat) (ret : Bytes) (err : Option VmErr)
    (contract : Contract) : EStateM Fault Evm CreateResult := do
  let err := checkCode env.rules ret err
  let (err, contract) ←
    (if err.isNone then storeCode address ret contract else pure (err, contract))
  let contract ← concludeCreate env snapshot contract err
  pure (ret, address, contract.gas, err)

/-- The part of `create` that runs the init code. -/
def createCodeAt (code : Bytes) (codeHash : Hash) (gas : UInt64)
    (value : Int) (address : Address) (snapshot : Nat) : EStateM Fault Evm CreateResult := do
  let contract ← newContract caller address value gas
  let ((ret, err), contract) ← run (contract.setCallCode codeHash code) [] false
  finishCreate env address snapshot ret err contract

/-- The part of `create` after the checks. -/
def createBody (code : Bytes) (codeHash : Hash) (gas : UInt64)
    (value : Int) (address : Address) (snapshot : Nat) : EStateM Fault Evm CreateResult := do
  createAccount address true
  (if env.rules.isEIP158 then setDb (fun d => d.setNonce address 1) else pure ())
  transfer caller.address address value
  createCodeAt env run caller code codeHash gas value address snapshot

/-- Whether there is a contract at an address already. -/
def collides (address : Address) : EStateM Fault Evm Bool := do
  let contractHash ← onDb (fun d => d.getCodeHash address)
  let nonce ← onDb (fun d => d.getNonce address)
  pure (nonce ≠ 0 || (contractHash ≠ 0 && contractHash ≠ emptyCode))

/-- What `create` does before the snapshot, and keeps if the creation
fails. -/
def claimAddress (caller address : Address) : EStateM Fault Evm Unit := do
  let nonce ← onDb (fun d => d.getNonce caller)
  setDb (fun d => d.setNonce caller (nonce + 1))
  if env.rules.isBerlin then setDb (fun d => d.addAddressToAccessList address) else pure ()

/-- **`create`**, at a given address. The hash of the init code is zero
where the caller did not compute it. -/
def createAt (code : Bytes) (codeHash : Hash) (gas : UInt64)
    (value : Int) (address : Address) : EStateM Fault Evm CreateResult := do
  if Params.callCreateDepth < (← get).depth then pure ([], 0, gas, some .depth)
  else if !(← canTransfer caller.address value) then
    pure ([], 0, gas, some .insufficientBalance)
  else do
    claimAddress env caller.address address
    if (← collides address) then pure ([], 0, 0, some .contractAddressCollision)
    else do
      let snapshot := (← get).statedb.snapshot
      createBody env run caller code codeHash gas value address snapshot

/-- **`Create`.** -/
def create (code : Bytes) (gas : UInt64) (value : Int) : EStateM Fault Evm CreateResult := do
  let nonce ← onDb (fun d => d.getNonce caller.address)
  createAt env run caller code 0 gas value (createAddress caller.address nonce)

/-- **`Create2`.** -/
def create2 (code : Bytes) (gas : UInt64) (endowment : Int)
    (salt : Word) : EStateM Fault Evm CreateResult :=
  createAt env run caller code (keccak256Hash code) gas endowment
    (createAddress2 caller.address salt (keccak256Hash code))

end Evm

/-! ## The instructions that run other frames -/

namespace Frame

/-- `contract.Gas += amount`. -/
def returnGas (amount : UInt64) : EStateM Fault Frame Unit :=
  modify (fun s => { s with
    contract := { s.contract with gas := s.contract.gas + amount }
    evm := { s.evm with trace := .addGas s.contract.gas amount :: s.evm.trace } })

/-- `Contract.UseGas`. -/
def useGas (amount : UInt64) : EStateM Fault Frame Bool :=
  modifyGet (fun s =>
    if s.contract.gas < amount then (false, s)
    else (true, { s with
      contract := { s.contract with gas := s.contract.gas - amount }
      evm := { s.evm with trace := .useGas s.contract.gas amount :: s.evm.trace } }))

/-- Sets the return data. -/
def setReturnData (b : Bytes) : EStateM Fault Frame Unit :=
  modify (fun s => { s with evm := { s.evm with returnData := b } })

/-- The end of the four calls. -/
def concludeCall (retOffset retSize : Word) (r : CallResult) : EStateM Fault Frame Outcome := do
  let (ret, gasLeft, err) := r
  onRegs (Regs.push (Word.ofBool err.isNone))
  (if err = none || err = some .executionReverted then
      onRegs (Regs.store (fun m => m.set (Word.uint64 retOffset) (Word.uint64 retSize) ret))
    else pure ())
  returnGas gasLeft
  setReturnData ret
  pure (ret, none)

/-- The end of the two creations, with what goes on the stack. -/
def concludeCreate (w : Word) (r : Evm.CreateResult) : EStateM Fault Frame Outcome := do
  let (res, _, gasLeft, err) := r
  onRegs (Regs.push w)
  returnGas gasLeft
  if err = some .executionReverted then do
    setReturnData res
    pure (res, none)
  else do
    setReturnData []
    pure ([], none)

/-- The operands of a call: the address, the value where there is one,
the input, and where the output goes. The gas was read before. -/
def callOperands (withValue : Bool) :
    EStateM Fault Frame (Address × Word × Bytes × Word × Word) := onRegs do
  let _ ← Regs.pop
  let addr ← Regs.pop
  let value ← (if withValue then Regs.pop else pure 0)
  let inOffset ← Regs.pop
  let inSize ← Regs.pop
  let retOffset ← Regs.pop
  let retSize ← Regs.pop
  let args ← Regs.load (fun m => m.getPtr (Word.uint64 inOffset) (Word.uint64 inSize))
  pure (Word.bytes20 addr, value, args, retOffset, retSize)

/-- The operands of a creation: the value, the init code, and the salt
where there is one. -/
def createOperands (withSalt : Bool) : EStateM Fault Frame (Word × Bytes × Word) := onRegs do
  let value ← Regs.pop
  let offset ← Regs.pop
  let size ← Regs.pop
  let salt ← (if withSalt then Regs.pop else pure 0)
  let input ← Regs.load (fun m => m.getPtr (Word.uint64 offset) (Word.uint64 size))
  pure (value, input, salt)

/-- The gas of a call, with the stipend if it transfers value. -/
def withStipend (gas : UInt64) (value : Word) : UInt64 :=
  if value = 0 then gas else gas + Params.callStipend

end Frame

open Frame Evm

section Execution

variable [Keccak] (env : Env) (run : Runner)

/-- The body of each call and creation. -/
def CallFn.exec : CallFn → EStateM Fault Frame Outcome
  | opCreate => do
    if (← get).evm.readOnly then pure ([], some .writeProtection)
    else do
      let (value, input, _) ← createOperands false
      let s ← get
      let gas := if env.rules.isEIP150 then s.contract.gas - s.contract.gas / 64
        else s.contract.gas
      let _ ← useGas gas
      let s ← get
      let r ← onEvm (create env run (.contract s.contract) input gas value.toNat)
      let failed := if env.rules.isHomestead && r.2.2.2 = some .codeStoreOutOfGas then true
        else r.2.2.2.isSome && r.2.2.2 ≠ some .codeStoreOutOfGas
      concludeCreate (if failed then 0 else Word.ofAddress r.2.1) r
  | opCreate2 => do
    if (← get).evm.readOnly then pure ([], some .writeProtection)
    else do
      let (endowment, input, salt) ← createOperands true
      let s ← get
      let gas := s.contract.gas - s.contract.gas / 64
      let _ ← useGas gas
      let s ← get
      let r ← onEvm (create2 env run (.contract s.contract) input gas endowment.toNat salt)
      concludeCreate (if r.2.2.2.isSome then 0 else Word.ofAddress r.2.1) r
  | opCall => do
    let (addr, value, args, retOffset, retSize) ← callOperands true
    let s ← get
    if s.evm.readOnly && value ≠ 0 then pure ([], some .writeProtection)
    else do
      let r ← onEvm (call env run (.contract s.contract) addr args
        (withStipend s.evm.callGasTemp value) value.toNat)
      concludeCall retOffset retSize r
  | opCallCode => do
    let (addr, value, args, retOffset, retSize) ← callOperands true
    let s ← get
    let r ← onEvm (callCode env run (.contract s.contract) addr args
      (withStipend s.evm.callGasTemp value) value.toNat)
    concludeCall retOffset retSize r
  | opDelegateCall => do
    let (addr, _, args, retOffset, retSize) ← callOperands false
    let s ← get
    let r ← onEvm (delegateCall env run (.contract s.contract) addr args s.evm.callGasTemp)
    concludeCall retOffset retSize r
  | opStaticCall => do
    let (addr, _, args, retOffset, retSize) ← callOperands false
    let s ← get
    let r ← onEvm (staticCall env run (.contract s.contract) addr args s.evm.callGasTemp)
    concludeCall retOffset retSize r

/-- The scope an execution function sees. -/
def Frame.scope (env : Env) (s : Frame) : Scope where
  env := env
  contract := s.contract
  returnData := s.evm.returnData
  readOnly := s.evm.readOnly

/-- Runs code of the registers and the state. -/
def Frame.onRegsDb {α : Type} (m : EStateM Fault RegsDb α) : EStateM Fault Frame α :=
  zoom (fun s => ⟨s.regs, s.evm.statedb⟩)
    (fun t s => { s with regs := t.regs, evm := { s.evm with statedb := t.statedb } }) m

/-- Records a self-destruction: who it was, with what balance, and what
became of it. -/
def WriteFn.events (self : Address) (before after : StateDB) : WriteFn → List Event
  | opSelfdestruct | opSelfdestruct6780 =>
    [.selfdestruct self (before.getBalance self).1 (after.hasSuicided self).1]
  | _ => []

/-- Records a write that was carried out. -/
def Frame.recordWrite (f : WriteFn) (before : StateDB) (out : Outcome) :
    EStateM Fault Frame Unit :=
  if out.2 = some .writeProtection then pure ()
  else modify (fun s => { s with evm := { s.evm with
    trace := f.events s.contract.self before s.evm.statedb ++ s.evm.trace } })

/-- `operation.execute`. -/
def ExecFn.exec : ExecFn → EStateM Fault Frame Outcome
  | scope f => do
    onRegs (f.exec (Frame.scope env (← get)))
  | opRevert => do
    let ret ← onRegs ScopeFn.memoryArg
    setReturnData ret
    pure (ret, some .executionReverted)
  | read f => do
    onRegsDb (f.exec (Frame.scope env (← get)))
  | write f => do
    let s ← get
    let out ← onRegsDb (f.exec (Frame.scope env s))
    recordWrite f s.evm.statedb out
    pure out
  | jump f => f.exec env
  | call f => f.exec env run

end Execution

/-! ## The loop -/

section Loop

variable [Keccak] (env : Env)

/-- The memory an operation needs, in bytes, rounded up to words, with
nothing for an overflow. -/
def Operation.memoryNeeded (o : Operation) (stack : List Word) :
    Except Fault (Option UInt64) :=
  match o.memorySize with
  | none => .ok (some 0)
  | some f => do
    match ← f.size stack with
    | none => pure none
    | some memSize => pure (safeMul (toWordSize memSize) 32)

/-- What a gas function looks at in a frame. -/
def Frame.gasScope (s : Frame) : GasScope where
  rules := env.rules
  self := s.contract.self
  stack := s.regs.stack
  memLen := s.regs.memory.store.length

/-- What a gas function can change of a frame. -/
def Frame.gasSt (s : Frame) : GasSt where
  statedb := s.evm.statedb
  callGasTemp := s.evm.callGasTemp
  gas := s.contract.gas
  lastGasCost := s.regs.memory.lastGasCost
  trace := s.evm.trace

/-- Writes back what a gas function changed. -/
def Frame.putGasSt (t : GasSt) (s : Frame) : Frame :=
  { evm := { s.evm with statedb := t.statedb, callGasTemp := t.callGasTemp, trace := t.trace }
    regs := { s.regs with memory := { s.regs.memory with lastGasCost := t.lastGasCost } }
    contract := { s.contract with gas := t.gas } }

/-- `operation.dynamicGas`, with nothing for an error. -/
def Frame.dynamicCost (g : GasFn) (memorySize : UInt64) : EStateM Fault Frame (Option UInt64) :=
  fun s =>
    match g.gas (s.gasScope env) memorySize s.gasSt with
    | .ok cost t => .ok (some cost) (s.putGasSt t)
    | .error (.err _) t => .ok none (s.putGasSt t)
    | .error (.fault f) t => .error f (s.putGasSt t)

/-- The dynamic part of the price of an operation: whether it was paid,
and the memory resized, or the error. -/
def Frame.chargeDynamic (o : Operation) (g : GasFn) : EStateM Fault Frame (Option VmErr) := do
  let s ← get
  match o.memoryNeeded s.regs.stack with
  | .error f => throw f
  | .ok none => pure (some .gasUintOverflow)
  | .ok (some memorySize) => do
    match ← dynamicCost env g memorySize with
    | none => pure (some .outOfGas)
    | some cost =>
      if !(← useGas cost) then pure (some .outOfGas)
      else do
        onRegs (modify (fun r => { r with memory := r.memory.resize memorySize }))
        pure none

/-- The checks before an operation is executed, with the error that ends
the frame if one fails. -/
def Frame.prepare (o : Operation) : EStateM Fault Frame (Option VmErr) := do
  let sLen := (← get).regs.stack.length
  if sLen < o.minStack then pure (some (.stackUnderflow sLen o.minStack))
  else if o.maxStack < sLen then pure (some (.stackOverflow sLen o.maxStack))
  else if !(← useGas o.constantGas) then pure (some .outOfGas)
  else
    match o.dynamicGas with
    | none => pure none
    | some g => chargeDynamic env o g

/-- Records what a call or creation left of the gas. -/
def Frame.recordCall (f : ExecFn) (before : UInt64) : EStateM Fault Frame Unit :=
  match f with
  | .call _ => modify (fun s =>
      { s with evm := { s.evm with trace := .called before s.contract.gas :: s.evm.trace } })
  | _ => pure ()

/-- Records that an instruction was executed and the frame goes on. -/
def Frame.recordExecuted (err : Option VmErr) : EStateM Fault Frame Unit :=
  match err with
  | none => modify (fun s => { s with evm := { s.evm with trace := .executed :: s.evm.trace } })
  | some _ => pure ()

/-- **One turn of the loop**: the operation at the program counter. -/
def Frame.step (run : Runner) : EStateM Fault Frame Outcome := do
  let s ← get
  let op := s.contract.getOp s.regs.pc
  let o := env.jumpTable op
  match ← prepare env o with
  | some err => pure ([], some err)
  | none => do
    let out ← o.execute.exec env run
    recordCall o.execute s.contract.gas
    recordExecuted out.2
    pure out

/-- Runs a contract in a new frame. -/
def Evm.inFrame {α : Type} (c : Contract) (m : EStateM Fault Frame α) :
    EStateM Fault Evm (α × Contract) := fun s =>
  match m { evm := s, contract := c } with
  | .ok a f => .ok (a, f.contract) f.evm
  | .error e f => .error e f.evm

/-- **`Run`**, around the loop. The depth and the read-only flag are put
back by deferred functions; the flag only by the frame that set it. -/
def Evm.runWith (loop : EStateM Fault Frame Outcome) : Runner := fun contract input readOnly => do
  let sets := readOnly && !(← get).readOnly
  modify (fun s => { s with
    depth := s.depth + 1, readOnly := sets || s.readOnly, returnData := [] })
  let r ← (if contract.code.isEmpty then pure (([], none), contract)
    else inFrame { contract with input := input } loop)
  modify (fun s => { s with
    depth := s.depth - 1, readOnly := if sets then false else s.readOnly })
  pure r

/-- **The loop**, for at most `fuel` turns of this frame and of each
frame it calls. -/
def Frame.loop : Nat → EStateM Fault Frame Outcome
  | 0 => throw .outOfFuel
  | fuel + 1 => do
    let (res, err) ← step env (runWith (loop fuel))
    match err with
    | none => do
      onRegs (modify (fun r => { r with pc := r.pc + 1 }))
      loop fuel
    | some .stopToken => pure (res, none)
    | some e => pure (res, some e)

/-- **`EVMInterpreter.Run`.** -/
def Evm.run (fuel : Nat) : Runner := runWith (Frame.loop env fuel)

end Loop

/-- **The methods of an EVM that run code**, with their arguments. -/
inductive Evm.Method where
  | call (addr : Address) (input : Bytes) (gas : UInt64) (value : Int)
  | callCode (addr : Address) (input : Bytes) (gas : UInt64) (value : Int)
  | delegateCall (addr : Address) (input : Bytes) (gas : UInt64)
  | staticCall (addr : Address) (input : Bytes) (gas : UInt64)
  | create (code : Bytes) (gas : UInt64) (value : Int)
  | create2 (code : Bytes) (gas : UInt64) (value : Int) (salt : Word)

/-- A frame begins with the contract and the EVM it is given. -/
theorem Evm.sat_inFrame {α : Type} {c : Contract} {m : EStateM Fault Frame α} {e : Evm}
    {Q : α × Contract → Evm → Prop} {E : Fault → Evm → Prop} :
    Sat (inFrame c m) e Q E ↔ Sat m { evm := e, contract := c }
      (fun a f => Q (a, f.contract) f.evm) (fun x f => E x f.evm) := by
  unfold Sat inFrame
  cases m { evm := e, contract := c } with
  | ok a f => exact Iff.rfl
  | error x f => exact Iff.rfl

/-! ## What the checks let through -/

section Prepared

variable [Keccak] {env : Env} {o : Operation} {s t : Frame}

/-- A frame that has paid an amount. -/
def Frame.paid (amount : UInt64) (s : Frame) : Frame :=
  { s with
    contract := { s.contract with gas := s.contract.gas - amount }
    evm := { s.evm with trace := .useGas s.contract.gas amount :: s.evm.trace } }

/-- A frame with its memory resized. -/
def Frame.resized (n : UInt64) (s : Frame) : Frame :=
  { s with regs := { s.regs with memory := s.regs.memory.resize n } }

/-- **A frame that is about to execute an operation**: it has passed the
checks of the loop, paid for the operation, and has the memory for it. -/
inductive Frame.Prepared (env : Env) (o : Operation) (s : Frame) : Frame → Prop
  | constant : o.dynamicGas = none → o.minStack ≤ s.regs.stack.length →
    s.regs.stack.length ≤ o.maxStack → o.constantGas ≤ s.contract.gas →
    Prepared env o s (s.paid o.constantGas)
  | dynamic {g : GasFn} {n cost : UInt64} {st : GasSt} : o.dynamicGas = some g →
    o.minStack ≤ s.regs.stack.length → s.regs.stack.length ≤ o.maxStack →
    o.constantGas ≤ s.contract.gas → o.memoryNeeded s.regs.stack = .ok (some n) →
    g.gas (s.gasScope env) n (s.paid o.constantGas).gasSt = .ok cost st → cost ≤ st.gas →
    Prepared env o s ((((s.paid o.constantGas).putGasSt st).paid cost).resized n)

/-- How the checks can panic: in the memory size function, or in the gas
function. -/
inductive Frame.PreparePanics (env : Env) (o : Operation) (s : Frame) : Fault → Prop
  | memory {f : Fault} : o.minStack ≤ s.regs.stack.length →
    o.memoryNeeded s.regs.stack = .error f → PreparePanics env o s f
  | gas {g : GasFn} {n : UInt64} {f : Fault} {st : GasSt} : o.dynamicGas = some g →
    o.minStack ≤ s.regs.stack.length →
    g.gas (s.gasScope env) n (s.paid o.constantGas).gasSt = .error (.fault f) st →
    PreparePanics env o s f

theorem Frame.Prepared.stack_eq (h : Prepared env o s t) : t.regs.stack = s.regs.stack := by
  cases h with
  | constant => rfl
  | dynamic => rfl

theorem Frame.Prepared.minStack_le (h : Prepared env o s t) : o.minStack ≤ s.regs.stack.length := by
  cases h with
  | constant _ hmin => exact hmin
  | dynamic _ hmin => exact hmin

theorem Frame.Prepared.le_maxStack (h : Prepared env o s t) : s.regs.stack.length ≤ o.maxStack := by
  cases h with
  | constant _ _ hmax => exact hmax
  | dynamic _ _ hmax => exact hmax

omit [Keccak] in
theorem Frame.sat_useGas {amount : UInt64} {Q : Bool → Frame → Prop} {E : Fault → Frame → Prop}
    (hpaid : amount ≤ s.contract.gas → Q true (s.paid amount))
    (hunpaid : s.contract.gas < amount → Q false s) : Sat (useGas amount) s Q E := by
  unfold useGas
  rw [sat_modifyGet]
  by_cases hlt : s.contract.gas < amount
  · rw [if_pos hlt]
    exact hunpaid hlt
  · rw [if_neg hlt]
    exact hpaid (UInt64.not_lt.mp hlt)

theorem Frame.sat_dynamicCost {g : GasFn} {n : UInt64} {Q : Option UInt64 → Frame → Prop}
    {E : Fault → Frame → Prop}
    (hok : ∀ cost st, g.gas (s.gasScope env) n s.gasSt = .ok cost st →
      Q (some cost) (s.putGasSt st))
    (herr : ∀ e st, g.gas (s.gasScope env) n s.gasSt = .error (.err e) st → Q none (s.putGasSt st))
    (hfault : ∀ f st, g.gas (s.gasScope env) n s.gasSt = .error (.fault f) st →
      E f (s.putGasSt st)) :
    Sat (dynamicCost env g n) s Q E := by
  unfold Sat dynamicCost
  cases h : g.gas (s.gasScope env) n s.gasSt with
  | ok cost st => exact hok cost st h
  | error stop st =>
    cases stop with
    | err e => exact herr e st h
    | fault f => exact hfault f st h

/-- **What `prepare` lets through.** -/
theorem Frame.sat_prepare (s : Frame) :
    Sat (prepare env o) s (fun err t => err = none → Prepared env o s t)
      (fun f _ => PreparePanics env o s f) := by
  refine .bind (.ite (fun _ => nofun) fun hmin => .ite (fun _ => nofun) fun hmax => ?_)
  rw [Nat.not_lt] at hmin hmax
  refine .bind (sat_useGas (fun hgas => ?_) (fun _ => nofun))
  cases hdyn : o.dynamicGas with
  | none => exact fun _ => .constant hdyn hmin hmax hgas
  | some g =>
    refine .bind ?_
    show Sat (match o.memoryNeeded s.regs.stack with
      | .error f => throw f
      | .ok none => pure (some VmErr.gasUintOverflow)
      | .ok (some memorySize) => _) (s.paid o.constantGas) _ _
    cases hmem : o.memoryNeeded s.regs.stack with
    | error f => exact .memory hmin hmem
    | ok n =>
      cases n with
      | none => exact nofun
      | some n =>
        refine .bind (sat_dynamicCost (fun cost st hcost => ?_) (fun _ _ _ => nofun)
          (fun _ _ hf => .gas hdyn hmin hf))
        exact .bind (sat_useGas (fun hle _ => .dynamic hdyn hmin hmax hgas hmem hcost hle)
          (fun _ => nofun))

end Prepared
