import CardinalEvm.Machine

/-!
# The instructions

The execution functions of `vm/instructions.go` and `vm/eips.go` that
run inside one frame. They are grouped by what they can touch, and each
group is a program over just that:

* `ScopeFn` – the registers of the frame;
* `ReadFn` – the registers and the getters of the state;
* `WriteFn` – the registers and the setters of the state.

The jumps, which use the analysis of the code, and the calls and
creations, which run other frames, come later.
-/

open Word

/-! ## Arithmetic of words

`uint256.Int` is a third-party type; its operations are given on
bit vectors. -/

namespace Word

/-- `Mod`. -/
def mod (x y : Word) : Word := if y = 0 then 0 else x.umod y

/-- `SMod`. -/
def smod (x y : Word) : Word := if y = 0 then 0 else x.srem y

/-- Square and multiply, over the bits of the exponent. -/
def expLoop : Nat → Word → Nat → Word
  | 0, _, _ => 1
  | n + 1, b, e =>
    if e = 0 then 1
    else if e % 2 = 1 then b * expLoop n (b * b) (e / 2) else expLoop n (b * b) (e / 2)

/-- `Exp`. -/
def exp (base exponent : Word) : Word := expLoop 256 base exponent.toNat

/-- `ExtendSign`. -/
def extendSign (num back : Word) : Word :=
  if 30 < back.toNat then num
  else (num.setWidth (8 * (back.toNat + 1))).signExtend 256

/-- `Byte`, counted from the most significant. -/
def byte (th val : Word) : Word :=
  if th.toNat < 32 then (val >>> (8 * (31 - th.toNat))) &&& 0xff else 0

/-- `AddMod`, as `opAddmod` guards it. -/
def addMod (x y z : Word) : Word :=
  if z = 0 then 0 else BitVec.ofNat 256 ((x.toNat + y.toNat) % z.toNat)

/-- `MulMod`. -/
def mulMod (x y z : Word) : Word :=
  if z = 0 then 0 else BitVec.ofNat 256 ((x.toNat * y.toNat) % z.toNat)

/-- The value `opSHL` leaves. -/
def shl (shift value : Word) : Word :=
  if shift.toNat < 256 then value <<< shift.toNat else 0

/-- The value `opSHR` leaves. -/
def shr (shift value : Word) : Word :=
  if shift.toNat < 256 then value >>> shift.toNat else 0

/-- The value `opSAR` leaves. -/
def sar (shift value : Word) : Word :=
  if 256 < shift.toNat then (if value.msb then BitVec.allOnes 256 else 0)
  else value.sshiftRight shift.toNat

end Word

/-! ## Instructions of the registers alone -/

/-- Execution functions that touch the registers of their frame only. -/
inductive ScopeFn where
  | opAdd | opSub | opMul | opDiv | opSdiv | opMod | opSmod | opExp | opSignExtend
  | opNot | opLt | opGt | opSlt | opSgt | opEq | opIszero | opAnd | opOr | opXor
  | opByte | opAddmod | opMulmod | opSHL | opSHR | opSAR | opCLZ | opKeccak256
  | opAddress | opOrigin | opCaller | opCallValue | opCallDataLoad | opCallDataSize
  | opCallDataCopy | opReturnDataSize | opReturnDataCopy | opCodeSize | opCodeCopy
  | opGasprice | opBlockhash | opCoinbase | opTimestamp | opNumber | opDifficulty
  | opRandom | opGasLimit | opChainID | opBaseFee | opBlobHash | opBlobBaseFee
  | opPop | opMload | opMstore | opMstore8 | opMcopy | opJumpdest | opPc | opMsize | opGas
  | opPush0 | opPush1
  | makePush (size : Nat)
  | makeDup (size : Nat)
  | makeSwap (size : Nat)
  | makeLog (size : Nat)
  | opReturn | opStop | opUndefined
  deriving DecidableEq

/-- What the functions of a frame may look at but not touch. -/
structure Scope where
  env : Env
  contract : Contract
  returnData : Bytes
  readOnly : Bool

namespace ScopeFn

open Regs

/-- Goes on, or stops the run where there is nothing to go on with. -/
def orFault {σ α : Type} (e : Fault) (o : Option α) : EStateM Fault σ α :=
  attempt e (fun s => o.map (fun a => (a, s)))

/-- `return nil, nil`. -/
def done {σ : Type} : EStateM Fault σ Outcome := pure ([], none)

/-- Functions that pop nothing and rewrite the top. -/
def unary (f : Word → Word) : EStateM Fault Regs Outcome := do
  mapTop f
  done

/-- Functions that pop one operand and rewrite the next. -/
def binary (f : Word → Word → Word) : EStateM Fault Regs Outcome := do
  let x ← pop
  unary (f x)

/-- Functions that pop two operands and rewrite the next. -/
def ternary (f : Word → Word → Word → Word) : EStateM Fault Regs Outcome := do
  let x ← pop
  binary (f x)

/-- Functions that push one word. -/
def pushes (w : Word) : EStateM Fault Regs Outcome := do
  push w
  done

/-- Functions that push a `*big.Int`. Pushing what `FromBig` makes of a
nil pointer dereferences it. -/
def pushesBig (n : Option Int) : EStateM Fault Regs Outcome := do
  pushes (ofBig (← orFault .nil n))

/-- The copying functions: part of some data to the memory. An offset
too large for 64 bits reads as the largest one. -/
def copies (data : Bytes) : EStateM Fault Regs Outcome := do
  let memOffset ← pop
  let dataOffset ← pop
  let length ← pop
  let offset64 := (uint64WithOverflow dataOffset).getD (UInt64.ofNat (2 ^ 64 - 1))
  let b ← orFault .slice (getData data offset64 (uint64 length))
  store (fun m => m.set (uint64 memOffset) (uint64 length) b)
  done

/-- `opReturnDataCopy`. -/
def returnDataCopy (returnData : Bytes) : EStateM Fault Regs Outcome := do
  let memOffset ← pop
  let dataOffset ← pop
  let length ← pop
  match uint64WithOverflow dataOffset, uint64WithOverflow (dataOffset + length) with
  | some offset64, some end64 =>
    if returnData.length < end64.toNat then pure ([], some .returnDataOutOfBounds)
    else if end64 < offset64 then throw .slice
    else
      store (fun m => m.set (uint64 memOffset) (uint64 length)
        ((returnData.drop offset64.toNat).take (end64.toNat - offset64.toNat)))
      done
  | _, _ => pure ([], some .returnDataOutOfBounds)

/-- `opBlockhash`, on the number asked for. -/
def blockhash (env : Env) (num : Word) : Word :=
  match uint64WithOverflow num with
  | none => 0
  | some num64 =>
    let upper := UInt64.ofNat env.blockNumber.natAbs
    let lower := if upper < 257 then 0 else upper - 256
    if lower ≤ num64 && num64 < upper then env.getHash num64 else 0

/-- `opPush1`. -/
def push1 (code : Bytes) : EStateM Fault Regs Outcome := do
  modify (fun r => { r with pc := r.pc + 1 })
  let r ← get
  pushes (BitVec.ofNat 256 ((code[r.pc.toNat]?).getD 0).toNat)

/-- `makePush`. -/
def pushN (code : Bytes) (size : Nat) : EStateM Fault Regs Outcome := do
  let r ← get
  let startMin := min code.length (r.pc + 1).toNat
  push (bytesToHash (rightPadBytes ((code.drop startMin).take size) size))
  modify (fun r => { r with pc := r.pc + UInt64.ofNat size })
  done

/-- Pops a number of words. -/
def popN : Nat → EStateM Fault Regs Unit
  | 0 => pure ()
  | n + 1 => do
    let _ ← pop
    popN n

/-- `makeLog`. `AddLog` keeps nothing. -/
def log (readOnly : Bool) (size : Nat) : EStateM Fault Regs Outcome :=
  if readOnly then pure ([], some .writeProtection)
  else do
    let mStart ← pop
    let mSize ← pop
    popN size
    let _ ← load (fun m => m.getPtr (uint64 mStart) (uint64 mSize))
    done

/-- The memory an instruction names by an offset and a size. -/
def memoryArg : EStateM Fault Regs Bytes := do
  let offset ← pop
  let size ← pop
  load (fun m => m.getPtr (uint64 offset) (uint64 size))

variable [Keccak]

/-- The body of each function. -/
def exec (s : Scope) : ScopeFn → EStateM Fault Regs Outcome
  | opAdd => binary (fun x y => x + y)
  | opSub => binary (fun x y => x - y)
  | opMul => binary (fun x y => x * y)
  | opDiv => binary (fun x y => x.udiv y)
  | opSdiv => binary (fun x y => x.sdiv y)
  | opMod => binary Word.mod
  | opSmod => binary Word.smod
  | opExp => binary Word.exp
  | opSignExtend => binary (fun back num => Word.extendSign num back)
  | opNot => unary (fun x => ~~~x)
  | opLt => binary (fun x y => ofBool (x.ult y))
  | opGt => binary (fun x y => ofBool (y.ult x))
  | opSlt => binary (fun x y => ofBool (x.slt y))
  | opSgt => binary (fun x y => ofBool (y.slt x))
  | opEq => binary (fun x y => ofBool (x == y))
  | opIszero => unary (fun x => ofBool (x == 0))
  | opAnd => binary (fun x y => x &&& y)
  | opOr => binary (fun x y => x ||| y)
  | opXor => binary (fun x y => x ^^^ y)
  | opByte => binary Word.byte
  | opAddmod => ternary Word.addMod
  | opMulmod => ternary Word.mulMod
  | opSHL => binary Word.shl
  | opSHR => binary Word.shr
  | opSAR => binary Word.sar
  | opCLZ => unary (fun x => BitVec.ofNat 256 (256 - bitLen x))
  | opKeccak256 => do
    let data ← memoryArg
    pushes (keccak256Hash data)
  | opAddress => pushes (ofAddress s.contract.self)
  | opOrigin => pushes (ofAddress s.env.origin)
  | opCaller => pushes (ofAddress s.contract.callerAddress)
  | opCallValue => pushes (ofBig s.contract.value)
  | opCallDataLoad => do
    let x ← pop
    match uint64WithOverflow x with
    | none => pushes 0
    | some offset =>
      let data ← orFault .slice (getData s.contract.input offset 32)
      pushes (bytesToHash data)
  | opCallDataSize => pushes (BitVec.ofNat 256 s.contract.input.length)
  | opCallDataCopy => copies s.contract.input
  | opReturnDataSize => pushes (BitVec.ofNat 256 s.returnData.length)
  | opReturnDataCopy => returnDataCopy s.returnData
  | opCodeSize => pushes (BitVec.ofNat 256 s.contract.code.length)
  | opCodeCopy => copies s.contract.code
  | opGasprice => pushesBig s.env.gasPrice
  | opBlockhash => unary (blockhash s.env)
  | opCoinbase => pushes (ofAddress s.env.coinbase)
  | opTimestamp => pushes (ofBig s.env.time)
  | opNumber => pushes (ofBig s.env.blockNumber)
  | opDifficulty => pushes (ofBig s.env.difficulty)
  | opRandom => do
    pushes (← orFault .nil s.env.random)
  | opGasLimit => pushes (ofUint64 s.env.gasLimit)
  | opChainID => pushesBig s.env.chainID
  | opBaseFee => pushesBig s.env.baseFee
  | opBlobHash => unary (fun index => (s.env.blobHashes[index.toNat]?).getD 0)
  | opBlobBaseFee => pushesBig s.env.blobBaseFee
  | opPop => do
    let _ ← pop
    done
  | opMload => do
    let offset ← pop
    let b ← load (fun m => m.getPtr (uint64 offset) 32)
    pushes (bytesToHash b)
  | opMstore => do
    let mStart ← pop
    let val ← pop
    store (fun m => m.set32 (uint64 mStart) val)
    done
  | opMstore8 => do
    let off ← pop
    let val ← pop
    store (fun m => m.setByte (uint64 off) (UInt8.ofNat val.toNat))
    done
  | opMcopy => do
    let dst ← pop
    let src ← pop
    let length ← pop
    store (fun m => m.copy (uint64 dst) (uint64 src) (uint64 length))
    done
  | opJumpdest => done
  | opPc => do
    pushes (ofUint64 (← get).pc)
  | opMsize => do
    pushes (BitVec.ofNat 256 (← get).memory.store.length)
  | opGas => pushes (ofUint64 s.contract.gas)
  | opPush0 => pushes 0
  | opPush1 => push1 s.contract.code
  | makePush size => pushN s.contract.code size
  | makeDup size => do
    dup size
    done
  | makeSwap size => do
    swap (size + 1)
    done
  | makeLog size => log s.readOnly size
  | opReturn => do
    let ret ← memoryArg
    pure (ret, some .stopToken)
  | opStop => pure ([], some .stopToken)
  | opUndefined => do
    let op ← orFault .slice (s.contract.code[(← get).pc.toNat]?)
    pure ([], some (.invalidOpCode op))

end ScopeFn

/-! ## Instructions that use the state -/

/-- Execution functions that read the state. -/
inductive ReadFn where
  | opBalance | opSelfBalance | opExtCodeSize | opExtCodeCopy | opExtCodeHash | opSload | opTload
  deriving DecidableEq

/-- Execution functions that write the state. -/
inductive WriteFn where
  | opSstore | opTstore | opSelfdestruct | opSelfdestruct6780
  deriving DecidableEq

/-- The registers of a frame and the state. -/
structure RegsDb where
  regs : Regs
  statedb : StateDB

namespace RegsDb

/-- Runs code of the registers. -/
def onRegs {α : Type} (m : EStateM Fault Regs α) : EStateM Fault RegsDb α :=
  zoom regs (fun r s => { s with regs := r }) m

/-- Calls a method of the state. -/
def onDb {α : Type} (f : StateDB → α × StateDB) : EStateM Fault RegsDb α :=
  modifyGet (fun s => ((f s.statedb).1, { s with statedb := (f s.statedb).2 }))

/-- Calls a setter of the state, which may panic. -/
def setDb (f : StateDB → Option StateDB) : EStateM Fault RegsDb Unit :=
  attempt .nil (fun s => (f s.statedb).map (fun d => ((), { s with statedb := d })))

end RegsDb

open RegsDb ScopeFn

variable [Keccak]

/-- The body of each function. -/
def ReadFn.exec (s : Scope) : ReadFn → EStateM Fault RegsDb Outcome
  | opBalance => do
    let slot ← onRegs Regs.pop
    let balance ← onDb (fun d => d.getBalance (bytes20 slot))
    onRegs (pushes (ofBig balance))
  | opSelfBalance => do
    let balance ← onDb (fun d => d.getBalance s.contract.self)
    onRegs (pushes (ofBig balance))
  | opExtCodeSize => do
    let slot ← onRegs Regs.pop
    let size ← onDb (fun d => d.getCodeSize (bytes20 slot))
    onRegs (pushes (BitVec.ofNat 256 size))
  | opExtCodeCopy => do
    let a ← onRegs Regs.pop
    let code ← onDb (fun d => d.getCode (bytes20 a))
    onRegs (copies code)
  | opExtCodeHash => do
    let slot ← onRegs Regs.pop
    let empty ← onDb (fun d => d.empty (bytes20 slot))
    if empty then onRegs (pushes 0)
    else do
      let hash ← onDb (fun d => d.getCodeHash (bytes20 slot))
      onRegs (pushes hash)
  | opSload => do
    let loc ← onRegs Regs.pop
    let val ← onDb (fun d => d.getState s.contract.self loc)
    onRegs (pushes val)
  | opTload => do
    let loc ← onRegs Regs.pop
    let d ← get
    onRegs (pushes (d.statedb.getTransientState s.contract.self loc))

/-- The body of each function. All of them refuse to run read-only. -/
def WriteFn.exec (s : Scope) (f : WriteFn) : EStateM Fault RegsDb Outcome :=
  if s.readOnly then pure ([], some .writeProtection)
  else match f with
  | opSstore => do
    let loc ← onRegs Regs.pop
    let val ← onRegs Regs.pop
    setDb (fun d => d.setState s.contract.self loc val)
    done
  | opTstore => do
    let loc ← onRegs Regs.pop
    let val ← onRegs Regs.pop
    setDb (fun d => some (d.setTransientState s.contract.self loc val))
    done
  | opSelfdestruct => do
    let beneficiary ← onRegs Regs.pop
    let balance ← onDb (fun d => d.getBalance s.contract.self)
    setDb (fun d => some (d.addBalance (bytes20 beneficiary) balance))
    let _ ← onDb (fun d => d.suicide s.contract.self)
    pure ([], some .stopToken)
  | opSelfdestruct6780 => do
    let beneficiary ← onRegs Regs.pop
    let balance ← onDb (fun d => d.getBalance s.contract.self)
    setDb (fun d => some (d.subBalance s.contract.self balance))
    setDb (fun d => some (d.addBalance (bytes20 beneficiary) balance))
    setDb (fun d => some (d.selfDestruct6780 s.contract.self))
    pure ([], some .stopToken)
