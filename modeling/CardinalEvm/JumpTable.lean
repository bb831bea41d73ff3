import CardinalEvm.Analysis
import CardinalEvm.Gas

/-!
# The instruction tables

`vm/jump_table.go`, `vm/eips.go`, `vm/memory_table.go` and the choice of
a table in `NewEVMInterpreter`. An operation names its execution, gas
and memory size functions, so that what a table holds can be compared
and proved about; `All P` is a property of every entry of a table, which
the changes from one fork to the next keep or not.
-/

namespace OpCode

abbrev STOP : UInt8 := 0x00
abbrev ADD : UInt8 := 0x01
abbrev MUL : UInt8 := 0x02
abbrev SUB : UInt8 := 0x03
abbrev DIV : UInt8 := 0x04
abbrev SDIV : UInt8 := 0x05
abbrev MOD : UInt8 := 0x06
abbrev SMOD : UInt8 := 0x07
abbrev ADDMOD : UInt8 := 0x08
abbrev MULMOD : UInt8 := 0x09
abbrev EXP : UInt8 := 0x0a
abbrev SIGNEXTEND : UInt8 := 0x0b
abbrev LT : UInt8 := 0x10
abbrev GT : UInt8 := 0x11
abbrev SLT : UInt8 := 0x12
abbrev SGT : UInt8 := 0x13
abbrev EQ : UInt8 := 0x14
abbrev ISZERO : UInt8 := 0x15
abbrev AND : UInt8 := 0x16
abbrev OR : UInt8 := 0x17
abbrev XOR : UInt8 := 0x18
abbrev NOT : UInt8 := 0x19
abbrev BYTE : UInt8 := 0x1a
abbrev SHL : UInt8 := 0x1b
abbrev SHR : UInt8 := 0x1c
abbrev SAR : UInt8 := 0x1d
abbrev CLZ : UInt8 := 0x1e
abbrev KECCAK256 : UInt8 := 0x20
abbrev ADDRESS : UInt8 := 0x30
abbrev BALANCE : UInt8 := 0x31
abbrev ORIGIN : UInt8 := 0x32
abbrev CALLER : UInt8 := 0x33
abbrev CALLVALUE : UInt8 := 0x34
abbrev CALLDATALOAD : UInt8 := 0x35
abbrev CALLDATASIZE : UInt8 := 0x36
abbrev CALLDATACOPY : UInt8 := 0x37
abbrev CODESIZE : UInt8 := 0x38
abbrev CODECOPY : UInt8 := 0x39
abbrev GASPRICE : UInt8 := 0x3a
abbrev EXTCODESIZE : UInt8 := 0x3b
abbrev EXTCODECOPY : UInt8 := 0x3c
abbrev RETURNDATASIZE : UInt8 := 0x3d
abbrev RETURNDATACOPY : UInt8 := 0x3e
abbrev EXTCODEHASH : UInt8 := 0x3f
abbrev BLOCKHASH : UInt8 := 0x40
abbrev COINBASE : UInt8 := 0x41
abbrev TIMESTAMP : UInt8 := 0x42
abbrev NUMBER : UInt8 := 0x43
abbrev DIFFICULTY : UInt8 := 0x44
abbrev RANDOM : UInt8 := 0x44
abbrev GASLIMIT : UInt8 := 0x45
abbrev CHAINID : UInt8 := 0x46
abbrev SELFBALANCE : UInt8 := 0x47
abbrev BASEFEE : UInt8 := 0x48
abbrev BLOBHASH : UInt8 := 0x49
abbrev BLOBBASEFEE : UInt8 := 0x4a
abbrev POP : UInt8 := 0x50
abbrev MLOAD : UInt8 := 0x51
abbrev MSTORE : UInt8 := 0x52
abbrev MSTORE8 : UInt8 := 0x53
abbrev SLOAD : UInt8 := 0x54
abbrev SSTORE : UInt8 := 0x55
abbrev JUMP : UInt8 := 0x56
abbrev JUMPI : UInt8 := 0x57
abbrev PC : UInt8 := 0x58
abbrev MSIZE : UInt8 := 0x59
abbrev GAS : UInt8 := 0x5a
abbrev TLOAD : UInt8 := 0x5c
abbrev TSTORE : UInt8 := 0x5d
abbrev MCOPY : UInt8 := 0x5e
abbrev PUSH0 : UInt8 := 0x5f
abbrev DUP1 : UInt8 := 0x80
abbrev SWAP1 : UInt8 := 0x90
abbrev LOG0 : UInt8 := 0xa0
abbrev CREATE : UInt8 := 0xf0
abbrev CALL : UInt8 := 0xf1
abbrev CALLCODE : UInt8 := 0xf2
abbrev RETURN : UInt8 := 0xf3
abbrev DELEGATECALL : UInt8 := 0xf4
abbrev CREATE2 : UInt8 := 0xf5
abbrev STATICCALL : UInt8 := 0xfa
abbrev REVERT : UInt8 := 0xfd
abbrev SELFDESTRUCT : UInt8 := 0xff

end OpCode

/-! ## Memory sizes -/

/-- `calcMemSize64WithUint`, with nothing for an overflow. -/
def calcMemSize64WithUint (off : Word) (length64 : UInt64) : Option UInt64 :=
  if length64 = 0 then some 0
  else (Word.uint64WithOverflow off).bind (fun offset64 => safeAdd offset64 length64)

/-- `calcMemSize64`, with nothing for an overflow. -/
def calcMemSize64 (off l : Word) : Option UInt64 :=
  (Word.uint64WithOverflow l).bind (calcMemSize64WithUint off)

/-- The memory size functions. -/
inductive MemFn where
  | memoryKeccak256 | memoryCallDataCopy | memoryReturnDataCopy | memoryCodeCopy
  | memoryExtCodeCopy | memoryMLoad | memoryMStore8 | memoryMStore | memoryMcopy
  | memoryCreate | memoryCreate2 | memoryCall | memoryDelegateCall | memoryStaticCall
  | memoryReturn | memoryRevert | memoryLog
  deriving DecidableEq

namespace MemFn

/-- `stack.Back(n)`. -/
def back (stack : List Word) (n : Nat) : Except Fault Word :=
  match stack[n]? with
  | some w => .ok w
  | none => .error .stack

theorem ok_of_bind {α β : Type} {x : Except Fault α} {f : α → Except Fault β} {b : β}
    (h : x >>= f = .ok b) : ∃ a, x = .ok a ∧ f a = .ok b := by
  cases x with
  | error e => cases h
  | ok a => exact ⟨a, rfl, h⟩

/-- The size for one offset and length on the stack. -/
def range (off len : Nat) (stack : List Word) : Except Fault (Option UInt64) := do
  pure (calcMemSize64 (← back stack off) (← back stack len))

/-- The size for one offset on the stack and a fixed length. -/
def fixed (length64 : UInt64) (stack : List Word) : Except Fault (Option UInt64) := do
  pure (calcMemSize64WithUint (← back stack 0) length64)

/-- The larger of the sizes for the output and the input of a call. -/
def call (outOff inOff : Nat) (stack : List Word) : Except Fault (Option UInt64) := do
  match ← range outOff (outOff + 1) stack with
  | none => pure none
  | some x =>
    match ← range inOff (inOff + 1) stack with
    | none => pure none
    | some y => pure (some (if y < x then x else y))

/-- The size each function computes, with nothing for an overflow. -/
def size (stack : List Word) : MemFn → Except Fault (Option UInt64)
  | memoryKeccak256 => range 0 1 stack
  | memoryCallDataCopy => range 0 2 stack
  | memoryReturnDataCopy => range 0 2 stack
  | memoryCodeCopy => range 0 2 stack
  | memoryExtCodeCopy => range 1 3 stack
  | memoryMLoad => fixed 32 stack
  | memoryMStore8 => fixed 1 stack
  | memoryMStore => fixed 32 stack
  | memoryMcopy => do
    let dst ← back stack 0
    let src ← back stack 1
    pure (calcMemSize64 (if dst.ult src then src else dst) (← back stack 2))
  | memoryCreate => range 1 2 stack
  | memoryCreate2 => range 1 2 stack
  | memoryCall => call 5 3 stack
  | memoryDelegateCall => call 4 2 stack
  | memoryStaticCall => call 4 2 stack
  | memoryReturn => range 0 1 stack
  | memoryRevert => range 0 1 stack
  | memoryLog => range 0 1 stack

end MemFn

/-! ## Operations -/

/-- The calls and creations. -/
inductive CallFn where
  | opCreate | opCreate2 | opCall | opCallCode | opDelegateCall | opStaticCall
  deriving DecidableEq

/-- The execution functions. -/
inductive ExecFn where
  | scope (f : ScopeFn)
  | opRevert
  | read (f : ReadFn)
  | write (f : WriteFn)
  | jump (f : JumpFn)
  | call (f : CallFn)
  deriving DecidableEq

/-- `operation`. -/
structure Operation where
  execute : ExecFn
  constantGas : UInt64 := 0
  dynamicGas : Option GasFn := none
  minStack : Nat
  maxStack : Nat
  memorySize : Option MemFn := none
  deriving DecidableEq

namespace Operation

/-- An operation that pops and pushes this many words, with the bounds
`minStack` and `maxStack` make of them. -/
def simple (execute : ExecFn) (constantGas : UInt64) (pops push : Nat) : Operation where
  execute := execute
  constantGas := constantGas
  minStack := pops
  maxStack := Params.stackLimit + pops - push

/-- An operation with a dynamic gas function. -/
def dynamic (execute : ExecFn) (constantGas : UInt64) (dynamicGas : GasFn) (pops push : Nat) :
    Operation :=
  { simple execute constantGas pops push with dynamicGas := some dynamicGas }

/-- An operation with a memory size function. -/
def memory (execute : ExecFn) (constantGas : UInt64) (dynamicGas : GasFn)
    (memorySize : MemFn) (pops push : Nat) : Operation :=
  { dynamic execute constantGas dynamicGas pops push with memorySize := some memorySize }

/-- The operation of an opcode without one. -/
def undefined : Operation := simple (.scope .opUndefined) 0 0 0

end Operation

open Operation OpCode ScopeFn ReadFn WriteFn JumpFn CallFn MemFn

/-! ## Tables -/

/-- `JumpTable`. -/
abbrev JumpTable := UInt8 → Operation

/-- **An assignment to a table**: to an entry, or to fields of one. -/
inductive Assign where
  /-- `jt[op] = o`. -/
  | set (op : UInt8) (o : Operation)
  /-- `jt[op].constantGas = gas`. -/
  | constantGas (op : UInt8) (gas : UInt64)
  /-- `jt[op].dynamicGas = gas`. -/
  | dynamicGas (op : UInt8) (gas : GasFn)
  /-- Both gas fields. -/
  | gas (op : UInt8) (constantGas : UInt64) (dynamicGas : GasFn)
  deriving DecidableEq

namespace Assign

/-- The entry that is assigned to. -/
def op : Assign → UInt8
  | set op _ | constantGas op _ | dynamicGas op _ | gas op _ _ => op

/-- What becomes of the entry. -/
def run : Assign → Operation → Operation
  | set _ o, _ => o
  | constantGas _ price, o => { o with constantGas := price }
  | dynamicGas _ f, o => { o with dynamicGas := some f }
  | gas _ price f, o => { o with constantGas := price, dynamicGas := some f }

end Assign

namespace JumpTable

/-- Makes an assignment. -/
def assign (jt : JumpTable) (a : Assign) : JumpTable :=
  fun op => if op = a.op then a.run (jt op) else jt op

/-- Makes assignments, in order. -/
def assignAll (jt : JumpTable) (l : List Assign) : JumpTable := l.foldl assign jt

/-- `jt[op] = o`. -/
def set (jt : JumpTable) (op : UInt8) (o : Operation) : JumpTable := jt.assign (.set op o)

/-- A property of every entry. -/
def All (P : UInt8 → Operation → Prop) (jt : JumpTable) : Prop := ∀ op, P op (jt op)

variable {P : UInt8 → Operation → Prop} {jt : JumpTable}

/-- What every one of some assignments keeps of the entry it is made to,
all of them keep of any entry. -/
theorem assignAll_keeps {l : List Assign} (hl : ∀ a ∈ l, ∀ o, P a.op o → P a.op (a.run o))
    {op : UInt8} (h : P op (jt op)) : P op (jt.assignAll l op) := by
  refine List.foldlRecOn (motive := fun jt : JumpTable => P op (jt op)) l _ h fun jt h a ha => ?_
  show P op (if op = a.op then a.run (jt op) else jt op)
  split_ifs with hop
  · subst hop
    exact hl a ha _ h
  · exact h

theorem All.set (h : All P jt) {op : UInt8} {o : Operation} (ho : P op o) :
    All P (jt.set op o) := by
  intro op'
  show P op' (if op' = op then o else jt op')
  split_ifs with hop
  · exact hop ▸ ho
  · exact h op'

end JumpTable

open Params

/-- The entries of `newFrontierInstructionSet`. The pushes, duplicates,
swaps and logs are numbered. -/
def frontierOps : List (UInt8 × Operation) :=
  [(STOP, simple (.scope opStop) 0 0 0),
   (ADD, simple (.scope opAdd) gasFastestStep 2 1),
   (MUL, simple (.scope opMul) gasFastStep 2 1),
   (SUB, simple (.scope opSub) gasFastestStep 2 1),
   (DIV, simple (.scope opDiv) gasFastStep 2 1),
   (SDIV, simple (.scope opSdiv) gasFastStep 2 1),
   (MOD, simple (.scope opMod) gasFastStep 2 1),
   (SMOD, simple (.scope opSmod) gasFastStep 2 1),
   (ADDMOD, simple (.scope opAddmod) gasMidStep 3 1),
   (MULMOD, simple (.scope opMulmod) gasMidStep 3 1),
   (EXP, dynamic (.scope opExp) 0 .gasExpFrontier 2 1),
   (SIGNEXTEND, simple (.scope opSignExtend) gasFastStep 2 1),
   (LT, simple (.scope opLt) gasFastestStep 2 1),
   (GT, simple (.scope opGt) gasFastestStep 2 1),
   (SLT, simple (.scope opSlt) gasFastestStep 2 1),
   (SGT, simple (.scope opSgt) gasFastestStep 2 1),
   (EQ, simple (.scope opEq) gasFastestStep 2 1),
   (ISZERO, simple (.scope opIszero) gasFastestStep 1 1),
   (AND, simple (.scope opAnd) gasFastestStep 2 1),
   (XOR, simple (.scope opXor) gasFastestStep 2 1),
   (OR, simple (.scope opOr) gasFastestStep 2 1),
   (NOT, simple (.scope opNot) gasFastestStep 1 1),
   (BYTE, simple (.scope opByte) gasFastestStep 2 1),
   (KECCAK256, memory (.scope opKeccak256) keccak256Gas .gasKeccak256 memoryKeccak256 2 1),
   (ADDRESS, simple (.scope opAddress) gasQuickStep 0 1),
   (BALANCE, simple (.read opBalance) balanceGasFrontier 1 1),
   (ORIGIN, simple (.scope opOrigin) gasQuickStep 0 1),
   (CALLER, simple (.scope opCaller) gasQuickStep 0 1),
   (CALLVALUE, simple (.scope opCallValue) gasQuickStep 0 1),
   (CALLDATALOAD, simple (.scope opCallDataLoad) gasFastestStep 1 1),
   (CALLDATASIZE, simple (.scope opCallDataSize) gasQuickStep 0 1),
   (CALLDATACOPY, memory (.scope opCallDataCopy) gasFastestStep (.memoryCopierGas 2)
      memoryCallDataCopy 3 0),
   (CODESIZE, simple (.scope opCodeSize) gasQuickStep 0 1),
   (CODECOPY, memory (.scope opCodeCopy) gasFastestStep (.memoryCopierGas 2)
      memoryCodeCopy 3 0),
   (GASPRICE, simple (.scope opGasprice) gasQuickStep 0 1),
   (EXTCODESIZE, simple (.read opExtCodeSize) extcodeSizeGasFrontier 1 1),
   (EXTCODECOPY, memory (.read opExtCodeCopy) extcodeCopyBaseFrontier (.memoryCopierGas 3)
      memoryExtCodeCopy 4 0),
   (BLOCKHASH, simple (.scope opBlockhash) gasExtStep 1 1),
   (COINBASE, simple (.scope opCoinbase) gasQuickStep 0 1),
   (TIMESTAMP, simple (.scope opTimestamp) gasQuickStep 0 1),
   (NUMBER, simple (.scope opNumber) gasQuickStep 0 1),
   (DIFFICULTY, simple (.scope opDifficulty) gasQuickStep 0 1),
   (GASLIMIT, simple (.scope opGasLimit) gasQuickStep 0 1),
   (POP, simple (.scope opPop) gasQuickStep 1 0),
   (MLOAD, memory (.scope opMload) gasFastestStep .pureMemoryGascost memoryMLoad 1 1),
   (MSTORE, memory (.scope opMstore) gasFastestStep .pureMemoryGascost memoryMStore 2 0),
   (MSTORE8, memory (.scope opMstore8) gasFastestStep .pureMemoryGascost memoryMStore8 2 0),
   (SLOAD, simple (.read opSload) sloadGasFrontier 1 1),
   (SSTORE, dynamic (.write opSstore) 0 .gasSStore 2 0),
   (JUMP, simple (.jump opJump) gasMidStep 1 0),
   (JUMPI, simple (.jump opJumpi) gasSlowStep 2 0),
   (PC, simple (.scope opPc) gasQuickStep 0 1),
   (MSIZE, simple (.scope opMsize) gasQuickStep 0 1),
   (GAS, simple (.scope opGas) gasQuickStep 0 1),
   (JUMPDEST, simple (.scope opJumpdest) jumpdestGas 0 0),
   (PUSH1, simple (.scope opPush1) gasFastestStep 0 1)]
  ++ (List.range 31).map (fun i => (PUSH1 + UInt8.ofNat (i + 1),
      simple (.scope (makePush (i + 2))) gasFastestStep 0 1))
  ++ (List.range 16).map (fun i => (DUP1 + UInt8.ofNat i,
      simple (.scope (makeDup (i + 1))) gasFastestStep (i + 1) (i + 2)))
  ++ (List.range 16).map (fun i => (SWAP1 + UInt8.ofNat i,
      simple (.scope (makeSwap (i + 1))) gasFastestStep (i + 2) (i + 2)))
  ++ (List.range 5).map (fun i => (LOG0 + UInt8.ofNat i,
      memory (.scope (makeLog i)) 0 (.makeGasLog (UInt64.ofNat i)) memoryLog (i + 2) 0))
  ++ [(CREATE, memory (.call opCreate) createGas .pureMemoryGascost memoryCreate 3 1),
   (CALL, memory (.call opCall) callGasFrontier (.call .gasCall) memoryCall 7 1),
   (CALLCODE, memory (.call opCallCode) callGasFrontier (.call .gasCallCode) memoryCall 7 1),
   (RETURN, memory (.scope opReturn) 0 .pureMemoryGascost memoryReturn 2 0),
   (SELFDESTRUCT, dynamic (.write opSelfdestruct) 0 .gasSelfdestruct 1 0)]

/-- `newFrontierInstructionSet`. -/
def newFrontierInstructionSet : JumpTable := fun op => (frontierOps.lookup op).getD undefined

/-! ## EIPs -/

namespace JumpTable

/-- `enable1884`. -/
def enable1884 : List Assign :=
  [.constantGas SLOAD sloadGasEIP1884, .constantGas BALANCE balanceGasEIP1884,
   .constantGas EXTCODEHASH extcodeHashGasEIP1884,
   .set SELFBALANCE (simple (.read opSelfBalance) gasFastStep 0 1)]

/-- `enable1344`. -/
def enable1344 : List Assign := [.set CHAINID (simple (.scope opChainID) gasQuickStep 0 1)]

/-- `enable2200`. -/
def enable2200 : List Assign :=
  [.constantGas SLOAD sloadGasEIP2200, .dynamicGas SSTORE .gasSStoreEIP2200]

/-- `enable2929`. -/
def enable2929 : List Assign :=
  [.dynamicGas SSTORE (.makeGasSStoreFunc sstoreClearsScheduleRefundEIP2200),
   .gas SLOAD 0 .gasSLoadEIP2929,
   .gas EXTCODECOPY warmStorageReadCostEIP2929 .gasExtCodeCopyEIP2929,
   .gas EXTCODESIZE warmStorageReadCostEIP2929 .gasEip2929AccountCheck,
   .gas EXTCODEHASH warmStorageReadCostEIP2929 .gasEip2929AccountCheck,
   .gas BALANCE warmStorageReadCostEIP2929 .gasEip2929AccountCheck,
   .gas CALL warmStorageReadCostEIP2929 (.makeCallVariantGasCallEIP2929 .gasCall),
   .gas CALLCODE warmStorageReadCostEIP2929 (.makeCallVariantGasCallEIP2929 .gasCallCode),
   .gas STATICCALL warmStorageReadCostEIP2929 (.makeCallVariantGasCallEIP2929 .gasStaticCall),
   .gas DELEGATECALL warmStorageReadCostEIP2929
      (.makeCallVariantGasCallEIP2929 .gasDelegateCall),
   .gas SELFDESTRUCT selfdestructGasEIP150 (.makeSelfdestructGasFn true)]

/-- `enable3529`. -/
def enable3529 : List Assign :=
  [.dynamicGas SSTORE (.makeGasSStoreFunc sstoreClearsScheduleRefundEIP3529),
   .dynamicGas SELFDESTRUCT (.makeSelfdestructGasFn false)]

/-- `enable3198`. -/
def enable3198 : List Assign := [.set BASEFEE (simple (.scope opBaseFee) gasQuickStep 0 1)]

/-- `enable3860`. -/
def enable3860 : List Assign :=
  [.dynamicGas CREATE .gasCreateEip3860, .dynamicGas CREATE2 .gasCreate2Eip3860]

/-- `enable3855`. -/
def enable3855 : List Assign := [.set PUSH0 (simple (.scope opPush0) gasQuickStep 0 1)]

/-- `enable4844`. -/
def enable4844 : List Assign := [.set BLOBHASH (simple (.scope opBlobHash) gasFastestStep 1 1)]

/-- `enable7939`. -/
def enable7939 : List Assign := [.set CLZ (simple (.scope opCLZ) gasFastestStep 1 1)]

/-- `enable7516`. -/
def enable7516 : List Assign :=
  [.set BLOBBASEFEE (simple (.scope opBlobBaseFee) gasQuickStep 0 1)]

/-- `enable1153`. -/
def enable1153 : List Assign :=
  [.set TLOAD (simple (.read opTload) warmStorageReadCostEIP2929 1 1),
   .set TSTORE (simple (.write opTstore) warmStorageReadCostEIP2929 2 0)]

/-- `enable5656`. -/
def enable5656 : List Assign :=
  [.set MCOPY (memory (.scope opMcopy) gasFastestStep (.memoryCopierGas 2) memoryMcopy 3 0)]

/-- `enable6780`. -/
def enable6780 : List Assign :=
  [.set SELFDESTRUCT (dynamic (.write opSelfdestruct6780) selfdestructGasEIP150
    (.makeSelfdestructGasFn false) 1 0)]

/-- `enable7702`. -/
def enable7702 : List Assign :=
  [.dynamicGas CALL (.makeCallVariantGasCallEIP7702 .gasCall),
   .dynamicGas CALLCODE (.makeCallVariantGasCallEIP7702 .gasCallCode),
   .dynamicGas STATICCALL (.makeCallVariantGasCallEIP7702 .gasStaticCall),
   .dynamicGas DELEGATECALL (.makeCallVariantGasCallEIP7702 .gasDelegateCall)]

/-- The function `activators` has for an EIP. -/
def activator : Eip → List Assign
  | .eip4844 => enable4844
  | .eip7516 => enable7516
  | .eip1153 => enable1153
  | .eip6780 => enable6780
  | .eip5656 => enable5656
  | .eip3855 => enable3855
  | .eip3860 => enable3860
  | .eip3529 => enable3529
  | .eip3198 => enable3198
  | .eip2929 => enable2929
  | .eip2200 => enable2200
  | .eip1884 => enable1884
  | .eip1344 => enable1344
  | .eip7939 => enable7939

/-- `EnableEIP`. -/
def enableEIP (jt : JumpTable) (e : Eip) : JumpTable := jt.assignAll (activator e)

/-! ## Forks -/

/-- What `newHomesteadInstructionSet` assigns. -/
def homestead : List Assign :=
  [.set DELEGATECALL (memory (.call opDelegateCall) callGasFrontier (.call .gasDelegateCall)
    memoryDelegateCall 6 1)]

/-- What `newTangerineWhistleInstructionSet` assigns. -/
def tangerineWhistle : List Assign :=
  [.constantGas BALANCE balanceGasEIP150, .constantGas EXTCODESIZE extcodeSizeGasEIP150,
   .constantGas SLOAD sloadGasEIP150, .constantGas EXTCODECOPY extcodeCopyBaseEIP150,
   .constantGas CALL callGasEIP150, .constantGas CALLCODE callGasEIP150,
   .constantGas DELEGATECALL callGasEIP150]

/-- What `newSpuriousDragonInstructionSet` assigns. -/
def spuriousDragon : List Assign := [.dynamicGas EXP .gasExpEIP158]

/-- What `newByzantiumInstructionSet` assigns. -/
def byzantium : List Assign :=
  [.set STATICCALL (memory (.call opStaticCall) callGasEIP150 (.call .gasStaticCall)
      memoryStaticCall 6 1),
   .set RETURNDATASIZE (simple (.scope opReturnDataSize) gasQuickStep 0 1),
   .set RETURNDATACOPY (memory (.scope opReturnDataCopy) gasFastestStep (.memoryCopierGas 2)
      memoryReturnDataCopy 3 0),
   .set REVERT (memory .opRevert 0 .pureMemoryGascost memoryRevert 2 0)]

/-- What `newConstantinopleInstructionSet` assigns. -/
def constantinople : List Assign :=
  [.set SHL (simple (.scope opSHL) gasFastestStep 2 1),
   .set SHR (simple (.scope opSHR) gasFastestStep 2 1),
   .set SAR (simple (.scope opSAR) gasFastestStep 2 1),
   .set EXTCODEHASH (simple (.read opExtCodeHash) extcodeHashGasConstantinople 1 1),
   .set CREATE2 (memory (.call opCreate2) create2Gas .gasCreate2 memoryCreate2 4 1)]

/-- What `newMergeInstructionSet` assigns. -/
def merge : List Assign := [.set RANDOM (simple (.scope opRandom) gasQuickStep 0 1)]

end JumpTable

open JumpTable

/-- `newHomesteadInstructionSet`. -/
def newHomesteadInstructionSet : JumpTable := newFrontierInstructionSet.assignAll homestead

/-- `newTangerineWhistleInstructionSet`. -/
def newTangerineWhistleInstructionSet : JumpTable :=
  newHomesteadInstructionSet.assignAll tangerineWhistle

/-- `newSpuriousDragonInstructionSet`. -/
def newSpuriousDragonInstructionSet : JumpTable :=
  newTangerineWhistleInstructionSet.assignAll spuriousDragon

/-- `newByzantiumInstructionSet`. -/
def newByzantiumInstructionSet : JumpTable := newSpuriousDragonInstructionSet.assignAll byzantium

/-- `newConstantinopleInstructionSet`. -/
def newConstantinopleInstructionSet : JumpTable :=
  newByzantiumInstructionSet.assignAll constantinople

/-- `newIstanbulInstructionSet`. -/
def newIstanbulInstructionSet : JumpTable :=
  newConstantinopleInstructionSet.assignAll (enable1344 ++ enable1884 ++ enable2200)

/-- `newBerlinInstructionSet`. -/
def newBerlinInstructionSet : JumpTable := newIstanbulInstructionSet.assignAll enable2929

/-- `newLondonInstructionSet`. -/
def newLondonInstructionSet : JumpTable :=
  newBerlinInstructionSet.assignAll (enable3529 ++ enable3198)

/-- `newMergeInstructionSet`. -/
def newMergeInstructionSet : JumpTable := newLondonInstructionSet.assignAll merge

/-- `newShanghaiInstructionSet`. -/
def newShanghaiInstructionSet : JumpTable :=
  newMergeInstructionSet.assignAll (enable3860 ++ enable3855)

/-- `newCancunInstructionSet`. -/
def newCancunInstructionSet : JumpTable := newShanghaiInstructionSet.assignAll
  (enable4844 ++ enable7516 ++ enable1153 ++ enable5656 ++ enable6780)

/-- `newPragueInstructionSet`. -/
def newPragueInstructionSet : JumpTable := newCancunInstructionSet.assignAll enable7702

/-- `newOsakaInstructionSet`. -/
def newOsakaInstructionSet : JumpTable := newPragueInstructionSet.assignAll enable7939

/-- The table `NewEVMInterpreter` takes for the rules. -/
def Rules.instructionSet (rules : Rules) : JumpTable :=
  if rules.isOsaka then newOsakaInstructionSet
  else if rules.isPrague then newPragueInstructionSet
  else if rules.isCancun then newCancunInstructionSet
  else if rules.isShanghai then newShanghaiInstructionSet
  else if rules.isMerge then newMergeInstructionSet
  else if rules.isLondon then newLondonInstructionSet
  else if rules.isBerlin then newBerlinInstructionSet
  else if rules.isIstanbul then newIstanbulInstructionSet
  else if rules.isConstantinople then newConstantinopleInstructionSet
  else if rules.isByzantium then newByzantiumInstructionSet
  else if rules.isEIP158 then newSpuriousDragonInstructionSet
  else if rules.isEIP150 then newTangerineWhistleInstructionSet
  else if rules.isHomestead then newHomesteadInstructionSet
  else newFrontierInstructionSet

/-- A write to a shared table. -/
def TableEdit.apply (jt : JumpTable) : TableEdit → JumpTable
  | disable op => jt.set op undefined
  | difficulty => jt.set RANDOM (newFrontierInstructionSet DIFFICULTY)

/-- What `NewEVMInterpreter` itself writes to the shared table. -/
def Env.ownEdits (env : Env) : List TableEdit :=
  (if env.rules.isShanghai && !env.rules.isMerge then
      [if env.difficultyDisabled then .disable RANDOM else .difficulty] else [])
    ++ env.disableOpcodes.map TableEdit.disable

/-- **The table an interpreter runs with**: that of its fork, with what
earlier interpreters and it wrote there, and a copy with the extra EIPs
enabled. -/
def Env.jumpTable (env : Env) : JumpTable :=
  env.extraEips.foldl JumpTable.enableEIP
    ((env.tableEdits ++ env.ownEdits).foldl TableEdit.apply env.rules.instructionSet)

/-! ## What holds of every table -/

namespace JumpTable

/-- The assignments that lead from each fork to the next. Those of the EIPs
are among them. -/
def forks : List (List Assign) :=
  [homestead, tangerineWhistle, spuriousDragon, byzantium, constantinople,
   enable1344 ++ enable1884 ++ enable2200, enable2929, enable3529 ++ enable3198, merge,
   enable3860 ++ enable3855, enable4844 ++ enable7516 ++ enable1153 ++ enable5656 ++ enable6780,
   enable7702, enable7939]

/-- All of them. -/
def assignments : List Assign := forks.flatten

/-- The tables of the forks. -/
def instructionSets : List JumpTable :=
  [newFrontierInstructionSet, newHomesteadInstructionSet, newTangerineWhistleInstructionSet,
   newSpuriousDragonInstructionSet, newByzantiumInstructionSet, newConstantinopleInstructionSet,
   newIstanbulInstructionSet, newBerlinInstructionSet, newLondonInstructionSet,
   newMergeInstructionSet, newShanghaiInstructionSet, newCancunInstructionSet,
   newPragueInstructionSet, newOsakaInstructionSet]

theorem instructionSets_eq :
    instructionSets = forks.scanl assignAll newFrontierInstructionSet := rfl

theorem mem_instructionSets (rules : Rules) : rules.instructionSet ∈ instructionSets := by
  have hite {b : Bool} {jt jt' : JumpTable} (h : jt ∈ instructionSets)
      (h' : jt' ∈ instructionSets) : (if b then jt else jt') ∈ instructionSets := by
    cases b
    exacts [h', h]
  refine hite ?_ (hite ?_ (hite ?_ (hite ?_ (hite ?_ (hite ?_ (hite ?_ (hite ?_ (hite ?_ (hite ?_
    (hite ?_ (hite ?_ (hite ?_ ?_))))))))))))
  all_goals simp only [instructionSets, List.mem_cons, true_or, or_true]

/-- The entries they add to the first table. -/
def addedOps : List (UInt8 × Operation) := assignments.filterMap fun
  | .set op o => some (op, o)
  | _ => none

/-- The gas functions they assign to operations. -/
def assignedGas : List (UInt8 × GasFn) := assignments.filterMap fun
  | .dynamicGas op gas | .gas op _ gas => some (op, gas)
  | _ => none

/-- **What the changes from one fork to the next keep** of an entry. -/
def Kept (P : UInt8 → Operation → Prop) : Prop :=
  ∀ a ∈ assignments, ∀ o, P a.op o → P a.op (a.run o)

namespace Kept

variable {P : UInt8 → Operation → Prop} {jt : JumpTable} (kept : Kept P)
include kept

theorem assignAll {l : List Assign} (hl : l ⊆ assignments) {op : UInt8} (h : P op (jt op)) :
    P op (jt.assignAll l op) :=
  assignAll_keeps (fun a ha => kept a (hl ha)) h

theorem enableEIP {op : UInt8} (h : P op (jt op)) (e : Eip) : P op (jt.enableEIP e op) :=
  kept.assignAll (by cases e <;> decide +kernel) h

/-- What holds of the first table holds of those of every rules. -/
theorem instructionSet (h₀ : All P newFrontierInstructionSet) (rules : Rules) :
    All P rules.instructionSet := by
  have hscan : ∀ l ⊆ forks, ∀ jt, All P jt → ∀ jt' ∈ l.scanl JumpTable.assignAll jt, All P jt' := by
    intro l hl
    induction l with
    | nil =>
      rintro jt h _ (_ | ⟨_, ⟨⟩⟩)
      exact h
    | cons x l ih =>
      rintro jt h jt' hjt'
      obtain ⟨hx, hl⟩ := List.cons_subset.mp hl
      rw [List.scanl_cons] at hjt'
      obtain rfl | hmem := List.mem_cons.mp hjt'
      · exact h
      · refine ih hl _ (fun op => kept.assignAll (fun a ha => ?_) (h op)) jt' hmem
        exact List.mem_flatten.mpr ⟨x, hx, ha⟩
  exact hscan forks (List.Subset.refl _) _ h₀ _ (instructionSets_eq ▸ mem_instructionSets rules)

end Kept

theorem all_frontier {P : UInt8 → Operation → Prop} (hu : ∀ op, P op undefined)
    (he : ∀ e ∈ frontierOps, P e.1 e.2) : All P newFrontierInstructionSet := by
  intro op
  unfold newFrontierInstructionSet
  cases hl : frontierOps.lookup op with
  | none => exact hu op
  | some o =>
    obtain ⟨l₁, l₂, heq, -⟩ := List.lookup_eq_some_iff.mp hl
    refine he (op, o) ?_
    rw [heq]
    exact List.mem_append_right _ List.mem_cons_self

/-- What holds of undefined operations and of the first table, and is kept
by the changes, holds of every table an interpreter runs with. -/
theorem Kept.jumpTable {P : UInt8 → Operation → Prop} (kept : Kept P)
    (hu : ∀ op, P op undefined) (h₀ : All P newFrontierInstructionSet) (env : Env) :
    All P env.jumpTable := by
  refine List.foldlRecOn env.extraEips _ ?_ (fun jt h e _ op => kept.enableEIP (h op) e)
  refine List.foldlRecOn _ _ (kept.instructionSet h₀ env.rules) (fun jt h e _ => ?_)
  cases e with
  | disable op => exact h.set (hu op)
  | difficulty => exact h.set (h₀ DIFFICULTY)

/-- **What makes a property hold of every entry of every table**: it holds
of an undefined operation and of every entry there is, and assigning a
price or one of the gas functions keeps it. -/
structure Law (P : UInt8 → Operation → Prop) : Prop where
  undefined : ∀ op, P op undefined
  entry : ∀ e ∈ frontierOps ++ addedOps, P e.1 e.2
  constantGas : ∀ op o gas, P op o → P op { o with constantGas := gas }
  dynamicGas : ∀ e ∈ assignedGas, ∀ o, P e.1 o → P e.1 { o with dynamicGas := some e.2 }

namespace Law

variable {P : UInt8 → Operation → Prop} {jt : JumpTable} (law : Law P)
include law

theorem kept : Kept P := by
  intro a ha o ho
  cases a with
  | set op o' =>
    have hmem : (op, o') ∈ addedOps := List.mem_filterMap.mpr ⟨_, ha, rfl⟩
    exact law.entry _ (List.mem_append_right _ hmem)
  | constantGas op gas => exact law.constantGas _ _ _ ho
  | dynamicGas op gas =>
    have hmem : (op, gas) ∈ assignedGas := List.mem_filterMap.mpr ⟨_, ha, rfl⟩
    exact law.dynamicGas _ hmem o ho
  | gas op price gas =>
    have hmem : (op, gas) ∈ assignedGas := List.mem_filterMap.mpr ⟨_, ha, rfl⟩
    exact law.dynamicGas _ hmem _ (law.constantGas _ _ price ho)

/-- **The property holds of every table an interpreter runs with**,
whatever the rules, the disabled opcodes, the extra EIPs and the leavings
of earlier interpreters. -/
theorem jumpTable (env : Env) : All P env.jumpTable :=
  law.kept.jumpTable law.undefined
    (all_frontier law.undefined fun e he => law.entry e (List.mem_append_left _ he)) env

end Law

end JumpTable

/-! ## Kinds of gas functions -/

/-- **What a gas function is for.** Functions of all kinds but one leave
the refund counter alone; those of the calls set `callGasTemp`. -/
inductive GasKind where
  | quiet
  | sstore
  | selfdestruct
  | call (f : CallGasFn)
  deriving DecidableEq

/-- The kind of a gas function. -/
def GasFn.kind : GasFn → GasKind
  | gasSStore | gasSStoreEIP2200 | makeGasSStoreFunc _ => .sstore
  | gasSelfdestruct | makeSelfdestructGasFn _ => .selfdestruct
  | call f | makeCallVariantGasCallEIP2929 f | makeCallVariantGasCallEIP7702 f => .call f
  | _ => .quiet

/-- The kind of gas function an execution function relies on. -/
def ExecFn.kind : ExecFn → GasKind
  | write opSstore => .sstore
  | write opSelfdestruct | write opSelfdestruct6780 => .selfdestruct
  | call opCall => .call .gasCall
  | call opCallCode => .call .gasCallCode
  | call opDelegateCall => .call .gasDelegateCall
  | call opStaticCall => .call .gasStaticCall
  | _ => .quiet

/-- The kind of gas function of an operation. -/
def Operation.gasKind (o : Operation) : GasKind := (o.dynamicGas.map GasFn.kind).getD .quiet

/-- The kind of gas function of an opcode. -/
def opKind (op : UInt8) : GasKind :=
  if op = SSTORE then .sstore
  else if op = SELFDESTRUCT then .selfdestruct
  else if op = CALL then .call .gasCall
  else if op = CALLCODE then .call .gasCallCode
  else if op = DELEGATECALL then .call .gasDelegateCall
  else if op = STATICCALL then .call .gasStaticCall
  else .quiet

/-- **An operation in its place.** Its functions are those of its
opcode's kind – an undefined operation may have a gas function, if an EIP
is enabled over a disabled opcode – and the byte that begins a delegation
designator is undefined. -/
structure Operation.Fits (op : UInt8) (o : Operation) : Prop where
  execute : o.execute = .scope opUndefined ∨ o.execute.kind = opKind op
  gas : o.gasKind = opKind op ∨ o.execute = .scope opUndefined ∧ o.gasKind = .quiet
  designator : op = 0xef → o.execute = .scope opUndefined

instance (op : UInt8) (o : Operation) : Decidable (o.Fits op) :=
  decidable_of_iff
    ((o.execute = .scope opUndefined ∨ o.execute.kind = opKind op)
      ∧ (o.gasKind = opKind op ∨ o.execute = .scope opUndefined ∧ o.gasKind = .quiet)
      ∧ (op = 0xef → o.execute = .scope opUndefined))
    ⟨fun h => ⟨h.1, h.2.1, h.2.2⟩, fun h => ⟨h.execute, h.gas, h.designator⟩⟩

namespace Operation

theorem fits_undefined (op : UInt8) : undefined.Fits op :=
  ⟨.inl rfl, .inr ⟨rfl, rfl⟩, fun _ => rfl⟩

/-- An operation that is defined has the gas function its execution
function relies on. -/
theorem Fits.gasKind_eq {op : UInt8} {o : Operation} (h : o.Fits op)
    (hd : o.execute ≠ .scope opUndefined) : o.gasKind = o.execute.kind := by
  rw [h.execute.resolve_left hd]
  exact h.gas.resolve_right (fun hu => hd hu.1)

end Operation

theorem law_fits : Law Fits where
  undefined := fits_undefined
  entry := by decide +kernel
  constantGas _ _ _ h := ⟨h.execute, h.gas, h.designator⟩
  dynamicGas e he o h := by
    have hkind : ∀ e ∈ assignedGas, e.2.kind = opKind e.1 := by decide +kernel
    exact ⟨h.execute, .inl (hkind e he), h.designator⟩

/-- **Every table an interpreter runs with has its operations in their
places.** -/
theorem Env.fits_jumpTable (env : Env) : All Fits env.jumpTable :=
  law_fits.jumpTable env
