import CardinalEvm.StateDB
import CardinalEvm.Params
import CardinalEvm.Effect

/-!
# The machine

What the interpreter works on: the operand stack and the memory of a
frame, the contract a frame runs, and the `EVM` object all the frames of
a call tree share.

Go code that panics – an index out of range, a nil pointer, an explicit
`panic` – is a `Fault` here, kept apart from the errors the code
returns, which are `VmErr`s.
-/

/-- The errors of `vm/errors.go`, the stop token among them, and two
that are made where they are returned. -/
inductive VmErr where
  | outOfGas
  | codeStoreOutOfGas
  | depth
  | insufficientBalance
  | contractAddressCollision
  | executionReverted
  | maxCodeSizeExceeded
  | invalidJump
  | writeProtection
  | returnDataOutOfBounds
  | gasUintOverflow
  | invalidCode
  | stopToken
  | stackUnderflow (stackLen required : Nat)
  | stackOverflow (stackLen limit : Nat)
  | invalidOpCode (opcode : UInt8)
  /-- "not enough gas for reentrancy sentry" -/
  | reentrancySentry
  /-- An error of a precompiled contract. -/
  | precompile (message : String)
  deriving DecidableEq

/-- **Where the Go code panics**, and one reason more: the model's runs
are bounded by a number of steps. -/
inductive Fault where
  /-- An operand is missing from the stack. -/
  | stack
  /-- A slice of the memory, the code or the call data is out of range. -/
  | slice
  /-- The bitmap of a jump destination is indexed out of range. -/
  | bitmap
  /-- A nil pointer or a nil map. -/
  | nil
  /-- A failed type assertion. -/
  | assertion
  /-- "impossible case: address was not present in access list during
  sstore op" -/
  | canary
  /-- The journal cannot be reverted to a snapshot. -/
  | snapshot
  | outOfFuel
  deriving DecidableEq

/-! ## Words -/

namespace Word

/-- `Uint64`: the low 64 bits. -/
def uint64 (w : Word) : UInt64 := UInt64.ofNat w.toNat

/-- `IsUint64`. -/
def isUint64 (w : Word) : Bool := w.toNat < 2 ^ 64

/-- `Uint64WithOverflow`, with nothing for an overflow. -/
def uint64WithOverflow (w : Word) : Option UInt64 :=
  if isUint64 w then some (uint64 w) else none

/-- `Bytes20`, as an address. -/
def bytes20 (w : Word) : Address := w.setWidth 160

/-- `SetUint64`. -/
def ofUint64 (n : UInt64) : Word := BitVec.ofNat 256 n.toNat

/-- `SetBytes` of an address. -/
def ofAddress (a : Address) : Word := a.setWidth 256

/-- `FromBig` and `SetFromBig`: the low 256 bits, in two's complement. -/
def ofBig (n : Int) : Word := BitVec.ofInt 256 n

/-- `BitLen`. -/
def bitLen (x : Word) : Nat := if x = 0 then 0 else x.toNat.log2 + 1

/-- `SetOne` or `Clear`, by the answer to a comparison. -/
def ofBool (b : Bool) : Word := if b then 1 else 0

end Word

/-! ## Memory -/

/-- `vm.Memory`. -/
structure Memory where
  store : Bytes := []
  lastGasCost : UInt64 := 0
  deriving DecidableEq

namespace Memory

/-- Copies bytes over a part of the store. -/
def write (m : Memory) (offset : Nat) (value : Bytes) : Memory :=
  { m with store := m.store.take offset ++ value ++ m.store.drop (offset + value.length) }

/-- `Set`. The sum of offset and size is taken in 64 bits, and a wrapped
sum makes a slice that ends before it starts. -/
def set (m : Memory) (offset size : UInt64) (value : Bytes) : Option Memory :=
  if size = 0 then some m
  else if m.store.length < (offset + size).toNat || offset + size < offset then none
  else some (m.write offset.toNat (value.take size.toNat))

/-- `Set32`. -/
def set32 (m : Memory) (offset : UInt64) (val : Word) : Option Memory :=
  if m.store.length < (offset + 32).toNat || offset + 32 < offset then none
  else some (m.write offset.toNat (Hash.bytes val))

/-- The assignment to one byte of the store. -/
def setByte (m : Memory) (offset : UInt64) (b : UInt8) : Option Memory :=
  if offset.toNat < m.store.length then some (m.write offset.toNat [b]) else none

/-- `Resize`. -/
def resize (m : Memory) (size : UInt64) : Memory :=
  { m with store := m.store ++ List.replicate (size.toNat - m.store.length) 0 }

/-- `GetPtr`, and `GetCopy`, which returns the same bytes. Offset and
size are read as signed numbers. -/
def getPtr (m : Memory) (offset size : UInt64) : Option Bytes :=
  if size = 0 then some []
  else if offset.toInt64.toInt < m.store.length then
    if offset.toInt64.toInt < 0 || size.toInt64.toInt < 0
        || m.store.length < offset.toNat + size.toNat then none
    else some ((m.store.drop offset.toNat).take size.toNat)
  else some []

/-- `Copy`. -/
def copy (m : Memory) (dst src len : UInt64) : Option Memory :=
  if len = 0 then some m
  else if m.store.length < dst.toNat || src + len < src
      || m.store.length < (src + len).toNat then none
  else
    some (m.write dst.toNat
      (((m.store.drop src.toNat).take len.toNat).take (m.store.length - dst.toNat)))

end Memory

/-! ## Slices of data -/

/-- `common.RightPadBytes`. -/
def rightPadBytes (slice : Bytes) (l : Int) : Bytes :=
  if l ≤ slice.length then slice else slice ++ List.replicate (l.toNat - slice.length) 0

/-- `getData`. -/
def getData (data : Bytes) (start size : UInt64) : Option Bytes :=
  let length := UInt64.ofNat data.length
  let start := if length < start then length else start
  let stop := start + size
  let stop := if length < stop then length else stop
  if stop < start then none
  else some (rightPadBytes ((data.drop start.toNat).take (stop.toNat - start.toNat))
    size.toInt64.toInt)

theorem rightPadBytes_eq_append (l : Bytes) (n : ℕ) :
    rightPadBytes l n = l ++ List.replicate (n - l.length) 0 := by
  unfold rightPadBytes
  split_ifs with h
  · rw [Nat.sub_eq_zero_of_le (Int.ofNat_le.mp h), List.replicate_zero, List.append_nil]
  · rw [Int.toNat_natCast]

/-- What is cut out of the code and padded, byte by byte. -/
theorem rightPadBytes_take_drop (code : Bytes) (k n : ℕ) :
    rightPadBytes ((code.drop (min code.length k)).take n) n
      = (List.range n).map fun i => code.getD (k + i) 0 := by
  have hlen : ((code.drop (min code.length k)).take n).length = min n (code.length - k) := by
    rw [List.length_take, List.length_drop]
    omega
  rw [rightPadBytes_eq_append]
  refine List.ext_getElem (by simp [hlen]) fun i hi hi' => ?_
  have hin : i < n := by simpa using hi'
  rw [List.getElem_append, List.getElem_map, List.getElem_range, List.getD_eq_getElem?_getD]
  split_ifs with hcut
  · rw [hlen] at hcut
    simp only [Nat.min_eq_right (show k ≤ code.length by omega)]
    rw [List.getElem_take, List.getElem_drop, List.getElem?_eq_getElem (by omega),
      Option.getD_some]
  · rw [hlen] at hcut
    rw [List.getElem_replicate, List.getElem?_eq_none (by omega), Option.getD_none]

/-- The conversion to a signed number changes no number that is small
enough. -/
theorem toInt_toInt64 {n : UInt64} (h : n.toNat < 2 ^ 63) : n.toInt64.toInt = n.toNat :=
  BitVec.toInt_eq_toNat_of_lt (show 2 * n.toNat < 2 ^ 64 by omega)

/-- **Data read and padded**, byte by byte, if the data fit a Go slice. -/
theorem getData_eq {data : Bytes} {start size : UInt64} (hdata : data.length < 2 ^ 63)
    (hsize : size.toNat < 2 ^ 63) :
    getData data start size
      = some ((List.range size.toNat).map fun i => data.getD (start.toNat + i) 0) := by
  unfold getData
  extract_lets length start' stop stop'
  have hlength : length.toNat = data.length :=
    UInt64.toNat_ofNat_of_lt' (show data.length < 2 ^ 64 by omega)
  have hstart : start'.toNat = min data.length start.toNat := by
    show (if length < start then length else start).toNat = _
    split_ifs with hlt <;> rw [UInt64.lt_iff_toNat_lt] at hlt <;> omega
  have hstop : stop.toNat = start'.toNat + size.toNat := by
    rw [UInt64.toNat_add]
    exact Nat.mod_eq_of_lt (by omega)
  have hstop' : stop'.toNat = min data.length (start'.toNat + size.toNat) := by
    show (if length < stop then length else stop).toNat = _
    split_ifs with hlt <;> rw [UInt64.lt_iff_toNat_lt] at hlt <;> omega
  have htake : (data.drop start'.toNat).take (stop'.toNat - start'.toNat)
      = (data.drop start'.toNat).take size.toNat := by
    rw [List.take_eq_take_iff, List.length_drop]
    omega
  rw [if_neg (by rw [UInt64.lt_iff_toNat_lt]; omega), htake, toInt_toInt64 hsize, hstart,
    rightPadBytes_take_drop]

/-- `toWordSize`. -/
def toWordSize (size : UInt64) : UInt64 :=
  if UInt64.ofNat (2 ^ 64 - 1) - 31 < size then UInt64.ofNat (2 ^ 64 - 1) / 32 + 1
  else (size + 31) / 32

theorem toNat_toWordSize {size : UInt64} (h : size.toNat + 31 < 2 ^ 64) :
    (toWordSize size).toNat = (size.toNat + 31) / 32 := by
  have hsmall : ¬ UInt64.ofNat (2 ^ 64 - 1) - 31 < size := by
    rw [UInt64.lt_iff_toNat_lt, show (UInt64.ofNat (2 ^ 64 - 1) - 31).toNat = 2 ^ 64 - 32 by decide]
    omega
  rw [toWordSize, if_neg hsmall, UInt64.toNat_div, UInt64.toNat_add]
  show (size.toNat + 31) % 2 ^ 64 / 32 = _
  rw [Nat.mod_eq_of_lt h]

/-- `math.SafeAdd`, with nothing for an overflow. -/
def safeAdd (x y : UInt64) : Option UInt64 :=
  if x.toNat + y.toNat < 2 ^ 64 then some (x + y) else none

/-- `math.SafeMul`, with nothing for an overflow. -/
def safeMul (x y : UInt64) : Option UInt64 :=
  if x.toNat * y.toNat < 2 ^ 64 then some (x * y) else none

/-! ## Contracts -/

/-- `bitvec`. -/
abbrev Bitvec := List UInt8

/-- **The scoped environment of one frame**, `vm.Contract`. The map of
analyses its frames share is a field of the `Evm`, `CodeAddr` is never
read, and the caller is only used while a contract is made. -/
structure Contract where
  callerAddress : Address
  self : Address
  /-- The locally cached analysis. -/
  analysis : Option Bitvec := none
  code : Bytes := []
  codeHash : Hash := 0
  input : Bytes := []
  gas : UInt64
  value : Int

/-- `ContractRef`: an account, or the contract of a running frame. -/
inductive ContractRef where
  | accountRef (address : Address)
  | contract (c : Contract)

/-- `ContractRef.Address`. -/
def ContractRef.address : ContractRef → Address
  | accountRef address => address
  | contract c => c.self

namespace Contract

/-- `GetOp`. -/
def getOp (c : Contract) (n : UInt64) : UInt8 := c.code.getD n.toNat 0x00

/-- `SetCallCode` and `SetCodeOptionalHash`. -/
def setCallCode (c : Contract) (hash : Hash) (code : Bytes) : Contract :=
  { c with code := code, codeHash := hash }

end Contract

/-! ## The environment of a run -/

/-- The types that implement `PrecompiledContract`. -/
inductive Precompile where
  | ecrecover | sha256hash | ripemd160hash | dataCopy
  | bigModExp (eip2565 eip7823 eip7883 : Bool)
  | bn256AddByzantium | bn256ScalarMulByzantium | bn256PairingByzantium
  | bn256AddIstanbul | bn256ScalarMulIstanbul | bn256PairingIstanbul
  | blake2F | kzgPointEvaluation
  | bls12381G1Add | bls12381G1MultiExp | bls12381G2Add | bls12381G2MultiExp
  | bls12381Pairing | bls12381MapG1 | bls12381MapG2
  | p256Verify (gas : Nat)
  deriving DecidableEq

/-- `PrecompiledContract`. The output comes with the message of an error
where there is one. -/
structure Precompiled where
  requiredGas : Bytes → UInt64
  run : Bytes → Bytes × Option String

/-- The EIPs that `EnableEIP` knows. -/
inductive Eip where
  | eip4844 | eip7516 | eip1153 | eip6780 | eip5656 | eip3855 | eip3860
  | eip3529 | eip3198 | eip2929 | eip2200 | eip1884 | eip1344 | eip7939
  deriving DecidableEq

/-- **A write to a shared instruction table.** `NewEVMInterpreter` takes
the address of the table of its fork, so what it writes before it copies
the table is there for the next interpreter of the process. -/
inductive TableEdit where
  /-- An opcode of `DisableOpcodes`. -/
  | disable (op : UInt8)
  /-- `RANDOM` becomes `DIFFICULTY`. -/
  | difficulty
  deriving DecidableEq

/-- **What an EVM is made with** and never changes: the chain, the
block, the transaction, and the implementations of the precompiled
contracts. A pointer that may be nil is an option. -/
structure Env where
  rules : Rules := {}
  chainID : Option Int := none
  disableOpcodes : List UInt8 := []
  extraEips : List Eip := []
  /-- What earlier interpreters wrote to the fork's table. -/
  tableEdits : List TableEdit := []
  /-- Whether one of them disabled `DIFFICULTY` in the first table. -/
  difficultyDisabled : Bool := false
  coinbase : Address := 0
  gasLimit : UInt64 := 0
  blockNumber : Int := 0
  time : Int := 0
  difficulty : Int := 0
  baseFee : Option Int := none
  blobBaseFee : Option Int := none
  random : Option Hash := none
  getHash : UInt64 → Hash := fun _ => 0
  origin : Address := 0
  gasPrice : Option Int := none
  blobHashes : List Hash := []
  precompiled : Precompile → Precompiled := fun _ => ⟨fun _ => 0, fun _ => ([], none)⟩
  /-- What the abort flag holds when it is read for the `n`-th time:
  another thread may set it between any two reads. -/
  abort : Nat → Bool := fun _ => false

/-! ## The state of a run -/

/-- **What happened in a run**, for the statements about every step of
one. The program has no such record and nothing it does depends on it. -/
inductive Event where
  /-- `Contract.Gas` is `gas` and `amount` is subtracted from it. -/
  | useGas (gas amount : UInt64)
  /-- `Contract.Gas` is `gas` and `amount` is added to it. -/
  | addGas (gas amount : UInt64)
  /-- A call or create instruction was executed with `before` gas at its
  start and `after` at its end. -/
  | called (before after : UInt64)
  /-- An instruction was executed and did not end its frame. -/
  | executed
  /-- `AddRefund(amount)` with the counter at `refund`. -/
  | addRefund (refund amount : UInt64)
  /-- `SubRefund(amount)` with the counter at `refund`. -/
  | subRefund (refund amount : UInt64)
  /-- `validJumpdest(dest)` on a contract with this code, and its answer,
  or nothing if a bitmap was indexed out of range. -/
  | jumpdest (code : Bytes) (dest : Word) (answer : Option Bool)
  /-- `CreateAccount(addr)` when the journal had `snapshot` entries, by a
  creation or for the recipient of a call. -/
  | created (addr : Address) (snapshot : Nat) (byCreation : Bool)
  /-- `RevertToSnapshot(snapshot)`. -/
  | reverted (snapshot : Nat)
  /-- `SELFDESTRUCT` by an account that had `balance`, and whether it is
  marked as suicided afterwards. -/
  | selfdestruct (self : Address) (balance : Int) (suicided : Bool)
  deriving DecidableEq

/-- **The `EVM` object and its interpreter.** -/
structure Evm where
  statedb : StateDB
  depth : Nat := 0
  callGasTemp : UInt64 := 0
  readOnly : Bool := false
  returnData : Bytes := []
  /-- `Contract.jumpdests`, the one map all frames of a call tree share. -/
  jumpdests : GoMap Hash Bitvec := fun _ => none
  /-- How often the abort flag was read. -/
  polls : Nat := 0
  /-- The events so far, the newest first. -/
  trace : List Event := []

/-- **The registers of a frame**: the program counter, the operand stack
with its top first, and the memory. -/
structure Regs where
  pc : UInt64 := 0
  stack : List Word := []
  memory : Memory := {}

/-- **A running frame**, with the EVM it runs in. -/
structure Frame where
  evm : Evm
  regs : Regs := {}
  contract : Contract

/-- What an execution function returns. -/
abbrev Outcome := Bytes × Option VmErr

/-! ## Stack operations -/

namespace Regs

/-- `pop`. -/
def pop : EStateM Fault Regs Word := attempt .stack (fun r =>
  match r.stack with
  | [] => none
  | w :: ws => some (w, { r with stack := ws }))

/-- `push`. The limit is checked before an operation runs. -/
def push (w : Word) : EStateM Fault Regs Unit :=
  modify (fun r => { r with stack := w :: r.stack })

/-- Rewrites the top in place, as functions do that `peek` it. -/
def mapTop (f : Word → Word) : EStateM Fault Regs Unit := do
  push (f (← pop))

/-- `dup`. -/
def dup (n : Nat) : EStateM Fault Regs Unit := attempt .stack (fun r =>
  (r.stack[n - 1]?).map (fun w => ((), { r with stack := w :: r.stack })))

/-- `swap`. -/
def swap (n : Nat) : EStateM Fault Regs Unit := attempt .stack (fun r =>
  match r.stack[n - 1]?, r.stack[0]? with
  | some w, some top => some ((), { r with stack := (r.stack.set (n - 1) top).set 0 w })
  | _, _ => none)

/-- Runs a memory operation. -/
def store (f : Memory → Option Memory) : EStateM Fault Regs Unit := attempt .slice (fun r =>
  (f r.memory).map (fun m => ((), { r with memory := m })))

/-- Reads the memory. -/
def load (f : Memory → Option Bytes) : EStateM Fault Regs Bytes := attempt .slice (fun r =>
  (f r.memory).map (fun b => (b, r)))

end Regs
