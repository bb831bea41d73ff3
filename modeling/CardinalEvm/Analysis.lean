import CardinalEvm.Instructions

/-!
# Jump analysis

`vm/analysis.go`, the part of `vm/contract.go` that uses it, and the two
jumps. A bitmap has a set bit for every byte of code that is the
immediate data of a `PUSH`. It is written eight bits at a time through
indices that run past the code by up to four bytes, which is why it is
five bytes longer than the code needs; writing outside it would panic,
so building one gives an option. `codeBitmap_length`, in
`CardinalEvm.CodeBitmap`, says that it never does.
-/

namespace Bitvec

/-- `bits[i] |= b`. -/
def orAt (bits : Bitvec) (i : Nat) (b : UInt8) : Option Bitvec :=
  (bits[i]?).map (fun x => bits.set i (x ||| b))

/-- `bits[i] = b`. -/
def putAt (bits : Bitvec) (i : Nat) (b : UInt8) : Option Bitvec :=
  if i < bits.length then some (bits.set i b) else none

/-- `set1`. -/
def set1 (bits : Bitvec) (pos : Nat) : Option Bitvec :=
  bits.orAt (pos / 8) (1 <<< UInt8.ofNat (pos % 8))

/-- `setN`, for the mask of the lowest `n` bits. -/
def setN (n : Nat) (bits : Bitvec) (pos : Nat) : Option Bitvec := do
  let a : UInt16 := UInt16.ofNat (2 ^ n - 1) <<< UInt16.ofNat (pos % 8)
  let bits ← bits.orAt (pos / 8) a.toUInt8
  let b := (a >>> 8).toUInt8
  if b ≠ 0 then bits.putAt (pos / 8 + 1) b else some bits

/-- `set8`. -/
def set8 (bits : Bitvec) (pos : Nat) : Option Bitvec := do
  let a : UInt8 := 0xFF <<< UInt8.ofNat (pos % 8)
  let bits ← bits.orAt (pos / 8) a
  bits.putAt (pos / 8 + 1) (~~~a)

/-- `set16`. -/
def set16 (bits : Bitvec) (pos : Nat) : Option Bitvec := do
  let a : UInt8 := 0xFF <<< UInt8.ofNat (pos % 8)
  let bits ← bits.orAt (pos / 8) a
  let bits ← bits.putAt (pos / 8 + 1) 0xFF
  bits.putAt (pos / 8 + 2) (~~~a)

/-- `codeSegment`: whether a position is code, if it is in the bitmap. -/
def codeSegment (bits : Bitvec) (pos : Nat) : Option Bool :=
  (bits[pos / 8]?).map (fun b => (b >>> UInt8.ofNat (pos % 8)) &&& 1 == 0)

/-- A loop that sets `width` bits a turn. -/
def repeatSet (set : Bitvec → Nat → Option Bitvec) (width : Nat) :
    Nat → Bitvec → Nat → Option Bitvec
  | 0, bits, _ => some bits
  | k + 1, bits, pc => (set bits pc).bind (fun bits => repeatSet set width k bits (pc + width))

/-- The bits of the `numbits` bytes of immediate data at `pc`: sixteen
at a time, then eight, then the rest. -/
def setData (numbits : Nat) (bits : Bitvec) (pc : Nat) : Option Bitvec := do
  let bits ← repeatSet set16 16 (numbits / 16) bits pc
  let pc := pc + 16 * (numbits / 16)
  let bits ← repeatSet set8 8 (numbits % 16 / 8) bits pc
  let pc := pc + 8 * (numbits % 16 / 8)
  match numbits % 8 with
  | 0 => some bits
  | 1 => bits.set1 pc
  | n => bits.setN n pc

end Bitvec

/-- `PUSH1`. -/
def PUSH1 : UInt8 := 0x60

/-- `PUSH32`. -/
def PUSH32 : UInt8 := 0x7f

/-- `JUMPDEST`. -/
def JUMPDEST : UInt8 := 0x5b

/-- `codeBitmapInternal`, from `pc` on. A turn takes at least one byte
of code, so as many turns as there are bytes are enough. -/
def codeBitmapInternal (code : Bytes) : Nat → Nat → Bitvec → Option Bitvec
  | 0, _, bits => some bits
  | turns + 1, pc, bits =>
    match code[pc]? with
    | none => some bits
    | some op =>
      if op < PUSH1 || PUSH32 < op then codeBitmapInternal code turns (pc + 1) bits
      else
        let numbits := (op - PUSH1 + 1).toNat
        (bits.setData numbits (pc + 1)).bind
          (codeBitmapInternal code turns (pc + 1 + numbits))

/-- `codeBitmap`. -/
def codeBitmap (code : Bytes) : Option Bitvec :=
  codeBitmapInternal code code.length 0 (List.replicate (code.length / 8 + 1 + 4) 0)

namespace Contract

/-- `isCode`: the answer, the contract with its analysis stashed, and
the shared map. -/
def isCode (c : Contract) (jumpdests : GoMap Hash Bitvec) (udest : Nat) :
    Option Bool × Contract × GoMap Hash Bitvec :=
  match c.analysis with
  | some analysis => (analysis.codeSegment udest, c, jumpdests)
  | none =>
    if c.codeHash ≠ 0 then
      match jumpdests c.codeHash with
      | some analysis =>
        (analysis.codeSegment udest, { c with analysis := some analysis }, jumpdests)
      | none =>
        match codeBitmap c.code with
        | some analysis =>
          (analysis.codeSegment udest, { c with analysis := some analysis },
            Function.update jumpdests c.codeHash (some analysis))
        | none => (none, c, jumpdests)
    else
      match codeBitmap c.code with
      | some analysis =>
        (analysis.codeSegment udest, { c with analysis := some analysis }, jumpdests)
      | none => (none, c, jumpdests)

/-- `validJumpdest`. -/
def validJumpdest (c : Contract) (jumpdests : GoMap Hash Bitvec) (dest : Word) :
    Option Bool × Contract × GoMap Hash Bitvec :=
  match Word.uint64WithOverflow dest with
  | none => (some false, c, jumpdests)
  | some udest =>
    if c.code.length ≤ udest.toNat then (some false, c, jumpdests)
    else if c.code.getD udest.toNat 0 ≠ JUMPDEST then (some false, c, jumpdests)
    else c.isCode jumpdests udest.toNat

end Contract

/-! ## The jumps -/

/-- The two jumps. -/
inductive JumpFn where
  | opJump | opJumpi
  deriving DecidableEq

namespace Frame

/-- Runs code of the registers. -/
def onRegs {α : Type} (m : EStateM Fault Regs α) : EStateM Fault Frame α :=
  zoom regs (fun r s => { s with regs := r }) m

/-- Runs code of the EVM. -/
def onEvm {α : Type} (m : EStateM Fault Evm α) : EStateM Fault Frame α :=
  zoom evm (fun e s => { s with evm := e }) m

/-- `validJumpdest` on the contract of the frame. -/
def validJumpdest (dest : Word) : EStateM Fault Frame Bool := fun s =>
  let r := s.contract.validJumpdest s.evm.jumpdests dest
  let s' := { s with
    contract := r.2.1
    evm := { s.evm with
      jumpdests := r.2.2
      trace := .jumpdest s.contract.code dest r.1 :: s.evm.trace } }
  match r.1 with
  | some b => .ok b s'
  | none => .error .bitmap s'

/-- Reads the abort flag. -/
def aborted (env : Env) : EStateM Fault Frame Bool :=
  modifyGet (fun s =>
    (env.abort s.evm.polls, { s with evm := { s.evm with polls := s.evm.polls + 1 } }))

/-- The end of both jumps. The interpreter adds one to the program
counter afterwards. -/
def jumpTo (pos : Word) : EStateM Fault Frame Outcome := do
  if (← validJumpdest pos) then
    onRegs (modify (fun r => { r with pc := Word.uint64 pos - 1 }))
    pure ([], none)
  else pure ([], some .invalidJump)

end Frame

open Frame

/-- The body of each jump. -/
def JumpFn.exec (env : Env) : JumpFn → EStateM Fault Frame Outcome
  | opJump => do
    if (← aborted env) then pure ([], some .stopToken)
    else do
      let pos ← onRegs Regs.pop
      jumpTo pos
  | opJumpi => do
    if (← aborted env) then pure ([], some .stopToken)
    else do
      let pos ← onRegs Regs.pop
      let cond ← onRegs Regs.pop
      if cond ≠ 0 then jumpTo pos else pure ([], none)
