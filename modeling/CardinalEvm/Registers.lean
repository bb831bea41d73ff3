import CardinalEvm.CallTree
import CardinalEvm.Faults
import CardinalEvm.StackEffect

/-!
# What an instruction does to its registers

Every instruction works on the stack. Besides, none of them changes the
size of the memory or touches the record of what was paid for it, and all
but the pushes and the jumps leave the program counter to the loop.
-/

/-- A fault of the program, and not the end of the fuel. -/
def Fault.Panics (f : Fault) : Prop := f ≠ .outOfFuel

instance (f : Fault) : Decidable f.Panics := inferInstanceAs (Decidable (f ≠ .outOfFuel))

open Fault (Panics)

/-- **A memory that stays**: it is as long as it was, and what was paid
for it is what it was. -/
structure Memory.Stays (m m' : Memory) : Prop where
  length : m'.store.length = m.store.length
  lastGasCost : m'.lastGasCost = m.lastGasCost

/-- **Registers that were worked with**, but for the program counter. -/
structure Regs.Works (r r' : Regs) : Prop where
  pc : r'.pc = r.pc
  memory : r.memory.Stays r'.memory

namespace Memory

variable {m m' : Memory}

theorem Stays.refl (m : Memory) : m.Stays m := ⟨rfl, rfl⟩

theorem Stays.trans {m'' : Memory} (h : m.Stays m') (h' : m'.Stays m'') : m.Stays m'' :=
  ⟨h'.length.trans h.length, h'.lastGasCost.trans h.lastGasCost⟩

/-- Bytes that fit are written over what is there. -/
theorem stays_write {offset : ℕ} {value : Bytes} (h : offset + value.length ≤ m.store.length) :
    m.Stays (m.write offset value) := by
  refine ⟨?_, rfl⟩
  show (m.store.take offset ++ value ++ m.store.drop (offset + value.length)).length
    = m.store.length
  rw [List.length_append, List.length_append, List.length_take, List.length_drop]
  omega

/-- A sum that does not wrap around is the sum. -/
theorem toNat_add_of_le {offset size : UInt64} (h : ¬ offset + size < offset) :
    (offset + size).toNat = offset.toNat + size.toNat := by
  rw [UInt64.lt_iff_toNat_lt, UInt64.toNat_add] at h
  rw [UInt64.toNat_add]
  have := offset.toNat_lt
  have := size.toNat_lt
  omega

theorem stays_set {offset size : UInt64} {value : Bytes} (h : m.set offset size value = some m') :
    m.Stays m' := by
  unfold set at h
  split_ifs at h with _ hout
  · exact Option.some.inj h ▸ .refl m
  · rw [Bool.or_eq_true, decide_eq_true_eq, decide_eq_true_eq, not_or] at hout
    have hsum := toNat_add_of_le hout.2
    cases h
    refine stays_write ?_
    rw [List.length_take]
    omega

theorem stays_set32 {offset : UInt64} {val : Word} (h : m.set32 offset val = some m') :
    m.Stays m' := by
  unfold set32 at h
  split_ifs at h with hout
  rw [Bool.or_eq_true, decide_eq_true_eq, decide_eq_true_eq, not_or] at hout
  have hsum : (offset + 32).toNat = offset.toNat + 32 := toNat_add_of_le hout.2
  cases h
  refine stays_write ?_
  show offset.toNat + 32 ≤ _
  omega

theorem stays_setByte {offset : UInt64} {b : UInt8} (h : m.setByte offset b = some m') :
    m.Stays m' := by
  unfold setByte at h
  split_ifs at h with hlt
  exact Option.some.inj h ▸ stays_write hlt

theorem stays_copy {dst src len : UInt64} (h : m.copy dst src len = some m') : m.Stays m' := by
  unfold copy at h
  split_ifs at h with _ hout
  · exact Option.some.inj h ▸ .refl m
  · rw [Bool.or_eq_true, Bool.or_eq_true, decide_eq_true_eq, not_or, not_or] at hout
    cases h
    refine stays_write ?_
    rw [List.length_take]
    omega

end Memory

/-! ## Outcomes -/

/-- The errors that running code can end in: the others are made by the
calls and creations themselves. -/
def VmErr.ofCode : VmErr → Bool
  | .depth | .insufficientBalance | .contractAddressCollision | .codeStoreOutOfGas => false
  | _ => true

/-- An outcome that running code can have. -/
def Outcome.OfCode (out : Outcome) : Prop := ∀ x, out.2 = some x → x.ofCode

/-- The outcome of an instruction that is not allowed to write. -/
def Protected (out : Outcome) : Prop := out.2 = some .writeProtection

theorem Outcome.ofCode_none (b : Bytes) : Outcome.OfCode (b, none) := fun _ h => nomatch h

theorem Outcome.ofCode_some (b : Bytes) {x : VmErr} (hx : x.ofCode) :
    Outcome.OfCode (b, some x) := by
  intro y hy
  rwa [← Option.some.inj hy]

open Outcome (OfCode ofCode_none ofCode_some)

/-- Refusing to write, whatever the footprint. -/
theorem Does.protected {σ : Type} {F : Footprint Fault σ} (a b : ℕ) :
    Does F OfCode Protected a b (pure ([], some .writeProtection) : EStateM Fault σ Outcome) :=
  .refuse a b (ofCode_some _ rfl) rfl

/-! ## The registers -/

/-- The height of the stack. -/
def Regs.height (r : Regs) : ℕ := r.stack.length

/-- **A footprint with room for working with the registers**, but for the
slices that a program may take out of range. -/
class Footprint.OfRegs (F : Footprint Fault Regs) : Prop where
  height : F.height = Regs.height
  works : ∀ {r r'}, r.Works r' → F.rel r r'
  stops : ∀ {e}, e.Panics → e ≠ .slice → F.stops e
  finds : ∀ {e}, e ≠ .stack → F.finds e

namespace Regs

instance : IsPreorder Regs Works where
  refl _ := ⟨rfl, .refl _⟩
  trans _ _ _ h h' := ⟨h'.pc.trans h.pc, h.memory.trans h'.memory⟩

/-- A change of the stack alone. -/
theorem Works.of_stack (r : Regs) (stack : List Word) : r.Works { r with stack := stack } :=
  ⟨rfl, .refl _⟩

/-- **The footprint of a program of the registers**: whether it leaves the
program counter alone, may take a slice that does not exist, and looks
for its operands where its arity says. -/
def footprint (pc slices finds : Prop) : Footprint Fault Regs where
  rel r r' := (pc → r'.pc = r.pc) ∧ r.memory.Stays r'.memory
  stops e := e.Panics ∧ (e = .slice → slices)
  finds e := finds → e ≠ .stack
  height := height
  refl _ := ⟨fun _ => rfl, .refl _⟩
  trans h h' := ⟨fun hp => (h'.1 hp).trans (h.1 hp), h.2.trans h'.2⟩

instance (pc slices finds : Prop) : (footprint pc slices finds).OfRegs where
  height := rfl
  works h := ⟨fun _ => h.pc, h.memory⟩
  stops hp hs := ⟨hp, fun h => absurd h hs⟩
  finds h _ := h

theorem stops_slice {pc slices finds : Prop} (h : slices) :
    (footprint pc slices finds).stops .slice := ⟨by decide, fun _ => h⟩

theorem sat_pop {r : Regs} {Q : Word → Regs → Prop} {E : Fault → Regs → Prop}
    (hQ : ∀ w ws, r.stack = w :: ws → Q w { r with stack := ws }) (hE : r.stack = [] → E .stack r) :
    Sat pop r Q E := by
  cases hs : r.stack with
  | nil => exact sat_attempt (fun w r' h => by rw [hs] at h; cases h) (fun _ => hE hs)
  | cons w ws =>
    refine sat_attempt (fun w r' h => ?_) (fun h => by rw [hs] at h; cases h)
    rw [hs] at h
    cases h
    exact hQ _ ws hs

section Pops

variable {α : Type} {r : Regs} {Q : α → Regs → Prop} {E : Fault → Regs → Prop}

/-- Two words off the stack. -/
theorem sat_pop₂ {f : Word → Word → EStateM Fault Regs α}
    (hQ : ∀ x y ws, r.stack = x :: y :: ws → Sat (f x y) { r with stack := ws } Q E)
    (hE : ∀ r', E .stack r') : Sat (pop >>= fun x => pop >>= f x) r Q E :=
  .bind (sat_pop (fun x _ h => .bind (sat_pop (fun y ws h' => hQ x y ws (h.trans (congrArg _ h')))
    fun _ => hE _)) fun _ => hE _)

/-- Three words off the stack. -/
theorem sat_pop₃ {f : Word → Word → Word → EStateM Fault Regs α}
    (hQ : ∀ x y z ws, r.stack = x :: y :: z :: ws → Sat (f x y z) { r with stack := ws } Q E)
    (hE : ∀ r', E .stack r') : Sat (pop >>= fun x => pop >>= fun y => pop >>= f x y) r Q E :=
  sat_pop₂ (fun x y _ h => .bind (sat_pop (fun z ws h' => hQ x y z ws
    (h.trans (congrArg (fun ws => x :: y :: ws) h'))) fun _ => hE _)) hE

end Pops

variable {F : Footprint Fault Regs} [hF : F.OfRegs] (a : ℕ)

theorem moves_pop : Moves F (a + 1) a pop := by
  refine fun r => sat_pop (fun w ws hs => ⟨hF.works (.of_stack r ws), fun _ => ?_⟩)
    (fun hs => ⟨F.refl r, hF.stops (by decide) (by decide), fun ha => ?_⟩)
  · rw [hF.height]
    show ws.length + (a + 1) = r.stack.length + a
    rw [hs, List.length_cons]
    omega
  · rw [hF.height] at ha
    simp [height, hs] at ha

theorem moves_push (w : Word) : Moves F a (a + 1) (push w) := by
  refine fun r => ⟨hF.works (.of_stack r _), fun _ => ?_⟩
  rw [hF.height]
  show r.stack.length + 1 + a = r.stack.length + (a + 1)
  omega

theorem moves_mapTop (f : Word → Word) : Moves F (a + 1) (a + 1) (mapTop f) :=
  .bind (moves_pop a) fun _ => moves_push a _

/-- An operand that is far enough up. -/
theorem moves_dup (n : ℕ) (hn : ¬ 0 < n → F.finds .stack) : Moves F n (n + 1) (dup n) := by
  refine fun r => sat_attempt (fun w r' h => ?_) (fun h => ?_)
  · obtain ⟨x, -, hx⟩ := Option.map_eq_some_iff.mp h
    cases hx
    refine ⟨hF.works (.of_stack r _), fun _ => ?_⟩
    rw [hF.height]
    show r.stack.length + 1 + n = r.stack.length + (n + 1)
    omega
  · refine ⟨F.refl r, hF.stops (by decide) (by decide), fun ha => hn fun hpos => ?_⟩
    rw [hF.height] at ha
    have hlen : n - 1 < r.stack.length := by
      have : n ≤ r.stack.length := ha
      omega
    rw [List.getElem?_eq_getElem hlen] at h
    cases h

theorem moves_swap (n : ℕ) : Moves F (n + 1) (n + 1) (swap (n + 1)) := by
  refine fun r => sat_attempt (fun w r' h => ?_) (fun h => ?_)
  · split at h
    · cases h
      refine ⟨hF.works (.of_stack r _), fun _ => ?_⟩
      rw [hF.height]
      simp [height]
    · cases h
  · refine ⟨F.refl r, hF.stops (by decide) (by decide), fun ha => ?_⟩
    rw [hF.height] at ha
    have hlen : n + 1 ≤ r.stack.length := ha
    rw [List.getElem?_eq_getElem (show n + 1 - 1 < r.stack.length by omega),
      List.getElem?_eq_getElem (show 0 < r.stack.length by omega)] at h
    cases h

theorem moves_store (hs : F.stops .slice) {f : Memory → Option Memory}
    (hf : ∀ m m', f m = some m' → m.Stays m') : Moves F a a (store f) :=
  .attempt a hs (hF.finds (by decide)) fun r _ r' h => by
    obtain ⟨m', hm, h⟩ := Option.map_eq_some_iff.mp h
    cases h
    rw [hF.height]
    exact ⟨hF.works ⟨rfl, hf _ _ hm⟩, rfl⟩

theorem moves_load (hs : F.stops .slice) (f : Memory → Option Bytes) : Moves F a a (load f) :=
  .attempt a hs (hF.finds (by decide)) fun r _ r' h => by
    obtain ⟨_, -, h⟩ := Option.map_eq_some_iff.mp h
    cases h
    exact ⟨F.refl r, rfl⟩

end Regs

open Regs

namespace ScopeFn

/-- How many bytes of the code an instruction pushes. -/
def pushSize : ScopeFn → Option ℕ
  | opPush1 => some 1
  | makePush size => some size
  | _ => none

/-- How many words a function needs, and how many it leaves of them. -/
def arity : ScopeFn → ℕ × ℕ
  | opAddmod | opMulmod => (3, 1)
  | opAdd | opSub | opMul | opDiv | opSdiv | opMod | opSmod | opExp | opSignExtend
  | opLt | opGt | opSlt | opSgt | opEq | opAnd | opOr | opXor | opByte
  | opSHL | opSHR | opSAR | opKeccak256 => (2, 1)
  | opNot | opIszero | opCLZ | opCallDataLoad | opBlockhash | opBlobHash | opMload => (1, 1)
  | opAddress | opOrigin | opCaller | opCallValue | opCallDataSize | opReturnDataSize
  | opCodeSize | opGasprice | opCoinbase | opTimestamp | opNumber | opDifficulty | opRandom
  | opGasLimit | opChainID | opBaseFee | opBlobBaseFee | opPc | opMsize | opGas
  | opPush0 | opPush1 | makePush _ => (0, 1)
  | opCallDataCopy | opReturnDataCopy | opCodeCopy | opMcopy => (3, 0)
  | opMstore | opMstore8 | opReturn => (2, 0)
  | opPop => (1, 0)
  | opJumpdest | opStop | opUndefined => (0, 0)
  | makeDup n => (n, n + 1)
  | makeSwap n => (n + 1, n + 1)
  | makeLog n => (n + 2, 0)

/-- The functions that take slices, of the memory or of other data. -/
def slices : ScopeFn → Bool
  | opKeccak256 | opCallDataLoad | opMload | opCallDataCopy | opReturnDataCopy | opCodeCopy
  | opMcopy | opMstore | opMstore8 | opReturn | opUndefined | makeLog _ => true
  | _ => false

section Bodies

variable {F : Footprint Fault Regs} [hF : F.OfRegs] (a : ℕ)

theorem moves_orFault {α : Type} {e : Fault} (hs : F.stops e) (he : e ≠ .stack) (o : Option α) :
    Moves F a a (orFault e o : EStateM Fault Regs α) :=
  .attempt a hs (hF.finds he) fun r _ r' h => by
    obtain ⟨_, -, h⟩ := Option.map_eq_some_iff.mp h
    cases h
    exact ⟨F.refl r, rfl⟩

theorem moves_orNil {α : Type} (o : Option α) :
    Moves F a a (orFault .nil o : EStateM Fault Regs α) :=
  moves_orFault a (hF.stops (by decide) (by decide)) (by decide) o

omit hF in
theorem ends_done : Ends F OfCode a a (done : EStateM Fault Regs Outcome) :=
  .pure a (ofCode_none [])

theorem ends_unary (f : Word → Word) : Ends F OfCode (a + 1) (a + 1) (unary f) :=
  .bind (moves_mapTop a f) fun _ => ends_done _

theorem ends_binary (f : Word → Word → Word) : Ends F OfCode (a + 2) (a + 1) (binary f) :=
  .bind (moves_pop (a + 1)) fun _ => ends_unary a _

theorem ends_ternary (f : Word → Word → Word → Word) :
    Ends F OfCode (a + 3) (a + 1) (ternary f) :=
  .bind (moves_pop (a + 2)) fun _ => ends_binary a _

theorem ends_pushes (w : Word) : Ends F OfCode a (a + 1) (pushes w) :=
  .bind (moves_push a w) fun _ => ends_done _

theorem ends_pushesBig (n : Option Int) : Ends F OfCode a (a + 1) (pushesBig n) :=
  .bind (moves_orNil a n) fun _ => ends_pushes a _

theorem moves_popN (n : ℕ) : Moves F (a + n) a (popN n) := by
  induction n with
  | zero => exact .pure _ _
  | succ n ih => exact .bind (moves_pop (a + n)) fun _ => ih

/-- Moving the program counter, where the footprint lets it. -/
theorem moves_pc (hpc : ∀ r pc, F.rel r { r with pc := pc }) (n : UInt64) :
    Moves F a a (modify fun r => { r with pc := r.pc + n } : EStateM Fault Regs PUnit) :=
  .modify a fun r => ⟨hpc r _, by rw [hF.height]; rfl⟩

variable (hs : F.stops .slice)
include hs

theorem moves_memoryArg : Moves F (a + 2) a memoryArg :=
  .bind (moves_pop (a + 1)) fun _ => .bind (moves_pop a) fun _ => moves_load a hs _

theorem ends_copies (data : Bytes) : Ends F OfCode (a + 3) a (copies data) :=
  .bind (moves_pop (a + 2)) fun _ => .bind (moves_pop (a + 1)) fun _ => .bind (moves_pop a) fun _ =>
    .bind (moves_orFault a hs (by decide) _) fun _ =>
      .bind (moves_store a hs fun _ _ => Memory.stays_set) fun _ => ends_done a

theorem ends_returnDataCopy (data : Bytes) : Ends F OfCode (a + 3) a (returnDataCopy data) := by
  have hout : Ends F OfCode a a (pure ([], some .returnDataOutOfBounds) : EStateM Fault Regs _) :=
    .pure a (ofCode_some _ rfl)
  refine .bind (moves_pop (a + 2)) fun _ => .bind (moves_pop (a + 1)) fun _ =>
    .bind (moves_pop a) fun _ => ?_
  split
  · exact .ite hout (.ite (.throw hs (hF.finds (by decide)) _ _)
      (.bind (moves_store a hs fun _ _ => Memory.stays_set) fun _ => ends_done a))
  · exact hout

end Bodies

/-- The value of a push: the bytes after the instruction, with zeros for
those past the end of the code. -/
def pushed (code : Bytes) (pc : UInt64) : ScopeFn → Word
  | makePush size =>
    bytesToHash (rightPadBytes ((code.drop (min code.length (pc + 1).toNat)).take size) size)
  | _ => BitVec.ofNat 256 ((code[(pc + 1).toNat]?).getD 0).toNat

variable [Keccak]

/-- **A push** moves the program counter to the last byte it pushes. -/
theorem sat_exec_push (s : Scope) {f : ScopeFn} {size : ℕ} (hf : f.pushSize = some size)
    (r : Regs) :
    Sat (f.exec s) r (fun out r' => out = ([], none) ∧ r' = { r with
        pc := r.pc + UInt64.ofNat size, stack := f.pushed s.contract.code r.pc :: r.stack })
      (fun _ _ => False) := by
  cases f with
  | opPush1 | makePush n =>
    cases hf
    exact ⟨rfl, rfl⟩
  | _ => cases hf

omit [Keccak] in
/-- The footprint of each function: only the pushes move the program
counter, and only `DUP0`, which no table has, looks too far down. -/
def footprint (f : ScopeFn) : Footprint Fault Regs :=
  Regs.footprint (f.pushSize = none) f.slices (f ≠ .makeDup 0)

omit [Keccak] in
instance (f : ScopeFn) : f.footprint.OfRegs :=
  inferInstanceAs (Regs.footprint _ _ _).OfRegs

/-- **What the functions of the registers do.** -/
theorem does_exec (s : Scope) (f : ScopeFn) :
    Does f.footprint OfCode Protected f.arity.1 f.arity.2 (f.exec s) := by
  have hs : f.slices → f.footprint.stops .slice := stops_slice
  have hpc : f.pushSize ≠ none → ∀ r pc, f.footprint.rel r { r with pc := pc } :=
    fun h _ _ => ⟨fun h' => absurd h' h, .refl _⟩
  cases f with
  | opAddmod | opMulmod => exact .of_ends (ends_ternary 0 _)
  | opAdd | opSub | opMul | opDiv | opSdiv | opMod | opSmod | opExp | opSignExtend
  | opLt | opGt | opSlt | opSgt | opEq | opAnd | opOr | opXor | opByte
  | opSHL | opSHR | opSAR => exact .of_ends (ends_binary 0 _)
  | opKeccak256 => exact .of_ends (.bind (moves_memoryArg 0 (hs rfl)) fun _ => ends_pushes 0 _)
  | opNot | opIszero | opCLZ | opBlockhash | opBlobHash => exact .of_ends (ends_unary 0 _)
  | opCallDataLoad =>
    refine .of_ends (.bind (moves_pop 0) fun x => ?_)
    cases Word.uint64WithOverflow x with
    | none => exact ends_pushes 0 _
    | some offset => exact .bind (moves_orFault 0 (hs rfl) (by decide) _) fun _ => ends_pushes 0 _
  | opMload =>
    exact .of_ends (.bind (moves_pop 0) fun _ => .bind (moves_load 0 (hs rfl) _) fun _ =>
      ends_pushes 0 _)
  | opAddress | opOrigin | opCaller | opCallValue | opCallDataSize | opReturnDataSize
  | opCodeSize | opCoinbase | opTimestamp | opNumber | opDifficulty | opGasLimit | opGas
  | opPush0 => exact .of_ends (ends_pushes 0 _)
  | opGasprice | opChainID | opBaseFee | opBlobBaseFee => exact .of_ends (ends_pushesBig 0 _)
  | opRandom => exact .of_ends (.bind (moves_orNil 0 _) fun _ => ends_pushes 0 _)
  | opPc | opMsize => exact .of_ends (.bind (.get 0) fun _ => ends_pushes 0 _)
  | opPush1 =>
    exact .of_ends (.bind (moves_pc 0 (hpc fun h => nomatch h) _) fun _ => .bind (.get 0) fun _ =>
      ends_pushes 0 _)
  | makePush size =>
    exact .of_ends (.bind (.get 0) fun _ => .bind (moves_push 0 _) fun _ =>
      .bind (moves_pc 1 (hpc fun h => nomatch h) _) fun _ => ends_done 1)
  | opCallDataCopy | opCodeCopy => exact .of_ends (ends_copies 0 (hs rfl) _)
  | opReturnDataCopy => exact .of_ends (ends_returnDataCopy 0 (hs rfl) _)
  | opMcopy =>
    exact .of_ends (.bind (moves_pop 2) fun _ => .bind (moves_pop 1) fun _ =>
      .bind (moves_pop 0) fun _ => .bind (moves_store 0 (hs rfl) fun _ _ => Memory.stays_copy)
        fun _ => ends_done 0)
  | opMstore =>
    exact .of_ends (.bind (moves_pop 1) fun _ => .bind (moves_pop 0) fun _ =>
      .bind (moves_store 0 (hs rfl) fun _ _ => Memory.stays_set32) fun _ => ends_done 0)
  | opMstore8 =>
    exact .of_ends (.bind (moves_pop 1) fun _ => .bind (moves_pop 0) fun _ =>
      .bind (moves_store 0 (hs rfl) fun _ _ => Memory.stays_setByte) fun _ => ends_done 0)
  | opReturn =>
    exact .of_ends (.bind (moves_memoryArg 0 (hs rfl)) fun _ => .pure 0 (ofCode_some _ rfl))
  | opPop => exact .of_ends (.bind (moves_pop 0) fun _ => ends_done 0)
  | opJumpdest => exact .of_ends (ends_done 0)
  | opStop => exact .of_ends (.pure 0 (ofCode_some _ rfl))
  | opUndefined =>
    exact .of_ends (.bind (.get 0) fun _ => .bind (moves_orFault 0 (hs rfl) (by decide) _) fun _ =>
      .pure 0 (ofCode_some _ rfl))
  | makeDup n =>
    refine .of_ends (.bind (moves_dup n fun hn hne => absurd ?_ hne) fun _ => ends_done _)
    rw [Nat.eq_zero_of_not_pos hn]
  | makeSwap n => exact .of_ends (.bind (moves_swap n) fun _ => ends_done _)
  | makeLog n =>
    have hpops : Moves (makeLog n).footprint n 0 (popN n) := by simpa using moves_popN 0 n
    exact .ite (.protected _ _) (.of_ends (.bind (moves_pop (n + 1)) fun _ =>
      .bind (moves_pop n) fun _ => .bind hpops fun _ => .bind (moves_load 0 (hs rfl) _) fun _ =>
        ends_done 0))

end ScopeFn

/-! ## The state -/

/-- **Registers that were worked with**, beside a state. -/
def RegsDb.Works (t t' : RegsDb) : Prop := t.regs.Works t'.regs

/-- The height of the stack. -/
def RegsDb.height (r : RegsDb) : ℕ := r.regs.height

namespace RegsDb

/-- The footprint of a program of the registers and the state. -/
def footprint (slices : Prop) : Footprint Fault RegsDb where
  rel := Works
  stops e := e.Panics ∧ (e = .slice → slices)
  finds e := e ≠ .stack
  height := height
  refl t := refl_of Regs.Works t.regs
  trans h h' := trans_of Regs.Works h h'

variable {slices : Prop}

theorem within : (Regs.footprint True slices True).Within (footprint slices) regs
    fun r s => { s with regs := r } where
  height_get _ := rfl
  height_put _ _ := rfl
  rel _ _ h := ⟨h.1 trivial, h.2⟩
  stops _ h := h
  finds _ h := h trivial

variable (a : ℕ)

theorem moves_pop : Moves (footprint slices) (a + 1) a (onRegs pop) :=
  (Regs.moves_pop a).zoom within

theorem ends_pushes (w : Word) :
    Ends (footprint slices) OfCode a (a + 1) (onRegs (ScopeFn.pushes w)) :=
  (ScopeFn.ends_pushes a w).zoom within

theorem moves_onDb {α : Type} (f : StateDB → α × StateDB) : Moves (footprint slices) a a (onDb f) :=
  .modifyGet a fun t => ⟨refl_of Regs.Works t.regs, rfl⟩

theorem moves_setDb (f : StateDB → Option StateDB) : Moves (footprint slices) a a (setDb f) :=
  .attempt a ⟨by decide, by simp⟩ (show _ ≠ _ by decide) fun t _ t' h => by
    obtain ⟨_, -, h⟩ := Option.map_eq_some_iff.mp h
    cases h
    exact ⟨refl_of Regs.Works t.regs, rfl⟩

end RegsDb

section State

open RegsDb

variable [Keccak]

/-- How many words a function needs, and how many it leaves of them. -/
def ReadFn.arity : ReadFn → ℕ × ℕ
  | opBalance | opExtCodeSize | opExtCodeHash | opSload | opTload => (1, 1)
  | opSelfBalance => (0, 1)
  | opExtCodeCopy => (4, 0)

theorem ReadFn.ends_exec (s : Scope) (f : ReadFn) :
    Ends (RegsDb.footprint (f = .opExtCodeCopy)) OfCode f.arity.1 f.arity.2 (f.exec s) := by
  cases f with
  | opBalance | opExtCodeSize | opSload =>
    exact .bind (moves_pop 0) fun _ => .bind (moves_onDb 0 _) fun _ => ends_pushes 0 _
  | opSelfBalance => exact .bind (moves_onDb 0 _) fun _ => ends_pushes 0 _
  | opTload => exact .bind (moves_pop 0) fun _ => .bind (.get 0) fun _ => ends_pushes 0 _
  | opExtCodeCopy =>
    exact .bind (moves_pop 3) fun _ => .bind (moves_onDb 3 _) fun _ =>
      (ScopeFn.ends_copies 0 (stops_slice rfl) _).zoom within
  | opExtCodeHash =>
    exact .bind (moves_pop 0) fun _ => .bind (moves_onDb 0 _) fun _ => .ite (ends_pushes 0 _)
      (.bind (moves_onDb 0 _) fun _ => ends_pushes 0 _)

/-- How many words a function needs, and how many it leaves of them. -/
def WriteFn.arity : WriteFn → ℕ × ℕ
  | opSstore | opTstore => (2, 0)
  | opSelfdestruct | opSelfdestruct6780 => (1, 0)

theorem WriteFn.does_exec (s : Scope) (f : WriteFn) :
    Does (RegsDb.footprint False) OfCode Protected f.arity.1 f.arity.2 (f.exec s) := by
  refine .ite (.protected _ _) ?_
  cases f with
  | opSstore | opTstore =>
    exact .of_ends (.bind (moves_pop 1) fun _ => .bind (moves_pop 0) fun _ =>
      .bind (moves_setDb 0 _) fun _ => .pure 0 (ofCode_none _))
  | opSelfdestruct =>
    exact .of_ends (.bind (moves_pop 0) fun _ => .bind (moves_onDb 0 _) fun _ =>
      .bind (moves_setDb 0 _) fun _ => .bind (moves_onDb 0 _) fun _ => .pure 0 (ofCode_some _ rfl))
  | opSelfdestruct6780 =>
    exact .of_ends (.bind (moves_pop 0) fun _ => .bind (moves_onDb 0 _) fun _ =>
      .bind (moves_setDb 0 _) fun _ => .bind (moves_setDb 0 _) fun _ =>
        .bind (moves_setDb 0 _) fun _ => .pure 0 (ofCode_some _ rfl))

end State

/-! ## The frame -/

/-- **A frame that goes on where it is**: its registers were worked with,
and its code is the same. -/
structure Frame.Works (s t : Frame) : Prop where
  regs : s.regs.Works t.regs
  code : t.contract.code = s.contract.code

/-- **A frame that works on its own**: it calls no other, so its gas is
what it was, and its memory stays. -/
structure Frame.Local (s t : Frame) : Prop where
  gas : t.contract.gas = s.contract.gas
  memory : s.regs.memory.Stays t.regs.memory
  trace : Grows (fun v => v.isGas = false) s.evm.trace t.evm.trace

/-- The height of the stack. -/
def Frame.height (s : Frame) : ℕ := s.regs.height

namespace Frame

instance : IsPreorder Frame Works where
  refl s := ⟨refl_of Regs.Works s.regs, rfl⟩
  trans _ _ _ h h' := ⟨trans_of Regs.Works h.regs h'.regs, h'.code.trans h.code⟩

instance : IsPreorder Frame Local where
  refl _ := ⟨rfl, .refl _, .refl _⟩
  trans _ _ _ h h' := ⟨h'.gas.trans h.gas, h.memory.trans h'.memory, h.trace.trans h'.trace⟩

/-- The footprint of a jump. -/
def jumpFootprint : Footprint Fault Frame where
  rel := Local
  stops e := e.Panics ∧ e ≠ .slice
  finds e := e ≠ .stack
  height := height
  refl := refl_of Local
  trans := trans_of Local

section Operands

/-- A footprint of frames with room for working with the registers. -/
abbrev OnRegs (G : Footprint Fault Frame) : Prop :=
  (Regs.footprint True True True).Within G regs fun r s => { s with regs := r }

variable {G : Footprint Fault Frame} (hG : OnRegs G)
include hG

/-- The operands of a call. -/
theorem moves_callOperands (withValue : Bool) :
    Moves G (if withValue then 7 else 6) 0 (callOperands withValue) := by
  refine Moves.zoom ?_ hG
  have hrest : ∀ addr value, Moves (Regs.footprint True True True) 4 0 (do
      let inOffset ← Regs.pop
      let inSize ← Regs.pop
      let retOffset ← Regs.pop
      let retSize ← Regs.pop
      let args ← Regs.load (fun m => m.getPtr (Word.uint64 inOffset) (Word.uint64 inSize))
      pure ((Word.bytes20 addr, value, args, retOffset, retSize) :
        Address × Word × Bytes × Word × Word)) := fun _ _ =>
    .bind (Regs.moves_pop 3) fun _ => .bind (Regs.moves_pop 2) fun _ =>
      .bind (Regs.moves_pop 1) fun _ => .bind (Regs.moves_pop 0) fun _ =>
        .bind (Regs.moves_load 0 (stops_slice trivial) _) fun _ => .pure _ _
  cases withValue with
  | true =>
    exact .bind (Regs.moves_pop 6) fun _ => .bind (Regs.moves_pop 5) fun addr =>
      .bind (Regs.moves_pop 4) fun value => hrest addr value
  | false =>
    exact .bind (Regs.moves_pop 5) fun _ => .bind (Regs.moves_pop 4) fun addr =>
      .bind (.pure 4 0) fun value => hrest addr value

/-- The operands of a creation. -/
theorem moves_createOperands (withSalt : Bool) :
    Moves G (if withSalt then 4 else 3) 0 (createOperands withSalt) := by
  refine Moves.zoom ?_ hG
  have hload : ∀ f, Moves (Regs.footprint True True True) 0 0 (Regs.load f) :=
    Regs.moves_load 0 (stops_slice trivial)
  cases withSalt with
  | true =>
    exact .bind (Regs.moves_pop 3) fun _ => .bind (Regs.moves_pop 2) fun _ =>
      .bind (Regs.moves_pop 1) fun _ => .bind (Regs.moves_pop 0) fun _ =>
        .bind (hload _) fun _ => .pure _ _
  | false =>
    exact .bind (Regs.moves_pop 2) fun _ => .bind (Regs.moves_pop 1) fun _ =>
      .bind (Regs.moves_pop 0) fun _ =>
        .bind (.pure _ _) fun _ => .bind (hload _) fun _ => .pure _ _

end Operands

theorem moves_validJumpdest (a : ℕ) (pos : Word) : Moves jumpFootprint a a (validJumpdest pos) := by
  intro s
  obtain ⟨analysis, hcontract⟩ := s.contract.validJumpdest_contract s.evm.jumpdests pos
  have hlocal : s.Local (s.jumped pos) := by
    refine ⟨?_, .refl _, .cons (P := fun v : Event => v.isGas = false) rfl _⟩
    show (s.contract.validJumpdest s.evm.jumpdests pos).2.1.gas = _
    rw [hcontract]
  exact sat_validJumpdest (fun _ _ => ⟨hlocal, fun _ => rfl⟩)
    ⟨hlocal, ⟨by decide, by decide⟩, fun _ => show _ ≠ _ by decide⟩

theorem ends_jumpTo (a : ℕ) (pos : Word) : Ends jumpFootprint OfCode a a (jumpTo pos) :=
  .bind (moves_validJumpdest a pos) fun _ => .ite
    (.bind (.modify a fun _ => ⟨⟨rfl, .refl _, .refl _⟩, rfl⟩) fun _ => .pure a (ofCode_none _))
    (.pure a (ofCode_some _ rfl))

end Frame

open Frame

/-- How many words a jump needs. -/
def JumpFn.arity : JumpFn → ℕ × ℕ
  | opJump => (1, 0)
  | opJumpi => (2, 0)

theorem JumpFn.does_exec (env : Env) (f : JumpFn) :
    Does jumpFootprint OfCode (fun out => out.2 = some .stopToken) f.arity.1 f.arity.2
      (f.exec env) := by
  have habort : ∀ a, Moves jumpFootprint a a (aborted env) :=
    fun a => .modifyGet a fun _ => ⟨⟨rfl, .refl _, .refl _⟩, rfl⟩
  have hpop : ∀ a, Moves jumpFootprint (a + 1) a (onRegs Regs.pop) := fun a =>
    Moves.zoom (Regs.moves_pop (F := Regs.footprint True False True) a)
      ⟨fun _ => rfl, fun _ _ => rfl, fun _ _ h => ⟨rfl, h.2, .refl _⟩, fun _ h => h,
        fun _ h => h trivial⟩
  cases f with
  | opJump =>
    exact .bind (habort 1) (fun _ => .ite (.refuse _ _ (ofCode_some _ rfl) rfl) (.of_ends
      (.bind (hpop 0) fun _ => ends_jumpTo 0 _))) le_rfl
  | opJumpi =>
    exact .bind (habort 2) (fun _ => .ite (.refuse _ _ (ofCode_some _ rfl) rfl) (.of_ends
      (.bind (hpop 1) fun _ => .bind (hpop 0) fun _ =>
        .ite (ends_jumpTo 0 _) (.pure 0 (ofCode_none _))))) le_rfl

variable [Keccak] {env : Env} {run : Runner}

/-! ### Calls -/

/-- How many words a call or creation needs, and how many it leaves. -/
def CallFn.arity : CallFn → ℕ × ℕ
  | opCreate => (3, 1)
  | opCreate2 => (4, 1)
  | opCall | opCallCode => (7, 1)
  | opDelegateCall | opStaticCall => (6, 1)

namespace Frame

omit [Keccak]

/-- The footprint of a call or creation: it misses no operand where the
frames it runs do not. -/
def callFootprint (run : Runner) : Footprint Fault Frame where
  rel := Works
  stops _ := True
  finds e := run.Safe (· ≠ .stack) → e ≠ .stack
  height := height
  refl := refl_of Works
  trans := trans_of Works

theorem onRegs_call (run : Runner) : OnRegs (callFootprint run) where
  height_get _ := rfl
  height_put _ _ := rfl
  rel _ _ h := ⟨⟨h.1 trivial, h.2⟩, rfl⟩
  stops _ _ := trivial
  finds _ h _ := h trivial

/-- Calls and creations stop for want of an operand only if frames do. -/
def findsLaw : CallLaw := .ofFaults (P := (· ≠ .stack)) (by decide) (by decide)

theorem moves_onEvm {α : Type} (a : ℕ) {m : EStateM Fault Evm α} {g : UInt64} {left : α → UInt64}
    (h : run.Within findsLaw → findsLaw.Budget g left m) :
    Moves (callFootprint run) a a (onEvm m) := by
  refine fun s => sat_zoom.mpr ?_
  have hrel : ∀ e, s.Works { s with evm := e } := fun _ => ⟨refl_of _ s.regs, rfl⟩
  by_cases hsafe : run.Safe (· ≠ .stack)
  · exact ((h hsafe.within).stops s.evm).mono (fun _ _ _ => ⟨hrel _, fun _ => rfl⟩)
      (fun _ _ hf => ⟨hrel _, trivial, fun _ _ => hf⟩)
  · exact .of_forall (fun _ _ => ⟨hrel _, fun _ => rfl⟩)
      (fun _ _ => ⟨hrel _, trivial, fun _ h => absurd h hsafe⟩)

theorem moves_useGas (a : ℕ) (amount : UInt64) : Moves (callFootprint run) a a (useGas amount) :=
  .modifyGet a fun s => by split_ifs <;> exact ⟨⟨refl_of _ s.regs, rfl⟩, rfl⟩

/-- A change of the frame's gas or of its EVM. -/
theorem moves_modify (a : ℕ) {f : Frame → Frame}
    (hf : ∀ s, (f s).regs = s.regs ∧ (f s).contract.code = s.contract.code) :
    Moves (callFootprint run) a a (modify f : EStateM Fault Frame PUnit) :=
  .modify a fun s => ⟨⟨(hf s).1.symm ▸ refl_of Regs.Works s.regs, (hf s).2⟩,
    congrArg Regs.height (hf s).1⟩

theorem ends_concludeCall (retOffset retSize : Word) (r : CallResult) :
    Ends (callFootprint run) OfCode 0 1 (concludeCall retOffset retSize r) := by
  obtain ⟨ret, gasLeft, err⟩ := r
  have hstore : ∀ m : Memory → Option Memory, (∀ x y, m x = some y → x.Stays y) →
      Moves (callFootprint run) 1 1 (onRegs (Regs.store m)) := fun _ hm =>
    (Regs.moves_store 1 (stops_slice trivial) hm).zoom (onRegs_call run)
  exact .bind ((Regs.moves_push 0 _).zoom (onRegs_call run)) fun _ =>
    .bind (.ite (hstore _ fun _ _ => Memory.stays_set) (.pure _ _)) fun _ =>
      .bind (moves_modify 1 fun _ => ⟨rfl, rfl⟩) fun _ =>
        .bind (moves_modify 1 fun _ => ⟨rfl, rfl⟩) fun _ => .pure 1 (ofCode_none _)

theorem ends_concludeCreate (w : Word) (r : Evm.CreateResult) :
    Ends (callFootprint run) OfCode 0 1 (concludeCreate w r) := by
  obtain ⟨res, addr, gasLeft, err⟩ := r
  have hdata : ∀ b ret, Ends (callFootprint run) OfCode 1 1 (do
      setReturnData b
      pure (ret, none)) := fun _ _ =>
    .bind (moves_modify 1 fun _ => ⟨rfl, rfl⟩) fun _ => .pure 1 (ofCode_none _)
  exact .bind ((Regs.moves_push 0 _).zoom (onRegs_call run)) fun _ =>
    .bind (moves_modify 1 fun _ => ⟨rfl, rfl⟩) fun _ => .ite (hdata _ _) (hdata _ _)

end Frame

/-- **Calls and creations move the stack by their arity**, whatever the frames
they open do. -/
theorem CallFn.does_exec (f : CallFn) :
    Does (callFootprint run) OfCode Protected f.arity.1 f.arity.2 (f.exec env run) := by
  have hcall := moves_callOperands (onRegs_call run)
  have hcreate := moves_createOperands (onRegs_call run)
  cases f with
  | opCreate =>
    refine .bind (.get 3) (fun _ => .ite (.protected _ _) (.of_ends ?_)) le_rfl
    exact .bind (hcreate false) fun _ => .bind (.get 0) fun _ => .bind (moves_useGas 0 _) fun _ =>
      .bind (.get 0) fun _ => .bind (moves_onEvm 0 fun hrun =>
        Evm.budget_create hrun _ _ _ _) fun _ => ends_concludeCreate _ _
  | opCreate2 =>
    refine .bind (.get 4) (fun _ => .ite (.protected _ _) (.of_ends ?_)) le_rfl
    exact .bind (hcreate true) fun _ => .bind (.get 0) fun _ => .bind (moves_useGas 0 _) fun _ =>
      .bind (.get 0) fun _ => .bind (moves_onEvm 0 fun hrun =>
        Evm.budget_create2 hrun _ _ _ _ _) fun _ => ends_concludeCreate _ _
  | opCall =>
    refine .bind (hcall true) (fun p => .bind (.get 0) (fun _ =>
      .ite (.protected _ _) (.of_ends ?_)) le_rfl) (Nat.zero_le _)
    exact .bind (moves_onEvm 0 fun hrun => Evm.budget_call hrun _ _ _ _ _) fun _ =>
      ends_concludeCall _ _ _
  | opCallCode =>
    exact .of_ends (.bind (hcall true) fun p => .bind (.get 0) fun _ => .bind (moves_onEvm 0
      fun hrun => Evm.budget_callCode hrun _ _ _ _ _) fun _ => ends_concludeCall _ _ _)
  | opDelegateCall =>
    exact .of_ends (.bind (hcall false) fun p => .bind (.get 0) fun _ => .bind (moves_onEvm 0
      fun hrun => Evm.budget_delegateCall hrun _ _ _ _) fun _ =>
        ends_concludeCall _ _ _)
  | opStaticCall =>
    exact .of_ends (.bind (hcall false) fun p => .bind (.get 0) fun _ => .bind (moves_onEvm 0
      fun hrun => Evm.budget_staticCall hrun _ _ _ _) fun _ => ends_concludeCall _ _ _)

/-! ### All instructions -/

namespace ExecFn

/-- Neither a push nor a jump. -/
def goesOn : ExecFn → Bool
  | scope f => f.pushSize.isNone
  | jump _ => false
  | _ => true

/-- A call or a creation. -/
def isCall : ExecFn → Bool
  | call _ => true
  | _ => false

/-- **How many words an execution function needs, and how many it leaves
of them.** -/
def arity : ExecFn → ℕ × ℕ
  | scope f => f.arity
  | opRevert => (2, 0)
  | read f => f.arity
  | write f => f.arity
  | jump f => f.arity
  | call f => f.arity

/-- The outcomes of a function that does not run: a jump that finds the
run aborted, and an instruction that is not allowed to write. -/
def Refuses : ExecFn → Outcome → Prop
  | jump _, out => out.2 = some .stopToken
  | _, out => Protected out

/-- **The footprint of an execution function**: everything but a push and
a jump goes on where it is, and everything but a call or a creation works
on its own. -/
def footprint (run : Runner) (x : ExecFn) : Footprint Fault Frame where
  rel s t := (x.goesOn → s.Works t) ∧ (x.isCall = false → s.Local t)
  stops e := x.isCall = false → e.Panics
  finds e := x ≠ .scope (.makeDup 0) → run.Safe (· ≠ .stack) → e ≠ .stack
  height := height
  refl s := ⟨fun _ => refl_of _ s, fun _ => refl_of _ s⟩
  trans h h' := ⟨fun hg => trans_of Frame.Works (h.1 hg) (h'.1 hg),
    fun hc => trans_of Local (h.2 hc) (h'.2 hc)⟩

/-- **What the execution functions do.** -/
theorem does_exec (x : ExecFn) :
    Does (x.footprint run) OfCode x.Refuses x.arity.1 x.arity.2 (x.exec env run) := by
  have hdb : ∀ {x : ExecFn} (slices : Prop),
      (RegsDb.footprint slices).Within (x.footprint run) (fun s => ⟨s.regs, s.evm.statedb⟩)
        (fun t s => { s with regs := t.regs, evm := { s.evm with statedb := t.statedb } }) :=
    fun _ => ⟨fun _ => rfl, fun _ _ => rfl, fun _ _ h => ⟨fun _ => ⟨h, rfl⟩,
      fun _ => ⟨rfl, h.memory, .refl _⟩⟩, fun _ h _ => h.1, fun _ h _ _ => h⟩
  cases x with
  | scope f =>
    refine .bind (.get _) (fun s => (f.does_exec _).zoom ⟨fun _ => rfl, fun _ _ => rfl,
      fun _ _ h => ⟨fun hg => ⟨⟨h.1 (Option.isNone_iff_eq_none.mp hg), h.2⟩, rfl⟩,
        fun _ => ⟨rfl, h.2, .refl _⟩⟩, fun _ h _ => h.1, fun _ h hx _ => h ?_⟩) le_rfl
    exact fun hf => hx (hf ▸ rfl)
  | opRevert =>
    have hregs : OnRegs (footprint run .opRevert) := ⟨fun _ => rfl, fun _ _ => rfl,
      fun _ _ h => ⟨fun _ => ⟨⟨h.1 trivial, h.2⟩, rfl⟩, fun _ => ⟨rfl, h.2, .refl _⟩⟩,
      fun _ h _ => h.1, fun _ h _ _ => h trivial⟩
    exact .of_ends (.bind ((ScopeFn.moves_memoryArg 0 (stops_slice trivial)).zoom hregs)
      fun _ => .bind (.modify 0 fun s => ⟨⟨fun _ => ⟨refl_of _ s.regs, rfl⟩,
        fun _ => ⟨rfl, .refl _, .refl _⟩⟩, rfl⟩) fun _ => .pure 0 (ofCode_some _ rfl))
  | read f => exact .bind (.get _) (fun s => .of_ends ((f.ends_exec _).zoom (hdb _))) le_rfl
  | write f =>
    have hevents : ∀ self d d' t, Grows (fun v => v.isGas = false) t (f.events self d d' ++ t) := by
      intro self d d' t
      cases f with
      | opSstore | opTstore => exact .refl t
      | opSelfdestruct | opSelfdestruct6780 =>
        exact .cons (P := fun v : Event => v.isGas = false) rfl t
    refine .bind (.get _) (fun s => .tail ((f.does_exec _).zoom (hdb _)) fun out => ?_) le_rfl
    exact .ite (.pure _ _) (.modify 0 fun s => ⟨⟨fun _ => ⟨refl_of _ s.regs, rfl⟩,
      fun _ => ⟨rfl, .refl _, hevents _ _ _ _⟩⟩, rfl⟩)
  | jump f =>
    exact (f.does_exec env).mono ⟨fun _ => rfl, fun _ _ => rfl,
      fun _ _ h => ⟨fun hg => (nomatch hg), fun _ => h⟩, fun _ h _ => h.1, fun _ h _ _ => h⟩
  | call f =>
    exact f.does_exec.mono ⟨fun _ => rfl, fun _ _ => rfl,
      fun _ _ h => ⟨fun _ => h, fun hc => nomatch hc⟩, fun _ _ hc => (nomatch hc), fun _ h _ => h⟩

variable {x : ExecFn}

/-- **Everything but a push and a jump** goes on where it is. -/
theorem works_exec (hx : x.goesOn) : Keeps Frame.Works (x.exec env run) :=
  fun s => (x.does_exec.tame s).mono (fun _ _ h => h.1 hx) (fun _ _ h => h.1.1 hx)

/-- **Everything but a call or a creation** works on its own. -/
theorem local_exec (hx : x.isCall = false) : Tame Frame.Local Panics (x.exec env run) :=
  fun s => (x.does_exec.tame s).mono (fun _ _ h => h.2 hx) (fun _ _ h => ⟨h.1.2 hx, h.2 hx⟩)

end ExecFn

/-! ### The records of a turn -/

omit [Keccak] in
theorem Frame.regs_recordCall (x : ExecFn) (before : UInt64) (u : Frame) :
    Sat (recordCall x before) u (fun _ v => v.regs = u.regs ∧ v.contract = u.contract)
      (fun _ _ => False) := by
  unfold recordCall
  split <;> exact ⟨rfl, rfl⟩

omit [Keccak] in
theorem Frame.regs_recordExecuted (err : Option VmErr) (u : Frame) :
    Sat (recordExecuted err) u (fun _ v => v.regs = u.regs ∧ v.contract = u.contract)
      (fun _ _ => False) := by
  cases err with
  | none | some => exact ⟨rfl, rfl⟩

/-- The execution functions that always end their frame. -/
def ExecFn.halts : ExecFn → Bool
  | scope .opStop | scope .opReturn | scope .opUndefined | opRevert
  | write .opSelfdestruct | write .opSelfdestruct6780 => true
  | _ => false

/-- They return something other than that the frame goes on. -/
theorem ExecFn.returns_of_halts {f : ExecFn} (hf : f.halts) :
    Returns (fun out => out.2 ≠ none) (f.exec env run) := by
  have hwrite : ∀ {w : WriteFn} {s : Scope} (d : StateDB),
      Returns (fun out : Outcome => out.2 ≠ none) (w.exec s) →
      Returns (fun out : Outcome => out.2 ≠ none) (do
        let out ← onRegsDb (w.exec s)
        recordWrite w d out
        pure out) := fun _ hw =>
    .bind_of (.zoom hw) fun _ hout => .bind fun _ => .pure hout
  cases f with
  | scope f =>
    refine .bind fun s => .zoom ?_
    cases f with
    | opStop => exact .pure nofun
    | opReturn => exact .bind fun _ => .pure nofun
    | opUndefined => exact .bind fun _ => .bind fun _ => .pure nofun
    | _ => cases hf
  | opRevert => exact .bind fun _ => .bind fun _ => .pure nofun
  | write f =>
    cases f with
    | opSelfdestruct =>
      exact .bind fun s => hwrite _ (.ite (.pure nofun) (.bind fun _ => .bind fun _ =>
        .bind fun _ => .bind fun _ => .pure nofun))
    | opSelfdestruct6780 =>
      exact .bind fun s => hwrite _ (.ite (.pure nofun) (.bind fun _ => .bind fun _ =>
        .bind fun _ => .bind fun _ => .bind fun _ => .pure nofun))
    | opSstore | opTstore => cases hf
  | read | jump | call => cases hf
