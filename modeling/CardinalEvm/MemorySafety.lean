import CardinalEvm.GasLaws
import CardinalEvm.Registers

/-!
# The memory

The functions of `vm/memory.go` panic where an offset and a size do not
lie in the memory, and `getData` could where their sum wraps around. What
keeps that from happening stands elsewhere: the operation names a memory
size function, the loop rounds its result up, the gas function refuses
what is too large, and the memory is resized, all before the execution
function runs on the same stack.

`ExecFn.ranges` is the part of the memory an execution function uses, as
words of the stack. The memory size function that goes with it
(`ExecFn.memFn`) bounds every range with anything in it, every table pairs
the two (`Operation.Measured`), and so the ranges lie in the memory by
the time they are used. A range of size zero is not bounded by anything:
its offset is converted to a signed number like any other, which may
change it, and then nobody looks at it.
-/

variable [Keccak]

open Word

/-! ## Ranges -/

/-- A part of the memory, by the words of the stack that give it. -/
structure Range where
  offset : Word
  size : Word
  deriving DecidableEq

namespace Range

omit [Keccak]

variable {r : Range} {m : Memory}

/-- **A range that lies in a memory**, and that the conversions to 64 bits
and to signed numbers do not change. -/
structure Inside (r : Range) (m : Memory) : Prop where
  le_length : r.offset.toNat + r.size.toNat ≤ m.store.length
  offset_uint64 : (uint64 r.offset).toNat = r.offset.toNat
  size_uint64 : (uint64 r.size).toNat = r.size.toNat
  offset_int64 : (uint64 r.offset).toInt64.toInt = r.offset.toNat
  size_int64 : (uint64 r.size).toInt64.toInt = r.size.toNat

/-- A range that ends below a bound, if there is anything in it. -/
def Below (r : Range) (n : ℕ) : Prop := r.size ≠ 0 → r.offset.toNat + r.size.toNat ≤ n

theorem toNat_uint64 {w : Word} (h : w.toNat < 2 ^ 64) : (uint64 w).toNat = w.toNat :=
  UInt64.toNat_ofNat_of_lt' h

theorem toNat_of_uint64WithOverflow {w : Word} {n : UInt64}
    (h : uint64WithOverflow w = some n) : n.toNat = w.toNat := by
  unfold uint64WithOverflow at h
  split_ifs at h with hfits
  cases h
  exact toNat_uint64 (of_decide_eq_true hfits)

theorem toInt_uint64 {w : Word} (h : w.toNat < 2 ^ 63) :
    (uint64 w).toInt64.toInt = w.toNat := by
  have h64 : (uint64 w).toNat = w.toNat := toNat_uint64 (by omega)
  rw [toInt_toInt64 (by omega), h64]

theorem Below.inside {n : ℕ} (h : r.Below n) (hsize : r.size ≠ 0) (hn : n < 2 ^ 63)
    (hm : n ≤ m.store.length) : r.Inside m := by
  have hle := h hsize
  exact ⟨hle.trans hm, toNat_uint64 (by omega), toNat_uint64 (by omega), toInt_uint64 (by omega),
    toInt_uint64 (by omega)⟩

theorem Inside.offset_lt (h : r.Inside m) : r.offset.toNat < 2 ^ 63 := by
  have := h.offset_int64 ▸ Int64.toInt_lt (uint64 r.offset).toInt64
  omega

theorem Inside.size_lt (h : r.Inside m) : r.size.toNat < 2 ^ 63 := by
  have := h.size_int64 ▸ Int64.toInt_lt (uint64 r.size).toInt64
  omega

/-- The sum of the bounds does not wrap around. -/
theorem Inside.toNat_add (h : r.Inside m) :
    (uint64 r.offset + uint64 r.size).toNat = r.offset.toNat + r.size.toNat := by
  have := h.offset_lt
  have := h.size_lt
  rw [UInt64.toNat_add, h.offset_uint64, h.size_uint64]
  exact Nat.mod_eq_of_lt (by omega)

/-- A range whose size is not zero in 64 bits has something in it. -/
theorem ne_zero_of_uint64 (h : uint64 r.size ≠ 0) : r.size ≠ 0 :=
  fun hsize => h (by rw [hsize]; rfl)

variable (h : r.size ≠ 0 → r.Inside m)
include h

/-- Reading a range is no panic. -/
theorem isSome_getPtr : (m.getPtr (uint64 r.offset) (uint64 r.size)).isSome := by
  unfold Memory.getPtr
  split_ifs with hzero hlt hout
  · rfl
  · have hin := h (ne_zero_of_uint64 hzero)
    have := hin.le_length
    rw [hin.offset_int64, hin.size_int64, hin.offset_uint64, hin.size_uint64] at hout
    simp only [Bool.or_eq_true, decide_eq_true_eq] at hout
    omega
  · rfl
  · rfl

/-- Writing one is no panic. -/
theorem isSome_set (value : Bytes) :
    (m.set (uint64 r.offset) (uint64 r.size) value).isSome := by
  unfold Memory.set
  split_ifs with hzero hout
  · rfl
  · have hin := h (ne_zero_of_uint64 hzero)
    have := hin.le_length
    rw [Bool.or_eq_true, decide_eq_true_eq, decide_eq_true_eq, UInt64.lt_iff_toNat_lt,
      hin.toNat_add, hin.offset_uint64] at hout
    omega
  · rfl

/-- Copying a range to another of the same size is no panic. -/
theorem isSome_copy {dst : Word} (hdst : r.size ≠ 0 → Inside ⟨dst, r.size⟩ m) :
    (m.copy (uint64 dst) (uint64 r.offset) (uint64 r.size)).isSome := by
  unfold Memory.copy
  split_ifs with hzero hout
  · rfl
  · have hin := h (ne_zero_of_uint64 hzero)
    have hin' := hdst (ne_zero_of_uint64 hzero)
    have := hin.le_length
    have : dst.toNat + r.size.toNat ≤ m.store.length := hin'.le_length
    have : (uint64 dst).toNat = dst.toNat := hin'.offset_uint64
    rw [Bool.or_eq_true, Bool.or_eq_true, decide_eq_true_eq, decide_eq_true_eq, decide_eq_true_eq,
      UInt64.lt_iff_toNat_lt, hin.toNat_add, hin.offset_uint64] at hout
    omega
  · rfl

omit h in
theorem isSome_set32 {off : Word} (h : Inside ⟨off, 32⟩ m) (val : Word) :
    (m.set32 (uint64 off) val).isSome := by
  have hsum : (uint64 off + 32).toNat = off.toNat + 32 := h.toNat_add
  have hoff : (uint64 off).toNat = off.toNat := h.offset_uint64
  have hle : off.toNat + 32 ≤ m.store.length := h.le_length
  unfold Memory.set32
  rw [if_neg]
  · rfl
  · rw [Bool.or_eq_true, decide_eq_true_eq, decide_eq_true_eq, UInt64.lt_iff_toNat_lt, hsum, hoff]
    omega

omit h in
theorem isSome_setByte {off : Word} (h : Inside ⟨off, 1⟩ m) (b : UInt8) :
    (m.setByte (uint64 off) b).isSome := by
  have hoff : (uint64 off).toNat = off.toNat := h.offset_uint64
  have hle : off.toNat + 1 ≤ m.store.length := h.le_length
  unfold Memory.setByte
  rw [if_pos (by omega)]
  rfl

end Range

omit [Keccak] in
/-- Reading data pads instead of reading past the end, if the data fit a
Go slice. -/
theorem isSome_getData {data : Bytes} {start size : UInt64} (hdata : data.length < 2 ^ 63)
    (hsize : size.toNat < 2 ^ 63) : (getData data start size).isSome := by
  rw [getData_eq hdata hsize]
  rfl

/-! ## What the execution functions use -/

section Ranges

omit [Keccak]

/-- The range that two words of the stack give. -/
def rangeAt (stack : List Word) (offset size : ℕ) : Range :=
  ⟨stack.getD offset 0, stack.getD size 0⟩

/-- What the functions of the registers use. -/
def ScopeFn.ranges (stack : List Word) : ScopeFn → List Range
  | opKeccak256 | opReturn | makeLog _ => [rangeAt stack 0 1]
  | opCallDataCopy | opCodeCopy | opReturnDataCopy => [rangeAt stack 0 2]
  | opMload | opMstore => [⟨stack.getD 0 0, 32⟩]
  | opMstore8 => [⟨stack.getD 0 0, 1⟩]
  | opMcopy => [rangeAt stack 0 2, rangeAt stack 1 2]
  | _ => []

/-- **The ranges of the memory an execution function uses.** -/
def ExecFn.ranges (stack : List Word) : ExecFn → List Range
  | scope f => f.ranges stack
  | opRevert => [rangeAt stack 0 1]
  | read .opExtCodeCopy => [rangeAt stack 1 3]
  | call .opCreate | call .opCreate2 => [rangeAt stack 1 2]
  | call .opCall | call .opCallCode => [rangeAt stack 3 4, rangeAt stack 5 6]
  | call .opDelegateCall | call .opStaticCall => [rangeAt stack 2 3, rangeAt stack 4 5]
  | _ => []

/-- The memory size functions of the functions of the registers. -/
def ScopeFn.memFn : ScopeFn → Option MemFn
  | opKeccak256 => some .memoryKeccak256
  | opReturn => some .memoryReturn
  | makeLog _ => some .memoryLog
  | opCallDataCopy => some .memoryCallDataCopy
  | opCodeCopy => some .memoryCodeCopy
  | opReturnDataCopy => some .memoryReturnDataCopy
  | opMload => some .memoryMLoad
  | opMstore => some .memoryMStore
  | opMstore8 => some .memoryMStore8
  | opMcopy => some .memoryMcopy
  | _ => none

/-- The memory size function that goes with an execution function. -/
def ExecFn.memFn : ExecFn → Option MemFn
  | scope f => f.memFn
  | opRevert => some .memoryRevert
  | read .opExtCodeCopy => some .memoryExtCodeCopy
  | call .opCreate => some .memoryCreate
  | call .opCreate2 => some .memoryCreate2
  | call .opCall | call .opCallCode => some .memoryCall
  | call .opDelegateCall => some .memoryDelegateCall
  | call .opStaticCall => some .memoryStaticCall
  | _ => none

/-! ## What the memory size functions bound -/

variable {stack : List Word} {n : UInt64}

theorem below_of_calcMemSize64WithUint {off : Word} {len : UInt64}
    (h : calcMemSize64WithUint off len = some n) (hlen : len ≠ 0) :
    off.toNat + len.toNat = n.toNat := by
  unfold calcMemSize64WithUint at h
  rw [if_neg hlen] at h
  obtain ⟨offset64, hoff, h⟩ := Option.bind_eq_some_iff.mp h
  unfold safeAdd at h
  split_ifs at h with hlt
  cases h
  rw [UInt64.toNat_add, ← Range.toNat_of_uint64WithOverflow hoff]
  exact (Nat.mod_eq_of_lt hlt).symm

theorem below_of_calcMemSize64 {off l : Word} (h : calcMemSize64 off l = some n) :
    Range.Below ⟨off, l⟩ n.toNat := by
  intro hl
  obtain ⟨len, hlen, hn⟩ := Option.bind_eq_some_iff.mp h
  have hl' := Range.toNat_of_uint64WithOverflow hlen
  have hne : len ≠ 0 := by
    rintro rfl
    exact hl (BitVec.eq_of_toNat_eq hl'.symm)
  rw [← below_of_calcMemSize64WithUint hn hne, hl']

namespace MemFn

theorem getD_of_back {i : ℕ} {w : Word} (h : back stack i = .ok w) : stack.getD i 0 = w := by
  unfold back at h
  rw [List.getD_eq_getElem?_getD]
  cases hw : stack[i]? with
  | none =>
    rw [hw] at h
    cases h
  | some w' =>
    rw [hw] at h
    cases h
    rfl

theorem below_of_range {off len : ℕ} (h : range off len stack = .ok (some n)) :
    (rangeAt stack off len).Below n.toNat := by
  obtain ⟨x, hoff, h⟩ := ok_of_bind h
  obtain ⟨y, hlen, h⟩ := ok_of_bind h
  unfold rangeAt
  rw [getD_of_back hoff, getD_of_back hlen]
  exact below_of_calcMemSize64 (Except.ok.inj h)

theorem below_of_fixed {len : UInt64} (h : fixed len stack = .ok (some n)) (hlen : len ≠ 0) :
    Range.Below ⟨stack.getD 0 0, BitVec.ofNat 256 len.toNat⟩ n.toNat := by
  intro _
  obtain ⟨x, hoff, h⟩ := ok_of_bind h
  have hlt : len.toNat < 2 ^ 256 := len.toNat_lt.trans (by decide)
  rw [getD_of_back hoff]
  rw [BitVec.toNat_ofNat, Nat.mod_eq_of_lt hlt,
    below_of_calcMemSize64WithUint (Except.ok.inj h) hlen]

/-- The size for a call bounds both of its ranges. -/
theorem below_of_call {outOff inOff : ℕ} (h : call outOff inOff stack = .ok (some n)) :
    (rangeAt stack inOff (inOff + 1)).Below n.toNat
      ∧ (rangeAt stack outOff (outOff + 1)).Below n.toNat := by
  obtain ⟨_ | x, hx, h⟩ := ok_of_bind h
  · cases h
  obtain ⟨_ | y, hy, h⟩ := ok_of_bind h
  · cases h
  have hx' := below_of_range hx
  have hy' := below_of_range hy
  have hn : (if y < x then x else y) = n := Option.some.inj (Except.ok.inj h)
  have hle : x.toNat ≤ n.toNat ∧ y.toNat ≤ n.toNat := by
    rw [← hn]
    split_ifs with hlt <;> rw [UInt64.lt_iff_toNat_lt] at hlt <;> omega
  exact ⟨fun h0 => (hy' h0).trans hle.2, fun h0 => (hx' h0).trans hle.1⟩

/-- The size for a copy bounds the range it reads and the one it
writes. -/
theorem below_of_memoryMcopy (h : size stack .memoryMcopy = .ok (some n)) :
    (rangeAt stack 0 2).Below n.toNat ∧ (rangeAt stack 1 2).Below n.toNat := by
  obtain ⟨dst, hdst, h⟩ := ok_of_bind h
  obtain ⟨src, hsrc, h⟩ := ok_of_bind h
  obtain ⟨l, hl, h⟩ := ok_of_bind h
  unfold rangeAt
  rw [getD_of_back hdst, getD_of_back hsrc, getD_of_back hl]
  have hn := below_of_calcMemSize64 (Except.ok.inj h)
  have hmax : dst.toNat ≤ (if dst.ult src then src else dst).toNat
      ∧ src.toNat ≤ (if dst.ult src then src else dst).toNat := by
    split_ifs with hlt <;> rw [BitVec.ult, decide_eq_true_eq] at hlt <;> omega
  exact ⟨fun h0 => (Nat.add_le_add_right hmax.1 _).trans (hn h0),
    fun h0 => (Nat.add_le_add_right hmax.2 _).trans (hn h0)⟩

end MemFn

/-- **The memory size function bounds the ranges of the execution function
it goes with.** -/
theorem ExecFn.below_of_size {f : ExecFn} {mf : MemFn} (hf : f.memFn = some mf)
    (h : mf.size stack = .ok (some n)) : ∀ r ∈ f.ranges stack, r.Below n.toNat := by
  have hone : ∀ {r : Range}, r.Below n.toNat → ∀ r' ∈ [r], r'.Below n.toNat :=
    fun hr => List.forall_mem_singleton.mpr hr
  have htwo : ∀ {r r' : Range}, r.Below n.toNat ∧ r'.Below n.toNat →
      ∀ r'' ∈ [r, r'], r''.Below n.toNat := by
    intro r r' hr
    exact List.forall_mem_cons.mpr ⟨hr.1, hone hr.2⟩
  cases f with
  | scope f =>
    cases f with
    | opKeccak256 | opReturn | makeLog | opCallDataCopy | opCodeCopy | opReturnDataCopy =>
      cases hf
      exact hone (MemFn.below_of_range h)
    | opMload | opMstore | opMstore8 =>
      cases hf
      exact hone (MemFn.below_of_fixed h (by decide))
    | opMcopy =>
      cases hf
      exact htwo (MemFn.below_of_memoryMcopy h)
    | _ => cases hf
  | opRevert =>
    cases hf
    exact hone (MemFn.below_of_range h)
  | read f =>
    cases f with
    | opExtCodeCopy =>
      cases hf
      exact hone (MemFn.below_of_range h)
    | _ => cases hf
  | call f =>
    cases f with
    | opCreate | opCreate2 =>
      cases hf
      exact hone (MemFn.below_of_range h)
    | opCall | opCallCode | opDelegateCall | opStaticCall =>
      cases hf
      exact htwo (MemFn.below_of_call h)
  | write => cases hf
  | jump => cases hf

/-- A function without a memory size function uses no memory. -/
theorem ExecFn.ranges_eq_nil {f : ExecFn} (hf : f.memFn = none) : f.ranges stack = [] := by
  cases f with
  | scope f | read f => cases f <;> first | rfl | cases hf
  | call f => cases f <;> cases hf
  | opRevert => cases hf
  | write => rfl
  | jump => rfl

end Ranges

/-! ## Preparation -/

section Preparation

omit [Keccak]

open JumpTable Operation

/-- **An operation whose memory is measured**: its memory size function is
the one that goes with its execution function, and if it has one, its gas
function prices the memory. -/
structure Operation.Measured (op : UInt8) (o : Operation) : Prop where
  memorySize : o.memorySize = o.execute.memFn
  dynamicGas : o.memorySize ≠ none → o.dynamicGas.any GasFn.pricesMemory
  assigned : o.memorySize ≠ none → ∀ e ∈ assignedGas, e.1 = op → e.2.pricesMemory

instance (op : UInt8) (o : Operation) : Decidable (o.Measured op) :=
  decidable_of_iff
    (o.memorySize = o.execute.memFn
      ∧ (o.memorySize ≠ none → o.dynamicGas.any GasFn.pricesMemory)
      ∧ (o.memorySize ≠ none → ∀ e ∈ assignedGas, e.1 = op → e.2.pricesMemory))
    ⟨fun h => ⟨h.1, h.2.1, h.2.2⟩, fun h => ⟨h.memorySize, h.dynamicGas, h.assigned⟩⟩

theorem law_measured : Law Measured where
  undefined _ := ⟨rfl, fun h => absurd rfl h, fun h => absurd rfl h⟩
  entry := by decide +kernel
  constantGas _ _ _ h := ⟨h.memorySize, h.dynamicGas, h.assigned⟩
  dynamicGas e he _ h := ⟨h.memorySize, fun hm => h.assigned hm e he rfl, h.assigned⟩

end Preparation

section Prices

variable {s : GasScope} {n : UInt64}

/-- The largest memory that can be paid for. -/
def maxMemory : UInt64 := 0x1FFFFFFFE0

omit [Keccak] in
theorem returns_memoryGasCost : Returns (fun _ => n ≤ maxMemory) (memoryGasCost s n) := by
  unfold memoryGasCost
  split_ifs with hzero hmax
  · rw [hzero]
    exact .pure (by decide)
  · exact .throw _
  · have hle : n ≤ maxMemory := UInt64.not_lt.mp hmax
    exact .ite (fun _ => hle) (.pure hle)

/-- **A gas function that prices the memory bounds it.** -/
theorem GasFn.returns_gas {g : GasFn} (hg : g.pricesMemory) :
    Returns (fun _ => n ≤ maxMemory) (g.gas s n) := by
  have hnot : ∀ {p : Prop}, false = true → p := fun h => absurd h Bool.false_ne_true
  have hlaw : GasLaw s n g.reads (fun _ => True) fun b _ m =>
      b = true → Returns (fun _ => n ≤ maxMemory) m :=
    { pure := fun _ => hnot
      throw := fun _ => hnot
      canary := hnot
      bind := fun _ hf hb => .bind fun a => hf a hb
      after := fun hm _ hb => .of_first (hm hb)
      get := hnot
      back := fun _ => hnot
      checked := fun _ => hnot
      memory := fun _ => returns_memoryGasCost
      read := fun _ _ _ => hnot
      slotInAccessList := fun _ _ => hnot
      addAddress := fun _ => hnot
      addSlot := fun _ _ => hnot
      addRefund := fun _ _ => hnot
      subRefund := fun _ _ => hnot
      useGas := fun _ _ => hnot
      returnGas := fun _ _ => hnot
      callGasTemp := fun _ _ => hnot }
  exact hlaw.gas trivial le_rfl hg

end Prices

section Prepared

variable {env : Env} {o : Operation} {op : UInt8} {s t : Frame}

omit [Keccak] in
/-- Rounding up to words does not make a size smaller. -/
theorem le_of_safeMul_toWordSize {k n : UInt64} (h : safeMul (toWordSize k) 32 = some n) :
    k.toNat ≤ n.toNat := by
  unfold safeMul at h
  split_ifs at h with hlt
  cases h
  have hmul : (toWordSize k * 32).toNat = (toWordSize k).toNat * 32 := by
    rw [UInt64.toNat_mul]
    exact Nat.mod_eq_of_lt hlt
  have hmax : (UInt64.ofNat (2 ^ 64 - 1) - 31).toNat = 2 ^ 64 - 32 := by decide
  rw [hmul]
  unfold toWordSize at hlt ⊢
  split_ifs at hlt ⊢ with hbig
  · exact absurd hlt (by decide)
  · rw [UInt64.lt_iff_toNat_lt, hmax] at hbig
    have hsum : (k + 31).toNat = k.toNat + 31 := by
      rw [UInt64.toNat_add]
      exact Nat.mod_eq_of_lt (show k.toNat + 31 < 2 ^ 64 by omega)
    rw [UInt64.toNat_div, hsum]
    show k.toNat ≤ (k.toNat + 31) / 32 * 32
    omega

omit [Keccak] in
theorem Operation.size_of_memoryNeeded {stack : List Word} {n : UInt64} {mf : MemFn}
    (hm : o.memorySize = some mf) (h : o.memoryNeeded stack = .ok (some n)) :
    ∃ k, mf.size stack = .ok (some k) ∧ k.toNat ≤ n.toNat := by
  unfold Operation.memoryNeeded at h
  rw [hm] at h
  obtain ⟨_ | k, hk, h⟩ := MemFn.ok_of_bind h
  · cases h
  · exact ⟨k, hk, le_of_safeMul_toWordSize (Except.ok.inj h)⟩

omit [Keccak] in
theorem Memory.le_length_resize (m : Memory) (n : UInt64) :
    n.toNat ≤ (m.resize n).store.length := by
  unfold Memory.resize
  rw [List.length_append, List.length_replicate]
  omega

/-- **Once an operation is prepared, its ranges lie in the memory.** -/
theorem Frame.Prepared.inside (h : Prepared env o s t) (ho : o.Measured op) :
    ∀ r ∈ o.execute.ranges s.regs.stack, r.size ≠ 0 → r.Inside t.regs.memory := by
  intro r hr hsize
  cases hmem : o.memorySize with
  | none =>
    rw [ExecFn.ranges_eq_nil (ho.memorySize.symm.trans hmem)] at hr
    cases hr
  | some mf =>
    have hprices := ho.dynamicGas (by rw [hmem]; exact nofun)
    cases h with
    | constant hdyn =>
      rw [hdyn] at hprices
      cases hprices
    | @dynamic g n cost st hdyn _ _ _ hneeded hcost =>
      rw [hdyn] at hprices
      obtain ⟨k, hk, hkn⟩ := Operation.size_of_memoryNeeded hmem hneeded
      have hbelow := ExecFn.below_of_size (ho.memorySize.symm.trans hmem) hk r hr
      have hmax : n ≤ maxMemory := (GasFn.returns_gas hprices _).of_ok hcost
      have hmax' : n.toNat ≤ 0x1FFFFFFFE0 := UInt64.le_iff_toNat_le.mp hmax
      exact hbelow.inside hsize (by omega) (hkn.trans (Memory.le_length_resize _ n))

end Prepared

/-! ## Execution

`P` is what an execution function may stop with; it holds of every panic
but that of a slice. -/

section Execution

variable {P : Fault → Prop} (hP : ∀ f, f ≠ .slice → P f)

namespace Regs

omit [Keccak]

variable {r : Regs}

/-- What is in the memory is read. -/
theorem sat_load {f : Memory → Option Bytes} {Q : Bytes → Regs → Prop} {E : Fault → Regs → Prop}
    (h : (f r.memory).isSome) (hQ : ∀ b, Q b r) : Sat (load f) r Q E := by
  obtain ⟨b, hb⟩ := Option.isSome_iff_exists.mp h
  refine sat_attempt (fun a r' hr => ?_) (fun hnone => ?_)
  · rw [hb] at hr
    cases hr
    exact hQ b
  · rw [hb] at hnone
    cases hnone

/-- What is in the memory is written. -/
theorem sat_store {f : Memory → Option Memory} {Q : Unit → Regs → Prop} {E : Fault → Regs → Prop}
    (h : (f r.memory).isSome) (hQ : ∀ r', Q () r') : Sat (store f) r Q E := by
  obtain ⟨m, hm⟩ := Option.isSome_iff_exists.mp h
  refine sat_attempt (fun _ r' _ => hQ r') (fun hnone => ?_)
  rw [hm] at hnone
  cases hnone

end Regs

namespace ScopeFn

open Regs

section Bodies

omit [Keccak]

theorem sat_orFault {α : Type} {e : Fault} {o : Option α} {r : Regs} {Q : α → Regs → Prop}
    {E : Fault → Regs → Prop} (h : o.isSome) (hQ : ∀ a, Q a r) : Sat (orFault e o) r Q E := by
  obtain ⟨a, rfl⟩ := Option.isSome_iff_exists.mp h
  exact hQ a

theorem stops_pushes (w : Word) : Stops P (pushes w) := .bind (.modify _) fun _ => .pure _

include hP

theorem of_stack : P .stack := hP .stack (by decide)

theorem sat_popN (n : ℕ) (r : Regs) :
    Sat (popN n) r (fun _ r' => r'.memory = r.memory) (fun f _ => P f) := by
  induction n generalizing r with
  | zero => exact rfl
  | succ n ih =>
    exact .bind (sat_pop (fun _ ws _ => ih { r with stack := ws }) fun _ => of_stack hP)

variable {r : Regs}

theorem sat_memoryArg
    (hin : (rangeAt r.stack 0 1).size ≠ 0 → (rangeAt r.stack 0 1).Inside r.memory) :
    Sat memoryArg r (fun _ _ => True) (fun f _ => P f) := by
  refine sat_pop₂ (fun offset size ws h => ?_) fun _ => of_stack hP
  rw [h] at hin
  exact sat_load (Range.isSome_getPtr hin) fun _ => trivial

theorem sat_copies {data : Bytes} (hdata : data.length < 2 ^ 63)
    (hin : (rangeAt r.stack 0 2).size ≠ 0 → (rangeAt r.stack 0 2).Inside r.memory) :
    Sat (copies data) r (fun _ _ => True) (fun f _ => P f) := by
  refine sat_pop₃ (fun memOffset dataOffset length ws h => ?_) fun _ => of_stack hP
  rw [h] at hin
  have hsize : (uint64 length).toNat < 2 ^ 63 := by
    by_cases hzero : uint64 length = 0
    · rw [hzero]
      decide
    · have hi : Range.Inside ⟨memOffset, length⟩ r.memory :=
        hin (Range.ne_zero_of_uint64 (r := ⟨memOffset, length⟩) hzero)
      exact hi.size_uint64.trans_lt hi.size_lt
  exact .bind (sat_orFault (isSome_getData hdata hsize) fun b =>
    .bind (sat_store (Range.isSome_set hin b) fun _ => trivial))

/-- The end of what is copied does not come before its start: the length
was bounded with the memory, and without one the two are the same. -/
theorem sat_returnDataCopy (data : Bytes)
    (hin : (rangeAt r.stack 0 2).size ≠ 0 → (rangeAt r.stack 0 2).Inside r.memory) :
    Sat (returnDataCopy data) r (fun _ _ => True) (fun f _ => P f) := by
  refine sat_pop₃ (fun memOffset dataOffset length ws h => ?_) fun _ => of_stack hP
  rw [h] at hin
  cases hoff : uint64WithOverflow dataOffset with
  | none => trivial
  | some offset64 =>
    cases hend : uint64WithOverflow (dataOffset + length) with
    | none => trivial
    | some end64 =>
      refine .ite (fun _ => trivial) fun _ => .ite (fun hlt => ?_) fun _ => ?_
      · rw [UInt64.lt_iff_toNat_lt, Range.toNat_of_uint64WithOverflow hend,
          Range.toNat_of_uint64WithOverflow hoff] at hlt
        have hoff64 := (Range.toNat_of_uint64WithOverflow hoff).symm.trans_lt offset64.toNat_lt
        have hlength : length.toNat < 2 ^ 63 := by
          by_cases hzero : length = 0
          · rw [hzero]
            decide
          · exact (hin hzero).size_lt
        rw [BitVec.toNat_add, Nat.mod_eq_of_lt (by omega)] at hlt
        omega
      · exact .bind (sat_store (Range.isSome_set hin _) fun _ => trivial)

end Bodies

include hP in
/-- **The functions of the registers.** -/
theorem sat_exec {f : ScopeFn} {s : Scope} {r : Regs}
    (hin : ∀ x ∈ f.ranges r.stack, x.size ≠ 0 → x.Inside r.memory)
    (hinput : s.contract.input.length < 2 ^ 63) (hcode : s.contract.code.length < 2 ^ 63)
    (hpc : f = .opUndefined → s.contract.code.length ≤ r.pc.toNat → P .slice) :
    Sat (f.exec s) r (fun _ _ => True) (fun f _ => P f) := by
  have hstack : ∀ {p : Prop}, p → P .stack := fun _ => of_stack hP
  -- a word at the top of the stack that gives a range of a fixed size
  have hfixed : ∀ {offset size : Word} {ws : List Word}, r.stack = offset :: ws → size ≠ 0 →
      f.ranges r.stack = [⟨r.stack.getD 0 0, size⟩] → Range.Inside ⟨offset, size⟩ r.memory := by
    intro offset size ws h hsize hf
    rw [hf, h] at hin
    exact hin _ List.mem_cons_self hsize
  have hnone : f.slices = false → Sat (f.exec s) r (fun _ _ => True) (fun e _ => P e) := fun hf =>
    ((does_exec s f).tame r).mono (fun _ _ _ => trivial)
      (fun e _ h => hP e fun he => absurd (h.2.2 he) (by rw [hf]; decide))
  cases f with
  | opKeccak256 =>
    exact .bind
      ((sat_memoryArg hP (hin _ List.mem_cons_self)).mono (fun _ r' _ => stops_pushes _ r'))
  | opCallDataLoad =>
    refine .bind (sat_pop (fun x ws _ => ?_) hstack)
    cases uint64WithOverflow x with
    | none => exact stops_pushes _ _
    | some offset =>
      exact .bind (sat_orFault (isSome_getData hinput (by decide)) fun _ => stops_pushes _ _)
  | opMload =>
    refine .bind (sat_pop (fun offset ws h => ?_) hstack)
    have hi : Range.Inside ⟨offset, 32⟩ r.memory := hfixed h (by decide) rfl
    exact .bind (sat_load (Range.isSome_getPtr fun _ => hi) fun _ => stops_pushes _ _)
  | opCallDataCopy => exact sat_copies hP hinput (hin _ List.mem_cons_self)
  | opCodeCopy => exact sat_copies hP hcode (hin _ List.mem_cons_self)
  | opReturnDataCopy => exact sat_returnDataCopy hP _ (hin _ List.mem_cons_self)
  | opMcopy =>
    refine sat_pop₃ (fun dst src length ws h => ?_) fun _ => of_stack hP
    rw [h] at hin
    have hdst := hin _ List.mem_cons_self
    have hsrc := hin _ (List.mem_cons_of_mem _ List.mem_cons_self)
    exact .bind (sat_store (Range.isSome_copy hsrc hdst) fun _ => trivial)
  | opMstore =>
    refine sat_pop₂ (fun mStart val ws h => ?_) fun _ => of_stack hP
    have hi : Range.Inside ⟨mStart, 32⟩ r.memory := hfixed h (by decide) rfl
    exact .bind (sat_store (Range.isSome_set32 hi val) fun _ => trivial)
  | opMstore8 =>
    refine sat_pop₂ (fun off val ws h => ?_) fun _ => of_stack hP
    have hi : Range.Inside ⟨off, 1⟩ r.memory := hfixed h (by decide) rfl
    exact .bind (sat_store (Range.isSome_setByte hi _) fun _ => trivial)
  | opReturn =>
    exact .bind ((sat_memoryArg hP (hin _ List.mem_cons_self)).mono (fun _ _ _ => trivial))
  | opUndefined =>
    refine .bind (.bind (sat_attempt (fun _ _ _ => trivial) fun hnone => hpc rfl ?_))
    exact List.getElem?_eq_none_iff.mp (Option.map_eq_none_iff.mp hnone)
  | makeLog n =>
    refine .ite (fun _ => trivial) fun _ =>
      sat_pop₂ (fun mStart mSize ws h => ?_) fun _ => of_stack hP
    have hi := hin _ List.mem_cons_self
    rw [h] at hi
    refine .bind ((sat_popN hP n _).mono (fun _ r' hr => ?_))
    replace hr : r'.memory = r.memory := hr
    rw [← hr] at hi
    exact .bind (sat_load (Range.isSome_getPtr hi) fun _ => trivial)
  | _ => exact hnone rfl

end ScopeFn

/-! ### The state -/

section State

open RegsDb

include hP

theorem ReadFn.sat_exec {f : ReadFn} {s : Scope} {r : RegsDb}
    (hin : ∀ x ∈ (ExecFn.read f).ranges r.regs.stack, x.size ≠ 0 → x.Inside r.regs.memory)
    (hcode : (r.statedb.getCode (bytes20 (r.regs.stack.getD 0 0))).1.length < 2 ^ 63) :
    Sat (f.exec s) r (fun _ _ => True) (fun f _ => P f) := by
  by_cases hf : f = .opExtCodeCopy
  · subst hf
    refine .bind (sat_zoom.mpr (Regs.sat_pop (fun a ws h => ?_) fun _ => ScopeFn.of_stack hP))
    have hi := hin _ List.mem_cons_self
    rw [h] at hi hcode
    exact .bind (sat_modifyGet.mpr (sat_zoom.mpr (ScopeFn.sat_copies hP hcode hi)))
  · exact ((f.ends_exec s).moves.tame r).mono (fun _ _ _ => trivial)
      (fun e _ h => hP e fun he => hf (h.2.2 he))

theorem WriteFn.stops_exec (f : WriteFn) (s : Scope) : Stops P (f.exec s) :=
  fun r => ((f.does_exec s).tame r).mono (fun _ _ _ => trivial) (fun e _ h => hP e h.2.2)

end State

/-! ### Jumps and calls -/

namespace Frame

variable {s : Frame}

section Parts

omit [Keccak]

theorem sat_onEvm_regs {α : Type} {m : EStateM Fault Evm α} (h : Stops P m) :
    Sat (onEvm m) s (fun _ t => t.regs = s.regs) (fun f _ => P f) :=
  sat_zoom.mpr ((h s.evm).mono (fun _ _ _ => rfl))

theorem sat_concludeCall {retOffset retSize : Word} (r : CallResult)
    (hin : retSize ≠ 0 → Range.Inside ⟨retOffset, retSize⟩ s.regs.memory) :
    Sat (concludeCall retOffset retSize r) s (fun _ _ => True) (fun f _ => P f) := by
  obtain ⟨ret, gasLeft, err⟩ := r
  refine .bind (sat_zoom.mpr (sat_modify.mpr (.bind (.ite (fun _ => ?_) fun _ => trivial))))
  exact sat_zoom.mpr (Regs.sat_store (Range.isSome_set (r := ⟨_, _⟩) hin ret) fun _ => trivial)

theorem stops_concludeCreate (w : Word) (r : Evm.CreateResult) : Stops P (concludeCreate w r) := by
  obtain ⟨res, addr, gasLeft, err⟩ := r
  exact .bind (.zoom (.modify _)) fun _ => .bind (.modify _) fun _ =>
    .ite (.bind (.modify _) fun _ => .pure _) (.bind (.modify _) fun _ => .pure _)

include hP

/-- The operands of a call: its input is read, and its output has a
place. -/
theorem sat_callOperands {withValue : Bool} {k : ℕ} (hk : k = if withValue then 3 else 2)
    (hin : (rangeAt s.regs.stack k (k + 1)).size ≠ 0 →
      (rangeAt s.regs.stack k (k + 1)).Inside s.regs.memory) :
    Sat (callOperands withValue) s
      (fun p t => t.regs.memory = s.regs.memory
        ∧ Range.mk p.2.2.2.1 p.2.2.2.2 = rangeAt s.regs.stack (k + 2) (k + 3))
      (fun f _ => P f) := by
  have hstack := ScopeFn.of_stack hP
  -- what comes after the value is the same for all calls
  have hrest : ∀ (addr value : Word) (r : Regs),
      ((rangeAt r.stack 0 1).size ≠ 0 → (rangeAt r.stack 0 1).Inside r.memory) →
      Sat (do
        let inOffset ← Regs.pop
        let inSize ← Regs.pop
        let retOffset ← Regs.pop
        let retSize ← Regs.pop
        let args ← Regs.load (fun m => m.getPtr (uint64 inOffset) (uint64 inSize))
        pure ((bytes20 addr, value, args, retOffset, retSize) :
          Address × Word × Bytes × Word × Word)) r
        (fun p r' => r'.memory = r.memory
          ∧ Range.mk p.2.2.2.1 p.2.2.2.2 = rangeAt r.stack 2 3)
        (fun f _ => P f) := by
    intro addr value r hi
    refine Regs.sat_pop₂
      (fun inOffset inSize ws h => Regs.sat_pop₂ (fun retOffset retSize ws₁ h₁ => ?_)
      fun _ => hstack) fun _ => hstack
    obtain rfl : ws = retOffset :: retSize :: ws₁ := h₁
    rw [h] at hi ⊢
    exact .bind (Regs.sat_load (Range.isSome_getPtr hi) fun _ => ⟨rfl, rfl⟩)
  refine sat_zoom.mpr (Regs.sat_pop₂ (fun _ addr ws₁ h => .bind ?_) fun _ => hstack)
  rw [h] at hin ⊢
  cases withValue with
  | false =>
    obtain rfl : k = 2 := hk
    exact hrest addr 0 _ hin
  | true =>
    obtain rfl : k = 3 := hk
    refine Regs.sat_pop (fun value ws₂ h₂ => ?_) fun _ => hstack
    obtain rfl : ws₁ = value :: ws₂ := h₂
    exact hrest addr value _ hin

/-- The operands of a creation. -/
theorem sat_createOperands {withSalt : Bool}
    (hin : (rangeAt s.regs.stack 1 2).size ≠ 0 →
      (rangeAt s.regs.stack 1 2).Inside s.regs.memory) :
    Sat (createOperands withSalt) s (fun _ _ => True) (fun f _ => P f) := by
  have hstack := ScopeFn.of_stack hP
  refine sat_zoom.mpr (Regs.sat_pop₃ (fun value offset size ws h => .bind ?_) fun _ => hstack)
  rw [h] at hin
  have hload : ∀ (salt : Word) (ws' : List Word), Sat (do
      let input ← Regs.load (fun m => m.getPtr (uint64 offset) (uint64 size))
      pure ((value, input, salt) : Word × Bytes × Word)) { s.regs with stack := ws' }
      (fun _ _ => True) (fun f _ => P f) := fun salt ws' =>
    .bind (Regs.sat_load (Range.isSome_getPtr hin) fun _ => trivial)
  cases withSalt with
  | false => exact hload 0 _
  | true => exact Regs.sat_pop (fun salt ws₃ _ => hload salt ws₃) fun _ => hstack

end Parts

end Frame

open Frame

section Calls

include hP

omit [Keccak] in
theorem JumpFn.stops_exec (env : Env) (f : JumpFn) : Stops P (f.exec env) :=
  fun s => ((f.does_exec env).tame s).mono (fun _ _ _ => trivial) (fun e _ h => hP e h.2.2)

variable {env : Env} {run : Runner} {s : Frame}

/-- **Calls and creations stop only as the runner does**, if their operands are
inside the memory. -/
theorem CallFn.sat_exec (hrun : run.Safe P) {f : CallFn}
    (hin : ∀ x ∈ (ExecFn.call f).ranges s.regs.stack, x.size ≠ 0 → x.Inside s.regs.memory) :
    Sat (f.exec env run) s (fun _ _ => True) (fun f _ => P f) := by
  have hrun : run.Within (.ofFaults (hP .snapshot (by decide)) (hP .assertion (by decide))) :=
    hrun.within
  -- the output goes to the memory the operands were read from
  have hcall : ∀ {withValue : Bool} {k : ℕ}
      {body : Address × Word × Bytes × Word × Word → EStateM Fault Frame Outcome},
      (k = if withValue then 3 else 2) →
      (∀ x ∈ [rangeAt s.regs.stack k (k + 1), rangeAt s.regs.stack (k + 2) (k + 3)],
        x.size ≠ 0 → x.Inside s.regs.memory) →
      (∀ p t, (p.2.2.2.2 ≠ 0 → Range.Inside ⟨p.2.2.2.1, p.2.2.2.2⟩ t.regs.memory) →
        Sat (body p) t (fun _ _ => True) (fun f _ => P f)) →
      Sat (callOperands withValue >>= body) s (fun _ _ => True) (fun f _ => P f) := by
    intro withValue k body hk hi hbody
    refine .bind ((sat_callOperands hP hk (hi _ List.mem_cons_self)).mono (fun p t hp => ?_))
    have hret := hi _ (List.mem_cons_of_mem _ List.mem_cons_self)
    rw [← hp.2, ← hp.1] at hret
    exact hbody p t hret
  have hconclude : ∀ {m : EStateM Fault Evm CallResult} {t : Frame} {retOffset retSize : Word},
      Stops P m → (retSize ≠ 0 → Range.Inside ⟨retOffset, retSize⟩ t.regs.memory) →
      Sat (do
        let r ← onEvm m
        concludeCall retOffset retSize r) t (fun _ _ => True) (fun f _ => P f) := by
    intro m t retOffset retSize hm hi
    refine .bind ((sat_onEvm_regs hm).mono (fun r u hu => ?_))
    rw [← hu] at hi
    exact sat_concludeCall r hi
  cases f with
  | opCreate =>
    refine .bind (.ite (fun _ => trivial) fun _ => .bind ((sat_createOperands hP
      (hin _ List.mem_cons_self)).mono (fun p t _ => ?_)))
    exact Stops.bind .get (fun _ => .bind (.modifyGet _) fun _ => .bind .get fun _ =>
      .bind (.zoom (Evm.budget_create hrun _ _ _ _).stops) fun _ => stops_concludeCreate _ _) t
  | opCreate2 =>
    refine .bind (.ite (fun _ => trivial) fun _ => .bind ((sat_createOperands hP
      (hin _ List.mem_cons_self)).mono (fun p t _ => ?_)))
    exact Stops.bind .get (fun _ => .bind (.modifyGet _) fun _ => .bind .get fun _ =>
      .bind (.zoom (Evm.budget_create2 hrun _ _ _ _ _).stops) fun _ => stops_concludeCreate _ _) t
  | opCall =>
    exact hcall rfl hin fun p t ht => .bind (.ite (fun _ => trivial) fun _ =>
      hconclude (Evm.budget_call hrun _ _ _ _ _).stops ht)
  | opCallCode =>
    exact hcall rfl hin fun p t ht =>
      .bind (hconclude (Evm.budget_callCode hrun _ _ _ _ _).stops ht)
  | opDelegateCall =>
    exact hcall rfl hin fun p t ht =>
      .bind (hconclude (Evm.budget_delegateCall hrun _ _ _ _).stops ht)
  | opStaticCall =>
    exact hcall rfl hin fun p t ht =>
      .bind (hconclude (Evm.budget_staticCall hrun _ _ _ _).stops ht)

omit [Keccak] hP in
/-- **Byte strings that a Go slice can hold**: the data of a frame that an
instruction may copy from – the input, the code, and the code of the
account on the stack. -/
structure Frame.Sliceable [Keccak] (s : Frame) : Prop where
  input : s.contract.input.length < 2 ^ 63
  code : s.contract.code.length < 2 ^ 63
  extCode :
    (s.evm.statedb.getCode (bytes20 (s.regs.stack.getD 0 0))).1.length < 2 ^ 63

/-- **An execution function whose ranges lie in the memory takes no slice
that does not exist**: it stops for another reason, or because a frame it
runs did, or where the byte it complains about is past the end of the
code. -/
theorem ExecFn.sat_exec (hrun : run.Safe P) {f : ExecFn}
    (hin : ∀ x ∈ f.ranges s.regs.stack, x.size ≠ 0 → x.Inside s.regs.memory) (hs : s.Sliceable)
    (hpc : f = .scope .opUndefined → s.contract.code.length ≤ s.regs.pc.toNat → P .slice) :
    Sat (f.exec env run) s (fun _ _ => True) (fun f _ => P f) := by
  cases f with
  | scope f =>
    exact .bind (sat_zoom.mpr (ScopeFn.sat_exec hP hin hs.input hs.code fun hf => hpc (hf ▸ rfl)))
  | opRevert =>
    refine .bind (sat_zoom.mpr ((ScopeFn.sat_memoryArg hP (hin _ List.mem_cons_self)).mono
      (fun _ _ _ => ?_) (fun _ _ hf => hf)))
    trivial
  | read f => exact .bind (sat_zoom.mpr (ReadFn.sat_exec hP hin hs.extCode))
  | write f =>
    exact Stops.bind .get (fun _ => .bind (.zoom (f.stops_exec hP _)) fun _ =>
      .bind (.ite (.pure _) (.modify _)) fun _ => .pure _) s
  | jump f => exact f.stops_exec hP env s
  | call f => exact CallFn.sat_exec hP hrun hin

end Calls

end Execution

/-! ## Safety -/

section Safety

/-- **Memory safety**: once the loop has measured, paid for and resized
the memory for an opcode, every part of it that the execution function
uses and that is not empty lies in the memory, with an offset and a size
that the conversions do not change; and the execution function takes no
slice out of range of the memory or of the data it copies. What is left
are the slices of the frames it runs, and the complaint about an
undefined byte past the end of the code. -/
theorem Frame.memorySafe (env : Env) (run : Runner) (op : UInt8) {s t : Frame}
    (h : prepare env (env.jumpTable op) s = .ok none t) (ht : t.Sliceable) :
    (∀ r ∈ (env.jumpTable op).execute.ranges t.regs.stack,
        r.size ≠ 0 → r.Inside t.regs.memory)
      ∧ Sat ((env.jumpTable op).execute.exec env run) t (fun _ _ => True) (fun f _ => f = .slice →
        ((env.jumpTable op).execute = .scope .opUndefined
          ∧ t.contract.code.length ≤ t.regs.pc.toNat)
        ∨ ∃ c input readOnly e e', run c input readOnly e = .error .slice e') := by
  have hp : Prepared env (env.jumpTable op) s t := (sat_prepare s).of_ok h rfl
  have hin := hp.inside (law_measured.jumpTable env op)
  rw [← hp.stack_eq] at hin
  refine ⟨hin, ExecFn.sat_exec (fun f hf hslice => absurd hslice hf) ?_ hin ht
    fun hu hpc _ => .inl ⟨hu, hpc⟩⟩
  -- a frame that stops with a slice is one that is run
  intro c input readOnly e
  unfold Sat
  cases hrun : run c input readOnly e with
  | ok => trivial
  | error f e' => exact fun hf => .inr ⟨c, input, readOnly, e, e', hf ▸ hrun⟩

omit [Keccak]

/-- Storing a word at the 64th byte of an empty memory. -/
theorem Frame.memorySafe_mstore :
    letI := Keccak.digests
    let env : Env := {}
    let s : Frame :=
      { evm := { statedb := StateDB.newStateDB .empty }
        regs := { stack := [64, 7] }
        contract := { callerAddress := 1, self := 2, code := [0x52], gas := 100, value := 0 } }
    ∃ t, prepare env (env.jumpTable OpCode.MSTORE) s = .ok none t
      ∧ t.regs.memory.store.length = 96 ∧ Range.Inside ⟨64, 32⟩ t.regs.memory := by
  let _ := Keccak.digests
  intro env s
  obtain ⟨err, t, hok, rfl, hlen, hstack, hinput, hcode, hext⟩ :
      ∃ err t, prepare env (env.jumpTable OpCode.MSTORE) s = .ok err t ∧ err = none
        ∧ t.regs.memory.store.length = 96 ∧ t.regs.stack = [64, 7]
        ∧ t.contract.input.length < 2 ^ 63 ∧ t.contract.code.length < 2 ^ 63
        ∧ (t.evm.statedb.getCode (bytes20 (t.regs.stack.getD 0 0))).1.length < 2 ^ 63 :=
    exists_of_sat (by decide +kernel)
  have hin := (Frame.memorySafe env (Evm.run env 0) OpCode.MSTORE hok ⟨hinput, hcode, hext⟩).1
    ⟨64, 32⟩
  rw [hstack] at hin
  exact ⟨t, hok, hlen, hin (by decide +kernel) (show (32 : Word) ≠ 0 by decide)⟩

/-- Returning nothing from an offset that is negative as a signed number:
the conversion changes the offset, and then it is not used. -/
theorem Frame.prepare_return_negative :
    letI := Keccak.digests
    let env : Env := {}
    let s : Frame :=
      { evm := { statedb := StateDB.newStateDB .empty }
        regs := { stack := [2 ^ 63, 0] }
        contract := { callerAddress := 1, self := 2, code := [0xf3], gas := 100, value := 0 } }
    ∃ t, prepare env (env.jumpTable OpCode.RETURN) s = .ok none t
      ∧ (⟨2 ^ 63, 0⟩ : Range) ∈ (env.jumpTable OpCode.RETURN).execute.ranges t.regs.stack
      ∧ (uint64 (2 ^ 63)).toInt64.toInt = -(2 ^ 63 : ℕ) := by
  let _ := Keccak.digests
  intro env s
  obtain ⟨err, t, hok, rfl, hstack⟩ :
      ∃ err t, prepare env (env.jumpTable OpCode.RETURN) s = .ok err t ∧ err = none
        ∧ t.regs.stack = [2 ^ 63, 0] :=
    exists_of_sat (by decide +kernel)
  refine ⟨t, hok, ?_, by decide +kernel⟩
  rw [hstack]
  decide +kernel

end Safety
