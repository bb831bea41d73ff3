import CardinalEvm.CodeBitmap

/-!
# Decoding a code

A code is decoded from left to right: a `PUSH` takes up as many bytes
after its own as it pushes, every other opcode just its own. The
positions at which an instruction begins are the *boundaries* of the
code. The bitmap of a code is a different account of the same thing,
written in groups of one, eight or sixteen bits of which all but the
first byte are assigned and not added to. Nothing is lost by that,
because the bitmap is written from left to right as well: when a group
is written at a position, no bit from there on is set yet.

`codeSegment_codeBitmap` says that the two accounts agree.
-/

/-- How many bytes of immediate data an opcode has. -/
def pushBytes (op : UInt8) : ℕ := if PUSH1 ≤ op ∧ op ≤ PUSH32 then op.toNat - 0x5f else 0

theorem pushBytes_le (op : UInt8) : pushBytes op ≤ 32 := by
  unfold pushBytes
  split_ifs with h
  · have h32 : op.toNat ≤ 127 := UInt8.le_iff_toNat_le.mp h.2
    omega
  · exact Nat.zero_le _

/-- **The boundaries of a code**: where its instructions begin, and where
the last one ends. -/
inductive Boundary (code : Bytes) : ℕ → Prop
  | start : Boundary code 0
  | next {pc : ℕ} {op : UInt8} : Boundary code pc → code[pc]? = some op →
    Boundary code (pc + 1 + pushBytes op)

variable {code : Bytes} {q : ℕ} {op : UInt8}

/-- There is no boundary inside an instruction. -/
theorem Boundary.next_le {pc : ℕ} (hpc : Boundary code pc) (hop : code[pc]? = some op)
    (hq : Boundary code q) (hlt : pc < q) :
    pc + 1 + pushBytes op ≤ q := by
  induction q using Nat.strong_induction_on generalizing pc op with
  | h q ih =>
    cases hq with
    | start => omega
    | @next p op' hp hop' =>
      -- where the instruction that ends at the second boundary begins
      obtain h | rfl | h := Nat.lt_trichotomy pc p
      · exact (ih p (by omega) hpc hop hp h).trans (by omega)
      · rw [Option.some.inj (hop.symm.trans hop')]
      · exact absurd (ih pc hlt hp hop' hpc h) (Nat.not_le.mpr hlt)

theorem pushBytes_of_lt_or_lt (h : (op < PUSH1 || PUSH32 < op) = true) :
    pushBytes op = 0 := by
  unfold pushBytes
  rw [if_neg]
  rintro ⟨h₁, h₂⟩
  rw [Bool.or_eq_true, decide_eq_true_eq, decide_eq_true_eq] at h
  exact h.elim (UInt8.not_lt.mpr h₁) (UInt8.not_lt.mpr h₂)

theorem pushBytes_of_not_lt (h : ¬ (op < PUSH1 || PUSH32 < op) = true) :
    (op - PUSH1 + 1).toNat = pushBytes op := by
  rw [Bool.or_eq_true, decide_eq_true_eq, decide_eq_true_eq, not_or, UInt8.not_lt,
    UInt8.not_lt] at h
  have h₁ : 96 ≤ op.toNat := UInt8.le_iff_toNat_le.mp h.1
  have h₂ : op.toNat ≤ 127 := UInt8.le_iff_toNat_le.mp h.2
  have hsub : (op - PUSH1).toNat = op.toNat - 96 := UInt8.toNat_sub_of_le op PUSH1 h.1
  rw [pushBytes, if_pos h, UInt8.toNat_add, hsub]
  show (op.toNat - 96 + 1) % 256 = op.toNat - 95
  omega

/-! ## Bits -/

namespace Bitvec

/-- The bit of a position. -/
def bit (bits : Bitvec) (pos : ℕ) : Bool := (bits.getD (pos / 8) 0).toNat.testBit (pos % 8)

theorem codeSegment_eq_bit (bits : Bitvec) (pos : ℕ) (h : pos / 8 < bits.length) :
    bits.codeSegment pos = some (!bits.bit pos) := by
  have hbyte : ∀ (b : UInt8), ∀ i < 8, (((b >>> UInt8.ofNat i) &&& 1) == 0)
      = !b.toNat.testBit i := by
    intro b i hi
    have hi' : (UInt8.ofNat i).toNat % 8 = i := by
      rw [UInt8.toNat_ofNat']
      omega
    rw [Bool.eq_iff_iff, beq_iff_eq, ← UInt8.toNat_inj, UInt8.toNat_and, UInt8.toNat_shiftRight,
      hi', Bool.not_eq_true', Nat.testBit_eq_decide_div_mod_eq, decide_eq_false_iff_not,
      Nat.shiftRight_eq_div_pow]
    show _ &&& 1 = 0 ↔ _
    rw [Nat.and_one_is_mod]
    omega
  unfold codeSegment bit
  rw [List.getD_eq_getElem?_getD, List.getElem?_eq_getElem h]
  exact congrArg some (hbyte _ _ (Nat.mod_lt _ (by decide)))

/-- What is written to one byte adds its bits. -/
def Adds (bits : Bitvec) (i : ℕ) (b : UInt8) (bits' : Bitvec) : Prop :=
  ∀ q, bits'.bit q = (bits.bit q || (decide (q / 8 = i) && b.toNat.testBit (q % 8)))

theorem bit_set (bits : Bitvec) (i : ℕ) (b : UInt8) (h : i < bits.length) (q : ℕ) :
    bit (bits.set i b) q = if q / 8 = i then b.toNat.testBit (q % 8) else bits.bit q := by
  unfold bit
  rw [List.getD_eq_getElem?_getD, List.getElem?_set, List.getD_eq_getElem?_getD]
  by_cases hq : q / 8 = i
  · rw [if_pos hq.symm, if_pos h, if_pos hq]
    rfl
  · rw [if_neg (Ne.symm hq), if_neg hq]

variable {bits bits' : Bitvec} {i : ℕ} {b : UInt8}

theorem adds_orAt (h : bits.orAt i b = some bits') :
    bits.Adds i b bits' := by
  intro q
  obtain ⟨x, hx, rfl⟩ := Option.map_eq_some_iff.mp h
  obtain ⟨hi, rfl⟩ := List.getElem?_eq_some_iff.mp hx
  rw [bit_set _ _ _ hi]
  by_cases hq : q / 8 = i
  · subst hq
    rw [if_pos rfl, decide_eq_true rfl, Bool.true_and, UInt8.toNat_or, Nat.testBit_or]
    unfold bit
    rw [List.getD_eq_getElem?_getD, hx]
    rfl
  · rw [if_neg hq, decide_eq_false hq, Bool.false_and, Bool.or_false]

/-- An assignment adds its bits if none of the byte's was set. -/
theorem adds_putAt (h : bits.putAt i b = some bits')
    (hclear : ∀ q, q / 8 = i → bits.bit q = false) : bits.Adds i b bits' := by
  intro q
  unfold putAt at h
  split_ifs at h with hi
  cases h
  rw [bit_set _ _ _ hi]
  by_cases hq : q / 8 = i
  · rw [if_pos hq, hclear q hq, decide_eq_true hq, Bool.true_and, Bool.false_or]
  · rw [if_neg hq, decide_eq_false hq, Bool.false_and, Bool.or_false]

/-- **A write of `width` bits at one position**, as long as no bit from
there on is set. -/
def Marks (set : Bitvec → ℕ → Option Bitvec) (width : ℕ) : Prop :=
  ∀ bits pos bits', set bits pos = some bits' → (∀ q ≥ pos, bits.bit q = false) →
    ∀ q, bits'.bit q = (bits.bit q || decide (pos ≤ q ∧ q < pos + width))

theorem mod_eight_lt (n : ℕ) : n % 8 < 8 := Nat.mod_lt _ (by decide)

/-- The bits of the masks, for every shift. -/
theorem testBit_masks : ∀ r < 8, ∀ k < 8,
    (1 <<< UInt8.ofNat r : UInt8).toNat.testBit k = decide (k = r)
    ∧ (0xFF <<< UInt8.ofNat r : UInt8).toNat.testBit k = decide (r ≤ k)
    ∧ (~~~(0xFF <<< UInt8.ofNat r) : UInt8).toNat.testBit k = decide (k < r) := by
  decide +kernel

/-- The bits of the masks of `setN`. -/
theorem testBit_maskN : ∀ n < 8, ∀ r < 8, ∀ k < 8,
    (UInt16.ofNat (2 ^ n - 1) <<< UInt16.ofNat r).toUInt8.toNat.testBit k
      = decide (r ≤ k ∧ k < r + n)
    ∧ ((UInt16.ofNat (2 ^ n - 1) <<< UInt16.ofNat r) >>> 8).toUInt8.toNat.testBit k
      = decide (8 + k < r + n) := by
  decide +kernel

theorem marks_set1 : Marks set1 1 := by
  intro bits pos bits' h _ q
  rw [adds_orAt h, (testBit_masks _ (mod_eight_lt _) _ (mod_eight_lt _)).1, ← Bool.decide_and]
  congr 2
  exact propext (by omega)

/-- What is added to a byte leaves the others as they were. -/
theorem Adds.bit_of_ne {q : ℕ} (h : bits.Adds i b bits') (hq : q / 8 ≠ i) :
    bits'.bit q = bits.bit q := by
  rw [h, decide_eq_false hq, Bool.false_and, Bool.or_false]

theorem marks_set8 : Marks set8 8 := by
  intro bits pos bits' h hclear q
  obtain ⟨bits₁, h₁, h₂⟩ := Option.bind_eq_some_iff.mp h
  have ha := adds_orAt h₁
  have hp := adds_putAt h₂ fun q hq => (ha.bit_of_ne (by omega)).trans (hclear q (by omega))
  obtain ⟨-, hlow, hhigh⟩ := testBit_masks (pos % 8) (mod_eight_lt _) (q % 8) (mod_eight_lt _)
  rw [hp, ha, hlow, hhigh, Bool.or_assoc, ← Bool.decide_and, ← Bool.decide_and, ← Bool.decide_or]
  congr 2
  exact propext (by omega)

theorem marks_set16 : Marks set16 16 := by
  intro bits pos bits' h hclear q
  obtain ⟨bits₁, h₁, h⟩ := Option.bind_eq_some_iff.mp h
  obtain ⟨bits₂, h₂, h₃⟩ := Option.bind_eq_some_iff.mp h
  have ha := adds_orAt h₁
  have hp := adds_putAt h₂ fun q hq => (ha.bit_of_ne (by omega)).trans (hclear q (by omega))
  have hp' := adds_putAt h₃ fun q hq => (hp.bit_of_ne (by omega)).trans
    ((ha.bit_of_ne (by omega)).trans (hclear q (by omega)))
  have hfull : ∀ k < 8, (0xFF : UInt8).toNat.testBit k = true := by decide
  obtain ⟨-, hlow, hhigh⟩ := testBit_masks (pos % 8) (mod_eight_lt _) (q % 8) (mod_eight_lt _)
  rw [hp', hp, ha, hlow, hhigh, hfull _ (mod_eight_lt _), Bool.or_assoc, Bool.or_assoc,
    Bool.and_true, ← Bool.decide_and, ← Bool.decide_and, ← Bool.decide_or, ← Bool.decide_or]
  congr 2
  exact propext (by omega)

theorem marks_setN {n : ℕ} (hn : n < 8) : Marks (setN n) n := by
  intro bits pos bits' h hclear q
  obtain ⟨bits₁, h₁, h⟩ := Option.bind_eq_some_iff.mp h
  have ha := adds_orAt h₁
  have hmask := fun k hk => testBit_maskN n hn (pos % 8) (mod_eight_lt _) k hk
  -- the second byte is written unless there is nothing to add to it
  have hp : bits₁.Adds (pos / 8 + 1)
      ((UInt16.ofNat (2 ^ n - 1) <<< UInt16.ofNat (pos % 8)) >>> 8).toUInt8 bits' := by
    dsimp only at h
    split_ifs at h with hb
    · exact adds_putAt h fun q hq => (ha.bit_of_ne (by omega)).trans (hclear q (by omega))
    · cases h
      intro q
      rw [not_not.mp hb]
      simp
  have hq := hmask (q % 8) (mod_eight_lt _)
  rw [hp, ha, hq.1, hq.2, Bool.or_assoc, ← Bool.decide_and, ← Bool.decide_and, ← Bool.decide_or]
  congr 2
  exact propext (by omega)

/-- Two writes in a row. -/
theorem Marks.chain {set set' : Bitvec → ℕ → Option Bitvec} {width width' : ℕ}
    (h : Marks set width) (h' : Marks set' width') :
    Marks (fun bits pos => (set bits pos).bind fun bits => set' bits (pos + width))
      (width + width') := by
  intro bits pos bits' hset hclear q
  obtain ⟨bits₁, h₁, h₂⟩ := Option.bind_eq_some_iff.mp hset
  have hbits := h bits pos bits₁ h₁ hclear
  have hclear' : ∀ q ≥ pos + width, bits₁.bit q = false := by
    intro q hq
    rw [hbits, hclear q (by omega), Bool.false_or]
    exact decide_eq_false (by omega)
  rw [h' bits₁ (pos + width) bits' h₂ hclear', hbits, Bool.or_assoc, ← Bool.decide_or]
  congr 2
  exact propext (by omega)

theorem marks_some : Marks (fun bits _ => some bits) 0 := by
  intro bits pos bits' h _ q
  cases h
  rw [decide_eq_false (by omega), Bool.or_false]

/-- A loop of writes. -/
theorem Marks.repeatSet {set : Bitvec → ℕ → Option Bitvec} {width : ℕ} (h : Marks set width)
    (k : ℕ) : Marks (Bitvec.repeatSet set width k) (width * k) := by
  induction k with
  | zero => exact marks_some
  | succ k ih =>
    rw [Nat.mul_succ, Nat.add_comm (width * k)]
    exact h.chain ih

/-- The bits that are left after the groups of eight. -/
def setRest (n : ℕ) (bits : Bitvec) (pc : ℕ) : Option Bitvec :=
  match n with
  | 0 => some bits
  | 1 => bits.set1 pc
  | n => bits.setN n pc

theorem marks_setRest {n : ℕ} (hn : n < 8) : Marks (setRest n) n := by
  unfold setRest
  split
  · exact marks_some
  · exact marks_set1
  · exact marks_setN hn

/-- **The bits of the immediate data are written**, and no others. -/
theorem marks_setData (numbits : ℕ) : Marks (fun bits pos => bits.setData numbits pos) numbits := by
  have hrest : Marks (setRest (numbits % 8)) (numbits % 8) := marks_setRest (mod_eight_lt _)
  have h := (marks_set16.repeatSet (numbits / 16)).chain
    ((marks_set8.repeatSet (numbits % 16 / 8)).chain hrest)
  rwa [show 16 * (numbits / 16) + (8 * (numbits % 16 / 8) + numbits % 8) = numbits by omega] at h

end Bitvec

/-! ## The bitmap -/

open Bitvec

/-- The turns of the analysis: at a boundary, the bits that are set are
those of the immediate data before it. -/
theorem bit_codeBitmapInternal {turns pc : ℕ} {bits bits' : Bitvec} (hpc : Boundary code pc)
    (hturns : code.length ≤ pc + turns)
    (hbits : ∀ q, bits.bit q = true ↔ q < pc ∧ ¬ Boundary code q)
    (h : codeBitmapInternal code turns pc bits = some bits') (hq : q < code.length) :
    bits'.bit q = true ↔ ¬ Boundary code q := by
  have hend : code.length ≤ pc → (bits.bit q = true ↔ ¬ Boundary code q) := fun hle =>
    (hbits q).trans (and_iff_right (hq.trans_le hle))
  induction turns generalizing pc bits with
  | zero =>
    cases h
    exact hend hturns
  | succ turns ih =>
    unfold codeBitmapInternal at h
    cases hop : code[pc]? with
    | none =>
      rw [hop] at h
      cases h
      exact hend (List.getElem?_eq_none_iff.mp hop)
    | some op =>
      rw [hop] at h
      dsimp only at h
      have hnext := hpc.next hop
      split_ifs at h with hpush
      · rw [pushBytes_of_lt_or_lt hpush] at hnext
        have hbits' : ∀ q, bits.bit q = true ↔ q < pc + 1 ∧ ¬ Boundary code q := by
          intro q
          rw [hbits, and_congr_left_iff]
          intro hq
          have : q ≠ pc := fun h => hq (h ▸ hpc)
          omega
        exact ih hnext (by omega) hbits' h (fun hle => (hbits' q).trans
          (and_iff_right (hq.trans_le hle)))
      · rw [pushBytes_of_not_lt hpush] at h
        obtain ⟨bits₁, h₁, h⟩ := Option.bind_eq_some_iff.mp h
        have hclear : ∀ q ≥ pc + 1, bits.bit q = false := fun q hq =>
          Bool.eq_false_iff.mpr fun hb => absurd ((hbits q).mp hb).1 (by omega)
        have hmarks := marks_setData _ bits (pc + 1) bits₁ h₁ hclear
        have hbits' : ∀ q, bits₁.bit q = true ↔
            q < pc + 1 + pushBytes op ∧ ¬ Boundary code q := by
          intro q
          rw [hmarks, Bool.or_eq_true, hbits, decide_eq_true_eq]
          constructor
          · rintro (⟨hlt, hnot⟩ | ⟨hle, hlt⟩)
            · exact ⟨by omega, hnot⟩
            · exact ⟨hlt, fun hb => absurd (hpc.next_le hop hb (by omega)) (Nat.not_le.mpr hlt)⟩
          · rintro ⟨hlt, hnot⟩
            have : q ≠ pc := fun h => hnot (h ▸ hpc)
            by_cases hle : q < pc
            · exact .inl ⟨hle, hnot⟩
            · exact .inr ⟨by omega, hlt⟩
        exact ih hnext (by omega) hbits' h (fun hle => (hbits' q).trans
          (and_iff_right (hq.trans_le hle)))

/-- **The bitmap of a code marks its immediate data**, so the positions
it has as code are the boundaries. -/
theorem codeSegment_codeBitmap {bits : Bitvec} (h : codeBitmap code = some bits)
    (hq : q < code.length) : bits.codeSegment q = some true ↔ Boundary code q := by
  obtain ⟨bits', h', hlen⟩ := codeBitmap_length code
  obtain rfl := Option.some.inj (h'.symm.trans h)
  have hnone : ∀ q, Bitvec.bit (List.replicate (code.length / 8 + 1 + 4) 0) q = true
      ↔ q < 0 ∧ ¬ Boundary code q := by
    intro q
    have hzero : (List.replicate (code.length / 8 + 1 + 4) (0 : UInt8)).getD (q / 8) 0 = 0 := by
      rw [List.getD_eq_getElem?_getD, List.getElem?_replicate]
      split_ifs <;> rfl
    rw [Bitvec.bit, hzero]
    simp
  have hbit := bit_codeBitmapInternal .start (by omega) hnone h hq
  rw [codeSegment_eq_bit _ _ (by omega), Option.some_inj, Bool.not_eq_true', ← Bool.not_eq_true,
    hbit, not_not]

/-- **The bitmap of a code is exact**: it is written only inside, and a
position of the code is one of code exactly if an instruction begins
there. -/
theorem codeBitmap_exact (code : Bytes) :
    ∃ bits, codeBitmap code = some bits ∧ ∀ pos < code.length,
      ∃ answer, bits.codeSegment pos = some answer ∧ (answer = true ↔ Boundary code pos) := by
  obtain ⟨bits, h, hlen⟩ := codeBitmap_length code
  refine ⟨bits, h, fun pos hpos => ?_⟩
  have hsome := Bitvec.codeSegment_isSome bits pos (by omega)
  obtain ⟨answer, hanswer⟩ := Option.isSome_iff_exists.mp hsome
  refine ⟨answer, hanswer, ?_⟩
  rw [← codeSegment_codeBitmap h hpos, hanswer, Option.some_inj]
