import CardinalEvm.Analysis

/-!
# The bitmap of a code

The bits of immediate data are written one, eight or sixteen at a time,
each write to up to three bytes of the bitmap, and a `PUSH32` at the end
of the code is written out as if all of its data were there. The five
bytes by which the bitmap is longer than an eighth of the code are just
enough for that: a write at `pc` reaches at most four bytes beyond the
one of `pc`, and `pc` is at most the length of the code.
-/

namespace Bitvec

/-- A write at one position that stays inside the bitmap and keeps its
length, if there are `reach` bytes beyond the one it starts in. -/
def Inside (set : Bitvec → Nat → Option Bitvec) (reach : Nat) : Prop :=
  ∀ (bits : Bitvec) (pos : Nat), pos / 8 + reach < bits.length →
    ∃ bits', set bits pos = some bits' ∧ bits'.length = bits.length

theorem length_orAt (bits : Bitvec) (i : Nat) (b : UInt8) (h : i < bits.length) :
    ∃ bits', bits.orAt i b = some bits' ∧ bits'.length = bits.length := by
  unfold orAt
  rw [List.getElem?_eq_getElem h]
  exact ⟨_, rfl, List.length_set⟩

theorem length_putAt (bits : Bitvec) (i : Nat) (b : UInt8) (h : i < bits.length) :
    ∃ bits', bits.putAt i b = some bits' ∧ bits'.length = bits.length := by
  unfold putAt
  rw [if_pos h]
  exact ⟨_, rfl, List.length_set⟩

theorem inside_set1 : Inside set1 0 := fun _ _ h => length_orAt _ _ _ h

theorem inside_setN (n : Nat) : Inside (setN n) 1 := by
  intro bits pos h
  unfold setN
  obtain ⟨bits₁, h₁, hl₁⟩ := length_orAt bits (pos / 8)
    (UInt16.ofNat (2 ^ n - 1) <<< UInt16.ofNat (pos % 8)).toUInt8 (by omega)
  simp only [h₁, Option.bind_eq_bind, Option.bind_some]
  split_ifs
  · obtain ⟨bits₂, h₂, hl₂⟩ := length_putAt bits₁ (pos / 8 + 1)
      ((UInt16.ofNat (2 ^ n - 1) <<< UInt16.ofNat (pos % 8)) >>> 8).toUInt8 (by omega)
    exact ⟨bits₂, h₂, hl₂.trans hl₁⟩
  · exact ⟨bits₁, rfl, hl₁⟩

theorem inside_set8 : Inside set8 1 := by
  intro bits pos h
  unfold set8
  obtain ⟨bits₁, h₁, hl₁⟩ := length_orAt bits (pos / 8)
    (0xFF <<< UInt8.ofNat (pos % 8)) (by omega)
  obtain ⟨bits₂, h₂, hl₂⟩ := length_putAt bits₁ (pos / 8 + 1)
    (~~~(0xFF <<< UInt8.ofNat (pos % 8))) (by omega)
  simp only [h₁, h₂, Option.bind_eq_bind, Option.bind_some]
  exact ⟨bits₂, rfl, hl₂.trans hl₁⟩

theorem inside_set16 : Inside set16 2 := by
  intro bits pos h
  unfold set16
  obtain ⟨bits₁, h₁, hl₁⟩ := length_orAt bits (pos / 8)
    (0xFF <<< UInt8.ofNat (pos % 8)) (by omega)
  obtain ⟨bits₂, h₂, hl₂⟩ := length_putAt bits₁ (pos / 8 + 1) 0xFF (by omega)
  obtain ⟨bits₃, h₃, hl₃⟩ := length_putAt bits₂ (pos / 8 + 2)
    (~~~(0xFF <<< UInt8.ofNat (pos % 8))) (by omega)
  simp only [h₁, h₂, h₃, Option.bind_eq_bind, Option.bind_some]
  exact ⟨bits₃, rfl, (hl₃.trans hl₂).trans hl₁⟩

/-- Writes in a row, the last of which stays inside. -/
theorem Inside.repeatSet {set : Bitvec → Nat → Option Bitvec} {reach : Nat} (h : Inside set reach)
    (width k : Nat) (bits : Bitvec) (pc : Nat)
    (hlast : ∀ j < k, (pc + width * j) / 8 + reach < bits.length) :
    ∃ bits', Bitvec.repeatSet set width k bits pc = some bits' ∧ bits'.length = bits.length := by
  induction k generalizing bits pc with
  | zero => exact ⟨bits, rfl, rfl⟩
  | succ k ih =>
    obtain ⟨bits₁, h₁, hl₁⟩ := h bits pc (by simpa using hlast 0 (Nat.succ_pos k))
    obtain ⟨bits₂, h₂, hl₂⟩ := ih bits₁ (pc + width) (fun j hj => by
      have := hlast (j + 1) (by omega)
      rwa [Nat.mul_succ, Nat.add_comm _ width, ← Nat.add_assoc, ← hl₁] at this)
    refine ⟨bits₂, ?_, hl₂.trans hl₁⟩
    show (set bits pc).bind _ = _
    rw [h₁]
    exact h₂

/-- **The data of a `PUSH` is written inside a bitmap** that goes on four
bytes beyond its first. -/
theorem length_setData {numbits : Nat} (hn : numbits ≤ 32) (bits : Bitvec) (pc : Nat)
    (h : pc / 8 + 4 < bits.length) :
    ∃ bits', bits.setData numbits pc = some bits' ∧ bits'.length = bits.length := by
  unfold setData
  obtain ⟨bits₁, h₁, hl₁⟩ := inside_set16.repeatSet 16 (numbits / 16) bits pc
    (fun j hj => by omega)
  obtain ⟨bits₂, h₂, hl₂⟩ := inside_set8.repeatSet 8 (numbits % 16 / 8) bits₁
    (pc + 16 * (numbits / 16)) (fun j hj => by omega)
  simp only [h₁, h₂, Option.bind_eq_bind, Option.bind_some]
  split
  · exact ⟨bits₂, rfl, hl₂.trans hl₁⟩
  · obtain ⟨bits₃, h₃, hl₃⟩ := inside_set1 bits₂
      (pc + 16 * (numbits / 16) + 8 * (numbits % 16 / 8)) (by omega)
    exact ⟨bits₃, h₃, (hl₃.trans hl₂).trans hl₁⟩
  · rename_i h0 _
    have h0' : numbits % 8 ≠ 0 := h0
    obtain ⟨bits₃, h₃, hl₃⟩ := inside_setN (numbits % 8) bits₂
      (pc + 16 * (numbits / 16) + 8 * (numbits % 16 / 8)) (by omega)
    exact ⟨bits₃, h₃, (hl₃.trans hl₂).trans hl₁⟩

end Bitvec

/-- A `PUSH` has at most 32 bytes of data. -/
theorem push_toNat_le {op : UInt8} (h : ¬ (op < PUSH1 || PUSH32 < op) = true) :
    (op - PUSH1 + 1).toNat ≤ 32 := by
  simp only [Bool.or_eq_true, decide_eq_true_eq, not_or, UInt8.not_lt, UInt8.le_iff_toNat_le] at h
  have hsub : (op - PUSH1).toNat = op.toNat - 96 := UInt8.toNat_sub_of_le op PUSH1 h.1
  have h32 : op.toNat ≤ 127 := h.2
  rw [UInt8.toNat_add, hsub]
  exact (Nat.mod_le _ _).trans (show op.toNat - 96 + 1 ≤ 32 by omega)

/-- Every turn stays inside the bitmap. -/
theorem length_codeBitmapInternal (code : Bytes) (turns pc : Nat) (bits : Bitvec)
    (h : code.length / 8 + 4 < bits.length) :
    ∃ bits', codeBitmapInternal code turns pc bits = some bits' ∧ bits'.length = bits.length := by
  induction turns generalizing pc bits with
  | zero => exact ⟨bits, rfl, rfl⟩
  | succ turns ih =>
    unfold codeBitmapInternal
    cases hop : code[pc]? with
    | none => exact ⟨bits, rfl, rfl⟩
    | some op =>
      have hpc : pc < code.length := (List.getElem?_eq_some_iff.mp hop).1
      dsimp only
      split_ifs with hpush
      · exact ih (pc + 1) bits h
      · obtain ⟨bits₁, h₁, hl₁⟩ :=
          Bitvec.length_setData (push_toNat_le hpush) bits (pc + 1) (by omega)
        obtain ⟨bits₂, h₂, hl₂⟩ := ih (pc + 1 + (op - PUSH1 + 1).toNat) bits₁ (h.trans_eq hl₁.symm)
        rw [h₁]
        exact ⟨bits₂, h₂, hl₂.trans hl₁⟩

/-- **A bitmap is never written outside**, and has a byte for every eight
positions of the code and five to spare. -/
theorem codeBitmap_length (code : Bytes) :
    ∃ bits, codeBitmap code = some bits ∧ bits.length = code.length / 8 + 5 := by
  obtain ⟨bits, h, hl⟩ := length_codeBitmapInternal code code.length 0
    (List.replicate (code.length / 8 + 1 + 4) 0) (by rw [List.length_replicate]; omega)
  exact ⟨bits, h, by rw [hl, List.length_replicate]⟩

/-- So every position of the code can be looked up. -/
theorem Bitvec.codeSegment_isSome (bits : Bitvec) (pos : Nat) (h : pos / 8 < bits.length) :
    (bits.codeSegment pos).isSome := by
  unfold codeSegment
  rw [List.getElem?_eq_getElem h]
  rfl
