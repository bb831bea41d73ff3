import CardinalEvm.RlpReaders
import CardinalEvm.RlpWriting

/-!
# Integers

An integer is the string of its bytes, the first of which is not zero.
There are four writers of integers, two of which put the bytes of several
words in their places, and four readers. They agree on the one encoding:
what one writes the others write, and what they read is nothing else
(`integers_canonical`).
-/

namespace Rlp

/-- `AppendUint64`. -/
def appendUint64 (b : Bytes) (i : UInt64) : Bytes :=
  if i = 0 then b ++ [0x80]
  else if i < 128 then b ++ [i.toUInt8]
  else if i.toNat < 2 ^ 8 then b ++ 0x81 :: toBytes 1 i.toNat
  else if i.toNat < 2 ^ 16 then b ++ 0x82 :: toBytes 2 i.toNat
  else if i.toNat < 2 ^ 24 then b ++ 0x83 :: toBytes 3 i.toNat
  else if i.toNat < 2 ^ 32 then b ++ 0x84 :: toBytes 4 i.toNat
  else if i.toNat < 2 ^ 40 then b ++ 0x85 :: toBytes 5 i.toNat
  else if i.toNat < 2 ^ 48 then b ++ 0x86 :: toBytes 6 i.toNat
  else if i.toNat < 2 ^ 56 then b ++ 0x87 :: toBytes 7 i.toNat
  else b ++ 0x88 :: toBytes 8 i.toNat

/-- `IntSize`. -/
def intSize (x : UInt64) : ℕ := if x < 0x80 then 1 else 1 + intsize x

/-- The cases of `SplitUint64`, on the content of the string. -/
def uintOf : Bytes → Except Err UInt64
  | [] => .ok 0
  | [x] => if x = 0 then .error .canonInt else .ok x.toUInt64
  | content =>
    if 8 < content.length then .error .uintOverflow
    else (readSize content (UInt8.ofNat content.length)).mapError fun _ => .canonInt

/-- `SplitUint64`. -/
def splitUint64 (b : Bytes) : Except Err (UInt64 × Bytes) := do
  let (content, rest) ← splitString b
  return (← uintOf content, rest)

/-! ## The readers -/

theorem readSize_content {content : Bytes} (hlen : 2 ≤ content.length) (hle : content.length ≤ 8) :
    readSize content (UInt8.ofNat content.length)
      = if content.head? = some 0 then .error .canonSize
        else .ok (UInt64.ofNat (beNat content)) := by
  have htoNat : (UInt8.ofNat content.length).toNat = content.length :=
    UInt8.toNat_ofNat_of_lt' (show content.length < 256 by omega)
  rw [readSize, htoNat, if_neg (lt_irrefl _), List.take_length]
  by_cases hzero : content.head? = some 0
  · rw [if_pos hzero]
    exact if_pos (.inr hzero)
  · have hbytes : byteLen (beNat content) = content.length := by
      rw [← length_digits, digits_beNat hzero]
    have hbig : ¬ UInt64.ofNat (beNat content) < 56 := by
      rw [UInt64.lt_iff_toNat_lt, Stream.toNat_beNat hle]
      intro hlt
      have := byteLen_le_iff (n := beNat content) (k := 1).mpr (hlt.trans (by decide))
      omega
    rw [if_neg hzero]
    exact if_neg (not_or.mpr ⟨hbig, hzero⟩)

/-- **An integer is read from its digits only.** -/
theorem uintOf_eq_ok {content : Bytes} {x : UInt64} :
    uintOf content = .ok x ↔ content = digits x.toNat := by
  suffices h : uintOf content = .ok x
      ↔ content.head? ≠ some 0 ∧ content.length ≤ 8 ∧ UInt64.ofNat (beNat content) = x by
    rw [h]
    constructor
    · rintro ⟨hzero, hle, rfl⟩
      rw [Stream.toNat_beNat hle, digits_beNat hzero]
    · rintro rfl
      refine ⟨head?_digits _, ?_, ?_⟩
      · rw [length_digits]
        exact Stream.byteLen_le_eight x.toNat_lt
      · rw [beNat_digits, UInt64.ofNat_toNat]
  match content with
  | [] => exact ⟨fun h => ⟨nofun, Nat.zero_le _, Except.ok.inj h⟩, fun h => congrArg _ h.2.2⟩
  | [y] =>
    rw [uintOf, Stream.toUInt64_eq, Stream.beNat_byte]
    by_cases hy : y = 0 <;> simp [hy]
  | y :: y' :: l =>
    rw [uintOf]
    · by_cases hle : (y :: y' :: l).length ≤ 8
      · rw [if_neg (not_lt.mpr hle), readSize_content (by simp) hle]
        by_cases hzero : (y :: y' :: l).head? = some 0
        · rw [if_pos hzero]
          exact ⟨nofun, fun h => absurd hzero h.1⟩
        · rw [if_neg hzero]
          exact ⟨fun h => ⟨hzero, hle, Except.ok.inj h⟩, fun h => congrArg _ h.2.2⟩
      · rw [if_pos (not_le.mp hle)]
        exact ⟨nofun, fun h => absurd h.2.1 hle⟩
    · exact nofun
    · exact fun _ => nofun

theorem splitUint64_eq_ok {b rest : Bytes} (hb : b.length < 2 ^ 63) {x : UInt64} :
    splitUint64 b = .ok (x, rest) ↔ b = uint x.toNat ++ rest := by
  rw [splitUint64, exceptBind_eq_ok]
  constructor
  · rintro ⟨⟨content, rest'⟩, hsplit, h⟩
    obtain ⟨y, hy, h⟩ := exceptBind_eq_ok.mp h
    cases h
    rw [(splitString_eq_ok hb).mp hsplit, uintOf_eq_ok.mp hy, uint]
  · intro h
    refine ⟨(digits x.toNat, rest), (splitString_eq_ok hb).mpr h, ?_⟩
    exact exceptBind_eq_ok.mpr ⟨x, uintOf_eq_ok.mpr rfl, rfl⟩

theorem appendUint64_eq (b : Bytes) (i : UInt64) : appendUint64 b i = b ++ uint i.toNat := by
  rw [Writes.uint_toNat]
  unfold appendUint64 putint
  split_ifs <;> rfl

theorem intSize_eq (x : UInt64) : intSize x = (uint x.toNat).length := by
  rw [Writes.uint_toNat, intSize]
  by_cases h0 : x = 0
  · subst h0
    rfl
  · rw [if_neg h0]
    by_cases hlt : x < 128
    · rw [if_pos hlt, if_pos hlt]
      rfl
    · have hsize := intsizeFrom_eq 8 x 1 h0 (Stream.byteLen_le_eight x.toNat_lt)
      rw [if_neg hlt, if_neg hlt, List.length_cons, putint_eq h0, length_digits, intsize]
      omega

/-- **Integers have one encoding.** Its bytes are those of the integer,
without a leading zero. Every writer writes it, the loops and arrays of
the writers hold its bytes, and every reader reads the integer from it
and from nothing else. -/
theorem integers_canonical :
    (∀ n, beNat (digits n) = n ∧ (digits n).head? ≠ some 0 ∧ uint n = string (digits n))
      ∧ (∀ (b : Bytes) (x : UInt64), appendUint64 b x = b ++ uint x.toNat
        ∧ intSize x = (uint x.toNat).length)
      ∧ (∀ x : UInt64, Writes (EncBuffer.writeUint64 x) (uint x.toNat))
      ∧ (∀ n, Writes (EncBuffer.writeBigInt n) (uint n)
        ∧ putWords (byteLen n) n = toBytes (byteLen n) n)
      ∧ (∀ z : Word, Writes (EncBuffer.writeUint256 z) (uint z.toNat)
        ∧ putLimbs (byteLen z.toNat) z
          = (0x80 + UInt8.ofNat (byteLen z.toNat)) :: toBytes (byteLen z.toNat) z.toNat)
      ∧ (∀ b : Bytes, b.length < 2 ^ 63 → ∀ x rest,
        splitUint64 b = .ok (x, rest) ↔ b = uint x.toNat ++ rest)
      ∧ Codec (Stream.uint 64) (fun x => uint x.toNat) (fun _ => True)
      ∧ Codec Stream.bigInt uint (fun _ => True)
      ∧ Codec Stream.uint256 uint (fun n => n < 2 ^ 256) := by
  refine ⟨fun n => ⟨beNat_digits n, head?_digits n, rfl⟩,
    fun b x => ⟨appendUint64_eq b x, intSize_eq x⟩, .uint64,
    fun n => ⟨.bigInt n, putWords_eq _ n⟩, fun z => ⟨.uint256 z, putLimbs_eq ?_ z⟩,
    fun b hb x rest => splitUint64_eq_ok hb, ?_, ?_, ?_⟩
  · exact byteLen_le_iff.mpr (z.isLt.trans_eq (by norm_num))
  · refine (Stream.codec_uint ⟨by decide, by decide, by decide⟩).congr fun x => ?_
    exact iff_of_true x.toNat_lt trivial
  · have hnone {P : UInt64 → Prop} : ∀ m ∈ (none : Option UInt64), P m := fun m hm => by cases hm
    exact (Stream.codec_integer none hnone).congr fun _ => iff_of_true hnone trivial
  · refine (Stream.codec_integer (some 32) (by rintro _ ⟨⟩; decide)).congr fun n => ?_
    rw [show (2 : ℕ) ^ 256 = 256 ^ 32 by norm_num, ← byteLen_le_iff]
    simp

end Rlp
