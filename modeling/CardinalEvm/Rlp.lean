import CardinalEvm.Types

/-!
# The RLP format

What the package `rlp` reads and writes, said without its buffers: a
value is a byte string or a list of values, and its encoding is a header
that tells the kind and the length of what follows. A byte below `0x80`
is its own encoding, a length below 56 is part of the header's first
byte, and a longer one follows it as a big-endian number without leading
zeros.

Numbers are encoded as the byte string of their digits, again without
leading zeros. That form is **canonical** – a byte string is the digits
of a number exactly if it does not start with a zero – and every check
the decoder makes on a length or an integer is a case of it.
-/

namespace Rlp

/-! ## Numbers without leading zeros -/

/-- `big.Int.BitLen`, of a number that is not negative. -/
def bitLen (n : Nat) : Nat := if n = 0 then 0 else n.log2 + 1

/-- The bytes a number needs. -/
def byteLen (n : Nat) : Nat := (bitLen n + 7) / 8

/-- The big-endian digits of a number, without leading zeros. -/
def digits (n : Nat) : Bytes := toBytes (byteLen n) n

theorem bitLen_le_iff {n k : Nat} : bitLen n ≤ k ↔ n < 2 ^ k := by
  rw [bitLen]
  split
  · next h => subst h; simp
  · next h => rw [Nat.succ_le_iff, Nat.log2_lt h]

theorem byteLen_le_iff {n k : Nat} : byteLen n ≤ k ↔ n < 256 ^ k := by
  rw [show (256 : Nat) ^ k = 2 ^ (8 * k) by rw [pow_mul]; norm_num, ← bitLen_le_iff, byteLen]
  omega

@[simp] theorem length_digits (n : Nat) : (digits n).length = byteLen n := length_toBytes _ _

theorem byteLen_pos {n : Nat} (h : n ≠ 0) : 0 < byteLen n := by
  rw [← not_le, byteLen_le_iff, pow_zero]
  omega

@[simp] theorem beNat_digits (n : Nat) : beNat (digits n) = n := by
  rw [digits, beNat_toBytes, Nat.mod_eq_of_lt (byteLen_le_iff.mp le_rfl)]

theorem beNat_lt (b : Bytes) : beNat b < 256 ^ b.length := by
  induction b with
  | nil => simp [beNat]
  | cons x b ih =>
    have hx : x.toNat + 1 ≤ 256 := x.toNat_lt
    rw [beNat_cons, List.length_cons, pow_succ]
    calc x.toNat * 256 ^ b.length + beNat b
        < x.toNat * 256 ^ b.length + 256 ^ b.length := by omega
      _ = (x.toNat + 1) * 256 ^ b.length := by ring
      _ ≤ 256 * 256 ^ b.length := Nat.mul_le_mul_right _ hx
      _ = 256 ^ b.length * 256 := Nat.mul_comm _ _

/-- A byte string is the digits of the number it denotes, to its own
length. -/
theorem toBytes_beNat (b : Bytes) : toBytes b.length (beNat b) = b := by
  induction b with
  | nil => rfl
  | cons x b ih =>
    have hlt := beNat_lt b
    have hpos : 0 < 256 ^ b.length := Nat.pow_pos (by decide)
    -- the lower digits do not see the first byte
    have hlow :
        toBytes b.length (x.toNat * 256 ^ b.length + beNat b) = toBytes b.length (beNat b) := by
      refine List.map_congr_left fun i hi => ?_
      have hi' : i < b.length := by simpa using hi
      obtain ⟨k, hk⟩ : ∃ k, b.length = i + 1 + k := ⟨b.length - (i + 1), by omega⟩
      have hsplit : x.toNat * 256 ^ b.length + beNat b
          = beNat b + 256 ^ i * (256 * (x.toNat * 256 ^ k)) := by
        rw [hk]; ring
      rw [hsplit, Nat.add_mul_div_left _ _ (Nat.pow_pos (by decide) : 0 < 256 ^ i)]
      apply UInt8.toNat.inj
      simp [UInt8.toNat_ofNat']
    rw [List.length_cons, toBytes_succ, beNat_cons, hlow, ih, Nat.add_comm,
      Nat.add_mul_div_right _ _ hpos, Nat.div_eq_of_lt hlt, Nat.zero_add, UInt8.ofNat_toNat]

/-- **The digits of a number do not start with a zero.** -/
theorem head?_digits (n : Nat) : (digits n).head? ≠ some 0 := by
  intro h
  cases hd : digits n with
  | nil => rw [hd] at h; cases h
  | cons x b =>
    rw [hd, List.head?_cons, Option.some.injEq] at h
    subst h
    have hn : n = beNat b := by
      rw [← beNat_digits n, hd, beNat_cons]
      simp
    have hlen : b.length + 1 = byteLen n := by rw [← length_digits, hd, List.length_cons]
    have := byteLen_le_iff.mpr (hn ▸ beNat_lt b)
    omega

/-- **A byte string that does not start with a zero is the digits of a
number.** -/
theorem digits_beNat {b : Bytes} (h : b.head? ≠ some 0) : digits (beNat b) = b := by
  suffices byteLen (beNat b) = b.length by rw [digits, this, toBytes_beNat]
  apply Nat.le_antisymm (byteLen_le_iff.mpr (beNat_lt b))
  cases b with
  | nil => exact Nat.zero_le _
  | cons x b =>
    have hx : 1 ≤ x.toNat := by
      rw [Nat.one_le_iff_ne_zero]
      intro hx
      exact h (congrArg some (UInt8.toNat.inj hx))
    rw [List.length_cons, Nat.succ_le_iff, ← not_le, byteLen_le_iff, beNat_cons, not_lt]
    calc 256 ^ b.length = 1 * 256 ^ b.length := (Nat.one_mul _).symm
      _ ≤ x.toNat * 256 ^ b.length := Nat.mul_le_mul_right _ hx
      _ ≤ _ := Nat.le_add_right _ _

/-! ## Headers -/

/-- **The header of a string or a list**, from the first byte of the
short form and that of the long one. -/
def header (small large : UInt8) (n : Nat) : Bytes :=
  if n < 56 then [small + UInt8.ofNat n]
  else (large + UInt8.ofNat (byteLen n)) :: digits n

theorem header_ne_nil (small large : UInt8) (n : Nat) : header small large n ≠ [] := by
  rw [header]
  split <;> exact List.cons_ne_nil _ _

theorem length_header_pos (small large : UInt8) (n : Nat) : 0 < (header small large n).length :=
  List.length_pos_of_ne_nil (header_ne_nil _ _ _)

/-- The encoding of a byte string. -/
def string : Bytes → Bytes
  | [x] => if x ≤ 0x7F then [x] else header 0x80 0xB7 1 ++ [x]
  | b => header 0x80 0xB7 b.length ++ b

/-- The encoding of a list, of the encodings of its elements one after
the other. -/
def list (content : Bytes) : Bytes := header 0xC0 0xF7 content.length ++ content

/-- The encoding of a number. -/
def uint (n : Nat) : Bytes := string (digits n)

theorem string_ne_nil (b : Bytes) : string b ≠ [] := by
  rw [string.eq_def]
  split
  · split
    · exact List.cons_ne_nil _ _
    · exact fun h => header_ne_nil _ _ _ (List.append_eq_nil_iff.mp h).1
  · exact fun h => header_ne_nil _ _ _ (List.append_eq_nil_iff.mp h).1

theorem list_ne_nil (b : Bytes) : list b ≠ [] :=
  fun h => header_ne_nil _ _ _ (List.append_eq_nil_iff.mp h).1

theorem string_byte {x : UInt8} (h : x ≤ 0x7F) : string [x] = [x] := if_pos h

/-- A string that is not one small byte has a header. -/
theorem string_of_ne {b : Bytes} (h : ∀ x, b = [x] → 0x7F < x) :
    string b = header 0x80 0xB7 b.length ++ b := by
  rw [string.eq_def]
  split
  · next x => rw [if_neg (UInt8.not_le.mpr (h x rfl))]; rfl
  · rfl

/-! ## Values -/

/-- **An RLP value**: what an empty interface holds after decoding, a
`[]byte` or an `[]interface{}`. -/
inductive Item where
  | string (b : Bytes)
  | list (items : List Item)

mutual

/-- The encoding of a value. -/
def Item.encode : Item → Bytes
  | .string b => Rlp.string b
  | .list items => Rlp.list (encodeAll items)

/-- The encodings of some values, one after the other. -/
def Item.encodeAll : List Item → Bytes
  | [] => []
  | x :: items => x.encode ++ encodeAll items

end

theorem Item.encodeAll_eq (items : List Item) : encodeAll items = items.flatMap encode := by
  induction items with
  | nil => rw [encodeAll, List.flatMap_nil]
  | cons x items ih => rw [encodeAll, List.flatMap_cons, ih]

theorem Item.encode_ne_nil (x : Item) : x.encode ≠ [] := by
  cases x with
  | string b => rw [encode]; exact string_ne_nil b
  | list items => rw [encode]; exact list_ne_nil _

end Rlp
