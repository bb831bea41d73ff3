import CardinalEvm.RlpStream
import CardinalEvm.Effect

/-!
# What the stream's operations take

For every operation of the stream that reads a value, two statements: if
it returns, the bytes it took are the encoding of what it returned
(`sat_…`), and where an encoding is ahead it returns what is encoded
(`…_ahead`). The first needs none of the decoder's checks against the
sizes of lists: what was taken is subtracted modulo `2 ^ 64` from the
size of the innermost list, and since no input is that long, a size that
ends at zero was the number of bytes taken.
-/

open UInt64

namespace Rlp

/-! ## Bytes taken, and bytes ahead -/

theorem sub_sub (a b c : UInt64) : a - b - c = a - (b + c) := by
  grind

@[simp] theorem takeOff_zero (stack : List UInt64) : takeOff 0 stack = stack := by
  cases stack with
  | nil => rfl
  | cons limit outer => rw [takeOff, UInt64.sub_zero]

theorem takeOff_takeOff (m n : Nat) (stack : List UInt64) :
    takeOff (UInt64.ofNat n) (takeOff (UInt64.ofNat m) stack)
      = takeOff (ofNat (m + n)) stack := by
  cases stack with
  | nil => rfl
  | cons limit outer => rw [takeOff, takeOff, takeOff, ofNat_add, sub_sub]

/-- **The bytes between two states**: they were read from the input,
and taken off the innermost list and the input's limit. -/
structure Took (s s' : Stream) (b : Bytes) : Prop where
  input : s.input = b ++ s'.input
  stack : s'.stack = takeOff (ofNat b.length) s.stack
  limited : s'.limited = s.limited
  remaining : s.limited = true → s'.remaining = s.remaining - ofNat b.length

/-- The limit is the length of the input, which is less than `2 ^ 63`. -/
structure Sane (s : Stream) : Prop where
  length_lt : s.input.length < 2 ^ 63
  remaining : s.limited = true → s.remaining = ofNat s.input.length

/-- The stream stands before a value. -/
structure Ready (s : Stream) : Prop extends Sane s where
  kind : s.kind = none

/-- **The bytes ahead**: they come next in the input, and the innermost
list has room for them. -/
structure Ahead (s : Stream) (b : Bytes) : Prop where
  isPrefix : b <+: s.input
  room : ∀ limit ∈ s.listLimit, b.length ≤ limit.toNat

namespace Took

variable {s s' s'' : Stream} {b b' : Bytes}

theorem refl (s : Stream) : Took s s [] where
  input := rfl
  stack := (takeOff_zero _).symm
  limited := rfl
  remaining _ := (UInt64.sub_zero _).symm

theorem trans (h : Took s s' b) (h' : Took s' s'' b') : Took s s'' (b ++ b') where
  input := by rw [h.input, h'.input, List.append_assoc]
  stack := by rw [h'.stack, h.stack, takeOff_takeOff, List.length_append]
  limited := h'.limited.trans h.limited
  remaining hl := by
    rw [h'.remaining (h.limited.trans hl), h.remaining hl, List.length_append, ofNat_add,
      sub_sub]

theorem rearm (h : Took s s' b) : Took s s'.rearm b := ⟨h.input, h.stack, h.limited, h.remaining⟩

theorem length_eq (h : Took s s' b) : s.input.length = b.length + s'.input.length := by
  rw [h.input, List.length_append]

theorem sane (h : Took s s' b) (hs : Sane s) : Sane s' where
  length_lt := by have := hs.length_lt; have := h.length_eq; omega
  remaining hl := by
    have hl' := h.limited ▸ hl
    rw [h.remaining hl', hs.remaining hl', h.length_eq, UInt64.ofNat_add, UInt64.add_comm,
      UInt64.add_sub_cancel]

/-- The bytes taken are shorter than `2 ^ 63`. -/
theorem length_lt (h : Took s s' b) (hs : Sane s) : b.length < 2 ^ 63 := by
  have := hs.length_lt
  have := h.length_eq
  omega

end Took

namespace Ahead

variable {s s' : Stream} {b b' : Bytes}

theorem left (h : Ahead s (b ++ b')) : Ahead s b where
  isPrefix := (List.prefix_append _ _).trans h.isPrefix
  room limit hl := by
    have := h.room limit hl
    rw [List.length_append] at this
    omega

/-- What is left ahead once the first bytes are taken. -/
theorem right (h : Ahead s (b ++ b')) (ht : Took s s' b) : Ahead s' b' where
  isPrefix := by
    have hp := h.isPrefix
    rw [ht.input, List.prefix_append_right_inj] at hp
    exact hp
  room limit hl := by
    rw [Stream.listLimit, ht.stack] at hl
    cases hst : s.stack with
    | nil => rw [hst] at hl; cases hl
    | cons limit' outer =>
      rw [hst] at hl
      cases hl
      have hroom := h.room limit' (by rw [Stream.listLimit, hst]; rfl)
      rw [List.length_append] at hroom
      have hlt := limit'.toNat_lt
      have hb : (UInt64.ofNat b.length).toNat = b.length :=
        UInt64.toNat_ofNat_of_lt' (show b.length < 18446744073709551616 by omega)
      rw [UInt64.toNat_sub_of_le _ _ (UInt64.le_iff_toNat_le.mpr (by omega)), hb]
      omega

/-- Bytes of the same length that were taken are those that were ahead. -/
theorem eq_of_took (h : Ahead s b) (ht : Took s s' b') (hlen : b'.length = b.length) : b' = b := by
  have hp := h.isPrefix
  rw [ht.input] at hp
  exact (List.prefix_of_prefix_length_le (List.prefix_append b' s'.input) hp hlen.le).eq_of_length
    hlen

theorem length_lt (h : Ahead s b) (hs : Sane s) : b.length < 2 ^ 63 :=
  h.isPrefix.length_le.trans_lt hs.length_lt

/-- At the end of a list nothing is ahead. -/
theorem listLimit_ne (h : Ahead s b) (hb : b ≠ []) : s.listLimit ≠ some 0 := by
  intro hl
  have hroom : b.length ≤ 0 := h.room 0 hl
  exact hb (List.eq_nil_of_length_eq_zero (Nat.le_zero.mp hroom))

end Ahead

/-- **Bytes ahead that the limit of the input leaves room for** as well,
so that they can be read. -/
structure Offers (s : Stream) (b : Bytes) : Prop extends Ahead s b where
  input : s.limited = true → b.length ≤ s.remaining.toNat

/-- Where the limit is the length of the input it leaves room for what is
ahead. -/
theorem Ahead.offers {s : Stream} {b : Bytes} (h : Ahead s b) (hs : Sane s) : Offers s b := by
  refine ⟨h, fun hl => ?_⟩
  have hlt := hs.length_lt
  rw [hs.remaining hl,
    toNat_ofNat_of_lt' (show s.input.length < 18446744073709551616 by omega)]
  exact h.isPrefix.length_le

/-- What is left of the offer once the first bytes are taken. -/
theorem Offers.right {s s' : Stream} {b b' : Bytes} (h : Offers s (b ++ b')) (ht : Took s s' b) :
    Offers s' b' := by
  refine ⟨h.toAhead.right ht, fun hl => ?_⟩
  have hl' := ht.limited ▸ hl
  have hroom := h.input hl'
  rw [List.length_append] at hroom
  have hlt := s.remaining.toNat_lt
  have hb : (UInt64.ofNat b.length).toNat = b.length :=
    UInt64.toNat_ofNat_of_lt' (show b.length < 18446744073709551616 by omega)
  rw [ht.remaining hl', UInt64.toNat_sub_of_le _ _ (UInt64.le_iff_toNat_le.mpr (by omega)), hb]
  omega

/-! ## Raw reads -/

namespace Stream

/-- The limits have room for a read. -/
def Fits (s : Stream) (n : UInt64) : Prop :=
  (∀ limit ∈ s.listLimit, n ≤ limit) ∧ (s.limited = true → n ≤ s.remaining)

/-- The state after a read, before anything is read. -/
def advance (s : Stream) (n : UInt64) : Stream :=
  { s with
    kind := none
    stack := takeOff n s.stack
    remaining := if s.limited then s.remaining - n else s.remaining }

variable {s : Stream} {n : UInt64}

theorem limitList_of_le (h : ∀ limit ∈ s.listLimit, n ≤ limit) :
    limitList n s = .ok () { s with stack := takeOff n s.stack } := by
  unfold limitList
  cases hl : s.listLimit with
  | none =>
    have hst : s.stack = [] := List.head?_eq_none_iff.mp hl
    simp only [hst, takeOff]
    rw [← hst]
  | some limit => exact if_neg (UInt64.not_lt.mpr (h limit hl))

theorem limitList_of_not_le (h : ¬ ∀ limit ∈ s.listLimit, n ≤ limit) :
    limitList n s = .error .elemTooLarge s := by
  push Not at h
  obtain ⟨limit, hl, hlt⟩ := h
  unfold limitList
  rw [hl]
  exact if_pos (UInt64.not_le.mp hlt)

theorem limitInput_of_le (h : s.limited = true → n ≤ s.remaining) :
    limitInput n s
      = .ok () { s with remaining := if s.limited then s.remaining - n else s.remaining } := by
  unfold limitInput
  by_cases hl : s.limited = true
  · rw [if_pos hl, if_pos hl, if_neg (UInt64.not_lt.mpr (h hl))]
  · rw [if_neg hl, if_neg hl]

theorem limitInput_of_not_le (h : ¬ (s.limited = true → n ≤ s.remaining)) :
    limitInput n s = .error .valueTooLarge s := by
  obtain ⟨hl, hlt⟩ := Classical.not_imp.mp h
  unfold limitInput
  rw [if_pos hl, if_pos (UInt64.not_le.mp hlt)]

theorem willRead_of_fits (h : s.Fits n) : willRead n s = .ok () (s.advance n) := by
  have hlist : limitList n s.rearm = .ok () { s.rearm with stack := takeOff n s.stack } :=
    limitList_of_le h.1
  have hinput := limitInput_of_le (s := { s.rearm with stack := takeOff n s.stack }) h.2
  show EStateM.bind (limitList n) (fun _ => limitInput n) s.rearm = _
  rw [EStateM.bind, hlist]
  exact hinput

theorem willRead_of_not_fits (h : ¬ s.Fits n) : ∃ e s', e ≠ .eol ∧ willRead n s = .error e s' := by
  show ∃ e s', e ≠ .eol ∧ EStateM.bind (limitList n) (fun _ => limitInput n) s.rearm = .error e s'
  rw [EStateM.bind]
  by_cases hlist : ∀ limit ∈ s.listLimit, n ≤ limit
  · rw [limitList_of_le (s := s.rearm) hlist]
    refine ⟨_, _, ?_, limitInput_of_not_le fun hinput => h ⟨hlist, hinput⟩⟩
    decide
  · rw [limitList_of_not_le (s := s.rearm) hlist]
    exact ⟨_, _, by decide, rfl⟩

/-- The state after a read that took the given bytes off its input. -/
theorem took_advance {b rest : Bytes} (hinput : s.input = b ++ rest) (hlen : b.length = n.toNat) :
    Took s { s.advance n with input := rest } b := by
  have hn : UInt64.ofNat b.length = n := by rw [hlen, UInt64.ofNat_toNat]
  refine ⟨hinput, ?_, rfl, fun hl => ?_⟩
  · rw [hn]; rfl
  · rw [hn]; exact if_pos hl

/-- Bytes on offer can be read. -/
theorem fits_of_offers {b : Bytes} (h : Offers s b) (hlen : n.toNat ≤ b.length) : s.Fits n := by
  refine ⟨fun limit hl => ?_, fun hl => ?_⟩
  · exact le_iff_toNat_le.mpr (hlen.trans (h.room limit hl))
  · exact le_iff_toNat_le.mpr (hlen.trans (h.input hl))

theorem sat_readFull (n : UInt64) :
    Sat (readFull n) s (fun b s' => b.length = n.toNat ∧ Took s s' b ∧ s'.kind = none)
      (fun e _ => e ≠ .eol) := by
  unfold readFull
  rw [sat_bind]
  by_cases hf : s.Fits n
  · refine Sat.returns (willRead_of_fits hf) ?_
    simp only [sat_bind, sat_get, sat_modify]
    refine Sat.ite (fun _ => ?_) (fun hlen => ?_)
    · exact Err.noConfusion
    · have htake : (s.input.take n.toNat).length = n.toNat :=
        List.length_take_of_le (not_lt.mp hlen)
      exact ⟨htake, took_advance (List.take_append_drop _ _).symm htake, rfl⟩
  · obtain ⟨e, s', he, hw⟩ := willRead_of_not_fits hf
    exact Sat.stops hw he

theorem readFull_ahead {b : Bytes} (h : Offers s b) (hlen : b.length = n.toNat) :
    Sat (readFull n) s (fun b' _ => b' = b) (fun _ _ => False) := by
  unfold readFull
  rw [sat_bind]
  refine Sat.returns (willRead_of_fits (fits_of_offers h hlen.ge)) ?_
  simp only [sat_bind, sat_get, sat_modify]
  obtain ⟨rest, hrest⟩ := h.isPrefix
  refine Sat.ite (fun hlt => ?_) (fun _ => ?_)
  · have := h.isPrefix.length_le
    exact absurd hlt (by show ¬ s.input.length < _; omega)
  · show s.input.take n.toNat = b
    rw [← hrest, ← hlen, List.take_left]

theorem sat_readByte :
    Sat readByte s (fun x s' => Took s s' [x] ∧ s'.kind = none) (fun e _ => e ≠ .eol) := by
  unfold readByte
  rw [sat_bind]
  by_cases hf : s.Fits 1
  · refine Sat.returns (willRead_of_fits hf) ?_
    rw [sat_bind, sat_get]
    cases hi : s.input with
    | nil =>
      rw [show (s.advance 1).input = [] from hi]
      exact Err.noConfusion
    | cons x rest =>
      rw [show (s.advance 1).input = x :: rest from hi]
      exact ⟨took_advance (b := [x]) hi rfl, rfl⟩
  · obtain ⟨e, s', he, hw⟩ := willRead_of_not_fits hf
    exact Sat.stops hw he

variable {b x small large : UInt8} {k : Kind} {size : UInt64} {s' : Stream}

theorem readByte_ahead {b : Bytes} (h : Offers s (x :: b)) :
    Sat readByte s (fun x' _ => x' = x) (fun _ _ => False) := by
  obtain ⟨rest, hrest⟩ := h.isPrefix
  have hfits : s.Fits 1 := fits_of_offers h (Nat.succ_le_succ (Nat.zero_le _))
  unfold readByte
  rw [sat_bind]
  refine Sat.returns (willRead_of_fits hfits) ?_
  rw [sat_bind, sat_get, show (s.advance 1).input = x :: (b ++ rest) from hrest.symm]
  exact rfl

theorem beNat_lt_of_length_le {b : Bytes} (h : b.length ≤ 8) : beNat b < 18446744073709551616 :=
  calc beNat b < 256 ^ b.length := beNat_lt b
    _ ≤ 256 ^ 8 := Nat.pow_le_pow_right (by decide) h

theorem toNat_beNat {b : Bytes} (h : b.length ≤ 8) : (ofNat (beNat b)).toNat = beNat b :=
  toNat_ofNat_of_lt' (beNat_lt_of_length_le h)

theorem beNat_byte (x : UInt8) : beNat [x] = x.toNat := by
  simp [beNat]

theorem toUInt64_eq (x : UInt8) : x.toUInt64 = ofNat x.toNat :=
  toNat.inj ((UInt8.toNat_toUInt64 x).trans
    (toNat_ofNat_of_lt' (x.toNat_lt.trans (by decide))).symm)

theorem byte_le_iff : x ≤ 0x7F ↔ x < 0x80 := by
  rw [UInt8.le_iff_toNat_le, UInt8.lt_iff_toNat_lt]
  exact Nat.lt_succ_iff.symm

theorem sat_readUint {k : UInt8} (hpos : k ≠ 0) (hk : k ≤ 8) :
    Sat (readUint k) s
      (fun v s' => ∃ b, b.length = k.toNat ∧ Took s s' b ∧ s'.kind = none ∧ v.toNat = beNat b ∧
        (k ≠ 1 → b.head? ≠ some 0))
      (fun e _ => e ≠ .eol) := by
  unfold readUint
  rw [if_neg hpos]
  refine Sat.ite (fun h1 => ?_) (fun h1 => ?_)
  · subst h1
    refine sat_readByte.next fun x s' ⟨ht, hkind⟩ => ?_
    exact ⟨[x], rfl, ht, hkind, (UInt8.toNat_toUInt64 x).trans (beNat_byte x).symm,
      fun h => absurd rfl h⟩
  · refine (sat_readFull _).next fun b s' ⟨hlen, ht, hkind⟩ => ?_
    rw [UInt8.toNat_toUInt64] at hlen
    refine Sat.ite (fun _ => ?_) (fun hzero => ?_)
    · exact Err.noConfusion
    · exact ⟨b, hlen, ht, hkind, toNat_beNat (hlen.trans_le (UInt8.le_iff_toNat_le.mp hk)),
        fun _ => hzero⟩

theorem readUint_ahead {k : UInt8} {b : Bytes} (h : Offers s b)
    (hlen : b.length = k.toNat) (hpos : k ≠ 0) (hzero : b.head? ≠ some 0) :
    Sat (readUint k) s (fun v _ => v = ofNat (beNat b)) (fun _ _ => False) := by
  unfold readUint
  rw [if_neg hpos]
  refine Sat.ite (fun h1 => ?_) (fun h1 => ?_)
  · subst h1
    obtain ⟨x, rfl⟩ := List.length_eq_one_iff.mp hlen
    refine (readByte_ahead h).next fun x' s' hx => ?_
    subst hx
    rw [beNat_byte]
    exact toUInt64_eq x'
  · refine (readFull_ahead h (hlen.trans (UInt8.toNat_toUInt64 k).symm)).next fun b' s' hb => ?_
    subst hb
    exact Sat.ite (fun h0 => absurd h0 hzero) (fun _ => rfl)

/-! ## Headers -/

/-- The header of a value of the given kind and size; that of a byte is
the byte. -/
def head (k : Kind) (size : Nat) (x : UInt8) : Bytes :=
  match k with
  | .byte => [x]
  | .string => header 0x80 0xB7 size
  | .list => header 0xC0 0xF7 size

theorem header_of_lt {n : Nat} (h : n < 56) :
    header small large n = [small + UInt8.ofNat n] := if_pos h

theorem header_of_le {n : Nat} (h : 56 ≤ n) :
    header small large n = (large + UInt8.ofNat (byteLen n)) :: digits n := if_neg (not_lt.mpr h)

/-- A short header is its first byte. -/
theorem header_short (h : (b - small).toNat < 56) :
    header small large (b - small).toNat = [b] := by
  rw [header_of_lt h, UInt8.ofNat_toNat, UInt8.add_comm, UInt8.sub_add_cancel]

/-- A long header is its first byte and the digits it announces. -/
theorem header_long {bs : Bytes} (hlen : bs.length = (b - large).toNat) (hzero : bs.head? ≠ some 0)
    (h : 56 ≤ beNat bs) :
    header small large (beNat bs) = b :: bs := by
  rw [header_of_le h, ← length_digits, digits_beNat hzero, hlen, UInt8.ofNat_toNat,
    UInt8.add_comm, UInt8.sub_add_cancel]

/-- The first byte of a long header announces one to eight digits. -/
theorem byteLen_le_eight {n : Nat} (h : n < 2 ^ 64) : byteLen n ≤ 8 :=
  byteLen_le_iff.mpr h

theorem longKind_kind (k : Kind) (r : EStateM.Result Err Stream UInt64) :
    (longKind k r).1.1 = k := by
  cases r with
  | ok size s => rfl
  | error e s => rfl

/-- The first byte of a short header, counted from that of the empty
value. -/
theorem sub_lt_of_range {bound : UInt8} (hsmall : ¬ b < small) (hb : b < bound)
    (hbound : bound.toNat = small.toNat + 56) : (b - small).toNat < 56 := by
  have hle := UInt8.not_lt.mp hsmall
  have := UInt8.le_iff_toNat_le.mp hle
  have := UInt8.lt_iff_toNat_lt.mp hb
  rw [UInt8.toNat_sub_of_le _ _ hle]
  omega

/-- The first byte of a long header announces one to eight digits. -/
theorem sub_of_long (hlarge : large < b) (hb : b.toNat ≤ large.toNat + 8) :
    b - large ≠ 0 ∧ b - large ≤ 8 := by
  have := UInt8.lt_iff_toNat_lt.mp hlarge
  have hsub := UInt8.toNat_sub_of_le _ _ (UInt8.le_of_lt hlarge)
  refine ⟨fun h0 => ?_, UInt8.le_iff_toNat_le.mpr (hsub ▸ ?_)⟩
  · rw [h0, show (0 : UInt8).toNat = 0 from rfl] at hsub
    omega
  · show _ ≤ 8
    omega

/-- A long header that was read. -/
theorem longKind_took {s₀ : Stream} (hb : Took s s₀ [b]) (hpos : b - large ≠ 0) (hk : b - large ≤ 8)
    (h : longKind k (readUint (b - large) s₀) = ((k, size, none), s')) :
    Took s s' (header small large size.toNat) := by
  have hread := sat_readUint (s := s₀) hpos hk
  cases hr : readUint (b - large) s₀ with
  | error e s₁ => rw [hr] at h; cases h
  | ok v s₁ =>
    obtain ⟨bs, hlen, ht, -, hv, hzero⟩ := hread.of_ok hr
    rw [hr, longKind] at h
    by_cases hlt : v < 56
    · rw [if_pos hlt] at h; cases h
    rw [if_neg hlt] at h
    cases h
    have hle : 56 ≤ beNat bs := hv ▸ le_iff_toNat_le.mp (UInt64.not_lt.mp hlt)
    have hhead : bs.head? ≠ some 0 := by
      by_cases h1 : b - large = 1
      · -- a single digit is at least 56
        rw [h1] at hlen
        obtain ⟨x, rfl⟩ := List.length_eq_one_iff.mp hlen
        rintro ⟨⟩
        exact absurd hle (by decide)
      · exact hzero h1
    rw [hv, header_long hlen hhead hle]
    exact hb.trans ht

theorem longKind_ne_eol {k' : Kind} {e : Err} (hpos : b - large ≠ 0) (hk : b - large ≤ 8)
    (h : longKind k (readUint (b - large) s) = ((k', size, some e), s')) : e ≠ .eol := by
  have hread := sat_readUint (s := s) hpos hk
  cases hr : readUint (b - large) s with
  | error e' s₁ => rw [hr] at h; cases h; exact hread.of_error hr
  | ok v s₁ =>
    rw [hr, longKind] at h
    by_cases hlt : v < 56
    · rw [if_pos hlt] at h; cases h; exact Err.noConfusion
    · rw [if_neg hlt] at h; cases h

/-- A long header that is ahead, after its first byte. -/
theorem longKind_ahead {n : Nat} (hb : b = large + UInt8.ofNat (byteLen n))
    (h : Offers s (digits n)) (hn : 56 ≤ n) (hlt : n < 2 ^ 64) :
    ∃ s', longKind k (readUint (b - large) s) = ((k, ofNat n, none), s') := by
  have hlen : byteLen n ≤ 8 := byteLen_le_eight hlt
  have hsub : b - large = UInt8.ofNat (byteLen n) := by
    rw [hb, UInt8.add_comm, UInt8.add_sub_cancel]
  have htoNat : (UInt8.ofNat (byteLen n)).toNat = byteLen n :=
    UInt8.toNat_ofNat_of_lt' (show byteLen n < 256 by omega)
  have hread := readUint_ahead h (by rw [length_digits, htoNat])
    (fun h0 => by
      have := byteLen_pos (n := n) (by omega)
      rw [h0] at htoNat
      have : (0 : UInt8).toNat = 0 := rfl
      omega)
    (head?_digits n)
  obtain ⟨v, s', hr, hv⟩ := exists_of_sat hread
  rw [beNat_digits] at hv
  refine ⟨s', ?_⟩
  rw [hsub, hr, longKind, hv, if_neg]
  rw [UInt64.not_lt, le_iff_toNat_le,
    toNat_ofNat_of_lt' (show n < 18446744073709551616 by omega)]
  exact hn

theorem long_string (hB8 : ¬ b < 0xB8) (hC0 : b < 0xC0) :
    b - 0xB7 ≠ 0 ∧ b - 0xB7 ≤ 8 := by
  have := UInt8.lt_iff_toNat_lt.mp hC0
  refine sub_of_long (UInt8.lt_of_lt_of_le (by decide) (UInt8.not_lt.mp hB8)) ?_
  exact Nat.le_of_lt_succ this

theorem long_list (hF8 : ¬ b < 0xF8) : b - 0xF7 ≠ 0 ∧ b - 0xF7 ≤ 8 := by
  have := b.toNat_lt
  refine sub_of_long (UInt8.lt_of_lt_of_le (by decide) (UInt8.not_lt.mp hF8)) ?_
  exact Nat.le_of_lt_succ this

/-- The first byte of a header, read. -/
theorem readKind_of_byte {s₀ : Stream} (h : readByte s = .ok b s₀) :
    readKind s =
      if b < 0x80 then ((.byte, 0, none), { s₀ with byteval := b })
      else if b < 0xB8 then ((.string, (b - 0x80).toUInt64, none), { s₀ with byteval := 0 })
      else if b < 0xC0 then longKind .string (readUint (b - 0xB7) { s₀ with byteval := 0 })
      else if b < 0xF8 then ((.list, (b - 0xC0).toUInt64, none), { s₀ with byteval := 0 })
      else longKind .list (readUint (b - 0xF7) { s₀ with byteval := 0 }) := by
  rw [readKind, h]

/-- **A header that was read is the header of what it announces.** -/
theorem readKind_took (h : readKind s = ((k, size, none), s')) :
    Took s s' (head k size.toNat s'.byteval) ∧ (k = .byte → s'.byteval < 0x80 ∧ size = 0) := by
  cases hr : readByte s with
  | error e s₀ => rw [readKind, hr] at h; cases h
  | ok b s₀ =>
    obtain ⟨ht, -⟩ := sat_readByte.of_ok hr
    have ht₀ : Took s { s₀ with byteval := 0 } [b] := ⟨ht.input, ht.stack, ht.limited, ht.remaining⟩
    rw [readKind_of_byte hr] at h
    split_ifs at h with h80 hB8 hC0 hF8
    · cases h
      exact ⟨⟨ht.input, ht.stack, ht.limited, ht.remaining⟩, fun _ => ⟨h80, rfl⟩⟩
    · cases h
      rw [head, UInt8.toNat_toUInt64, header_short (sub_lt_of_range h80 hB8 rfl)]
      exact ⟨ht₀, nofun⟩
    · obtain rfl : .string = k := (longKind_kind _ _).symm.trans (congrArg (·.1.1) h)
      obtain ⟨hpos, hle⟩ := long_string hB8 hC0
      exact ⟨longKind_took ht₀ hpos hle h, nofun⟩
    · cases h
      rw [head, UInt8.toNat_toUInt64, header_short (sub_lt_of_range hC0 hF8 rfl)]
      exact ⟨ht₀, nofun⟩
    · obtain rfl : .list = k := (longKind_kind _ _).symm.trans (congrArg (·.1.1) h)
      obtain ⟨hpos, hle⟩ := long_list hF8
      exact ⟨longKind_took ht₀ hpos hle h, nofun⟩

theorem readKind_ne_eol {e : Err} (h : readKind s = ((k, size, some e), s')) : e ≠ .eol := by
  cases hr : readByte s with
  | error e' s₀ =>
    have he := sat_readByte.of_error hr
    rw [readKind, hr] at h
    cases h
    split
    · exact Err.noConfusion
    · exact he
  | ok b s₀ =>
    rw [readKind_of_byte hr] at h
    split_ifs at h with h80 hB8 hC0 hF8
    · cases h
    · cases h
    · exact longKind_ne_eol (long_string hB8 hC0).1 (long_string hB8 hC0).2 h
    · cases h
    · exact longKind_ne_eol (long_list hF8).1 (long_list hF8).2 h

/-- The first byte of a header as a number. -/
theorem first_lt_iff (base : UInt8) {m : Nat} (h : base.toNat + m < 256) (bound : UInt8) :
    base + UInt8.ofNat m < bound ↔ base.toNat + m < bound.toNat := by
  rw [UInt8.lt_iff_toNat_lt, UInt8.toNat_add, UInt8.toNat_ofNat_of_lt' (show m < 256 by omega)]
  rw [Nat.mod_eq_of_lt h]

theorem toUInt64_first {base : UInt8} {m : Nat} (h : m < 256) :
    (base + UInt8.ofNat m - base).toUInt64 = ofNat m := by
  apply toNat.inj
  rw [UInt8.add_comm, UInt8.add_sub_cancel, UInt8.toNat_toUInt64, UInt8.toNat_ofNat_of_lt' h,
    toNat_ofNat_of_lt' (h.trans (by decide))]

/-- The state after the first byte of what is ahead. -/
theorem exists_readByte {b : Bytes} (h : Offers s (x :: b)) :
    ∃ s₀, readByte s = .ok x s₀ ∧ Offers { s₀ with byteval := 0 } b := by
  obtain ⟨x', s₀, hr, rfl⟩ := exists_of_sat (readByte_ahead h)
  obtain ⟨ht, -⟩ := sat_readByte.of_ok hr
  have ht₀ : Took s { s₀ with byteval := 0 } [x'] := ⟨ht.input, ht.stack, ht.limited, ht.remaining⟩
  exact ⟨s₀, hr, Offers.right (b := [x']) h ht₀⟩

/-- **A header that is ahead is read.** -/
theorem readKind_ahead {n : Nat} (hk : k = .byte → x < 0x80 ∧ n = 0) (h : Offers s (head k n x))
    (hn : n < 2 ^ 64) :
    ∃ s', readKind s = ((k, ofNat n, none), s') := by
  have hlen := byteLen_le_eight hn
  cases k with
  | byte =>
    obtain ⟨hx, rfl⟩ := hk rfl
    obtain ⟨s₀, hr, -⟩ := exists_readByte h
    exact ⟨_, by rw [readKind_of_byte hr, if_pos hx]; rfl⟩
  | string =>
    rcases Nat.lt_or_ge n 56 with h56 | h56
    · rw [head, header_of_lt h56] at h
      obtain ⟨s₀, hr, -⟩ := exists_readByte h
      have hb := first_lt_iff 0x80 (m := n) (show 128 + n < 256 by omega)
      rw [readKind_of_byte hr, if_neg (mt (hb 0x80).mp (show ¬ 128 + n < 128 by omega)),
        if_pos ((hb 0xB8).mpr (show 128 + n < 184 by omega)), toUInt64_first (by omega)]
      exact ⟨_, rfl⟩
    · rw [head, header_of_le h56] at h
      obtain ⟨s₀, hr, hd⟩ := exists_readByte h
      have hpos := byteLen_pos (n := n) (by omega)
      have hb := first_lt_iff 0xB7 (m := byteLen n) (show 183 + byteLen n < 256 by omega)
      rw [readKind_of_byte hr, if_neg (mt (hb 0x80).mp (show ¬ 183 + byteLen n < 128 by omega)),
        if_neg (mt (hb 0xB8).mp (show ¬ 183 + byteLen n < 184 by omega)),
        if_pos ((hb 0xC0).mpr (show 183 + byteLen n < 192 by omega))]
      exact longKind_ahead rfl hd h56 hn
  | list =>
    rcases Nat.lt_or_ge n 56 with h56 | h56
    · rw [head, header_of_lt h56] at h
      obtain ⟨s₀, hr, -⟩ := exists_readByte h
      have hb := first_lt_iff 0xC0 (m := n) (show 192 + n < 256 by omega)
      rw [readKind_of_byte hr, if_neg (mt (hb 0x80).mp (show ¬ 192 + n < 128 by omega)),
        if_neg (mt (hb 0xB8).mp (show ¬ 192 + n < 184 by omega)),
        if_neg (mt (hb 0xC0).mp (show ¬ 192 + n < 192 by omega)),
        if_pos ((hb 0xF8).mpr (show 192 + n < 248 by omega)), toUInt64_first (by omega)]
      exact ⟨_, rfl⟩
    · rw [head, header_of_le h56] at h
      obtain ⟨s₀, hr, hd⟩ := exists_readByte h
      have hpos := byteLen_pos (n := n) (by omega)
      have hb := first_lt_iff 0xF7 (m := byteLen n) (show 247 + byteLen n < 256 by omega)
      rw [readKind_of_byte hr, if_neg (mt (hb 0x80).mp (show ¬ 247 + byteLen n < 128 by omega)),
        if_neg (mt (hb 0xB8).mp (show ¬ 247 + byteLen n < 184 by omega)),
        if_neg (mt (hb 0xC0).mp (show ¬ 247 + byteLen n < 192 by omega)),
        if_neg (mt (hb 0xF8).mp (show ¬ 247 + byteLen n < 248 by omega))]
      exact longKind_ahead rfl hd h56 hn

/-! ## The value ahead -/

/-- **`Kind` has read a header**, and reads it once. -/
structure Primed (s s' : Stream) (k : Kind) (size : UInt64) : Prop where
  took : Took s s' (head k size.toNat s'.byteval)
  byte : k = .byte → s'.byteval < 0x80 ∧ size = 0
  again : kindAhead s' = .ok (k, size) s'

theorem sat_kindAhead (hs : Ready s) :
    Sat kindAhead s (fun r s' => Primed s s' r.1 r.2) (fun e s' => e = .eol → s' = s) := by
  unfold Sat kindAhead
  rw [hs.kind]
  by_cases hl : s.listLimit = some 0
  · simp only [hl, if_true]
    exact fun _ => trivial
  simp only [if_neg hl]
  rcases hr : readKind s with ⟨⟨k, size, _ | e⟩, s'⟩
  · obtain ⟨ht, hbyte⟩ := readKind_took hr
    rw [Option.none_or]
    split_ifs
    · exact Err.noConfusion
    · exact Err.noConfusion
    · exact ⟨⟨ht.input, ht.stack, ht.limited, ht.remaining⟩, hbyte, rfl⟩
  · exact fun he => absurd he (readKind_ne_eol hr)

theorem kindAhead_atEnd (hs : Ready s) (hl : s.listLimit = some 0) :
    kindAhead s = .error .eol s := by
  unfold kindAhead
  simp only [hs.kind, hl, if_true]

theorem head_ne_nil (k : Kind) (n : Nat) (x : UInt8) : head k n x ≠ [] := by
  cases k with
  | byte => exact List.cons_ne_nil _ _
  | string | list => exact header_ne_nil _ _ _

/-- **Where a value is ahead, `Kind` finds it.** -/
theorem exists_kindAhead (k : Kind) (x : UInt8) (content : Bytes) (hs : Ready s)
    (hk : k = .byte → x < 0x80 ∧ content = [])
    (h : Ahead s (head k content.length x ++ content)) :
    ∃ s', kindAhead s = .ok (k, ofNat content.length) s' ∧
      Primed s s' k (ofNat content.length) ∧ Ahead s' content ∧
      (k = .byte → s'.byteval = x) := by
  have hlt : content.length < 2 ^ 63 := by
    have := h.length_lt hs.toSane
    rw [List.length_append] at this
    omega
  have htoNat : (ofNat content.length).toNat = content.length :=
    toNat_ofNat_of_lt' (show content.length < 18446744073709551616 by omega)
  have hl : s.listLimit ≠ some 0 := h.left.listLimit_ne (head_ne_nil _ _ _)
  obtain ⟨s₁, hr⟩ := readKind_ahead (fun h => ⟨(hk h).1, by rw [(hk h).2]; rfl⟩)
    (h.left.offers hs.toSane) (by omega)
  obtain ⟨ht, -⟩ := readKind_took hr
  rw [htoNat] at ht
  -- the header announces no more than is ahead
  have hbyte : k = .byte → s₁.byteval = x := by
    rintro rfl
    exact List.head_eq_of_cons_eq (h.left.eq_of_took ht rfl)
  have hahead : Ahead s₁ content := by
    have heq : head k content.length s₁.byteval = head k content.length x := by
      cases k with
      | byte => rw [hbyte rfl]
      | string => rfl
      | list => rfl
    exact h.right (heq ▸ ht)
  have hroom : s.listLimit.any (· < ofNat content.length) = false := by
    rw [← Bool.not_eq_true, Option.any_eq_true]
    rintro ⟨limit, hlimit, hlt'⟩
    have := h.room limit hlimit
    have hlt' := lt_iff_toNat_lt.mp (of_decide_eq_true hlt')
    rw [List.length_append] at this
    omega
  have hremaining : ¬ (s₁.limited = true ∧ s₁.remaining < ofNat content.length) := by
    rintro ⟨hlimited, hlt'⟩
    have hfits := (fits_of_offers (hahead.offers (ht.sane hs.toSane)) htoNat.le).2 hlimited
    exact UInt64.not_lt.mpr hfits hlt'
  have hkind : kindAhead s = .ok (k, ofNat content.length)
      { s₁ with kind := some k, size := ofNat content.length, kinderr := none } := by
    unfold kindAhead
    simp only [hs.kind, if_neg hl, hr, Option.none_or, hroom, Bool.false_eq_true, if_false,
      if_neg hremaining, Option.elim_none]
  exact ⟨_, hkind, (sat_kindAhead hs).of_ok hkind, ⟨hahead.isPrefix, hahead.room⟩, hbyte⟩

end Stream

end Rlp
