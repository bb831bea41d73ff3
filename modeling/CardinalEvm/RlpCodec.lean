import CardinalEvm.RlpReading
import CardinalEvm.RlpDecode

/-!
# Decoders read exactly the encodings

`Codec dec enc ok` says that a decoder and an encoding belong together:
what the decoder takes from the input is the encoding of what it
returns, and wherever the encoding of a value is ahead, it returns the
value. It also says how the decoder meets the end of a list – with `EOL`,
which it returns there only and without a trace – since that is what
ends the loop over a slice and starts the missing fields of a struct.

The codecs of the scalar types are those of the stream's operations, and
slices, structs and pointers preserve them, so that every type of the
repository has one (`Ty.codec`).
-/

open UInt64

namespace Rlp

variable {α β : Type}

theorem wrapStreamError_eq_eol {e : Err} : wrapStreamError e = .eol ↔ e = .eol := by
  cases e <;> simp [wrapStreamError]

theorem addErrorContext_ne_eol {e : Err} (ctx : String) (h : e ≠ .eol) :
    addErrorContext ctx e ≠ .eol := by
  cases e with
  | eol => exact absurd rfl h
  | _ => exact nofun

variable {s s' : Stream}

@[simp] theorem sat_wrapped {m : StreamM α} {Q : α → Stream → Prop} {E : Err → Stream → Prop} :
    Sat (wrapped m) s Q E ↔ Sat m s Q (fun e s' => E (wrapStreamError e) s') := by
  unfold Sat wrapped
  cases m s with
  | ok a s' => exact Iff.rfl
  | error e s' => exact Iff.rfl

/-- **A decoder of an encoding.** -/
structure Codec (dec : StreamM α) (enc : α → Bytes) (ok : α → Prop) : Prop where
  sound : ∀ s, Ready s → Sat dec s
    (fun a s' => ok a ∧ Took s s' (enc a) ∧ s'.kind = none) (fun e s' => e = .eol → s' = s)
  ahead : ∀ s a, Ready s → ok a → Ahead s (enc a) →
    Sat dec s (fun a' _ => a' = a) (fun _ _ => False)
  atEnd : ∀ s, Ready s → s.listLimit = some 0 → dec s = .error .eol s
  ne_nil : ∀ a, ok a → enc a ≠ []

theorem Took.ready {b : Bytes} (h : Took s s' b) (hs : Ready s) (hkind : s'.kind = none) :
    Ready s' := ⟨h.sane hs.toSane, hkind⟩

namespace Codec

variable {dec : StreamM α} {enc : α → Bytes} {ok : α → Prop} {s : Stream}

/-- What is ahead is read, and taken. -/
theorem exists_ahead (h : Codec dec enc ok) {a : α} (hs : Ready s) (ha : ok a)
    (hahead : Ahead s (enc a)) : ∃ s', dec s = .ok a s' ∧ Took s s' (enc a) ∧ Ready s' := by
  obtain ⟨a', s', hdec, rfl⟩ := exists_of_sat (h.ahead s a hs ha hahead)
  obtain ⟨-, ht, hkind⟩ := (h.sound s hs).of_ok hdec
  exact ⟨s', hdec, ht, ht.ready hs hkind⟩

/-- A decoder followed by a function onto the values of another type. -/
theorem map {enc' : β → Bytes} {ok' : β → Prop} (h : Codec dec enc ok) (f : α → β)
    (hf : ∀ a, ok a → ok' (f a) ∧ enc' (f a) = enc a)
    (hf' : ∀ b, ok' b → ∃ a, ok a ∧ f a = b) : Codec (f <$> dec) enc' ok' where
  sound s hs := by
    rw [sat_map]
    refine (h.sound s hs).mono (fun a s' ⟨ha, ht, hkind⟩ => ?_)
    exact ⟨(hf a ha).1, (hf a ha).2.symm ▸ ht, hkind⟩
  ahead s b hs hb hahead := by
    obtain ⟨a, ha, rfl⟩ := hf' b hb
    rw [(hf a ha).2] at hahead
    rw [sat_map]
    refine (h.ahead s a hs ha hahead).mono (fun a' _ ha' => ?_)
    rw [ha']
  atEnd s hs hl := by
    show EStateM.map f dec s = _
    rw [EStateM.map, h.atEnd s hs hl]
  ne_nil b hb := by
    obtain ⟨a, ha, rfl⟩ := hf' b hb
    rw [(hf a ha).2]
    exact h.ne_nil a ha

theorem congr {ok' : α → Prop} (h : Codec dec enc ok) (hok : ∀ a, ok a ↔ ok' a) :
    Codec dec enc ok' := by
  obtain rfl : ok = ok' := funext fun a => propext (hok a)
  exact h

theorem wrapped_codec (h : Codec dec enc ok) : Codec (wrapped dec) enc ok where
  sound s hs := by
    rw [sat_wrapped]
    refine (h.sound s hs).mono (fun _ _ h => h) (fun e s' he h => ?_)
    exact he (wrapStreamError_eq_eol.mp h)
  ahead s a hs ha hahead := by
    rw [sat_wrapped]
    exact h.ahead s a hs ha hahead
  atEnd s hs hl := by
    rw [wrapped, h.atEnd s hs hl]
    rfl
  ne_nil := h.ne_nil

end Codec

/-! ## Strings and integers -/

namespace Stream

variable {s : Stream}

variable {b : Bytes} {s₁ : Stream} {size : UInt64}

theorem toNat_length (h : b.length < 2 ^ 63) :
    (ofNat b.length).toNat = b.length :=
  toNat_ofNat_of_lt' (show b.length < 18446744073709551616 by omega)

theorem bind_atEnd {f : Kind × UInt64 → StreamM α} (hs : Ready s) (hl : s.listLimit = some 0) :
    (kindAhead >>= f) s = .error .eol s := by
  show EStateM.bind kindAhead f s = _
  rw [EStateM.bind, kindAhead_atEnd hs hl]

/-- A string that was read after its header. -/
theorem took_string {s₂ : Stream} (hp : Primed s s₁ .string size) (ht : Took s₁ s₂ b)
    (hlen : b.length = size.toNat) (hcanon : ¬ (size = 1 ∧ b.head?.any (· < 128) = true)) :
    Took s s₂ (string b) := by
  have hstring : string b = header 0x80 0xB7 b.length ++ b := by
    refine string_of_ne fun x hx => ?_
    subst hx
    have h1 : size = 1 := toNat.inj hlen.symm
    have hge : ¬ x < 128 := fun h => hcanon ⟨h1, decide_eq_true h⟩
    exact UInt8.lt_of_lt_of_le (by decide) (UInt8.not_lt.mp hge)
  rw [hstring, hlen]
  exact hp.took.trans ht

/-- A string that is ahead: a byte below `0x80`, or a header and the
bytes it announces. -/
theorem ahead_string (hs : Ready s) (h : Ahead s (string b)) :
    (∃ x s₁, b = [x] ∧ x < 0x80 ∧ kindAhead s = .ok (.byte, 0) s₁ ∧ s₁.byteval = x) ∨
    (∃ size s₁, kindAhead s = .ok (.string, size) s₁ ∧ Sane s₁ ∧ Ahead s₁ b ∧
      b.length = size.toNat ∧ ¬ (size = 1 ∧ b.head?.any (· < 128) = true)) := by
  by_cases hb : ∃ x, b = [x] ∧ x ≤ 0x7F
  · obtain ⟨x, rfl, hx⟩ := hb
    rw [string_byte hx] at h
    have hx' : x < 0x80 := UInt8.lt_of_le_of_lt hx (by decide)
    obtain ⟨s₁, hk, -, -, hbyte⟩ :=
      exists_kindAhead .byte x [] hs (fun _ => ⟨hx', rfl⟩) h
    exact .inl ⟨x, s₁, rfl, hx', hk, hbyte rfl⟩
  · have hne : ∀ x, b = [x] → 0x7F < x := fun x hx =>
      UInt8.not_le.mp fun hle => hb ⟨x, hx, hle⟩
    rw [string_of_ne hne] at h
    have hlt := h.length_lt hs.toSane
    rw [List.length_append] at hlt
    obtain ⟨s₁, hk, hp, hahead, -⟩ :=
      exists_kindAhead .string 0 b hs nofun h
    have hsize := toNat_length (b := b) (by omega)
    refine .inr ⟨_, s₁, hk, hp.took.sane hs.toSane, hahead, hsize.symm, ?_⟩
    rintro ⟨h1, hany⟩
    rw [h1] at hsize
    obtain ⟨x, rfl⟩ := List.length_eq_one_iff.mp hsize.symm
    have hlt : x < 128 := of_decide_eq_true hany
    exact absurd (hne x rfl) (UInt8.not_lt.mpr (byte_le_iff.mpr hlt))

/-- Strings of bytes of any length. -/
theorem codec_bytes : Codec bytes string (fun _ => True) where
  sound s hs := by
    refine (sat_kindAhead hs).next fun ⟨k, size⟩ s₁ hp => ?_
    cases k with
    | byte =>
      have hx := (hp.byte rfl).1
      refine ⟨trivial, ?_, rfl⟩
      show Took s s₁.rearm (string [s₁.byteval])
      rw [string_byte (byte_le_iff.mpr hx)]
      exact hp.took.rearm
    | string =>
      rw [sat_bind]
      refine (sat_readFull size).mono (fun b s₂ ⟨hlen, ht, hkind⟩ => ?_)
        (fun e _ he h => absurd h he)
      refine Sat.ite (fun _ => nofun) (fun hcanon => ?_)
      exact ⟨trivial, took_string hp ht hlen hcanon, hkind⟩
    | list => exact nofun
  ahead s b hs _ hahead := by
    unfold bytes
    rw [sat_bind]
    rcases ahead_string hs hahead with ⟨x, s₁, rfl, -, hk, hx⟩ |
      ⟨size, s₁, hk, hs₁, hb, hlen, hcanon⟩
    · refine Sat.returns hk ?_
      exact congrArg (fun x => [x]) hx
    · refine Sat.returns hk ?_
      refine (readFull_ahead (hb.offers hs₁) hlen).next fun b' _ hb' => ?_
      subst hb'
      exact Sat.ite (fun h => absurd h hcanon) (fun _ => rfl)
  atEnd s hs hl := bind_atEnd hs hl
  ne_nil b _ := string_ne_nil b

/-- The digits of an integer were read as a string that does not start
with a zero. -/
theorem uint_beNat (h : b.head? ≠ some 0) : Rlp.uint (beNat b) = string b := by
  rw [Rlp.uint, digits_beNat h]

theorem head?_byte {x : UInt8} (h : x ≠ 0) : [x].head? ≠ some 0 := fun h0 => h (Option.some.inj h0)

/-- The strings that `decodeBigInt` and `ReadUint256` read. -/
theorem codec_digitString (max : Option UInt64) (hmax : ∀ m ∈ max, 1 ≤ m.toNat) :
    Codec (digitString max) string (fun b => ∀ m ∈ max, b.length ≤ m.toNat) where
  sound s hs := by
    refine (sat_kindAhead hs).next fun ⟨k, size⟩ s₁ hp => ?_
    cases k with
    | byte =>
      refine ⟨hmax, ?_, rfl⟩
      show Took s s₁.rearm (string [s₁.byteval])
      rw [string_byte (byte_le_iff.mpr (hp.byte rfl).1)]
      exact hp.took.rearm
    | string =>
      refine Sat.ite (fun h0 => ?_) (fun _ => Sat.ite (fun _ => nofun) (fun hsize => ?_))
      · subst h0
        exact ⟨fun m hm => Nat.zero_le _, hp.took.rearm, rfl⟩
      · rw [sat_bind]
        refine (sat_readFull size).mono (fun b s₂ ⟨hlen, ht, hkind⟩ => ?_)
          (fun e _ he h => absurd h he)
        refine Sat.ite (fun _ => nofun) (fun hcanon => ⟨?_, took_string hp ht hlen hcanon, hkind⟩)
        intro m hm
        rw [hlen, ← UInt64.le_iff_toNat_le, ← UInt64.not_lt]
        exact fun hlt => hsize ((Option.any_eq_true _ _).mpr ⟨m, hm, decide_eq_true hlt⟩)
    | list => exact nofun
  ahead s b hs hle hahead := by
    unfold digitString
    rw [sat_bind]
    rcases ahead_string hs hahead with ⟨x, s₁, rfl, -, hk, hx⟩ |
      ⟨size, s₁, hk, hs₁, hb, hlen, hcanon⟩
    · refine Sat.returns hk ?_
      exact congrArg (fun x => [x]) hx
    · refine Sat.returns hk ?_
      refine Sat.ite (fun h0 => ?_) (fun _ => Sat.ite (fun hany => ?_) (fun _ => ?_))
      · subst h0
        exact (List.eq_nil_of_length_eq_zero hlen).symm
      · obtain ⟨m, hm, hlt⟩ := (Option.any_eq_true _ _).mp hany
        have := lt_iff_toNat_lt.mp (of_decide_eq_true hlt)
        exact absurd (hle m hm) (by rw [hlen]; omega)
      · refine (readFull_ahead (hb.offers hs₁) hlen).next fun b' _ hb' => ?_
        subst hb'
        exact Sat.ite (fun h => absurd h hcanon) (fun _ => rfl)
  atEnd s hs hl := bind_atEnd hs hl
  ne_nil b _ := string_ne_nil b

/-- **The integers that `decodeBigInt` and `ReadUint256` read.** -/
theorem codec_integer (max : Option UInt64) (hmax : ∀ m ∈ max, 1 ≤ m.toNat) :
    Codec (integer max) Rlp.uint (fun n => ∀ m ∈ max, byteLen n ≤ m.toNat) where
  sound s hs := by
    refine ((codec_digitString max hmax).sound s hs).next fun b s₁ ⟨hle, ht, hkind⟩ => ?_
    refine Sat.ite (fun _ => nofun) (fun hzero => ⟨fun m hm => ?_, ?_, hkind⟩)
    · rw [← length_digits, digits_beNat hzero]
      exact hle m hm
    · rw [uint_beNat hzero]
      exact ht
  ahead s n hs hn hahead := by
    refine ((codec_digitString max hmax).ahead s (digits n) hs (fun m hm => ?_) hahead).next
      fun b _ hb => ?_
    · rw [length_digits]
      exact hn m hm
    · subst hb
      exact Sat.ite (fun h => absurd h (head?_digits n)) (fun _ => beNat_digits n)
  atEnd s hs hl := by
    show EStateM.bind (digitString max) _ s = _
    rw [EStateM.bind, (codec_digitString max hmax).atEnd s hs hl]
  ne_nil n _ := string_ne_nil _

theorem sat_readInteger {k : UInt8} {Q : UInt64 → Stream → Prop} {E : Err → Stream → Prop}
    (h : Sat (readUint k) s Q E) (hE : ∀ s', E .canonSize s' → E .canonInt s') :
    Sat (readInteger k) s Q E := by
  unfold Sat readInteger at *
  cases hr : readUint k s with
  | ok v s' => rw [hr] at h; exact h
  | error e s' =>
    rw [hr] at h
    cases e with
    | canonSize => exact hE s' h
    | _ => exact h

/-- Sizes of integers in bytes. -/
structure Width (bits : Nat) : Prop where
  pos : 1 ≤ bits / 8
  le : bits / 8 ≤ 8
  pow : 256 ^ (bits / 8) = 2 ^ bits

theorem Width.toNat {bits : Nat} (h : Width bits) :
    (ofNat (bits / 8)).toNat = bits / 8 :=
  toNat_ofNat_of_lt' (lt_of_le_of_lt h.le (by decide))

theorem toNat_size (h : size.toNat ≤ 8) : size.toUInt8.toNat = size.toNat := by
  rw [toNat_toUInt8]
  exact Nat.mod_eq_of_lt (by omega)

/-- **The integers that `uint` reads.** -/
theorem codec_uint {bits : Nat} (hbits : Width bits) :
    Codec (uint bits) (fun v => Rlp.uint v.toNat) (fun v => v.toNat < 2 ^ bits) where
  sound s hs := by
    unfold uint
    refine (sat_kindAhead hs).next fun ⟨k, size⟩ s₁ hp => ?_
    cases k with
    | byte =>
      refine Sat.ite (fun _ => nofun) (fun h0 => ?_)
      have hx := (hp.byte rfl).1
      have htoNat : s₁.byteval.toUInt64.toNat = beNat [s₁.byteval] := by
        rw [UInt8.toNat_toUInt64, beNat_byte]
      refine ⟨?_, ?_, rfl⟩
      · rw [htoNat, ← hbits.pow]
        exact (beNat_lt _).trans_le (Nat.pow_le_pow_right (by decide) hbits.pos)
      · rw [htoNat, uint_beNat (head?_byte h0), string_byte (byte_le_iff.mpr hx)]
        exact hp.took.rearm
    | string =>
      refine Sat.ite (fun _ => nofun) (fun hsize => ?_)
      have hle : size.toNat ≤ bits / 8 := by
        rw [← hbits.toNat, ← UInt64.le_iff_toNat_le]
        exact UInt64.not_lt.mp hsize
      have h8 : size.toUInt8.toNat = size.toNat := toNat_size (hle.trans hbits.le)
      show Sat (_ >>= _) _ _ _
      rw [sat_bind]
      by_cases h0 : size = 0
      · subst h0
        refine sat_readInteger (s := s₁) ?_ (fun _ _ => nofun)
        refine ⟨?_, hp.took.rearm, rfl⟩
        exact Nat.two_pow_pos bits
      have hpos : size.toUInt8 ≠ 0 := fun h => h0 (toNat.inj (h8 ▸ congrArg UInt8.toNat h))
      have hk : size.toUInt8 ≤ 8 := UInt8.le_iff_toNat_le.mpr (h8 ▸ hle.trans hbits.le)
      refine sat_readInteger ?_ (fun _ _ => nofun)
      refine (sat_readUint hpos hk).mono (fun v s₂ ⟨b, hlen, ht, hkind, hv, hzero⟩ => ?_)
        (fun e _ he h => absurd h he)
      rw [h8] at hlen
      refine Sat.ite (fun _ => nofun) (fun hcanon => ⟨?_, ?_, hkind⟩)
      · rw [hv, ← hbits.pow]
        exact (beNat_lt b).trans_le (Nat.pow_le_pow_right (by decide) (hlen.trans_le hle))
      · -- a single digit is not below 128, so that no zero comes first
        have hge : ¬ v < 128 := fun hlt =>
          hcanon ⟨UInt64.pos_iff_ne_zero.mpr h0, hlt⟩
        have hone : ∀ x, b = [x] → ¬ x < 128 := by
          rintro x rfl hlt
          refine hge (UInt64.lt_iff_toNat_lt.mpr ?_)
          rw [hv, beNat_byte]
          exact UInt8.lt_iff_toNat_lt.mp hlt
        have hhead : b.head? ≠ some 0 := by
          by_cases h1 : size.toUInt8 = 1
          · have hlen1 : b.length = 1 := by rw [hlen, ← h8, h1]; rfl
            obtain ⟨x, rfl⟩ := List.length_eq_one_iff.mp hlen1
            rintro ⟨⟩
            exact hone 0 rfl (by decide)
          · exact hzero h1
        rw [hv, uint_beNat hhead]
        refine took_string hp ht hlen ?_
        rintro ⟨rfl, hany⟩
        obtain ⟨x, rfl⟩ := List.length_eq_one_iff.mp hlen
        exact hone x rfl (of_decide_eq_true hany)
    | list => exact nofun
  ahead s v hs hv hahead := by
    unfold uint
    rw [sat_bind]
    have hof : UInt64.ofNat (beNat (digits v.toNat)) = v := by
      rw [beNat_digits, UInt64.ofNat_toNat]
    rcases ahead_string hs hahead with ⟨x, s₁, hx, -, hk, hbyte⟩ |
      ⟨size, s₁, hk, hs₁, hb, hlen, hcanon⟩
    · have hne : x ≠ 0 := by
        rintro rfl
        exact head?_digits v.toNat (by rw [hx]; rfl)
      refine Sat.returns hk ?_
      refine Sat.ite (fun h0 => absurd (hbyte.symm.trans h0) hne) (fun _ => ?_)
      show s₁.byteval.toUInt64 = v
      rw [hbyte, ← hof, hx, beNat_byte, toUInt64_eq]
    · have hle : size.toNat ≤ bits / 8 := by
        rw [← hlen, length_digits, byteLen_le_iff, hbits.pow]
        exact hv
      have h8 : size.toUInt8.toNat = size.toNat := toNat_size (hle.trans hbits.le)
      refine Sat.returns hk ?_
      refine Sat.ite (fun hlt => ?_) (fun _ => ?_)
      · have := lt_iff_toNat_lt.mp hlt
        rw [hbits.toNat] at this
        exact absurd hle (not_le.mpr this)
      rw [sat_bind]
      by_cases h0 : size = 0
      · subst h0
        have hnil : digits v.toNat = [] := List.eq_nil_of_length_eq_zero hlen
        rw [hnil] at hof
        exact sat_readInteger (s := s₁) hof (fun _ h => h)
      have hpos : size.toUInt8 ≠ 0 := fun h => h0 (toNat.inj (h8 ▸ congrArg UInt8.toNat h))
      refine sat_readInteger ?_ (fun _ h => h)
      refine (readUint_ahead (hb.offers hs₁) (hlen.trans h8.symm) hpos (head?_digits _)).mono
        (fun v' _ hv' => ?_) (fun _ _ h => h)
      rw [hof] at hv'
      subst hv'
      refine Sat.ite (fun ⟨_, hlt⟩ => ?_) (fun _ => rfl)
      -- below 128 there is one digit, which would be its own encoding
      have hlt' := lt_iff_toNat_lt.mp hlt
      have hbyte : byteLen v'.toNat ≤ 1 := byteLen_le_iff.mpr (hlt'.trans (by decide))
      have hsize : size.toNat ≠ 0 := fun h => h0 (toNat.inj h)
      rw [length_digits] at hlen
      have h1 : size = 1 := toNat.inj (show size.toNat = 1 by omega)
      obtain ⟨x, hx⟩ := List.length_eq_one_iff.mp
        (show (digits v'.toNat).length = 1 by rw [length_digits]; omega)
      have hxv : x.toNat = v'.toNat := by rw [← beNat_byte, ← hx, beNat_digits]
      refine absurd ⟨h1, ?_⟩ hcanon
      rw [hx]
      exact decide_eq_true (UInt8.lt_iff_toNat_lt.mpr (hxv ▸ hlt'))
  atEnd s hs hl := bind_atEnd hs hl
  ne_nil n _ := string_ne_nil _

/-! ## Lists -/

/-- **A list was opened**: its header was read, and its size moved from
the enclosing list to the top of the stack. -/
structure Opened (s s₁ : Stream) (size : UInt64) : Prop where
  input : s.input = header 0xC0 0xF7 size.toNat ++ s₁.input
  stack : s₁.stack = size ::
    takeOff size (takeOff (ofNat (header 0xC0 0xF7 size.toNat).length) s.stack)
  limited : s₁.limited = s.limited
  remaining : s.limited = true →
    s₁.remaining = s.remaining - ofNat (header 0xC0 0xF7 size.toNat).length
  kind : s₁.kind = none

theorem Opened.ready (h : Opened s s₁ size) (hs : Ready s) :
    Ready s₁ := by
  have hlen : s.input.length = (header 0xC0 0xF7 size.toNat).length + s₁.input.length := by
    rw [h.input, List.length_append]
  refine ⟨⟨?_, fun hl => ?_⟩, h.kind⟩
  · have := hs.length_lt
    omega
  · have hl' := h.limited ▸ hl
    rw [h.remaining hl', hs.remaining hl', hlen, UInt64.ofNat_add, UInt64.add_comm,
      UInt64.add_sub_cancel]

theorem sat_list (hs : Ready s) :
    Sat list s (fun size s₁ => Opened s s₁ size) (fun e s' => e = .eol → s' = s) := by
  refine (sat_kindAhead hs).next fun ⟨k, size⟩ s₁ hp => ?_
  refine Sat.ite (fun _ => nofun) (fun hk => ?_)
  obtain rfl : k = .list := not_not.mp hk
  refine ⟨hp.took.input, ?_, hp.took.limited, hp.took.remaining, rfl⟩
  exact congrArg (fun stack => size :: takeOff size stack) hp.took.stack

/-- **A list that was opened and closed was encoded.** Its size, less the
bytes taken, is zero modulo `2 ^ 64`, and both are below. -/
theorem Opened.took {s₂ s₃ : Stream} {content : Bytes} (h : Opened s s₁ size) (hs : Ready s)
    (ht : Took s₁ s₂ content) (hend : listEnd s₂ = .ok () s₃) :
    Took s s₃ (Rlp.list content) ∧ s₃.kind = none := by
  have hstack := ht.stack
  rw [h.stack, takeOff] at hstack
  unfold listEnd at hend
  rw [hstack] at hend
  by_cases hpos : 0 < size - ofNat content.length
  · simp only [if_pos hpos] at hend
    cases hend
  simp only [if_neg hpos] at hend
  cases hend
  have hsize : size = UInt64.ofNat content.length := by
    have h0 := UInt64.le_zero_iff.mp (UInt64.not_lt.mp hpos)
    rw [← UInt64.sub_add_cancel size (UInt64.ofNat content.length), h0, UInt64.zero_add]
  have htoNat : size.toNat = content.length := by
    rw [hsize]
    exact toNat_length (ht.length_lt (h.ready hs).toSane)
  obtain ⟨hinput, -, hlimited, hremaining, -⟩ := h
  rw [htoNat] at hinput hremaining ⊢
  refine ⟨⟨?_, ?_, ht.limited.trans hlimited, fun hl => ?_⟩, rfl⟩
  · rw [hinput, ht.input, ← List.append_assoc]
    rfl
  · rw [hsize, takeOff_takeOff, Rlp.list, List.length_append]
  · rw [ht.remaining (hlimited.trans hl), hremaining hl, sub_sub, ← ofNat_add, Rlp.list,
      List.length_append]

end Stream

/-- **The innermost list holds the bytes** and no more. -/
structure Filled (s : Stream) (b : Bytes) : Prop extends Ahead s b where
  listLimit : s.listLimit = some (ofNat b.length)

theorem Filled.right {b b' : Bytes} (h : Filled s (b ++ b')) (ht : Took s s' b) :
    Filled s' b' := by
  refine ⟨h.toAhead.right ht, ?_⟩
  obtain ⟨outer, hst⟩ : ∃ outer, s.stack = ofNat (b ++ b').length :: outer :=
    List.head?_eq_some_iff.mp h.listLimit
  rw [Stream.listLimit, ht.stack, hst, takeOff, List.head?_cons, List.length_append,
    UInt64.ofNat_add, UInt64.add_comm, UInt64.add_sub_cancel]

/-- What is ahead in a list is ahead there alone. -/
theorem Stream.exists_list {content : Bytes} (hs : Ready s) (h : Ahead s (Rlp.list content)) :
    ∃ s₁, list s = .ok (ofNat content.length) s₁ ∧
      Opened s s₁ (ofNat content.length) ∧ Filled s₁ content := by
  obtain ⟨s₀, hk, hp, hahead, -⟩ := exists_kindAhead .list 0 content hs nofun h
  have hlist : list s = .ok (ofNat content.length)
      { s₀ with
        stack := ofNat content.length :: takeOff (ofNat content.length) s₀.stack
        kind := none
        size := 0 } := by
    show EStateM.bind kindAhead _ s = _
    rw [EStateM.bind, hk]
    rfl
  have hlen := toNat_length (b := content) (by
    have := h.length_lt hs.toSane
    rw [Rlp.list, List.length_append] at this
    omega)
  refine ⟨_, hlist, (sat_list hs).of_ok hlist, ⟨hahead.isPrefix, ?_⟩, rfl⟩
  rintro _ ⟨⟩
  exact hlen.ge

/-- A list whose content was taken can be closed. -/
theorem Stream.exists_listEnd {content : Bytes} (h : Filled s content) (ht : Took s s' content) :
    ∃ s'', listEnd s' = .ok () s'' := by
  have hall : Filled s (content ++ []) := by rwa [List.append_nil]
  have hfilled : Filled s' [] := hall.right ht
  have hlimit := hfilled.listLimit
  unfold listEnd
  cases hst : s'.stack with
  | nil => rw [listLimit, hst] at hlimit; cases hlimit
  | cons limit outer =>
    rw [listLimit, hst] at hlimit
    cases hlimit
    exact ⟨_, rfl⟩

/-- **A decoder of what stands in a list**: the fields of a struct, or
the elements of a slice. -/
structure Body (dec : StreamM α) (enc : α → Bytes) (ok : α → Prop) : Prop where
  sound : ∀ s, Ready s → Sat dec s
    (fun a s' => ok a ∧ Took s s' (enc a) ∧ s'.kind = none) (fun e _ => e ≠ .eol)
  filled : ∀ s a, Ready s → ok a → Filled s (enc a) →
    Sat dec s (fun a' _ => a' = a) (fun _ _ => False)

namespace Body

variable {dec : StreamM α} {enc : α → Bytes} {ok : α → Prop}

/-- What fills a list is read, and taken. -/
theorem exists_filled {s : Stream} (h : Body dec enc ok) {a : α} (hs : Ready s) (ha : ok a)
    (hfilled : Filled s (enc a)) : ∃ s', dec s = .ok a s' ∧ Took s s' (enc a) := by
  obtain ⟨a', s', hdec, rfl⟩ := exists_of_sat (h.filled s a hs ha hfilled)
  exact ⟨s', hdec, ((h.sound s hs).of_ok hdec).2.1⟩

theorem listEnd_ne_eol {s s' : Stream} {e : Err} (h : Stream.listEnd s = .error e s') :
    e ≠ .eol := by
  unfold Stream.listEnd at h
  split at h
  · cases h; exact nofun
  · split_ifs at h
    cases h
    exact nofun

/-- **Structs.** -/
theorem codec_struct (h : Body dec enc ok) :
    Codec (decodeStruct dec) (fun a => Rlp.list (enc a)) ok where
  sound s hs := by
    unfold decodeStruct
    simp only [sat_bind, sat_wrapped, sat_pure]
    refine (Stream.sat_list hs).mono (fun size s₁ hopen => ?_)
      (fun e s' he h => he (wrapStreamError_eq_eol.mp h))
    refine (h.sound s₁ (hopen.ready hs)).mono (fun a s₂ htook => ?_) (fun e _ he h => absurd h he)
    obtain ⟨ha, ht, -⟩ := htook
    cases hend : Stream.listEnd s₂ with
    | ok u s₃ => exact Sat.returns hend ⟨ha, hopen.took hs ht hend⟩
    | error e s₃ =>
      exact Sat.stops hend fun h => absurd (wrapStreamError_eq_eol.mp h) (listEnd_ne_eol hend)
  ahead s a hs ha hahead := by
    obtain ⟨s₁, hlist, hopen, hfilled⟩ := Stream.exists_list hs hahead
    obtain ⟨s₂, hdec, ht⟩ := h.exists_filled (hopen.ready hs) ha hfilled
    obtain ⟨s₃, hend⟩ := Stream.exists_listEnd hfilled ht
    unfold decodeStruct
    simp only [sat_bind, sat_wrapped, sat_pure]
    exact Sat.returns hlist (Sat.returns hdec (Sat.returns hend rfl))
  atEnd s hs hl := by
    show EStateM.bind (wrapped Stream.list) _ s = _
    rw [EStateM.bind, wrapped, show Stream.list s = _ from Stream.bind_atEnd hs hl]
    rfl
  ne_nil a _ := list_ne_nil _

end Body

namespace Codec

variable {dec : StreamM α} {enc : α → Bytes} {ok : α → Prop}

theorem sliceElems_ok {s s' : Stream} {a : α} (h : dec s = .ok a s') (fuel i : Nat) :
    sliceElems dec (fuel + 1) i s = ((a :: ·) <$> sliceElems dec fuel (i + 1)) s' := by
  simp only [sliceElems, h]

theorem sliceElems_eol {s s' : Stream} (h : dec s = .error .eol s') (fuel i : Nat) :
    sliceElems dec (fuel + 1) i s = .ok [] s' := by
  simp only [sliceElems, h]

/-- **The elements of a slice** are read one after the other, up to the end of
its list. -/
theorem sat_sliceElems (h : Codec dec enc ok) (fuel i : Nat) :
    ∀ s, Ready s → Sat (sliceElems dec fuel i) s
      (fun l s' => (∀ a ∈ l, ok a) ∧ Took s s' (l.flatMap enc) ∧ s'.kind = none)
      (fun e _ => e ≠ .eol) := by
  induction fuel generalizing i with
  | zero => exact fun s _ => nofun
  | succ fuel ih =>
    intro s hs
    have hsound := h.sound s hs
    unfold Sat sliceElems
    cases hdec : dec s with
    | ok a s₁ =>
      obtain ⟨ha, ht, hkind⟩ := hsound.of_ok hdec
      show Sat ((a :: ·) <$> sliceElems dec fuel (i + 1)) s₁ _ _
      rw [sat_map]
      refine (ih (i + 1) s₁ (ht.ready hs hkind)).mono (fun l s₂ ⟨hl, ht', hkind'⟩ => ?_)
      refine ⟨?_, ht.trans ht', hkind'⟩
      rintro b (_ | ⟨_, hb⟩)
      · exact ha
      · exact hl b hb
    | error e s₁ =>
      cases e with
      | eol =>
        rw [hsound.of_error hdec rfl]
        exact ⟨nofun, Took.refl s, hs.kind⟩
      | _ => exact addErrorContext_ne_eol _ nofun

/-- A slice that fills its list is read, with a round for each element
and one for the end. -/
theorem sliceElems_filled (h : Codec dec enc ok) (l : List α) (hl : ∀ a ∈ l, ok a) (i : Nat) :
    ∀ s fuel, Ready s → l.length < fuel → Filled s (l.flatMap enc) →
      Sat (sliceElems dec fuel i) s (fun l' _ => l' = l) (fun _ _ => False) := by
  induction l generalizing i with
  | nil =>
    intro s fuel hs hfuel hfilled
    obtain ⟨fuel, rfl⟩ := Nat.exists_eq_add_of_lt hfuel
    exact Sat.returns (sliceElems_eol (h.atEnd s hs hfilled.listLimit) _ i) rfl
  | cons a l ih =>
    intro s fuel hs hfuel hfilled
    obtain ⟨fuel, rfl⟩ := Nat.exists_eq_add_of_lt hfuel
    rw [List.flatMap_cons] at hfilled
    obtain ⟨s₁, hdec, ht, hs₁⟩ := h.exists_ahead hs (hl a List.mem_cons_self) hfilled.toAhead.left
    unfold Sat
    rw [sliceElems_ok hdec]
    show Sat ((a :: ·) <$> sliceElems dec _ (i + 1)) s₁ _ _
    rw [sat_map]
    refine (ih (fun b hb => hl b (List.mem_cons_of_mem a hb)) (i + 1) s₁ _ hs₁ ?_
      (hfilled.right ht)).mono (fun l' _ hl' => congrArg (a :: ·) hl')
    rw [List.length_cons]
    omega

theorem length_le_flatMap (h : Codec dec enc ok) {l : List α} (hl : ∀ a ∈ l, ok a) :
    l.length ≤ (l.flatMap enc).length := by
  induction l with
  | nil => exact Nat.zero_le _
  | cons a l ih =>
    have hpos := List.length_pos_of_ne_nil (h.ne_nil a (hl a List.mem_cons_self))
    have := ih fun b hb => hl b (List.mem_cons_of_mem a hb)
    rw [List.flatMap_cons, List.length_append, List.length_cons]
    omega

/-- The elements of a slice. -/
theorem body_elems (h : Codec dec enc ok) :
    Body (decodeSliceElems dec) (List.flatMap enc) (fun l => ∀ a ∈ l, ok a) where
  sound s hs := h.sat_sliceElems _ _ s hs
  filled s l hs hl hfilled := by
    refine h.sliceElems_filled l hl 0 s _ hs ?_ hfilled
    have := h.length_le_flatMap hl
    have := hfilled.isPrefix.length_le
    omega

/-- **Slices.** -/
theorem slice (h : Codec dec enc ok) :
    Codec (decodeListSlice dec) (fun l => Rlp.list (l.flatMap enc)) (fun l => ∀ a ∈ l, ok a) where
  sound s hs := by
    unfold decodeListSlice
    rw [sat_bind, sat_wrapped]
    refine (Stream.sat_list hs).mono (fun size s₁ hopen => ?_)
      (fun e s' he h => he (wrapStreamError_eq_eol.mp h))
    -- an empty list is closed at once
    have hclose : ∀ (l : List α) (s₂ : Stream), (∀ a ∈ l, ok a) → Took s₁ s₂ (l.flatMap enc) →
        Sat Stream.listEnd s₂ (fun _ s₃ => (∀ a ∈ l, ok a) ∧ Took s s₃ (Rlp.list (l.flatMap enc)) ∧
          s₃.kind = none) (fun e s' => e = .eol → s' = s) := by
      intro l s₂ hl ht
      cases hend : Stream.listEnd s₂ with
      | ok u s₃ => exact Sat.returns hend ⟨hl, hopen.took hs ht hend⟩
      | error e s₃ => exact Sat.stops hend fun h => absurd h (Body.listEnd_ne_eol hend)
    refine Sat.ite (fun _ => ?_) (fun _ => ?_)
    · rw [sat_bind]
      exact hclose [] s₁ nofun (Took.refl s₁)
    · rw [sat_bind]
      refine (h.body_elems.sound s₁ (hopen.ready hs)).mono (fun l s₂ ⟨hl, ht, _⟩ => ?_)
        (fun e _ he h => absurd h he)
      rw [sat_bind]
      exact hclose l s₂ hl ht
  ahead s l hs hl hahead := by
    obtain ⟨s₁, hlist, hopen, hfilled⟩ := Stream.exists_list hs hahead
    unfold decodeListSlice
    rw [sat_bind, sat_wrapped]
    refine Sat.returns hlist (Sat.ite (fun h0 => ?_) (fun _ => ?_))
    · -- no bytes are no elements
      have hlen : (l.flatMap enc).length = 0 := by
        have hlt := hfilled.toAhead.length_lt (hopen.ready hs).toSane
        rw [← Stream.toNat_length hlt, h0]
        rfl
      have hnil : l.flatMap enc = [] := List.eq_nil_of_length_eq_zero hlen
      have hl0 : l = [] := List.eq_nil_of_length_eq_zero
        (Nat.le_zero.mp (hlen ▸ h.length_le_flatMap hl))
      obtain ⟨s₂, hend⟩ := Stream.exists_listEnd hfilled (hnil ▸ Took.refl s₁)
      rw [sat_bind]
      exact Sat.returns hend hl0.symm
    · obtain ⟨s₂, hdec, ht⟩ := h.body_elems.exists_filled (hopen.ready hs) hl hfilled
      obtain ⟨s₃, hend⟩ := Stream.exists_listEnd hfilled ht
      rw [sat_bind]
      refine Sat.returns hdec ?_
      rw [sat_bind]
      exact Sat.returns hend rfl
  atEnd s hs hl := by
    show EStateM.bind (wrapped Stream.list) _ s = _
    rw [EStateM.bind, wrapped, show Stream.list s = _ from Stream.bind_atEnd hs hl]
    rfl
  ne_nil a _ := list_ne_nil _

/-- **What `DecodeBytes` accepts** is exactly the encodings of the values
of its type. -/
theorem decodeBytes_eq_ok (h : Codec dec enc ok) {b : Bytes} (hb : b.length < 2 ^ 63) {a : α} :
    decodeBytes dec b = .ok a ↔ ok a ∧ enc a = b := by
  have hs : Ready (Stream.ofBytes b) := ⟨⟨hb, fun _ => rfl⟩, rfl⟩
  unfold decodeBytes
  constructor
  · intro hdec
    cases hr : dec (Stream.ofBytes b) with
    | error e s => rw [hr] at hdec; cases hdec
    | ok a' s =>
      obtain ⟨ha, ht, -⟩ := (h.sound _ hs).of_ok hr
      simp only [hr] at hdec
      split_ifs at hdec with hnil
      cases hdec
      have hinput := ht.input
      rw [hnil, List.append_nil] at hinput
      exact ⟨ha, hinput.symm⟩
  · rintro ⟨ha, rfl⟩
    obtain ⟨s, hr, ht, -⟩ := h.exists_ahead hs ha ⟨List.prefix_rfl, nofun⟩
    have hnil : s.input = [] := by
      have := ht.length_eq
      rw [show (Stream.ofBytes (enc a)).input = enc a from rfl] at this
      exact List.eq_nil_of_length_eq_zero (by omega)
    simp only [hr, hnil, if_true]

end Codec

/-! ## Values of any kind -/

/-- **A decoder that starts with `Kind`**, and does not see whether the
header was read before. -/
def Peeks (m : StreamM α) : Prop :=
  ∀ s r s₁, Stream.kindAhead s = .ok r s₁ → Stream.kindAhead s₁ = .ok r s₁ → m s₁ = m s

namespace Peeks

theorem kindAhead_bind (f : Kind × UInt64 → StreamM α) : Peeks (Stream.kindAhead >>= f) := by
  intro s r s₁ h h₁
  show EStateM.bind _ f s₁ = EStateM.bind _ f s
  simp only [EStateM.bind, h, h₁]

theorem bind {m : StreamM α} (hm : Peeks m) (f : α → StreamM β) : Peeks (m >>= f) := by
  intro s r s₁ h h₁
  show EStateM.bind m f s₁ = EStateM.bind m f s
  simp only [EStateM.bind, hm s r s₁ h h₁]

theorem map {m : StreamM α} (hm : Peeks m) (f : α → β) : Peeks (f <$> m) := by
  intro s r s₁ h h₁
  show EStateM.map f m s₁ = EStateM.map f m s
  simp only [EStateM.map, hm s r s₁ h h₁]

theorem wrapped {m : StreamM α} (hm : Peeks m) : Peeks (Rlp.wrapped m) := by
  intro s r s₁ h h₁
  simp only [Rlp.wrapped, hm s r s₁ h h₁]

theorem decodeListSlice (dec : StreamM α) : Peeks (Rlp.decodeListSlice dec) :=
  (wrapped (kindAhead_bind _)).bind _

theorem bytes : Peeks Stream.bytes := kindAhead_bind _

end Peeks

mutual

/-- How deep the lists of a value are nested. -/
def Item.depth : Item → Nat
  | .string _ => 0
  | .list items => Item.depthAll items + 1

/-- How deep the lists of some values are nested. -/
def Item.depthAll : List Item → Nat
  | [] => 0
  | x :: items => max x.depth (Item.depthAll items)

end

theorem Item.depthAll_le_iff {items : List Item} {n : Nat} :
    depthAll items ≤ n ↔ ∀ x ∈ items, x.depth ≤ n := by
  induction items with
  | nil => simp [depthAll]
  | cons x items ih => simp [depthAll, ih]

/-- **Values of any type** are strings, or lists that `lists` reads and that are in
turn its values. -/
theorem codec_interfaceValue {lists : StreamM (List Item)} {ok : List Item → Prop}
    (hpeeks : Peeks lists)
    (hsound : ∀ s, Ready s → Sat lists s
      (fun l s' => ok l ∧ Took s s' (Rlp.list (Item.encodeAll l)) ∧ s'.kind = none)
      (fun e s' => e = .eol → s' = s))
    (hahead : ∀ s l, Ready s → ok l → Ahead s (Rlp.list (Item.encodeAll l)) →
      Sat lists s (fun l' _ => l' = l) (fun _ _ => False)) :
    Codec (interfaceValue lists) Item.encode
      (fun x => ∀ l, x = .list l → ok l) where
  sound s hs := by
    have hkind := Stream.sat_kindAhead hs
    unfold interfaceValue
    rw [sat_bind]
    cases hk : Stream.kindAhead s with
    | error e s₁ => exact Sat.stops hk (hkind.of_error hk)
    | ok r s₁ =>
      have hagain := (hkind.of_ok hk).again
      refine Sat.returns hk (Sat.ite (fun _ => ?_) (fun _ => ?_))
      · unfold Sat
        rw [hpeeks.map Item.list s r s₁ hk hagain]
        show Sat (Item.list <$> lists) s _ _
        rw [sat_map]
        refine (hsound s hs).mono (fun l s' htook => ?_)
        obtain ⟨hl, ht, hkind'⟩ := htook
        refine ⟨?_, ?_, hkind'⟩
        · rintro _ ⟨⟩
          exact hl
        · rw [Item.encode]
          exact ht
      · unfold Sat
        rw [Peeks.bytes.map Item.string s r s₁ hk hagain]
        show Sat (Item.string <$> Stream.bytes) s _ _
        rw [sat_map]
        refine (Stream.codec_bytes.sound s hs).mono (fun b s' htook => ?_)
        obtain ⟨-, ht, hkind'⟩ := htook
        refine ⟨?_, ?_, hkind'⟩
        · rintro _ ⟨⟩
        · rw [Item.encode]
          exact ht
  ahead s x hs hx h := by
    have hkind := Stream.sat_kindAhead hs
    unfold interfaceValue
    rw [sat_bind]
    cases x with
    | string b =>
      rw [Item.encode] at h
      obtain ⟨r, s₁, hk, hne⟩ : ∃ r s₁, Stream.kindAhead s = .ok r s₁ ∧ r.1 ≠ .list := by
        rcases Stream.ahead_string hs h with ⟨x, s₁, -, -, hk, -⟩ | ⟨size, s₁, hk, -⟩
        all_goals exact ⟨_, s₁, hk, Rlp.Kind.noConfusion⟩
      refine Sat.returns hk (Sat.ite (fun h => absurd h hne) (fun _ => ?_))
      unfold Sat
      rw [Peeks.bytes.map Item.string s r s₁ hk (hkind.of_ok hk).again]
      show Sat (Item.string <$> Stream.bytes) s _ _
      rw [sat_map]
      refine (Stream.codec_bytes.ahead s b hs trivial h).mono (fun b' _ hb => ?_)
      rw [hb]
    | list l =>
      rw [Item.encode] at h
      obtain ⟨s₁, hk, -⟩ := Stream.exists_kindAhead .list 0 _ hs Rlp.Kind.noConfusion h
      refine Sat.returns hk (Sat.ite (fun _ => ?_) (fun h => absurd rfl h))
      unfold Sat
      rw [hpeeks.map Item.list s _ s₁ hk (hkind.of_ok hk).again]
      show Sat (Item.list <$> lists) s _ _
      rw [sat_map]
      refine (hahead s l hs (hx l rfl) h).mono (fun l' _ hl => ?_)
      rw [hl]
  atEnd s hs hl := Stream.bind_atEnd hs hl
  ne_nil x _ := x.encode_ne_nil

/-- **Values of any kind**, nested no deeper than the fuel. -/
theorem codec_decodeInterface (fuel : Nat) :
    Codec (decodeInterface fuel) Item.encode (fun x => x.depth ≤ fuel) := by
  induction fuel with
  | zero =>
    have hlists : Codec (decodeInterface 0) Item.encode (fun x => ∀ l, x = .list l → False) := by
      refine codec_interfaceValue ((Peeks.kindAhead_bind _).bind _) (fun s hs => ?_)
        (fun _ _ _ => False.elim)
      exact (Stream.sat_list hs).next fun _ _ _ => nofun
    refine hlists.congr fun x => ?_
    cases x with
    | string b => simp [Item.depth]
    | list l => simp [Item.depth]
  | succ fuel ih =>
    have hslice := ih.slice
    simp only [← Item.encodeAll_eq] at hslice
    have hlists : Codec (decodeInterface (fuel + 1)) Item.encode
        (fun x => ∀ l, x = .list l → ∀ y ∈ l, y.depth ≤ fuel) :=
      codec_interfaceValue (Peeks.decodeListSlice _) hslice.sound hslice.ahead
    refine hlists.congr fun x => ?_
    cases x with
    | string b => simp [Item.depth]
    | list l => simp [Item.depth, Item.depthAll_le_iff]

end Rlp
