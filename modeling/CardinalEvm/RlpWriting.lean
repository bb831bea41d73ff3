import CardinalEvm.RlpEncode
import CardinalEvm.RlpReading

/-!
# What the writers write

A writer appends to the string data and to the headers. `Laid` says how
the two make up the bytes of an encoding: string data stands for itself,
a header stands before the string data at its position, and what is laid
out one after the other is encoded one after the other. Closing a list
fixes the size of its header to the length of what was laid out since it
was opened, and the bytes of an encoding are what `makeBytes` copies
together in the end.
-/

open UInt64

namespace Rlp

/-! ## Headers -/

theorem putint_eq {i : UInt64} (h : i ≠ 0) : putint i = digits i.toNat := by
  have hpos : i.toNat ≠ 0 := fun h0 => h (toNat.inj h0)
  have hlt : i.toNat < 256 ^ 8 := i.toNat_lt
  -- the first bound that holds is the number of bytes
  have hlen :
      ∀ n, i.toNat < 256 ^ n → (n = 1 ∨ ¬ i.toNat < 256 ^ (n - 1)) → byteLen i.toNat = n := by
    intro n hn hn'
    have hle := byteLen_le_iff.mpr hn
    have hge := byteLen_pos hpos
    rcases hn' with rfl | hn'
    · omega
    · rw [← byteLen_le_iff] at hn'
      omega
  unfold putint digits
  split_ifs with h1 h2 h3 h4 h5 h6 h7
  · rw [hlen 1 h1 (.inl rfl)]
  · rw [hlen 2 h2 (.inr h1)]
  · rw [hlen 3 h3 (.inr h2)]
  · rw [hlen 4 h4 (.inr h3)]
  · rw [hlen 5 h5 (.inr h4)]
  · rw [hlen 6 h6 (.inr h5)]
  · rw [hlen 7 h7 (.inr h6)]
  · rw [hlen 8 hlt (.inr h7)]

variable {n : Nat} {b : Bytes} {heads : List ListHead}

theorem ofNat_ne_zero (hpos : 0 < n) (h : n < 2 ^ 63) : ofNat n ≠ 0 := by
  intro h0
  have htoNat : (ofNat n).toNat = n :=
    toNat_ofNat_of_lt' (show n < 18446744073709551616 by omega)
  rw [h0] at htoNat
  exact hpos.ne htoNat

theorem putint_ofNat (hpos : 0 < n) (h : n < 2 ^ 63) :
    putint (ofNat n) = digits n := by
  rw [putint_eq (ofNat_ne_zero hpos h),
    toNat_ofNat_of_lt' (show n < 18446744073709551616 by omega)]

theorem puthead_ofNat {small large : UInt8} (h : n < 2 ^ 63) :
    puthead small large (ofNat n) = header small large n := by
  have htoNat : (ofNat n).toNat = n :=
    toNat_ofNat_of_lt' (show n < 18446744073709551616 by omega)
  have hlt : ofNat n < 56 ↔ n < 56 := by rw [lt_iff_toNat_lt, htoNat]; rfl
  unfold puthead header
  by_cases h56 : n < 56
  · have hbyte : (ofNat n).toUInt8 = UInt8.ofNat n := by
      apply UInt8.toNat.inj
      rw [toNat_toUInt8, htoNat, UInt8.toNat_ofNat']
    rw [if_pos h56, if_pos (hlt.mpr h56), hbyte]
  · rw [if_neg h56, if_neg (mt hlt.mp h56), putint_ofNat (by omega) h, length_digits]

theorem byteLen_div_le_iff {k : Nat} : byteLen (n / 256) ≤ k ↔ byteLen n ≤ k + 1 := by
  rw [byteLen_le_iff, byteLen_le_iff, pow_succ, Nat.div_lt_iff_lt_mul (by decide)]

theorem intsizeFrom_eq (rounds : Nat) : ∀ (i : UInt64) (size : Nat), i ≠ 0 →
    byteLen i.toNat ≤ rounds → intsizeFrom rounds i size + 1 = size + byteLen i.toNat := by
  induction rounds with
  | zero =>
    intro i size hi hle
    have hpos := byteLen_pos (n := i.toNat) fun h0 => hi (toNat.inj h0)
    omega
  | succ rounds ih =>
    intro i size hi hle
    have hpos := byteLen_pos (n := i.toNat) fun h0 => hi (UInt64.toNat.inj h0)
    have hshift : (i >>> 8).toNat = i.toNat / 256 := by
      rw [UInt64.toNat_shiftRight]
      exact Nat.shiftRight_eq_div_pow _ 8
    rw [intsizeFrom]
    by_cases h0 : i >>> 8 = 0
    · have hone : byteLen (i.toNat / 256) ≤ 0 := by rw [← hshift, h0]; exact le_rfl
      rw [if_pos h0]
      have := byteLen_div_le_iff.mp hone
      omega
    · have hdiv := byteLen_div_le_iff.mp (le_refl (byteLen (i.toNat / 256)))
      have hdiv' := byteLen_div_le_iff.mpr (show byteLen i.toNat ≤ byteLen i.toNat - 1 + 1 by omega)
      have hrec := ih (i >>> 8) (size + 1) h0 (by rw [hshift]; omega)
      have hpos' := byteLen_pos (n := (i >>> 8).toNat) fun h => h0 (toNat.inj h)
      rw [if_neg h0]
      rw [hshift] at hrec hpos'
      omega

/-- The size of a header that `listEnd` counts is its length. -/
theorem length_header {small large : UInt8} (h : n < 2 ^ 63) :
    (if n < 56 then 1 else 1 + intsize (ofNat n)) = (header small large n).length := by
  by_cases h56 : n < 56
  · rw [if_pos h56, header, if_pos h56]
    rfl
  · have htoNat : (ofNat n).toNat = n :=
      toNat_ofNat_of_lt' (show n < 18446744073709551616 by omega)
    have hsize := intsizeFrom_eq 8 (ofNat n) 1 (ofNat_ne_zero (by omega) h)
      (by rw [htoNat]; exact byteLen_le_iff.mpr (h.trans (by decide)))
    rw [htoNat] at hsize
    rw [if_neg h56, header, if_neg h56, List.length_cons, length_digits, intsize]
    omega

/-! ## The loops over words -/

theorem toBytes_add (m k x : ℕ) : toBytes (m + k) x = toBytes m (x / 256 ^ k) ++ toBytes k x := by
  induction m with
  | zero => rw [Nat.zero_add]; rfl
  | succ m ih =>
    rw [Nat.succ_add, toBytes_succ, toBytes_succ, ih, Nat.div_div_eq_div_mul, ← pow_add,
      Nat.add_comm k, List.cons_append]

theorem toBytes_mod (k x : ℕ) : toBytes k (x % 256 ^ k) = toBytes k x := by
  have h := toBytes_beNat (toBytes k x)
  rwa [length_toBytes, beNat_toBytes] at h

/-- Words above the first do not show in its bytes. -/
theorem toBytes_add_mul {k : ℕ} (hk : k ≤ 8) (x q : ℕ) :
    toBytes k (x + 2 ^ 64 * q) = toBytes k x := by
  obtain ⟨c, hc⟩ : 256 ^ k ∣ 2 ^ 64 := pow_dvd_pow 256 hk
  rw [← toBytes_mod, hc, mul_assoc, Nat.add_mul_mod_self_left, toBytes_mod]

theorem putWord_eq (j : ℕ) : ∀ (index : ℕ) (out : Bytes) (d : ℕ),
    putWord j (index, out) d = (index - min j index, toBytes (min j index) d ++ out) := by
  induction j with
  | zero =>
    intro index out d
    rw [Nat.zero_min]
    rfl
  | succ j ih =>
    intro index out d
    cases index with
    | zero => rfl
    | succ index =>
      rw [putWord, ih, Nat.succ_min_succ, Nat.succ_sub_succ, toBytes_add _ 1, List.append_assoc,
        toBytes_succ 0, pow_zero, Nat.div_one, pow_one]
      rfl

/-- The words fill the buffer from its end. -/
theorem foldl_putWord (ws : List ℕ) : ∀ (index : ℕ) (out : Bytes), (∀ w ∈ ws, w < 2 ^ 64) →
    List.replicate (ws.foldl (putWord 8) (index, out)).1 0 ++ (ws.foldl (putWord 8) (index, out)).2
      = toBytes index (Nat.ofDigits (2 ^ 64) ws) ++ out := by
  induction ws with
  | nil =>
    intro index out _
    have hzero : toBytes index 0 = List.replicate index 0 := by simp [toBytes]
    rw [Nat.ofDigits_nil, hzero]
    rfl
  | cons w ws ih =>
    intro index out hws
    rw [List.forall_mem_cons] at hws
    rw [List.foldl_cons, putWord_eq, ih _ _ hws.2, Nat.ofDigits_cons, ← List.append_assoc]
    congr 1
    generalize Nat.ofDigits (2 ^ 64) ws = q
    by_cases h8 : 8 ≤ index
    · have hdiv : (w + 2 ^ 64 * q) / 256 ^ 8 = q := by
        rw [show 256 ^ 8 = 2 ^ 64 by norm_num]
        have := hws.1
        omega
      obtain ⟨m, rfl⟩ := Nat.exists_eq_add_of_le' h8
      rw [min_eq_left h8, Nat.add_sub_cancel, toBytes_add m 8, toBytes_add_mul le_rfl]
      exact congrArg (toBytes m · ++ _) hdiv.symm
    · rw [min_eq_right (by omega), Nat.sub_self, toBytes_add_mul (by omega)]
      rfl

theorem putWords_eq (length i : ℕ) : putWords length i = toBytes length i := by
  have h := foldl_putWord (Nat.digits (2 ^ 64) i) length []
    fun _ => Nat.digits_lt_base (by norm_num)
  rwa [Nat.ofDigits_digits, List.append_nil] at h

theorem putLimbs_eq {nBytes : ℕ} (h : nBytes ≤ 32) (z : Word) :
    putLimbs nBytes z = (0x80 + UInt8.ofNat nBytes) :: toBytes nBytes z.toNat := by
  have hlimb :
      ∀ k, toBytes 8 (z.toNat / 2 ^ (64 * k) % 2 ^ 64) = toBytes 8 (z.toNat / 256 ^ (8 * k)) := by
    intro k
    rw [show 2 ^ (64 * k) = 256 ^ (8 * k) by
      rw [show 256 = 2 ^ 8 by rfl, ← pow_mul]; congr 1; omega]
    exact toBytes_mod 8 _
  have hlimbs : toBytes 8 (z.toNat / 256 ^ (8 * 3)) ++ toBytes 8 (z.toNat / 256 ^ (8 * 2))
      ++ toBytes 8 (z.toNat / 256 ^ (8 * 1)) ++ toBytes 8 (z.toNat / 256 ^ (8 * 0))
      = toBytes 32 z.toNat := by
    rw [toBytes_add 24 8, toBytes_add 16 8, toBytes_add 8 8]
    simp only [Nat.div_div_eq_div_mul, ← pow_add, Nat.reduceAdd, Nat.reduceMul, pow_zero,
      Nat.div_one]
  unfold putLimbs
  simp only [hlimb, hlimbs]
  rw [List.set_eq_take_append_cons_drop, if_pos (by simp; omega),
    List.drop_left' (by simp; omega), List.drop_succ_cons]
  obtain ⟨m, hm⟩ := Nat.exists_eq_add_of_le' h
  rw [show (32 : ℕ) - nBytes = m by omega, hm, toBytes_add m, List.drop_left' (length_toBytes _ _)]

/-! ## Layout -/

/-- **How string data and headers make up an encoding**, from a position
in the string data on. -/
inductive Laid : Nat → Bytes → List ListHead → Bytes → Prop where
  | str (pos : Nat) (b : Bytes) : Laid pos b [] b
  | head {pos size : Nat} {str b : Bytes} {heads : List ListHead} (h : size < 2 ^ 63) :
      Laid pos str heads b → Laid pos str (⟨pos, size⟩ :: heads) (header 0xC0 0xF7 size ++ b)
  | append {pos : Nat} {str str' b b' : Bytes} {heads heads' : List ListHead} :
      Laid pos str heads b → Laid (pos + str.length) str' heads' b' →
        Laid pos (str ++ str') (heads ++ heads') (b ++ b')

theorem Laid.offset_ge {pos : Nat} {str : Bytes} (h : Laid pos str heads b) :
    ∀ lh ∈ heads, pos ≤ lh.offset := by
  induction h with
  | str pos b => exact nofun
  | head h hl ih =>
    rintro lh (_ | ⟨_, hmem⟩)
    · exact le_rfl
    · exact ih lh hmem
  | append hl hl' ih ih' =>
    intro lh hmem
    rcases List.mem_append.mp hmem with hmem | hmem
    · exact ih lh hmem
    · exact (Nat.le_add_right _ _).trans (ih' lh hmem)

/-- String data up to the next header is copied. -/
theorem copyFrom_skip (str : Bytes) {p q : Nat} (hpq : p ≤ q)
    (hnext : ∀ lh ∈ heads.head?, q ≤ lh.offset) :
    EncBuffer.copyFrom str p heads
      = (str.drop p).take (q - p) ++ EncBuffer.copyFrom str q heads := by
  obtain ⟨k, rfl⟩ := Nat.exists_eq_add_of_le hpq
  cases heads with
  | nil =>
    rw [EncBuffer.copyFrom, EncBuffer.copyFrom, Nat.add_sub_cancel_left, ← List.drop_drop,
      List.take_append_drop]
  | cons lh heads =>
    have hle : p + k ≤ lh.offset := hnext lh rfl
    have hsplit : lh.offset - p = k + (lh.offset - (p + k)) := by omega
    rw [EncBuffer.copyFrom, EncBuffer.copyFrom, Nat.add_sub_cancel_left, hsplit, List.take_add,
      List.drop_drop]
    simp only [List.append_assoc]

/-- **`copyTo` copies a layout together.** -/
theorem Laid.copyFrom {pos : Nat} {str : Bytes} (h : Laid pos str heads b) :
    ∀ (before after : Bytes) (heads' : List ListHead), before.length = pos →
      (∀ lh ∈ heads'.head?, pos + str.length ≤ lh.offset) →
      EncBuffer.copyFrom (before ++ str ++ after) pos (heads ++ heads')
        = b ++ EncBuffer.copyFrom (before ++ str ++ after) (pos + str.length) heads' := by
  induction h with
  | str pos b =>
    intro before after heads' hpos hnext
    subst hpos
    rw [List.nil_append, copyFrom_skip _ (Nat.le_add_right _ _) hnext, Nat.add_sub_cancel_left,
      List.append_assoc, List.drop_left, List.take_left]
  | head h hl ih =>
    intro before after heads' hpos hnext
    rw [List.cons_append, EncBuffer.copyFrom, Nat.sub_self, List.take_zero, List.nil_append,
      ih before after heads' hpos hnext, ListHead.encode, puthead_ofNat h, ← List.append_assoc]
  | @append pos str str' b b' heads heads'' hl hl' ih ih' =>
    intro before after heads' hpos hnext
    have hfirst := ih before (str' ++ after) (heads'' ++ heads') hpos (by
      intro lh hmem
      cases heads'' with
      | nil =>
        have := hnext lh hmem
        rw [List.length_append] at this
        omega
      | cons lh' heads'' =>
        cases hmem
        exact hl'.offset_ge lh List.mem_cons_self)
    have hsecond := ih' (before ++ str) after heads' (by rw [List.length_append, hpos]) (by
      intro lh hmem
      have := hnext lh hmem
      rw [List.length_append] at this
      omega)
    simp only [List.append_assoc, List.length_append, Nat.add_assoc] at hfirst hsecond ⊢
    rw [hfirst, hsecond]

/-! ## Writers -/

/-- **What was appended between two buffers.** -/
structure Appended (buf buf' : EncBuffer) (b : Bytes) : Prop where
  ex : ∃ str heads, buf'.str = buf.str ++ str ∧ buf'.lheads = buf.lheads ++ heads ∧
    Laid buf.str.length str heads b ∧ buf'.lhsize + str.length = buf.lhsize + b.length

/-- An encoding was written, or one too long for any buffer. -/
def Wrote (buf buf' : EncBuffer) (b : Bytes) : Prop :=
  Appended buf buf' b ∨ (buf.size + 2 ^ 63 ≤ buf'.size ∧ 2 ^ 63 ≤ b.length)

/-- **A writer of an encoding.** -/
def Writes (write : EncM Unit) (b : Bytes) : Prop :=
  ∀ buf, ∃ buf', write buf = .ok () buf' ∧ Wrote buf buf' b

namespace Appended

variable {buf buf' buf'' : EncBuffer} {b b' : Bytes}

theorem refl (buf : EncBuffer) : Appended buf buf [] :=
  ⟨[], [], (List.append_nil _).symm, (List.append_nil _).symm, Laid.str _ _, rfl⟩

theorem trans (h : Appended buf buf' b) (h' : Appended buf' buf'' b') :
    Appended buf buf'' (b ++ b') := by
  obtain ⟨str, heads, hstr, hheads, hlaid, hsize⟩ := h.ex
  obtain ⟨str', heads', hstr', hheads', hlaid', hsize'⟩ := h'.ex
  refine ⟨str ++ str', heads ++ heads', ?_, ?_, ?_, ?_⟩
  · rw [hstr', hstr, List.append_assoc]
  · rw [hheads', hheads, List.append_assoc]
  · rw [hstr, List.length_append] at hlaid'
    exact hlaid.append hlaid'
  · rw [List.length_append, List.length_append]
    omega

theorem size_eq (h : Appended buf buf' b) : buf'.size = buf.size + b.length := by
  obtain ⟨str, heads, hstr, -, -, hsize⟩ := h.ex
  rw [EncBuffer.size, EncBuffer.size, hstr, List.length_append]
  omega

/-- What `copyTo` copies out of a buffer that was filled from an empty one. -/
theorem copyFrom_eq (h : Appended EncBuffer.empty buf b) :
    EncBuffer.copyFrom buf.str 0 buf.lheads = b := by
  obtain ⟨str, heads, hstr, hheads, hlaid, -⟩ := h.ex
  obtain rfl : buf.str = str := hstr
  obtain rfl : buf.lheads = heads := hheads
  have hcopy := hlaid.copyFrom [] [] [] rfl nofun
  rw [List.nil_append, List.append_nil, List.append_nil] at hcopy
  refine hcopy.trans ?_
  rw [EncBuffer.copyFrom, List.drop_eq_nil_of_le (Nat.le_add_left _ _), List.append_nil]

/-- **The bytes of an empty buffer** are those that were appended. -/
theorem makeBytes (h : Appended EncBuffer.empty buf b) : buf.makeBytes = b := by
  have hlen : buf.size = b.length := h.size_eq.trans (Nat.zero_add _)
  rw [EncBuffer.makeBytes, h.copyFrom_eq, hlen, Nat.sub_self, List.replicate_zero, List.append_nil,
    List.take_length]

end Appended

namespace Wrote

variable {buf buf' buf'' : EncBuffer} {b b' : Bytes}

theorem size_le (h : Wrote buf buf' b) : buf.size + min b.length (2 ^ 63) ≤ buf'.size := by
  rcases h with h | ⟨h, -⟩
  · have := h.size_eq
    omega
  · omega

theorem trans (h : Wrote buf buf' b) (h' : Wrote buf' buf'' b') : Wrote buf buf'' (b ++ b') := by
  have hle := h.size_le
  have hle' := h'.size_le
  rcases h with h | ⟨-, hlen⟩
  · rcases h' with h' | ⟨-, hlen'⟩
    · exact .inl (h.trans h')
    · refine .inr ⟨by omega, ?_⟩
      rw [List.length_append]
      omega
  · refine .inr ⟨by omega, ?_⟩
    rw [List.length_append]
    omega

theorem appended (h : Wrote buf buf' b) (hb : b.length < 2 ^ 63) : Appended buf buf' b := by
  rcases h with h | ⟨-, hlen⟩
  · exact h
  · omega

end Wrote

namespace Writes

variable {write write' : EncM Unit} {b b' : Bytes}

theorem append (b : Bytes) : Writes (EncBuffer.append b) b := fun _ =>
  ⟨_, rfl, .inl ⟨b, [], rfl, (List.append_nil _).symm, Laid.str _ _, rfl⟩⟩

theorem seq (h : Writes write b) (h' : Writes write' b') :
    Writes (do write; write') (b ++ b') := by
  intro buf
  obtain ⟨buf₁, hw, ha⟩ := h buf
  obtain ⟨buf₂, hw', ha'⟩ := h' buf₁
  refine ⟨buf₂, ?_, ha.trans ha'⟩
  show EStateM.bind write (fun _ => write') buf = _
  rw [EStateM.bind, hw]
  exact hw'

theorem of_eq (h : Writes write b) (hb : b = b') : Writes write b' := hb ▸ h

theorem forM {writers : List (EncM Unit × Bytes)} (h : ∀ w ∈ writers, Writes w.1 w.2) :
    Writes ((writers.map (·.1)).forM id) (writers.flatMap (·.2)) := by
  induction writers with
  | nil => exact fun buf => ⟨buf, rfl, .inl (Appended.refl buf)⟩
  | cons w writers ih =>
    exact (h w List.mem_cons_self).seq (ih fun w' hw => h w' (List.mem_cons_of_mem w hw))

theorem size_le_closed (index : Nat) (buf : EncBuffer) : buf.size ≤ (buf.closed index).size := by
  unfold EncBuffer.closed
  split
  · exact le_rfl
  · show _ ≤ buf.str.length + (buf.lhsize + _)
    rw [EncBuffer.size]
    omega

/-- **A list that was opened and closed** is the encoding of a list of
what was appended in between. -/
theorem appended_closed {buf buf₁ : EncBuffer} {content : Bytes}
    (ha : Appended buf.opened buf₁ content) (hlen : content.length < 2 ^ 63) :
    Appended buf (buf₁.closed buf.lheads.length) (Rlp.list content) := by
  obtain ⟨str, heads, hstr, hheads, hlaid, hsize⟩ := ha.ex
  have hstr : buf₁.str = buf.str ++ str := hstr
  have hheads : buf₁.lheads = buf.lheads ++ ⟨buf.str.length, buf.lhsize⟩ :: heads := by
    rw [hheads]
    exact List.append_assoc _ _ _
  have hsize : buf₁.lhsize + str.length = buf.lhsize + content.length := hsize
  -- what was laid out since the list was opened is its content
  have hcount : buf₁.size - buf.str.length - buf.lhsize = content.length := by
    rw [EncBuffer.size, hstr, List.length_append]
    omega
  have hget : buf₁.lheads[buf.lheads.length]? = some ⟨buf.str.length, buf.lhsize⟩ := by
    rw [hheads, List.getElem?_append_right le_rfl, Nat.sub_self]
    rfl
  have hset : buf₁.lheads.set buf.lheads.length ⟨buf.str.length, content.length⟩
      = buf.lheads ++ ⟨buf.str.length, content.length⟩ :: heads := by
    rw [hheads, List.set_append_right _ _ le_rfl, Nat.sub_self]
    rfl
  have hclosed : buf₁.closed buf.lheads.length =
      { str := buf₁.str
        lheads := buf.lheads ++ ⟨buf.str.length, content.length⟩ :: heads
        lhsize := buf₁.lhsize + (header 0xC0 0xF7 content.length).length } := by
    rw [← length_header hlen, ← hset, ← hcount]
    simp only [EncBuffer.closed, hget]
  rw [hclosed]
  refine ⟨str, _, hstr, rfl, hlaid.head hlen, ?_⟩
  rw [Rlp.list, List.length_append]
  show buf₁.lhsize + _ + _ = _
  omega

/-- **A list around writers.** -/
theorem list (writers : List (EncM Unit × Bytes)) (h : ∀ w ∈ writers, Writes w.1 w.2) :
    Writes (EncBuffer.writeList (writers.map (·.1))) (Rlp.list (writers.flatMap (·.2))) := by
  intro buf
  obtain ⟨buf₁, hw, ha⟩ := Writes.forM h buf.opened
  refine ⟨buf₁.closed buf.lheads.length, ?_, ?_⟩
  · unfold EncBuffer.writeList
    show EStateM.bind EncBuffer.list _ buf = _
    rw [EStateM.bind, EncBuffer.list]
    show EStateM.bind _ (fun _ => EncBuffer.listEnd buf.lheads.length) buf.opened = _
    rw [EStateM.bind, hw]
    rfl
  · generalize writers.flatMap (·.2) = content at ha ⊢
    by_cases hlen : content.length < 2 ^ 63
    · exact .inl (appended_closed (ha.appended hlen) hlen)
    · have hsize := ha.size_le
      have hclosed := size_le_closed buf.lheads.length buf₁
      have hopened : buf.opened.size = buf.size := rfl
      refine .inr ⟨by omega, ?_⟩
      rw [Rlp.list, List.length_append]
      omega

/-- **A writer that cannot write its value**, into any buffer. -/
def Fails (write : EncM Unit) : Prop := ∀ buf, ∃ buf', write buf = .error .negativeBigInt buf'

theorem Fails.forM {w : EncM Unit} {writers : List (EncM Unit)} (h : Fails w) (hw : w ∈ writers) :
    Fails (writers.forM id) := by
  induction writers with
  | nil => cases hw
  | cons w' writers ih =>
    intro buf
    show ∃ buf', EStateM.bind w' (fun _ => writers.forM id) buf = _
    rw [EStateM.bind]
    cases hw' : w' buf with
    | error e buf' =>
      cases e
      exact ⟨buf', rfl⟩
    | ok _ buf₁ =>
      rcases List.mem_cons.mp hw with rfl | hmem
      · obtain ⟨buf', hbuf'⟩ := h buf
        rw [hbuf'] at hw'
        cases hw'
      · exact ih hmem buf₁

/-- A list with an element that cannot be written cannot be written. -/
theorem Fails.list {w : EncM Unit} {writers : List (EncM Unit)} (h : Fails w) (hw : w ∈ writers) :
    Fails (EncBuffer.writeList writers) := by
  intro buf
  obtain ⟨buf', hbuf'⟩ := h.forM hw buf.opened
  refine ⟨buf', ?_⟩
  show EStateM.bind (writers.forM id) _ buf.opened = _
  rw [EStateM.bind, hbuf']

theorem Fails.bigInt {v : Int} (h : v < 0) :
    Fails (if v < 0 then throw .negativeBigInt else EncBuffer.writeBigInt v.toNat) := by
  intro buf
  rw [if_pos h]
  exact ⟨buf, rfl⟩

/-! ## Strings and integers -/

theorem stringHeader {n : Nat} (h : n < 2 ^ 63) :
    Writes (EncBuffer.encodeStringHeader n) (header 0x80 0xB7 n) := by
  unfold EncBuffer.encodeStringHeader header
  by_cases h56 : n < 56
  · rw [if_pos h56, if_pos h56]
    exact append _
  · rw [if_neg h56, if_neg h56, putint_ofNat (by omega) h, ← length_digits]
    exact append _

/-- A header and the string it announces. -/
theorem headed {b : Bytes} (hb : ∀ x, b = [x] → 0x7F < x) :
    Writes (do EncBuffer.encodeStringHeader b.length; EncBuffer.append b) (string b) := by
  rw [string_of_ne hb]
  by_cases hlen : b.length < 2 ^ 63
  · exact (stringHeader hlen).seq (append b)
  · intro buf
    obtain ⟨h, hh⟩ : ∃ h, EncBuffer.encodeStringHeader b.length = EncBuffer.append h := by
      unfold EncBuffer.encodeStringHeader
      rw [if_neg (by omega)]
      exact ⟨_, rfl⟩
    rw [hh]
    refine ⟨_, rfl, .inr ⟨?_, ?_⟩⟩
    · show buf.str.length + buf.lhsize + _ ≤ ((buf.str ++ h) ++ b).length + buf.lhsize
      rw [List.length_append, List.length_append]
      omega
    · rw [List.length_append]
      omega

theorem bytes (b : Bytes) : Writes (EncBuffer.writeBytes b) (string b) := by
  unfold EncBuffer.writeBytes
  split
  · next x =>
    by_cases hx : x ≤ 0x7F
    · rw [if_pos hx, string_byte hx]
      exact append _
    · rw [if_neg hx]
      refine headed (b := [x]) ?_
      rintro _ ⟨⟩
      exact UInt8.not_le.mp hx
  · next hne => exact headed fun x hx => absurd hx (hne x)

theorem byteArray (b : Bytes) : Writes (EncBuffer.writeByteArray b) (string b) := by
  unfold EncBuffer.writeByteArray
  split
  · exact append _
  · next x =>
    by_cases hx : x ≤ 0x7F
    · rw [if_pos hx, string_byte hx]
      exact append _
    · rw [if_neg hx, string, if_neg hx]
      exact append _
  · next hne => exact headed fun x hx => absurd hx (hne x)

theorem digits_of_lt {n : Nat} (hpos : n ≠ 0) (h : n < 256) : digits n = [UInt8.ofNat n] := by
  have hlen : byteLen n = 1 := by
    have := byteLen_le_iff (k := 1).mpr (by omega : n < 256 ^ 1)
    have := byteLen_pos hpos
    omega
  rw [digits, hlen, toBytes_succ, pow_zero, Nat.div_one]
  rfl

/-- Digits that are not one byte below 128 have a header. -/
theorem digits_ne {n : Nat} (h : 128 ≤ n) : ∀ x, digits n = [x] → 0x7F < x := by
  intro x hx
  have hn : x.toNat = n := by
    rw [← Stream.beNat_byte, ← hx, beNat_digits]
  rw [UInt8.lt_iff_toNat_lt, hn]
  exact h

/-- The encoding of a machine integer, by the cases of `writeUint64`. -/
theorem uint_toNat (i : UInt64) : Rlp.uint i.toNat = if i = 0 then [0x80]
    else if i < 128 then [i.toUInt8]
    else (0x80 + UInt8.ofNat (putint i).length) :: putint i := by
  by_cases h0 : i = 0
  · subst h0
    rfl
  have hpos : i.toNat ≠ 0 := fun h => h0 (toNat.inj h)
  rw [if_neg h0]
  by_cases hlt : i < 128
  · have hlt' := lt_iff_toNat_lt.mp hlt
    have hbyte : i.toUInt8 = UInt8.ofNat i.toNat := by
      apply UInt8.toNat.inj
      rw [toNat_toUInt8, UInt8.toNat_ofNat']
    have hle : i.toUInt8 ≤ 0x7F := by
      rw [UInt8.le_iff_toNat_le, toNat_toUInt8]
      show i.toNat % 256 ≤ 127
      have : i.toNat < 128 := hlt'
      omega
    rw [if_pos hlt, Rlp.uint, digits_of_lt hpos (hlt'.trans (by decide)), ← hbyte, string_byte hle]
  · have hge : 128 ≤ i.toNat := le_iff_toNat_le.mp (UInt64.not_lt.mp hlt)
    have hlen : byteLen i.toNat ≤ 8 := byteLen_le_iff.mpr i.toNat_lt
    rw [if_neg hlt, Rlp.uint, string_of_ne (digits_ne hge), putint_eq h0, length_digits,
      Stream.header_of_lt (by omega)]
    rfl

theorem uint64 (i : UInt64) : Writes (EncBuffer.writeUint64 i) (Rlp.uint i.toNat) := by
  unfold EncBuffer.writeUint64
  rw [uint_toNat]
  split_ifs <;> exact append _

theorem bigInt (n : Nat) : Writes (EncBuffer.writeBigInt n) (Rlp.uint n) := by
  unfold EncBuffer.writeBigInt
  by_cases h64 : bitLen n ≤ 64
  · have hlt := bitLen_le_iff.mp h64
    rw [if_pos h64]
    refine (uint64 _).of_eq ?_
    rw [toNat_ofNat_of_lt' hlt]
  · have hge : 128 ≤ n := by
      rw [bitLen_le_iff, not_lt] at h64
      exact le_trans (by decide) h64
    rw [if_neg h64]
    have hheaded := headed (digits_ne hge)
    rw [length_digits] at hheaded
    show Writes
      (do EncBuffer.encodeStringHeader (byteLen n); EncBuffer.append (putWords (byteLen n) n)) _
    rwa [putWords_eq]

/-- The writer of a `big.Int`, which refuses negative ones. -/
theorem int {v : Int} (h : 0 ≤ v) :
    Writes (if v < 0 then throw .negativeBigInt else EncBuffer.writeBigInt v.toNat)
      (Rlp.uint v.toNat) := by
  rw [if_neg (not_lt.mpr h)]
  exact bigInt _

theorem uint256 (z : Word) : Writes (EncBuffer.writeUint256 z) (Rlp.uint z.toNat) := by
  unfold EncBuffer.writeUint256
  by_cases h64 : bitLen z.toNat ≤ 64
  · have hlt := bitLen_le_iff.mp h64
    rw [if_pos h64]
    refine (uint64 _).of_eq ?_
    rw [toNat_ofNat_of_lt' hlt]
  · have hge : 128 ≤ z.toNat := by
      rw [bitLen_le_iff, not_lt] at h64
      exact le_trans (by decide) h64
    have hlen : byteLen z.toNat ≤ 32 := byteLen_le_iff.mpr (z.isLt.trans_eq (by norm_num))
    show Writes (if _ then _ else EncBuffer.append (putLimbs (byteLen z.toNat) z)) _
    rw [if_neg h64, putLimbs_eq hlen, Rlp.uint, string_of_ne (digits_ne hge), length_digits,
      Stream.header_of_lt (by omega)]
    exact append _

end Writes

/-! ## Values -/

theorem length_makeBytes (buf : EncBuffer) : buf.makeBytes.length = buf.size := by
  rw [EncBuffer.makeBytes, List.length_take, List.length_append, List.length_replicate]
  omega

/-- **What `EncodeToBytes` returns** is the encoding, and nothing else
that fits into memory. -/
theorem encodeToBytes_eq_ok {write : EncM Unit} {b' : Bytes} (h : Writes write b)
    (hb : b'.length < 2 ^ 63) : encodeToBytes write = .ok b' ↔ b = b' := by
  obtain ⟨buf, hw, ha⟩ := h EncBuffer.empty
  rw [encodeToBytes, hw]
  rw [Except.ok.injEq]
  rcases ha with ha | ⟨hsize, hlen⟩
  · rw [ha.makeBytes]
  · have hmake := length_makeBytes buf
    constructor
    all_goals
      rintro rfl
      omega

/-- A slice around the writers of its elements. -/
theorem Writes.slice {α : Type} {write : α → EncM Unit} {enc : α → Bytes} {l : List α}
    (h : ∀ a ∈ l, Writes (write a) (enc a)) :
    Writes (EncBuffer.writeSlice (l.map write)) (Rlp.list (l.flatMap enc)) := by
  cases l with
  | nil => exact Writes.append _
  | cons a l =>
    have hlist := Writes.list ((a :: l).map fun a => (write a, enc a)) (by
      intro w hw
      obtain ⟨a, ha, rfl⟩ := List.mem_map.mp hw
      exact h a ha)
    rw [List.map_map, List.flatMap_map] at hlist
    exact hlist

theorem Item.writeAll_eq (items : List Item) : writeAll items = items.map write := by
  induction items with
  | nil => rw [writeAll, List.map_nil]
  | cons x items ih => rw [writeAll, List.map_cons, ih]

mutual

/-- A value is written as its encoding. -/
theorem Item.writes : (x : Item) → Writes x.write x.encode
  | .string b => by
    rw [write, encode]
    exact Writes.bytes b
  | .list items => by
    rw [write, encode, writeAll_eq, encodeAll_eq]
    exact Writes.slice (Item.writes_all items)

theorem Item.writes_all : (items : List Item) → ∀ x ∈ items, Writes x.write x.encode
  | [] => nofun
  | x :: items => by
    rintro y (_ | ⟨_, hy⟩)
    · exact x.writes
    · exact Item.writes_all items y hy

end

end Rlp
