import CardinalEvm.RlpReading

/-!
# Splitting raw values

`rlp.Split` looks at the first value of a slice without a stream: its
kind, its content and what comes after it. It reads headers on its own,
with the same rules as the stream, so that the encodings of strings and
lists are split where they were put together.
-/

open Rlp.Stream (first_lt_iff toUInt64_first byteLen_le_eight header_of_lt header_of_le)

namespace Rlp

/-- `readSize`: the size in the first `slen` bytes. -/
def readSize (b : Bytes) (slen : UInt8) : Except Err UInt64 :=
  if b.length < slen.toNat then .error .unexpectedEOF
  else
    let s := UInt64.ofNat (beNat (b.take slen.toNat))
    if s < 56 ∨ b.head? = some 0 then .error .canonSize else .ok s

/-- The kind of a value, the size of its tag and that of its content. -/
structure Tag where
  kind : Kind
  tagsize : UInt64
  contentsize : UInt64

/-- The cases of `readKind`, on the first byte and those after it. -/
def tagOf (b : UInt8) (buf : Bytes) : Except Err Tag :=
  if b < 0x80 then .ok ⟨.byte, 0, 1⟩
  else if b < 0xB8 then
    -- a string that should have been a single byte
    if b - 0x80 = 1 ∧ buf.head?.any (· < 128) then .error .canonSize
    else .ok ⟨.string, 1, (b - 0x80).toUInt64⟩
  else if b < 0xC0 then
    (readSize buf (b - 0xB7)).map fun size => ⟨.string, (b - 0xB7).toUInt64 + 1, size⟩
  else if b < 0xF8 then .ok ⟨.list, 1, (b - 0xC0).toUInt64⟩
  else (readSize buf (b - 0xF7)).map fun size => ⟨.list, (b - 0xF7).toUInt64 + 1, size⟩

/-- `readKind`. -/
def readKind : Bytes → Except Err Tag
  | [] => .error .unexpectedEOF
  | b :: buf => do
    let tag ← tagOf b buf
    if UInt64.ofNat (buf.length + 1) - tag.tagsize < tag.contentsize then throw .valueTooLarge
    return tag

/-- **`Split`**: the kind and the content of the first value, and the
bytes after it. -/
def split (b : Bytes) : Except Err (Kind × Bytes × Bytes) := do
  let tag ← readKind b
  return (tag.kind, (b.drop tag.tagsize.toNat).take tag.contentsize.toNat,
    b.drop (tag.tagsize + tag.contentsize).toNat)

/-- `SplitList`. -/
def splitList (b : Bytes) : Except Err (Bytes × Bytes) := do
  let (k, content, rest) ← split b
  if k ≠ .list then throw .expectedList
  return (content, rest)

/-- `SplitString`. -/
def splitString (b : Bytes) : Except Err (Bytes × Bytes) := do
  let (k, content, rest) ← split b
  if k = .list then throw .expectedString
  return (content, rest)

/-- The loop of `CountValues`. Every value takes a byte, so there are no
more of them than bytes. -/
def countFrom : ℕ → Bytes → Except Err ℕ
  | _, [] => return 0
  | 0, _ :: _ => throw .outOfFuel
  | fuel + 1, x :: buf => do
    let tag ← readKind (x :: buf)
    let count ← countFrom fuel ((x :: buf).drop (tag.tagsize + tag.contentsize).toNat)
    return count + 1

/-- `CountValues`. -/
def countValues (b : Bytes) : Except Err ℕ := countFrom b.length b

/-! ## Encodings are split where they were put together -/

theorem readSize_digits {n : Nat} (h56 : 56 ≤ n) (hn : n < 2 ^ 63) (rest : Bytes) :
    readSize (digits n ++ rest) (UInt8.ofNat (byteLen n)) = .ok (UInt64.ofNat n) := by
  have hlen := byteLen_le_eight (hn.trans (by decide))
  have htoNat : (UInt8.ofNat (byteLen n)).toNat = (digits n).length := by
    rw [length_digits, UInt8.toNat_ofNat_of_lt' (show byteLen n < 256 by omega)]
  have hsize : (UInt64.ofNat n).toNat = n :=
    UInt64.toNat_ofNat_of_lt' (show n < 18446744073709551616 by omega)
  have hpos : digits n ≠ [] := by
    intro h0
    have := beNat_digits n
    rw [h0] at this
    have : n = 0 := this.symm
    omega
  have hle : ¬ UInt64.ofNat n < 56 := by
    rw [UInt64.lt_iff_toNat_lt, hsize]
    exact not_lt.mpr h56
  unfold readSize
  rw [htoNat, if_neg (by rw [List.length_append]; omega), List.take_left, beNat_digits,
    List.head?_append_of_ne_nil _ hpos]
  exact if_neg (not_or.mpr ⟨hle, head?_digits n⟩)

variable {buf b : Bytes} {k : Kind}

/-- A tag that was read, with the content it announces. -/
theorem split_of_tag {b : UInt8} {content rest : Bytes} {n : Nat}
    (htag : tagOf b buf = .ok ⟨k, UInt64.ofNat n, UInt64.ofNat content.length⟩)
    (hbuf : (b :: buf).drop n = content ++ rest) (hn : n ≤ buf.length + 1)
    (hlen : buf.length + 1 < 2 ^ 63) : split (b :: buf) = .ok (k, content, rest) := by
  have hcontent : content.length + rest.length = buf.length + 1 - n := by
    rw [← List.length_append, ← hbuf, List.length_drop, List.length_cons]
  have hsmall : ∀ m ≤ buf.length + 1, (UInt64.ofNat m).toNat = m := fun m hm =>
    UInt64.toNat_ofNat_of_lt' (show m < 18446744073709551616 by omega)
  have hle : UInt64.ofNat n ≤ UInt64.ofNat (buf.length + 1) := by
    rw [UInt64.le_iff_toNat_le, hsmall _ hn, hsmall _ le_rfl]
    exact hn
  have hfits : ¬ UInt64.ofNat (buf.length + 1) - UInt64.ofNat n < UInt64.ofNat content.length := by
    rw [UInt64.lt_iff_toNat_lt, UInt64.toNat_sub_of_le _ _ hle, hsmall _ hn, hsmall _ le_rfl,
      hsmall _ (by omega)]
    omega
  have hsum : (UInt64.ofNat n + UInt64.ofNat content.length).toNat = n + content.length := by
    rw [← UInt64.ofNat_add, hsmall _ (by omega)]
  have hkind : readKind (b :: buf) = .ok ⟨k, UInt64.ofNat n, UInt64.ofNat content.length⟩ := by
    rw [readKind, htag]
    exact if_neg hfits
  rw [split, hkind]
  show Except.ok (k, ((b :: buf).drop (UInt64.ofNat n).toNat).take
    (UInt64.ofNat content.length).toNat, (b :: buf).drop
      (UInt64.ofNat n + UInt64.ofNat content.length).toNat) = _
  rw [hsum, hsmall _ hn, hsmall _ (by omega), ← List.drop_drop, hbuf, List.take_left,
    List.drop_left]

theorem toUInt64_tag {base : UInt8} {m : Nat} (h : m < 256) :
    (base + UInt8.ofNat m - base).toUInt64 + 1 = UInt64.ofNat (m + 1) := by
  rw [toUInt64_first h, UInt64.ofNat_add]
  rfl

theorem sub_first (base : UInt8) (m : Nat) : base + UInt8.ofNat m - base = UInt8.ofNat m := by
  rw [UInt8.add_comm, UInt8.add_sub_cancel]

/-- **A value with a header is split** into its content and what follows
it, if the header's first byte is that of its kind in both forms. -/
theorem split_headed {small large : UInt8} {k : Kind} {content rest : Bytes}
    (h : (header small large content.length ++ content ++ rest).length < 2 ^ 63)
    (hshort : content.length < 56 →
      tagOf (small + UInt8.ofNat content.length) (content ++ rest)
        = .ok ⟨k, 1, UInt64.ofNat content.length⟩)
    (hlong : ∀ m buf, 0 < m → m ≤ 8 → tagOf (large + UInt8.ofNat m) buf
      = (readSize buf (UInt8.ofNat m)).map fun size => ⟨k, UInt64.ofNat (m + 1), size⟩) :
    split (header small large content.length ++ content ++ rest) = .ok (k, content, rest) := by
  rcases Nat.lt_or_ge content.length 56 with h56 | h56
  · rw [header_of_lt h56] at h ⊢
    exact split_of_tag (n := 1) (hshort h56) rfl (Nat.le_add_left 1 _) h
  · rw [header_of_le h56] at h ⊢
    have hn : content.length < 2 ^ 63 := by
      simp only [List.length_append] at h
      omega
    rw [List.cons_append, List.cons_append, List.append_assoc] at h ⊢
    refine split_of_tag (n := byteLen content.length + 1) ?_ ?_ ?_ h
    · rw [hlong _ _ (byteLen_pos (by omega)) (byteLen_le_eight (hn.trans (by decide))),
        readSize_digits h56 hn]
      rfl
    · rw [List.drop_succ_cons, ← length_digits, List.drop_left]
    · rw [List.length_append, length_digits]
      omega

/-- **A list is split** into its content and what follows it. -/
theorem split_list (content rest : Bytes) (h : (Rlp.list content ++ rest).length < 2 ^ 63) :
    split (Rlp.list content ++ rest) = .ok (.list, content, rest) := by
  refine split_headed h (fun h56 => ?_) fun m buf hpos hle => ?_
  · have hb := first_lt_iff 0xC0 (m := content.length) (show 192 + content.length < 256 by omega)
    rw [tagOf, if_neg (mt (hb 0x80).mp (show ¬ 192 + content.length < 128 by omega)),
      if_neg (mt (hb 0xB8).mp (show ¬ 192 + content.length < 184 by omega)),
      if_neg (mt (hb 0xC0).mp (show ¬ 192 + content.length < 192 by omega)),
      if_pos ((hb 0xF8).mpr (show 192 + content.length < 248 by omega)), toUInt64_first (by omega)]
  · have hb := first_lt_iff 0xF7 (m := m) (show 247 + m < 256 by omega)
    rw [tagOf, if_neg (mt (hb 0x80).mp (show ¬ 247 + m < 128 by omega)),
      if_neg (mt (hb 0xB8).mp (show ¬ 247 + m < 184 by omega)),
      if_neg (mt (hb 0xC0).mp (show ¬ 247 + m < 192 by omega)),
      if_neg (mt (hb 0xF8).mp (show ¬ 247 + m < 248 by omega)), toUInt64_tag (by omega), sub_first]

/-- **A string is split** into its content and what follows it. -/
theorem split_string (b rest : Bytes) (h : (Rlp.string b ++ rest).length < 2 ^ 63) :
    ∃ k, k ≠ .list ∧ split (Rlp.string b ++ rest) = .ok (k, b, rest) := by
  by_cases hbyte : ∃ x, b = [x] ∧ x ≤ 0x7F
  · obtain ⟨x, rfl, hx⟩ := hbyte
    rw [string_byte hx] at h ⊢
    refine ⟨.byte, nofun, split_of_tag (n := 0) ?_ rfl (Nat.zero_le _) h⟩
    exact if_pos (UInt8.lt_of_le_of_lt hx (by decide))
  · have hne : ∀ x, b = [x] → 0x7F < x := fun x hx =>
      UInt8.not_le.mp fun hle => hbyte ⟨x, hx, hle⟩
    rw [string_of_ne hne] at h ⊢
    refine ⟨.string, nofun, split_headed h (fun h56 => ?_) fun m buf hpos hle => ?_⟩
    · have hb := first_lt_iff 0x80 (m := b.length) (show 128 + b.length < 256 by omega)
      -- a single byte after the tag is not a small one
      have hcanon : ¬ (0x80 + UInt8.ofNat b.length - 0x80 = 1 ∧
          (b ++ rest).head?.any (· < 128) = true) := by
        rintro ⟨h1, hhead⟩
        rw [sub_first, ← UInt8.toNat_inj, UInt8.toNat_ofNat_of_lt' (show b.length < 256 by omega)]
          at h1
        obtain ⟨x, rfl⟩ := List.length_eq_one_iff.mp h1
        have hge := UInt8.lt_iff_toNat_lt.mp (hne x rfl)
        have hlt : x.toNat < 128 := UInt8.lt_iff_toNat_lt.mp (of_decide_eq_true hhead)
        exact absurd hlt (not_lt.mpr hge)
      rw [tagOf, if_neg (mt (hb 0x80).mp (show ¬ 128 + b.length < 128 by omega)),
        if_pos ((hb 0xB8).mpr (show 128 + b.length < 184 by omega)), toUInt64_first (by omega)]
      exact if_neg hcanon
    · have hb := first_lt_iff 0xB7 (m := m) (show 183 + m < 256 by omega)
      rw [tagOf, if_neg (mt (hb 0x80).mp (show ¬ 183 + m < 128 by omega)),
        if_neg (mt (hb 0xB8).mp (show ¬ 183 + m < 184 by omega)),
        if_pos ((hb 0xC0).mpr (show 183 + m < 192 by omega)), toUInt64_tag (by omega), sub_first]

/-! ## What is split was put together -/

/-- The encoding of a value of a kind, from its content. -/
def wrap (k : Kind) (content : Bytes) : Bytes :=
  if k = .list then Rlp.list content else Rlp.string content

/-- **A tag that was read**: the bytes of it, in front of any content of
the size it announces, are the encoding of the content. -/
structure Tagged (b : Bytes) (tag : Tag) (h : Bytes) : Prop where
  isPrefix : h <+: b
  tagsize : tag.tagsize.toNat = h.length
  wrap : ∀ content rest, b = h ++ (content ++ rest) → content.length = tag.contentsize.toNat →
    wrap tag.kind content = h ++ content

theorem readSize_sound {slen : UInt8} {size : UInt64} (hslen : slen ≤ 8)
    (h : readSize b slen = .ok size) :
    (b.take slen.toNat).length = slen.toNat ∧ (b.take slen.toNat).head? ≠ some 0
      ∧ 56 ≤ beNat (b.take slen.toNat) ∧ size.toNat = beNat (b.take slen.toNat) := by
  unfold readSize at h
  extract_lets size' at h
  split_ifs at h with hshort hcanon
  obtain rfl := Except.ok.inj h
  obtain ⟨h56, hzero⟩ := not_or.mp hcanon
  have hlen : (b.take slen.toNat).length = slen.toNat :=
    List.length_take_of_le (Nat.not_lt.mp hshort)
  have hsize := Stream.toNat_beNat (hlen.trans_le (UInt8.le_iff_toNat_le.mp hslen))
  have hle : 56 ≤ beNat (b.take slen.toNat) := by
    have := UInt64.le_iff_toNat_le.mp (UInt64.not_lt.mp h56)
    rwa [hsize] at this
  refine ⟨hlen, ?_, hle, hsize⟩
  rw [List.head?_take]
  split_ifs
  · exact nofun
  · exact hzero

/-- A long tag. -/
theorem tagged_long (small : UInt8) {x large : UInt8} {size : UInt64}
    (hlarge : x - large ≤ 8) (h : readSize buf (x - large) = .ok size)
    (hwrap : ∀ content : Bytes, 56 ≤ content.length →
      wrap k content = header small large content.length ++ content) :
    Tagged (x :: buf) ⟨k, (x - large).toUInt64 + 1, size⟩ (x :: buf.take (x - large).toNat) := by
  obtain ⟨hlen, hzero, h56, hsize⟩ := readSize_sound hlarge h
  refine ⟨(List.prefix_cons_inj x).mpr (List.take_prefix _ _), ?_,
    fun content rest _ hcontent => ?_⟩
  · have hle := UInt8.le_iff_toNat_le.mp hlarge
    have h8 : (x - large).toNat ≤ 8 := hle
    rw [UInt64.toNat_add, UInt8.toNat_toUInt64, List.length_cons, hlen]
    exact Nat.mod_eq_of_lt (show (x - large).toNat + 1 < 2 ^ 64 by omega)
  · change content.length = size.toNat at hcontent
    rw [hwrap content (by omega), hcontent, hsize, Stream.header_long hlen hzero h56]

/-- **A tag that is read is one that is written** in front of its content. -/
theorem tagOf_sound {x : UInt8} {tag : Tag} (h : tagOf x buf = .ok tag) :
    ∃ hd, Tagged (x :: buf) tag hd := by
  unfold tagOf at h
  split_ifs at h with h80 hB8 hcanon hC0 hF8
  · cases h
    refine ⟨[], List.nil_prefix, rfl, fun content rest hb hcontent => ?_⟩
    obtain ⟨y, rfl⟩ := List.length_eq_one_iff.mp hcontent
    obtain rfl := List.head_eq_of_cons_eq hb
    exact string_byte (Stream.byte_le_iff.mpr h80)
  · cases h
    have hsize : (x - 0x80).toUInt64.toNat = (x - 0x80).toNat := UInt8.toNat_toUInt64 _
    refine ⟨[x], List.prefix_append [x] buf, rfl, fun content rest hb hcontent => ?_⟩
    rw [hsize] at hcontent
    have hshort := Stream.sub_lt_of_range h80 hB8 rfl
    have hne : ∀ y, content = [y] → 0x7F < y := by
      rintro y rfl
      have hone : x - 0x80 = 1 := UInt8.toNat.inj hcontent.symm
      have hbuf : buf = y :: rest := List.tail_eq_of_cons_eq hb
      refine UInt8.not_le.mp fun hle => hcanon ⟨hone, ?_⟩
      rw [hbuf]
      exact decide_eq_true (Stream.byte_le_iff.mp hle)
    rw [wrap, if_neg Rlp.Kind.noConfusion, string_of_ne hne, hcontent, Stream.header_short hshort]
  · obtain ⟨size, hread, rfl⟩ := exceptMap_eq_ok.mp h
    refine ⟨_, tagged_long 0x80 (Stream.long_string hB8 hC0).2 hread fun content h56 => ?_⟩
    rw [wrap, if_neg Rlp.Kind.noConfusion]
    refine string_of_ne ?_
    rintro y rfl
    exact absurd h56 (show ¬ 56 ≤ 1 by decide)
  · cases h
    have hsize : (x - 0xC0).toUInt64.toNat = (x - 0xC0).toNat := UInt8.toNat_toUInt64 _
    refine ⟨[x], List.prefix_append [x] buf, rfl, fun content rest _ hcontent => ?_⟩
    rw [hsize] at hcontent
    rw [wrap, if_pos rfl, Rlp.list, hcontent,
      Stream.header_short (Stream.sub_lt_of_range hC0 hF8 rfl)]
  · obtain ⟨size, hread, rfl⟩ := exceptMap_eq_ok.mp h
    exact ⟨_, tagged_long 0xC0 (Stream.long_list hF8).2 hread fun content _ => if_pos rfl⟩

/-- What `readKind` returns, and that the content fits. -/
theorem readKind_sound {tag : Tag} (hb : b.length < 2 ^ 63) (h : readKind b = .ok tag) :
    ∃ hd, Tagged b tag hd ∧ hd.length + tag.contentsize.toNat ≤ b.length := by
  cases b with
  | nil => cases h
  | cons x buf =>
    rw [readKind] at h
    cases htag : tagOf x buf with
    | error e => rw [htag] at h; cases h
    | ok tag' =>
      rw [htag] at h
      obtain ⟨hd, htagged⟩ := tagOf_sound htag
      have hle := htagged.isPrefix.length_le
      have hlen : (UInt64.ofNat (buf.length + 1)).toNat = buf.length + 1 :=
        UInt64.toNat_ofNat_of_lt' (show buf.length + 1 < 2 ^ 64 by
          rw [List.length_cons] at hb
          omega)
      by_cases hfits : UInt64.ofNat (buf.length + 1) - tag'.tagsize < tag'.contentsize
      · simp only [bind, Except.bind, if_pos hfits] at h
        cases h
      · simp only [bind, Except.bind, if_neg hfits] at h
        cases h
        refine ⟨hd, htagged, ?_⟩
        rw [List.length_cons] at hle ⊢
        rw [UInt64.lt_iff_toNat_lt, UInt64.toNat_sub_of_le _ _ (by
          rw [UInt64.le_iff_toNat_le, hlen, htagged.tagsize]
          exact hle), hlen, htagged.tagsize] at hfits
        omega

/-- **What `Split` returns was put together** from the content and what
follows it. -/
theorem split_sound {content rest : Bytes} (hb : b.length < 2 ^ 63)
    (h : split b = .ok (k, content, rest)) : b = wrap k content ++ rest := by
  unfold split at h
  cases hread : readKind b with
  | error e => rw [hread] at h; cases h
  | ok tag =>
    rw [hread] at h
    obtain ⟨hd, htagged, hle⟩ := readKind_sound hb hread
    obtain ⟨rfl, rfl, rfl⟩ : tag.kind = k
        ∧ (b.drop tag.tagsize.toNat).take tag.contentsize.toNat = content
        ∧ b.drop (tag.tagsize + tag.contentsize).toNat = rest := by
      have h := Except.ok.inj h
      exact ⟨congrArg (·.1) h, congrArg (·.2.1) h, congrArg (·.2.2) h⟩
    have hsum : (tag.tagsize + tag.contentsize).toNat = hd.length + tag.contentsize.toNat := by
      rw [UInt64.toNat_add, htagged.tagsize]
      exact Nat.mod_eq_of_lt (show hd.length + tag.contentsize.toNat < 2 ^ 64 by omega)
    obtain ⟨tail, htail⟩ := htagged.isPrefix
    have hdrop : b.drop hd.length = tail := by rw [← htail, List.drop_left]
    rw [hsum, htagged.tagsize, ← List.drop_drop, hdrop]
    have hlen : (tail.take tag.contentsize.toNat).length = tag.contentsize.toNat := by
      refine List.length_take_of_le ?_
      rw [← htail, List.length_append] at hle
      omega
    rw [htagged.wrap _ (tail.drop tag.contentsize.toNat)
      (by rw [List.take_append_drop, htail]) hlen, List.append_assoc, List.take_append_drop, htail]

end Rlp
