import CardinalEvm.RlpCodec
import CardinalEvm.RlpWriting
import Mathlib.Logic.Equiv.Defs

/-!
# The codec of a type

The two halves put together. Into an empty interface the decoder accepts
exactly what the encoder writes. For the types of the repository the
same holds of the values that `Ty.Ok` describes, by induction on the
type: scalars are strings or integers of the stream, a slice and a
struct are lists, and of the fields of a struct the optional ones end
the list early.
-/

namespace Rlp

/-! ## Values of any kind -/

mutual

/-- Every list takes a byte. -/
theorem Item.depth_le : (x : Item) → x.depth ≤ x.encode.length
  | .string b => by
    rw [depth]
    exact Nat.zero_le _
  | .list items => by
    have := Item.depthAll_le items
    have := length_header_pos 0xC0 0xF7 (encodeAll items).length
    rw [depth, encode, Rlp.list, List.length_append]
    omega

theorem Item.depthAll_le : (items : List Item) → depthAll items ≤ (encodeAll items).length
  | [] => by
    rw [depthAll]
    exact Nat.zero_le _
  | x :: items => by
    have := x.depth_le
    have := Item.depthAll_le items
    rw [depthAll, encodeAll, List.length_append]
    omega

end

variable {b : Bytes} {n : Nat} {name : String} {elem : Ty}

/-- What `DecodeBytes` accepts into an empty interface. -/
theorem decodeItem_eq_ok (hb : b.length < 2 ^ 63) {x : Item} :
    decodeItem b = .ok x ↔ x.encode = b := by
  rw [decodeItem, (codec_decodeInterface b.length).decodeBytes_eq_ok hb]
  refine ⟨And.right, fun h => ⟨?_, h⟩⟩
  rw [← h]
  exact x.depth_le

/-- **The decoder accepts exactly the canonical encodings**: into an
empty interface a byte string is decoded to a value if and only if the
value is encoded as the byte string. So every value has an encoding, from
which it is decoded again, and only one. -/
theorem decodeItem_iff_encodeToBytes :
    (∀ (b : Bytes) (x : Item), b.length < 2 ^ 63 →
      (decodeItem b = .ok x ↔ encodeToBytes x.write = .ok b)) ∧
    (∀ x : Item, ∃ b, encodeToBytes x.write = .ok b ∧
      (b.length < 2 ^ 63 → decodeItem b = .ok x)) ∧
    (∀ (b b' : Bytes) (x : Item), b.length < 2 ^ 63 → b'.length < 2 ^ 63 →
      decodeItem b = .ok x → decodeItem b' = .ok x → b = b') := by
  have hiff : ∀ (b : Bytes) (x : Item), b.length < 2 ^ 63 →
      (decodeItem b = .ok x ↔ encodeToBytes x.write = .ok b) := by
    intro b x hb
    rw [decodeItem_eq_ok hb, encodeToBytes_eq_ok x.writes hb]
  refine ⟨hiff, fun x => ?_, fun b b' x hb hb' h h' => ?_⟩
  · obtain ⟨buf, hw, -⟩ := x.writes EncBuffer.empty
    have hok : encodeToBytes x.write = .ok buf.makeBytes := by rw [encodeToBytes, hw]
    exact ⟨_, hok, fun hb => (hiff _ x hb).mpr hok⟩
  · rw [← (decodeItem_eq_ok hb).mp h, (decodeItem_eq_ok hb').mp h']

/-! ## Arrays and pointers -/

theorem toBytes_ofNat (h : b.length = n) :
    toBytes n (BitVec.ofNat (8 * n) (beNat b)).toNat = b := by
  have hlt : beNat b < 2 ^ (8 * n) := by
    rw [pow_mul, ← h]
    exact beNat_lt b
  rw [BitVec.toNat_ofNat, Nat.mod_eq_of_lt hlt, ← h, toBytes_beNat]

theorem ofNat_toBytes (v : BitVec (8 * n)) :
    BitVec.ofNat (8 * n) (beNat (toBytes n v.toNat)) = v := by
  have hlt : v.toNat < 256 ^ n := by
    have := v.isLt
    rwa [pow_mul] at this
  rw [beNat_toBytes, Nat.mod_eq_of_lt hlt, BitVec.ofNat_toNat, BitVec.setWidth_eq]

/-- **Byte arrays** of two bytes or more. -/
theorem codec_byteArray (h2 : 2 ≤ n) (hn : n < 2 ^ 63) :
    Codec (decodeByteArray n) (fun v => string (toBytes n v.toNat)) (fun _ => True) where
  sound s hs := by
    have htoNat : (UInt64.ofNat n).toNat = n :=
      UInt64.toNat_ofNat_of_lt' (show n < 18446744073709551616 by omega)
    refine (Stream.sat_kindAhead hs).next fun ⟨k, size⟩ s₁ hp => ?_
    cases k with
    | byte => exact Sat.ite (fun _ => nofun) (fun _ => Sat.ite (fun _ => nofun) (fun h => by omega))
    | string =>
      refine Sat.ite (fun _ => nofun) (fun hle => Sat.ite (fun _ => nofun) (fun hge => ?_))
      have hsize : size = UInt64.ofNat n := UInt64.le_antisymm (UInt64.not_lt.mp hle)
        (UInt64.not_lt.mp hge)
      rw [sat_bind]
      refine (Stream.sat_readFull _).mono (fun b s₂ ⟨hlen, ht, hkind⟩ => ?_)
        (fun e _ he h => absurd h he)
      refine Sat.ite (fun _ => nofun) (fun hcanon => ⟨trivial, ?_, hkind⟩)
      rw [toBytes_ofNat (hlen.trans htoNat)]
      exact Stream.took_string hp ht (hsize ▸ hlen) hcanon
    | list => exact nofun
  ahead s v hs _ hahead := by
    unfold decodeByteArray
    rw [sat_bind]
    rcases Stream.ahead_string hs hahead with ⟨x, s₁, hx, -⟩ | ⟨size, s₁, hk, hs₁, hb, hlen, hcanon⟩
    · have := length_toBytes n v.toNat
      rw [hx, List.length_singleton] at this
      omega
    · rw [length_toBytes] at hlen
      obtain rfl : size = UInt64.ofNat n := by rw [hlen, UInt64.ofNat_toNat]
      refine Sat.returns hk (Sat.ite (fun h => absurd h (UInt64.lt_irrefl _))
        (fun _ => Sat.ite (fun h => absurd h (UInt64.lt_irrefl _)) (fun _ => ?_)))
      refine (Stream.readFull_ahead (hb.offers hs₁) (by rw [length_toBytes]; exact hlen)).next
        fun b' _ hb' => ?_
      subst hb'
      exact Sat.ite (fun h => absurd h hcanon) (fun _ => ofNat_toBytes v)
  atEnd s hs hl := Stream.bind_atEnd hs hl
  ne_nil v _ := string_ne_nil _

/-- **Pointers with the tag `nil`**, to values that are not encoded as
an empty string. -/
theorem Codec.nilPtr {α : Type} {dec : StreamM α} {enc : α → Bytes} {ok : α → Prop}
    (h : Codec dec enc ok) (hpeeks : Peeks dec)
    (hstring : ∀ a, ok a → ∃ b, enc a = string b ∧ b ≠ []) :
    Codec (decodeNilPtr .string dec) (fun v => v.elim [0x80] enc)
      (fun v => ∀ a, v = some a → ok a) where
  sound s hs := by
    have hkind := Stream.sat_kindAhead hs
    unfold decodeNilPtr
    rw [sat_bind, sat_wrapped]
    cases hk : Stream.kindAhead s with
    | error e s₁ =>
      exact Sat.stops hk fun h => hkind.of_error hk (wrapStreamError_eq_eol.mp h)
    | ok r s₁ =>
      have hp := hkind.of_ok hk
      refine Sat.returns hk (Sat.ite (fun hnil => Sat.ite (fun _ => nofun) (fun hstr => ?_))
        (fun _ => ?_))
      · -- the empty string
        obtain ⟨-, h0⟩ := hnil
        have hstr := not_not.mp hstr
        have ht := hp.took
        rw [hstr, h0] at ht
        exact ⟨nofun, ht.rearm, rfl⟩
      · unfold Sat
        rw [hpeeks.map some s r s₁ hk hp.again]
        show Sat (some <$> dec) s _ _
        rw [sat_map]
        refine (h.sound s hs).mono (fun a s' ⟨ha, ht, hkind'⟩ => ⟨?_, ht, hkind'⟩)
        rintro _ ⟨⟩
        exact ha
  ahead s v hs hv hahead := by
    have hkind := Stream.sat_kindAhead hs
    unfold decodeNilPtr
    rw [sat_bind, sat_wrapped]
    cases v with
    | none =>
      obtain ⟨s₁, hk, -⟩ := Stream.exists_kindAhead .string 0 [] hs nofun hahead
      exact Sat.returns hk rfl
    | some a =>
      obtain ⟨b, henc, hb⟩ := hstring a (hv a rfl)
      have hahead : Ahead s (enc a) := hahead
      obtain ⟨r, s₁, hk, hne⟩ : ∃ r s₁, Stream.kindAhead s = .ok r s₁ ∧
          ¬ (r.1 ≠ .byte ∧ r.2 = 0) := by
        rcases Stream.ahead_string hs (henc ▸ hahead) with
          ⟨x, s₁, -, -, hk, -⟩ | ⟨size, s₁, hk, -, -, hlen, -⟩
        · exact ⟨_, s₁, hk, fun h => h.1 rfl⟩
        · refine ⟨_, s₁, hk, fun h => hb (List.eq_nil_of_length_eq_zero ?_)⟩
          rw [hlen, show size = 0 from h.2]
          rfl
      refine Sat.returns hk (Sat.ite (fun h => absurd h hne) (fun _ => ?_))
      unfold Sat
      rw [hpeeks.map some s r s₁ hk (hkind.of_ok hk).again]
      show Sat (some <$> dec) s _ _
      rw [sat_map]
      refine (h.ahead s a hs (hv a rfl) hahead).mono (fun a' _ ha => ?_)
      rw [ha]
  atEnd s hs hl := by
    show EStateM.bind (wrapped Stream.kindAhead) _ s = _
    rw [EStateM.bind, wrapped, Stream.kindAhead_atEnd hs hl]
    rfl
  ne_nil v hv := by
    cases v with
    | none => exact List.cons_ne_nil _ _
    | some a => exact h.ne_nil a (hv a rfl)

/-! ## The fields of a struct -/

section Fields

variable {α β : Type} {dec : StreamM α} {enc : α → Bytes} {ok : α → Prop} {rest : StreamM β}
  {encRest : β → Bytes} {okRest : β → Prop}

theorem Codec.sat_requiredField (h : Codec dec enc ok) (name : String) (s : Stream) (hs : Ready s) :
    Sat (requiredField name dec) s (fun a s' => ok a ∧ Took s s' (enc a) ∧ s'.kind = none)
      (fun e _ => e ≠ .eol) := by
  have hsound := h.sound s hs
  unfold Sat requiredField
  cases hdec : dec s with
  | ok a s' => exact hsound.of_ok hdec
  | error e s' =>
    cases e with
    | eol => exact nofun
    | _ => exact addErrorContext_ne_eol _ nofun

/-- A field that must be there. -/
theorem Body.cons (h : Codec dec enc ok) (hrest : Body rest encRest okRest) (name : String) :
    Body (do let v ← requiredField name dec; let vs ← rest; return (v, vs))
      (fun p => enc p.1 ++ encRest p.2) (fun p => ok p.1 ∧ okRest p.2) where
  sound s hs := by
    simp only [sat_bind, sat_pure]
    refine (h.sat_requiredField name s hs).mono (fun a s₁ hfield => ?_)
    obtain ⟨ha, ht, hkind⟩ := hfield
    refine (hrest.sound s₁ (ht.ready hs hkind)).mono (fun vs s₂ hfields => ?_)
    obtain ⟨hvs, ht', hkind'⟩ := hfields
    exact ⟨⟨ha, hvs⟩, ht.trans ht', hkind'⟩
  filled s p hs hp hfilled := by
    obtain ⟨s₁, hdec, ht, hs₁⟩ := h.exists_ahead hs hp.1 hfilled.toAhead.left
    have hfield : requiredField name dec s = .ok p.1 s₁ := by rw [requiredField, hdec]
    simp only [sat_bind, sat_pure]
    refine Sat.returns hfield ?_
    refine (hrest.filled s₁ p.2 hs₁ hp.2 (hfilled.right ht)).mono (fun vs _ hvs => ?_)
    rw [hvs]

/-- A field that may be missing, with the fields after it: they are
missing if they are all nil. -/
theorem Body.optional {allNil : β → Bool} {zero : β} {nilValue : Bytes} (h : Codec dec enc ok)
    (hrest : Body rest encRest okRest) (name : String)
    (hnil : ∀ vs, allNil vs = true ↔ vs = zero) (hzero : okRest zero) :
    Body (optionalField name dec zero rest)
      (fun p => if p.1.isNone && allNil p.2 then [] else p.1.elim nilValue enc ++ encRest p.2)
      (fun p => (p.1 = none → allNil p.2 = true) ∧ (∀ a, p.1 = some a → ok a) ∧ okRest p.2) where
  sound s hs := by
    have hsound := h.sound s hs
    unfold Sat optionalField
    cases hdec : dec s with
    | ok a s₁ =>
      obtain ⟨ha, ht, hkind⟩ := hsound.of_ok hdec
      show Sat ((some a, ·) <$> rest) s₁ _ _
      rw [sat_map]
      refine (hrest.sound s₁ (ht.ready hs hkind)).mono (fun vs s₂ ⟨hvs, ht', hkind'⟩ => ?_)
      refine ⟨⟨nofun, ?_, hvs⟩, ht.trans ht', hkind'⟩
      rintro _ ⟨⟩
      exact ha
    | error e s₁ =>
      cases e with
      | eol =>
        have hall := (hnil zero).mpr rfl
        rw [hsound.of_error hdec rfl]
        refine ⟨⟨fun _ => hall, nofun, hzero⟩, ?_, hs.kind⟩
        simp only [Option.isNone_none, hall, Bool.and_self, if_true]
        exact Took.refl s
      | _ => exact addErrorContext_ne_eol _ nofun
  filled s p hs hp hfilled := by
    obtain ⟨v, vs⟩ := p
    obtain ⟨hmissing, hok, hvs⟩ := hp
    cases v with
    | none =>
      have hall : allNil vs = true := hmissing rfl
      simp only [Option.isNone_none, hall, Bool.and_self, if_true] at hfilled
      have hfield : optionalField name dec zero rest s = .ok (none, zero) s := by
        rw [optionalField, h.atEnd s hs hfilled.listLimit]
      exact Sat.returns hfield (by rw [(hnil vs).mp hall])
    | some a =>
      have hfilled : Filled s (enc a ++ encRest vs) := hfilled
      obtain ⟨s₁, hdec, ht, hs₁⟩ := h.exists_ahead hs (hok a rfl) hfilled.toAhead.left
      have hfield : optionalField name dec zero rest s = ((some a, ·) <$> rest) s₁ := by
        rw [optionalField, hdec]
      unfold Sat
      rw [hfield]
      show Sat ((some a, ·) <$> rest) s₁ _ _
      rw [sat_map]
      refine (hrest.filled s₁ vs hs₁ hvs (hfilled.right ht)).mono (fun vs' _ hvs' => ?_)
      rw [hvs']

end Fields

theorem Fields.allNil_optional {rest : Fields} {v : Option elem.Val} {vs : rest.Vals} :
    (Fields.optional name elem rest).allNil (v, vs) = true ↔ v = none ∧ rest.allNil vs = true := by
  rw [Fields.allNil, Bool.and_eq_true, Option.isNone_iff_eq_none]

/-- Two optional fields one after the other: what matters of the rest is
whether the next field is there. -/
theorem Fields.ok_optional_optional {name' : String} {elem' : Ty} {rest : Fields}
    {v : Option elem.Val} {v' : Option elem'.Val} {vs : rest.Vals} :
    (Fields.optional name elem (.optional name' elem' rest)).Ok (v, v', vs) ↔
      (v = none → v' = none) ∧ (∀ a, v = some a → elem.Ok a) ∧
        (Fields.optional name' elem' rest).Ok (v', vs) := by
  constructor
  · rintro ⟨hnil, hok, hrest⟩
    exact ⟨fun h => (Fields.allNil_optional.mp (hnil h)).1, hok, hrest⟩
  · rintro ⟨hnil, hok, hrest⟩
    exact ⟨fun h => Fields.allNil_optional.mpr ⟨hnil h, hrest.1 (hnil h)⟩, hok, hrest⟩

/-- The last optional field. -/
theorem Fields.ok_optional_nil {v : Option elem.Val} :
    (Fields.optional name elem .nil).Ok (v, ()) ↔ ∀ a, v = some a → elem.Ok a :=
  ⟨fun h => h.2.1, fun h => ⟨fun _ => rfl, h, trivial⟩⟩

/-- Fields that are all optional can all be missing. -/
theorem Fields.exists_zero : (fs : Fields) → fs.AllOptional →
    ∃ zero, fs.zero = some zero ∧ (∀ vs, fs.allNil vs = true ↔ vs = zero) ∧ fs.Ok zero
  | .nil, _ => ⟨(), rfl, fun _ => ⟨fun _ => rfl, fun _ => rfl⟩, trivial⟩
  | .optional name elem rest, h => by
    obtain ⟨zero, hzero, hnil, hok⟩ := rest.exists_zero h
    refine ⟨(none, zero), ?_, ?_, ?_⟩
    · rw [Fields.zero, hzero]
      rfl
    · rintro ⟨v, vs⟩
      rw [Fields.allNil_optional, hnil]
      exact Prod.mk.injEq .. ▸ Iff.rfl
    · exact ⟨fun _ => (hnil zero).mpr rfl, nofun, hok⟩

/-! ## Types -/

theorem Stream.width_of_wf {bits : Nat} (h : (Ty.uint bits).Wf) : Width bits := by
  rcases h with rfl | rfl | rfl | rfl <;> exact ⟨by decide, by decide, by decide⟩

mutual

/-- **The codec of a type.** -/
theorem Ty.codec : (t : Ty) → t.Wf → Codec t.decode t.encode t.Ok
  | .uint bits, h => by
    have hbits := Stream.width_of_wf h
    refine ((Stream.codec_uint hbits).map (fun n => BitVec.ofNat bits n.toNat) (fun n hn => ?_)
      (fun v _ => ?_)).wrapped_codec
    · refine ⟨trivial, ?_⟩
      show Rlp.uint (BitVec.ofNat bits n.toNat).toNat = _
      rw [BitVec.toNat_ofNat, Nat.mod_eq_of_lt hn]
    · have hv : BitVec.toNat v < 2 ^ bits := BitVec.isLt v
      have htoNat : (UInt64.ofNat (BitVec.toNat v)).toNat = BitVec.toNat v := by
        refine UInt64.toNat_ofNat_of_lt' (hv.trans_le ?_)
        rw [← hbits.pow]
        exact Nat.pow_le_pow_right (by decide) hbits.le
      refine ⟨UInt64.ofNat (BitVec.toNat v), ?_, ?_⟩
      · rw [htoNat]
        exact hv
      · rw [htoNat, BitVec.ofNat_toNat, BitVec.setWidth_eq]
  | .bigInt, _ => by
    refine ((Stream.codec_integer none nofun).map Int.ofNat (fun n _ => ?_)
      (fun v hv => ?_)).wrapped_codec
    · exact ⟨Int.natCast_nonneg n, rfl⟩
    · exact ⟨v.toNat, nofun, Int.toNat_of_nonneg hv⟩
  | .uint256, _ => by
    have hpow : 256 ^ 32 = 2 ^ 256 := by norm_num
    refine ((Stream.codec_integer (some 32) ?_).map (BitVec.ofNat 256) (fun n hn => ?_)
      (fun v _ => ?_)).wrapped_codec
    · rintro _ ⟨⟩
      decide
    · have hlt := byteLen_le_iff.mp (hn 32 rfl)
      refine ⟨trivial, ?_⟩
      show Rlp.uint (BitVec.ofNat 256 n).toNat = _
      rw [BitVec.toNat_ofNat, Nat.mod_eq_of_lt (hpow ▸ hlt)]
    · refine ⟨BitVec.toNat v, ?_, ?_⟩
      · rintro _ ⟨⟩
        exact byteLen_le_iff.mpr (hpow ▸ BitVec.isLt v)
      · rw [BitVec.ofNat_toNat, BitVec.setWidth_eq]
  | .bytes, _ => Stream.codec_bytes.wrapped_codec
  | .array n, h => codec_byteArray h.1 h.2
  | .slice elem, h => (elem.codec h.2).slice
  | .struct fields, h => (fields.body h).codec_struct
  | .ptr elem, h => by
    refine (elem.codec h).map some (fun a ha => ⟨⟨a, rfl, ha⟩, rfl⟩) ?_
    rintro _ ⟨a, rfl, ha⟩
    exact ⟨a, ha, rfl⟩
  | .nilPtr elem, h => by
    obtain ⟨n, rfl, h2, hn⟩ := h
    refine (codec_byteArray h2 hn).nilPtr (Peeks.kindAhead_bind _) (fun v _ => ⟨_, rfl, ?_⟩)
    intro h0
    have := length_toBytes n v.toNat
    rw [h0, List.length_nil] at this
    omega

theorem Fields.body : (fs : Fields) → fs.Wf → Body fs.decode fs.encode fs.Ok
  | .nil, _ =>
    { sound := fun s hs => ⟨trivial, Took.refl s, hs.kind⟩
      filled := fun _ _ _ _ _ => rfl }
  | .cons name type rest, h => Body.cons (type.codec h.1) (rest.body h.2) name
  | .optional name elem rest, h => by
    obtain ⟨zero, hzero, hnil, hok⟩ := rest.exists_zero h.2.1
    have hdecode : (Fields.optional name elem rest).decode
        = optionalField name elem.decode zero rest.decode := by
      rw [Fields.decode, hzero]
    rw [hdecode]
    exact Body.optional (elem.codec h.1) (rest.body h.2.2) name hnil hok

end

/-! ## Writers -/

theorem rdropWhile_cons_of_not {α : Type} {p : α → Bool} {x : α} (l : List α) (h : p x = false) :
    (x :: l).rdropWhile p = x :: l.rdropWhile p := by
  rw [List.rdropWhile, List.rdropWhile, List.reverse_cons, List.dropWhile_append]
  split
  · next hnil =>
    rw [List.isEmpty_iff.mp hnil, List.dropWhile_cons, h]
    rfl
  · rw [List.reverse_append]
    rfl

theorem Fields.missing_of_allNil : (fs : Fields) → (vs : fs.Vals) → fs.allNil vs = true →
    ∀ w ∈ fs.writers vs, w.missing = true
  | .nil, _, _ => nofun
  | .optional _ elem rest, (v, vs), h => by
    rw [Fields.allNil, Bool.and_eq_true] at h
    rintro w (_ | ⟨_, hw⟩)
    · exact h.1
    · exact rest.missing_of_allNil vs h.2 w hw

/-- Writers of some fields, with what they write. -/
structure Fields.Written (fs : Fields) (vs : fs.Vals) (writers : List (EncM Unit × Bytes)) :
    Prop where
  map_fst : ((fs.writers vs).rdropWhile (·.missing)).map (·.write) = writers.map (·.1)
  flatMap_snd : writers.flatMap (·.2) = fs.encode vs
  writes : ∀ w ∈ writers, Writes w.1 w.2

theorem Fields.Written.cons {fs : Fields} {vs : fs.Vals} {writers : List (EncM Unit × Bytes)}
    (h : fs.Written vs writers) {write : EncM Unit} (hw : Writes write b) :
    ((⟨false, write⟩ :: fs.writers vs).rdropWhile (·.missing)).map (·.write)
        = ((write, b) :: writers).map (·.1) ∧
      ((write, b) :: writers).flatMap (·.2) = b ++ fs.encode vs ∧
      ∀ w ∈ (write, b) :: writers, Writes w.1 w.2 := by
  refine ⟨?_, ?_, ?_⟩
  · rw [rdropWhile_cons_of_not _ rfl, List.map_cons, List.map_cons, h.map_fst]
  · rw [List.flatMap_cons, h.flatMap_snd]
  · rintro w (_ | ⟨_, hmem⟩)
    · exact hw
    · exact h.writes w hmem

mutual

/-- **A value is written as its encoding.** -/
theorem Ty.writes : (t : Ty) → t.Wf → (v : t.Val) → t.Ok v → Writes (t.write v) (t.encode v)
  | .uint bits, h, v, _ => by
    have hbits := Stream.width_of_wf h
    have hv : BitVec.toNat v < 2 ^ bits := BitVec.isLt v
    refine (Writes.uint64 _).of_eq ?_
    rw [UInt64.toNat_ofNat_of_lt' (hv.trans_le ?_)]
    · rfl
    · rw [← hbits.pow]
      exact Nat.pow_le_pow_right (by decide) hbits.le
  | .bigInt, _, _, hv => Writes.int hv
  | .uint256, _, v, _ => Writes.uint256 v
  | .bytes, _, b, _ => Writes.bytes b
  | .array n, _, v, _ => Writes.byteArray _
  | .slice elem, h, vs, hvs => Writes.slice fun v hv => elem.writes h.2 v (hvs v hv)
  | .struct fields, h, vs, hvs => by
    obtain ⟨writers, hwritten⟩ := fields.exists_written h vs hvs
    have hlist := Writes.list writers hwritten.writes
    rw [← hwritten.map_fst, hwritten.flatMap_snd] at hlist
    exact hlist
  | .ptr elem, h, _, ⟨a, rfl, ha⟩ => elem.writes h a ha
  | .nilPtr elem, ⟨n, hn, _⟩, v, hv => by
    subst hn
    cases v with
    | none => exact Writes.append _
    | some a => exact Writes.byteArray _

theorem Fields.exists_written : (fs : Fields) → fs.Wf → (vs : fs.Vals) → fs.Ok vs →
    ∃ writers, fs.Written vs writers
  | .nil, _, _, _ => ⟨[], rfl, rfl, nofun⟩
  | .cons _ type rest, h, (v, vs), hok => by
    obtain ⟨writers, hwritten⟩ := rest.exists_written h.2 vs hok.2
    obtain ⟨h₁, h₂, h₃⟩ := hwritten.cons (type.writes h.1 v hok.1)
    exact ⟨_, h₁, h₂, h₃⟩
  | .optional name elem rest, h, (none, vs), hok => by
    have hnil : (Fields.optional name elem rest).allNil (none, vs) = true := hok.1 rfl
    refine ⟨[], ?_, ?_, nofun⟩
    · rw [List.rdropWhile_eq_nil_iff.mpr
        ((Fields.optional name elem rest).missing_of_allNil _ hnil)]
      rfl
    · rw [Fields.encode]
      exact (if_pos hnil).symm
  | .optional name elem rest, h, (some a, vs), hok => by
    obtain ⟨writers, hwritten⟩ := rest.exists_written h.2.2 vs hok.2.2
    obtain ⟨h₁, h₂, h₃⟩ := hwritten.cons (elem.writes h.1 a (hok.2.1 a rfl))
    exact ⟨_, h₁, h₂, h₃⟩

end

/-- **Decoding and encoding of a type are inverse to each other**, on the
byte strings that are accepted and the values that are written as they
are read. -/
theorem Ty.decodeBytes_eq_ok {t : Ty} (ht : t.Wf) (hb : b.length < 2 ^ 63) {v : t.Val} :
    decodeBytes t.decode b = .ok v ↔ t.Ok v ∧ encodeToBytes (t.write v) = .ok b := by
  rw [(t.codec ht).decodeBytes_eq_ok hb]
  refine and_congr_right fun hv => ?_
  rw [encodeToBytes_eq_ok (t.writes ht v hv) hb]

/-! ## Values without a type -/

/-- A pointer is encoded as what it points to, or as an empty value. -/
theorem exists_pointerItem {elem : Ty} (h : ∀ v, ∃ x : Item, x.encode = elem.encode v)
    (v : Option elem.Val) :
    ∃ x : Item, x.encode = v.elim (emptyValue elem.nilKind) elem.encode := by
  cases v with
  | some a => exact h a
  | none =>
    show ∃ x : Item, x.encode = emptyValue elem.nilKind
    cases elem.nilKind with
    | list => exact ⟨.list [], by decide⟩
    | byte | string => exact ⟨.string [], by decide⟩

mutual

/-- A value of any type is encoded as one without a type. -/
theorem Ty.exists_item : (t : Ty) → (v : t.Val) → ∃ x : Item, x.encode = t.encode v
  | .uint _, _ | .bigInt, _ | .uint256, _ | .bytes, _ | .array _, _ => ⟨.string _, by
    rw [Item.encode]
    rfl⟩
  | .slice elem, (vs : List elem.Val) => by
    choose f hf using elem.exists_item
    refine ⟨.list (vs.map f), ?_⟩
    rw [Item.encode, Item.encodeAll_eq, List.flatMap_map, funext hf]
    rfl
  | .struct fields, vs => by
    obtain ⟨items, hitems⟩ := fields.exists_items vs
    exact ⟨.list items, by rw [Item.encode, hitems]; rfl⟩
  | .ptr elem, v | .nilPtr elem, v => exists_pointerItem elem.exists_item v

theorem Fields.exists_items : (fs : Fields) → (vs : fs.Vals) →
    ∃ items, Item.encodeAll items = fs.encode vs
  | .nil, _ => ⟨[], by rw [Item.encodeAll]; rfl⟩
  | .cons _ type rest, (v, vs) => by
    obtain ⟨x, hx⟩ := type.exists_item v
    obtain ⟨items, hitems⟩ := rest.exists_items vs
    exact ⟨x :: items, by rw [Item.encodeAll, hx, hitems]; rfl⟩
  | .optional _ elem rest, (v, vs) => by
    obtain ⟨x, hx⟩ := exists_pointerItem elem.exists_item v
    obtain ⟨items, hitems⟩ := rest.exists_items vs
    rw [Fields.encode]
    split_ifs
    · exact ⟨[], by rw [Item.encodeAll]⟩
    · exact ⟨x :: items, by rw [Item.encodeAll, hx, hitems]⟩

end

/-- **A type only restricts what is accepted**: what `DecodeBytes` accepts
as a value of a Go type whose optional fields are pointers – a header or
a list of transactions among them – it accepts into an empty interface as
well, and both values are encoded as the same byte string. -/
theorem Ty.exists_decodeItem {t : Ty} (ht : t.Wf) (hb : b.length < 2 ^ 63) {v : t.Val}
    (h : decodeBytes t.decode b = .ok v) :
    ∃ x, decodeItem b = .ok x ∧ encodeToBytes x.write = encodeToBytes (t.write v) := by
  obtain ⟨hv, henc⟩ := ((t.codec ht).decodeBytes_eq_ok hb).mp h
  obtain ⟨x, hx⟩ := t.exists_item v
  refine ⟨x, (decodeItem_eq_ok hb).mpr (hx.trans henc), ?_⟩
  rw [(encodeToBytes_eq_ok x.writes hb).mpr (hx.trans henc),
    (encodeToBytes_eq_ok (t.writes ht v hv) hb).mpr henc]

/-- A list of two strings. -/
theorem Ty.exists_decodeItem_pair :
    let t := Ty.slice .bytes
    let v : List Bytes := [[5], []]
    decodeBytes t.decode [0xC2, 5, 0x80] = .ok v ∧ ∃ x, decodeItem [0xC2, 5, 0x80] = .ok x
      ∧ encodeToBytes x.write = encodeToBytes (t.write v) := by
  intro t v
  have h : decodeBytes t.decode [0xC2, 5, 0x80] = .ok v :=
    ((t.codec ⟨rfl, trivial⟩).decodeBytes_eq_ok (by decide)).mpr ⟨fun _ _ => trivial, by decide⟩
  exact ⟨h, t.exists_decodeItem ⟨rfl, trivial⟩ (by decide) h⟩

/-! ## Structures as Go types -/

/-- **A structure of the model as a Go type.** -/
structure Schema (α : Type) where
  type : Ty
  wf : type.Wf
  equiv : α ≃ type.Val

namespace Schema

variable {α : Type} (S : Schema α)

/-- `DecodeBytes` into a value of the type. -/
def decode (b : Bytes) : Except Err α := (decodeBytes S.type.decode b).map S.equiv.symm

/-- `EncodeToBytes` of a value of the type. -/
def encode (a : α) : Except EncErr Bytes := encodeToBytes (S.type.write (S.equiv a))

/-- The value is written as it is read. -/
def Ok (a : α) : Prop := S.type.Ok (S.equiv a)

variable {S}

theorem decode_eq_ok {b : Bytes} (hb : b.length < 2 ^ 63) {a : α} :
    S.decode b = .ok a ↔ S.Ok a ∧ S.encode a = .ok b := by
  rw [Ok, encode, ← Ty.decodeBytes_eq_ok S.wf hb, decode]
  cases hdec : decodeBytes S.type.decode b with
  | error e => exact ⟨nofun, nofun⟩
  | ok v =>
    show Except.ok (S.equiv.symm v) = .ok a ↔ Except.ok v = .ok (S.equiv a)
    rw [Except.ok.injEq, Except.ok.injEq, Equiv.symm_apply_eq]

theorem exists_encode {a : α} (ha : S.Ok a) : ∃ b, S.encode a = .ok b := by
  obtain ⟨buf, hw, -⟩ := S.type.writes S.wf _ ha EncBuffer.empty
  exact ⟨buf.makeBytes, by rw [encode, encodeToBytes, hw]⟩

end Schema

end Rlp
