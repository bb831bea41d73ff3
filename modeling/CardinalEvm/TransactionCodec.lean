import CardinalEvm.Transaction

/-!
# The codec of transactions

A transaction whose integers are all there and not negative is read back
from each of its two encodings, and what `UnmarshalBinary` accepts is
the canonical encoding of what it returns. For the types without an
envelope this is the codec of their schema; what is left is that the
envelopes are told apart: a legacy transaction starts with the header of
a list, which is above `0x7F`, a typed one with its type; and of the two
lists of a blob transaction only the one with blobs starts with a list.
-/

open Rlp Schema

namespace Types

open Rlp (Schema Row)

/-! ## Transactions that are written as they are read -/

/-- The integers of a transaction are there, and not negative. -/
def Present (vs : List (Option Int)) : Prop := ∀ v ∈ vs, ∃ n, v = some n ∧ 0 ≤ n

/-- The 256-bit integers of a transaction are there. -/
def PresentWords (vs : List (Option Word)) : Prop := ∀ v ∈ vs, ∃ n, v = some n

@[simp] theorem present_nil : Present [] := nofun

@[simp] theorem present_cons (v : Option Int) (vs : List (Option Int)) :
    Present (v :: vs) ↔ (∃ n, v = some n ∧ 0 ≤ n) ∧ Present vs := List.forall_mem_cons

@[simp] theorem presentWords_nil : PresentWords [] := nofun

@[simp] theorem presentWords_cons (v : Option Word) (vs : List (Option Word)) :
    PresentWords (v :: vs) ↔ (∃ n, v = some n) ∧ PresentWords vs := List.forall_mem_cons

/-- **All integer fields are present and not negative.** -/
def TxData.Complete : TxData → Prop
  | .legacy tx => Present [tx.gasPrice, tx.value, tx.v, tx.r, tx.s]
  | .accessList tx => Present [tx.chainID, tx.gasPrice, tx.value, tx.v, tx.r, tx.s]
  | .dynamicFee tx =>
    Present [tx.chainID, tx.gasTipCap, tx.gasFeeCap, tx.value, tx.v, tx.r, tx.s]
  | .blob tx => PresentWords
    [tx.chainID, tx.gasTipCap, tx.gasFeeCap, tx.value, tx.blobFeeCap, tx.v, tx.r, tx.s]
  | .setCode tx => PresentWords
    [tx.chainID, tx.gasTipCap, tx.gasFeeCap, tx.value, tx.v, tx.r, tx.s]

@[simp] theorem ok_addressSchema (a : Address) : addressSchema.Ok a := trivial

@[simp] theorem ok_hashSchema (h : Hash) : hashSchema.Ok h := trivial

@[simp] theorem ok_recipientSchema (a : Option Address) : recipientSchema.Ok a :=
  fun _ _ => trivial

@[simp] theorem ok_blobSchema (b : Blob) : blobSchema.Ok b := trivial

@[simp] theorem ok_pointSchema (p : Point) : pointSchema.Ok p := trivial

@[simp] theorem ok_accessListSchema (l : List AccessTuple) : accessListSchema.Ok l := by
  simp [accessListSchema, accessTupleSchema]

@[simp] theorem ok_authorization (auth : Authorization) : Authorization.schema.Ok auth := by
  simp [Authorization.schema]

theorem ok_legacyTx (tx : LegacyTx) : LegacyTx.schema.Ok tx ↔ (TxData.legacy tx).Complete := by
  simp [LegacyTx.schema, TxData.Complete]

theorem ok_accessListTx (tx : AccessListTx) :
    AccessListTx.schema.Ok tx ↔ (TxData.accessList tx).Complete := by
  simp [AccessListTx.schema, TxData.Complete]

theorem ok_dynamicFeeTx (tx : DynamicFeeTx) :
    DynamicFeeTx.schema.Ok tx ↔ (TxData.dynamicFee tx).Complete := by
  simp [DynamicFeeTx.schema, TxData.Complete]

theorem ok_blobTxBody (tx : BlobTx) :
    BlobTxBody.schema.Ok tx.toBlobTxBody ↔ (TxData.blob tx).Complete := by
  simp [BlobTxBody.schema, TxData.Complete]

theorem ok_setCodeTx (tx : SetCodeTx) : SetCodeTx.schema.Ok tx ↔ (TxData.setCode tx).Complete := by
  simp [SetCodeTx.schema, TxData.Complete]

theorem ok_blobTxWithBlobs (inner : BlobTxWithBlobs) :
    BlobTxWithBlobs.schema.Ok inner ↔
      ∃ body, inner.blobTx = some body ∧ BlobTxBody.schema.Ok body := by
  simp [BlobTxWithBlobs.schema]

/-! ## Blob transactions -/

@[simp] theorem ofRlp_eq_ok {α : Type} {r : Except Err α} {a : α} :
    ofRlp r = .ok a ↔ r = .ok a := by
  cases r with
  | error e => exact ⟨nofun, nofun⟩
  | ok a => exact ⟨fun h => by cases h; rfl, fun h => by cases h; rfl⟩

variable {content : Bytes} {inner : BlobTxWithBlobs} {body : BlobTxBody}

theorem splitList_list (h : (list content).length < 2 ^ 63) :
    splitList (list content) = .ok (content, []) := by
  have hsplit := split_list content [] (by rwa [List.append_nil])
  rw [List.append_nil] at hsplit
  rw [splitList, hsplit]
  rfl

/-- **The fields of a blob transaction start with a string**, that of
the chain id. -/
theorem BlobTxBody.exists_bytes (body : BlobTxBody) :
    ∃ id content, BlobTxBody.schema.bytes body = list (string id ++ content) := by
  unfold BlobTxBody.schema
  rw [bytes_struct]
  show ∃ id content, list ((ptr .uint256).bytes body.chainID ++ _) = _
  cases body.chainID with
  | none => exact ⟨[], _, rfl⟩
  | some id => exact ⟨digits id.toNat, _, rfl⟩

/-- **With blobs they start with a list**, that of the fields. -/
theorem BlobTxWithBlobs.exists_bytes (h : inner.blobTx = some body) :
    ∃ fields content, BlobTxWithBlobs.schema.bytes inner = list (list fields ++ content) := by
  obtain ⟨id, rest, hbody⟩ := body.exists_bytes
  unfold BlobTxWithBlobs.schema
  rw [bytes_struct]
  show ∃ fields content, list ((ptr BlobTxBody.schema).bytes inner.blobTx ++ _) = _
  rw [h]
  show ∃ fields content, list (BlobTxBody.schema.bytes body ++ _) = _
  rw [hbody]
  exact ⟨_, _, rfl⟩

theorem length_content_le (h : (list content).length < 2 ^ 63) :
    content.length < 2 ^ 63 := by
  rw [list, List.length_append] at h
  omega

/-- The two encodings are told apart by the kind of the first element. -/
theorem BlobTx.decode_list {first rest : Bytes} {k : Kind}
    (h : (list content).length < 2 ^ 63) (hsplit : split content = .ok (k, first, rest)) :
    BlobTx.decode (list content) = BlobTx.decodeAs k (list content) := by
  rw [BlobTx.decode, splitList_list h]
  show (ofRlp (split content) >>= _) = _
  rw [hsplit]
  rfl

theorem BlobTx.decode_body (h : (BlobTxBody.schema.bytes body).length < 2 ^ 63) :
    BlobTx.decode (BlobTxBody.schema.bytes body)
      = (ofRlp (BlobTxBody.schema.decode (BlobTxBody.schema.bytes body))).map
        (fun body => { body with sidecar := none }) := by
  obtain ⟨id, content, hbytes⟩ := body.exists_bytes
  rw [hbytes] at h ⊢
  obtain ⟨k, hk, hsplit⟩ := split_string id content (length_content_le h)
  rw [BlobTx.decode_list h hsplit]
  exact if_pos hk

theorem BlobTx.decode_withBlobs (hbody : inner.blobTx = some body)
    (h : (BlobTxWithBlobs.schema.bytes inner).length < 2 ^ 63) :
    BlobTx.decode (BlobTxWithBlobs.schema.bytes inner)
      = (ofRlp (BlobTxWithBlobs.schema.decode (BlobTxWithBlobs.schema.bytes inner))).bind
        BlobTxWithBlobs.blobTransaction := by
  obtain ⟨fields, content, hbytes⟩ := BlobTxWithBlobs.exists_bytes hbody
  rw [hbytes] at h ⊢
  rw [BlobTx.decode_list h (split_list fields content (length_content_le h))]
  exact if_neg (not_not.mpr rfl)

/-- The list of a blob transaction with its blobs. -/
def BlobTx.withBlobs (tx : BlobTx) (sidecar : BlobTxSidecar) : BlobTxWithBlobs :=
  { blobTx := some tx.toBlobTxBody
    blobs := sidecar.blobs
    commitments := sidecar.commitments
    proofs := sidecar.proofs }

theorem BlobTxWithBlobs.blobTransaction_eq_ok {tx : BlobTx} :
    inner.blobTransaction = .ok tx ↔ ∃ sidecar, tx.sidecar = some sidecar ∧
      inner = tx.withBlobs sidecar := by
  obtain ⟨body, blobs, commitments, proofs⟩ := inner
  cases body with
  | none =>
    refine ⟨nofun, ?_⟩
    rintro ⟨sidecar, -, h⟩
    cases h
  | some body =>
    constructor
    · rintro ⟨⟩
      exact ⟨_, rfl, rfl⟩
    · rintro ⟨sidecar, hsidecar, h⟩
      cases h
      obtain ⟨body, _⟩ := tx
      cases hsidecar
      rfl

/-- **The codec of blob transactions**, with and without blobs. -/
theorem BlobTx.decode_eq_ok {b : Bytes} (hb : b.length < 2 ^ 63) {tx : BlobTx} :
    BlobTx.decode b = .ok tx ↔ (TxData.blob tx).Complete ∧ tx.encode = .ok b := by
  constructor
  · intro h
    obtain ⟨⟨outerList, _⟩, -, h⟩ := exceptBind_eq_ok.mp h
    obtain ⟨⟨kind, _, _⟩, -, h⟩ := exceptBind_eq_ok.mp h
    by_cases hkind : kind ≠ .list
    · replace h := (if_pos hkind).symm.trans h
      obtain ⟨body, hdec, h⟩ := exceptBind_eq_ok.mp h
      cases h
      obtain ⟨hok, henc⟩ := (Rlp.Schema.decode_eq_ok hb).mp (ofRlp_eq_ok.mp hdec)
      exact ⟨(ok_blobTxBody _).mp hok, henc⟩
    · replace h := (if_neg hkind).symm.trans h
      obtain ⟨inner, hdec, h⟩ := exceptBind_eq_ok.mp h
      obtain ⟨hok, henc⟩ := (Rlp.Schema.decode_eq_ok hb).mp (ofRlp_eq_ok.mp hdec)
      obtain ⟨sidecar, hsidecar, rfl⟩ := BlobTxWithBlobs.blobTransaction_eq_ok.mp h
      obtain ⟨_, ⟨⟩, hok⟩ := (ok_blobTxWithBlobs _).mp hok
      refine ⟨(ok_blobTxBody _).mp hok, ?_⟩
      rw [BlobTx.encode, hsidecar]
      exact henc
  · rintro ⟨hcomplete, henc⟩
    have hok := (ok_blobTxBody tx).mpr hcomplete
    cases hsidecar : tx.sidecar with
    | none =>
      rw [BlobTx.encode, hsidecar] at henc
      have hdec := (Rlp.Schema.decode_eq_ok hb).mpr ⟨hok, henc⟩
      obtain rfl := (encode_eq_ok hok hb).mp henc
      rw [BlobTx.decode_body hb, hdec]
      obtain ⟨body, _⟩ := tx
      cases hsidecar
      rfl
    | some sidecar =>
      rw [BlobTx.encode, hsidecar] at henc
      have hinner : BlobTxWithBlobs.schema.Ok (tx.withBlobs sidecar) :=
        (ok_blobTxWithBlobs _).mpr ⟨_, rfl, hok⟩
      have hdec := (Rlp.Schema.decode_eq_ok hb).mpr ⟨hinner, henc⟩
      obtain rfl := (encode_eq_ok hinner hb).mp henc
      rw [BlobTx.decode_withBlobs rfl hb, hdec]
      exact BlobTxWithBlobs.blobTransaction_eq_ok.mpr ⟨sidecar, hsidecar, rfl⟩

/-! ## Envelopes -/

section Envelopes

variable {b : Bytes} {inner : TxData}

theorem encode_ne_nil {α : Type} {S : Schema α} {a : α} (ha : S.Ok a) (hb : b.length < 2 ^ 63)
    (h : S.encode a = .ok b) : b ≠ [] :=
  (encode_eq_ok ha hb).mp h ▸ S.codec.ne_nil a ha

theorem BlobTx.encode_ne_nil {tx : BlobTx} (ha : (TxData.blob tx).Complete)
    (hb : b.length < 2 ^ 63) (h : tx.encode = .ok b) : b ≠ [] := by
  have hok := (ok_blobTxBody tx).mpr ha
  unfold BlobTx.encode at h
  cases hsidecar : tx.sidecar with
  | none =>
    rw [hsidecar] at h
    exact Types.encode_ne_nil hok hb h
  | some sidecar =>
    rw [hsidecar] at h
    exact Types.encode_ne_nil ((ok_blobTxWithBlobs _).mpr ⟨_, rfl, hok⟩) hb h

/-- **What is decoded after a type** is what the data of a transaction of
the type is encoded as. -/
theorem Transaction.decodeTyped_cons {t : UInt8} (hb : b.length < 2 ^ 63) :
    decodeTyped (t :: b) = .ok inner ↔
      inner.Complete ∧ inner.txType = t ∧ t ≠ 0 ∧ inner.encode = .ok b := by
  constructor
  · intro h
    rw [decodeTyped] at h
    split_ifs at h with hnil h1 h2 h3 h4
    · obtain ⟨tx, hdec, rfl⟩ := exceptMap_eq_ok.mp h
      obtain ⟨hok, henc⟩ := (decode_eq_ok hb).mp (ofRlp_eq_ok.mp hdec)
      exact ⟨(ok_accessListTx tx).mp hok, h1.symm, h1 ▸ by decide, henc⟩
    · obtain ⟨tx, hdec, rfl⟩ := exceptMap_eq_ok.mp h
      obtain ⟨hok, henc⟩ := (decode_eq_ok hb).mp (ofRlp_eq_ok.mp hdec)
      exact ⟨(ok_dynamicFeeTx tx).mp hok, h2.symm, h2 ▸ by decide, henc⟩
    · obtain ⟨tx, hdec, rfl⟩ := exceptMap_eq_ok.mp h
      obtain ⟨hok, henc⟩ := (BlobTx.decode_eq_ok hb).mp hdec
      exact ⟨hok, h3.symm, h3 ▸ by decide, henc⟩
    · obtain ⟨tx, hdec, rfl⟩ := exceptMap_eq_ok.mp h
      obtain ⟨hok, henc⟩ := (decode_eq_ok hb).mp (ofRlp_eq_ok.mp hdec)
      exact ⟨(ok_setCodeTx tx).mp hok, h4.symm, h4 ▸ by decide, henc⟩
  · rintro ⟨hcomplete, rfl, h0, henc⟩
    have hschema : ∀ {α : Type} {S : Schema α} {tx : α} {f : α → TxData}, S.Ok tx →
        S.encode tx = .ok b →
        (if b = [] then .error .shortTypedTx else f <$> ofRlp (S.decode b)) = .ok (f tx) :=
      fun hok henc => (if_neg (encode_ne_nil hok hb henc)).trans (exceptMap_eq_ok.mpr
        ⟨_, ofRlp_eq_ok.mpr ((decode_eq_ok hb).mpr ⟨hok, henc⟩), rfl⟩)
    cases inner with
    | legacy tx => exact absurd rfl h0
    | accessList tx => exact hschema ((ok_accessListTx tx).mpr hcomplete) henc
    | dynamicFee tx => exact hschema ((ok_dynamicFeeTx tx).mpr hcomplete) henc
    | blob tx =>
      refine (if_neg (BlobTx.encode_ne_nil hcomplete hb henc)).trans
        (exceptMap_eq_ok.mpr ⟨tx, ?_, rfl⟩)
      exact (BlobTx.decode_eq_ok hb).mpr ⟨hcomplete, henc⟩
    | setCode tx => exact hschema ((ok_setCodeTx tx).mpr hcomplete) henc

/-- A list starts with a byte above `0x7F`. -/
theorem exists_list_cons {content : Bytes} (h : content.length < 2 ^ 63) :
    ∃ x b, list content = x :: b ∧ 0x7F < x := by
  rw [list]
  rcases Nat.lt_or_ge content.length 56 with h56 | h56
  · rw [Stream.header_of_lt h56]
    refine ⟨_, _, rfl, UInt8.not_le.mp fun hle => ?_⟩
    have hlt := UInt8.lt_of_le_of_lt hle (show (0x7F : UInt8) < 0x80 by decide)
    have : 192 + content.length < 128 :=
      (Stream.first_lt_iff 0xC0 (show 192 + content.length < 256 by omega) 0x80).mp hlt
    omega
  · have hlen := Stream.byteLen_le_eight (h.trans (by decide))
    rw [Stream.header_of_le h56]
    refine ⟨_, _, rfl, UInt8.not_le.mp fun hle => ?_⟩
    have hlt := UInt8.lt_of_le_of_lt hle (show (0x7F : UInt8) < 0x80 by decide)
    have : 247 + byteLen content.length < 128 :=
      (Stream.first_lt_iff 0xF7 (show 247 + byteLen content.length < 256 by omega)
        0x80).mp hlt
    omega

theorem LegacyTx.exists_encode_cons {tx : LegacyTx} (ha : LegacyTx.schema.Ok tx)
    (hb : b.length < 2 ^ 63) (h : LegacyTx.schema.encode tx = .ok b) :
    ∃ x b', b = x :: b' ∧ 0x7F < x := by
  obtain rfl := (encode_eq_ok ha hb).mp h
  exact exists_list_cons (length_content_le hb)

theorem TxData.txType_lt (inner : TxData) : ¬ 0x7F < inner.txType := by
  cases inner <;> simp [txType]

theorem TxData.exists_legacy (h : inner.txType = 0) : ∃ tx, inner = .legacy tx := by
  cases inner with
  | legacy tx => exact ⟨tx, rfl⟩
  | _ => simp [txType] at h

/-- A transaction that is complete can be encoded. -/
theorem TxData.exists_encode (h : inner.Complete) : ∃ b, inner.encode = .ok b := by
  cases inner with
  | legacy tx => exact exists_encode ((ok_legacyTx tx).mpr h)
  | accessList tx => exact exists_encode ((ok_accessListTx tx).mpr h)
  | dynamicFee tx => exact exists_encode ((ok_dynamicFeeTx tx).mpr h)
  | blob tx =>
    have hok := (ok_blobTxBody tx).mpr h
    rw [encode, BlobTx.encode]
    cases tx.sidecar with
    | none => exact exists_encode hok
    | some sidecar => exact exists_encode ((ok_blobTxWithBlobs _).mpr ⟨_, rfl, hok⟩)
  | setCode tx => exact exists_encode ((ok_setCodeTx tx).mpr h)

namespace Transaction

variable {tx : Transaction}

theorem marshalBinary_typed (h : tx.inner.txType ≠ 0) : tx.marshalBinary = tx.encodeTyped := by
  obtain ⟨inner, size⟩ := tx
  cases inner with
  | legacy inner => exact absurd rfl h
  | _ => rfl

theorem encodeTyped_eq_ok :
    tx.encodeTyped = .ok b ↔ ∃ b', b = tx.inner.txType :: b' ∧ tx.inner.encode = .ok b' := by
  refine exceptMap_eq_ok.trans (exists_congr fun b' => ?_)
  rw [and_comm, eq_comm]

/-- **What `UnmarshalBinary` accepts** is what `MarshalBinary` returns. -/
theorem unmarshalBinary_eq_ok (hb : b.length < 2 ^ 63) :
    unmarshalBinary b = .ok tx ↔
      tx.inner.Complete ∧ tx.marshalBinary = .ok b ∧ tx.size = some b.length := by
  have hsize (b : Bytes) (h : b ≠ []) :
      (if 0 < b.length then some b.length else none) = some b.length :=
    if_pos (List.length_pos_of_ne_nil h)
  obtain ⟨inner, size⟩ := tx
  constructor
  · intro h
    by_cases hhead : b.head?.any (0x7F < ·) = true
    · obtain ⟨data, hdec, hdecoded⟩ := exceptMap_eq_ok.mp ((if_pos hhead).symm.trans h)
      obtain ⟨hok, henc⟩ := (decode_eq_ok hb).mp (ofRlp_eq_ok.mp hdec)
      cases hdecoded
      exact ⟨(ok_legacyTx data).mp hok, henc, hsize b (encode_ne_nil hok hb henc)⟩
    · obtain ⟨inner', hdec, hdecoded⟩ := exceptMap_eq_ok.mp ((if_neg hhead).symm.trans h)
      cases hdecoded
      cases b with
      | nil => cases hdec
      | cons t b =>
        have hb' : b.length < 2 ^ 63 := (Nat.lt_succ_self _).trans hb
        obtain ⟨hcomplete, rfl, h0, henc⟩ := (decodeTyped_cons hb').mp hdec
        refine ⟨hcomplete, ?_, hsize _ (List.cons_ne_nil _ _)⟩
        rw [marshalBinary_typed h0, encodeTyped_eq_ok]
        exact ⟨b, rfl, henc⟩
  · rintro ⟨hcomplete, hmarshal, hsized⟩
    obtain rfl : size = some b.length := hsized
    by_cases h0 : inner.txType = 0
    · obtain ⟨data, rfl⟩ := TxData.exists_legacy h0
      have hok := (ok_legacyTx data).mpr hcomplete
      obtain ⟨x, b', rfl, hx⟩ := LegacyTx.exists_encode_cons hok hb hmarshal
      refine (if_pos (decide_eq_true hx)).trans (exceptMap_eq_ok.mpr ⟨data, ?_, ?_⟩)
      · exact ofRlp_eq_ok.mpr ((decode_eq_ok hb).mpr ⟨hok, hmarshal⟩)
      · rw [setDecoded, hsize _ (List.cons_ne_nil _ _)]
    · rw [marshalBinary_typed h0, encodeTyped_eq_ok] at hmarshal
      obtain ⟨b', hcons, henc⟩ := hmarshal
      obtain rfl : b = inner.txType :: b' := hcons
      have hb' : b'.length < 2 ^ 63 := (Nat.lt_succ_self _).trans hb
      have hhead : ¬ (inner.txType :: b').head?.any (0x7F < ·) = true := fun h =>
        inner.txType_lt (of_decide_eq_true h)
      refine (if_neg hhead).trans (exceptMap_eq_ok.mpr ⟨inner, ?_, ?_⟩)
      · exact (decodeTyped_cons hb').mpr ⟨hcomplete, rfl, h0, henc⟩
      · rw [setDecoded, hsize _ (List.cons_ne_nil _ _)]

/-! ## Transactions inside other values -/

theorem encodeRLP_typed (h : tx.inner.txType ≠ 0) :
    tx.encodeRLP = tx.encodeTyped >>= slicedBytes.encode := by
  obtain ⟨inner, size⟩ := tx
  cases inner with
  | legacy inner => exact absurd rfl h
  | _ => rfl

open Rlp (Ready Ahead Took Peeks)

variable {s s₁ : Stream}

theorem onStream_bind {α β : Type} {m : StreamM α} {a : α} (h : m s = .ok a s₁)
    (f : α → EStateM DecodeErr Stream β) : (onStream m >>= f) s = f a s₁ := by
  show EStateM.bind (onStream m) f s = _
  rw [EStateM.bind, onStream, h]

theorem length_le_string (b : Bytes) : b.length ≤ (string b).length := by
  by_cases hb : ∃ x, b = [x] ∧ x ≤ 0x7F
  · obtain ⟨x, rfl, hx⟩ := hb
    rw [string_byte hx]
  · rw [string_of_ne fun x hx => UInt8.not_le.mp fun hle => hb ⟨x, hx, hle⟩, List.length_append]
    exact Nat.le_add_left _ _

theorem size_setDecoded (inner : TxData) (hb : b ≠ []) :
    (setDecoded inner b.length).size = some b.length :=
  if_pos (List.length_pos_of_ne_nil hb)

/-- The size of a list, from that of its content. -/
theorem listSize_eq {content : Bytes} (h : content.length < 2 ^ 63) :
    listSize (UInt64.ofNat content.length) = (list content).length := by
  have htoNat : (UInt64.ofNat content.length).toNat = content.length :=
    UInt64.toNat_ofNat_of_lt' (show content.length < 18446744073709551616 by omega)
  have hlt : UInt64.ofNat content.length < 56 ↔ content.length < 56 := by
    rw [UInt64.lt_iff_toNat_lt, htoNat]
    exact Iff.rfl
  rw [listSize, headsize, htoNat, list, List.length_append, ← length_header h]
  simp only [hlt]

/-- **A transaction is read where its encoding is ahead**, and nothing
else is taken from the stream. The size that is cached is that of the
canonical encoding. -/
theorem exists_decodeRLP (hs : Ready s) (hcomplete : tx.inner.Complete) (hb : b.length < 2 ^ 63)
    (hencode : tx.encodeRLP = .ok b) (hahead : Ahead s b) :
    ∃ tx' s', decodeRLP s = .ok tx' s' ∧ tx'.inner = tx.inner ∧ Took s s' b ∧
      ∀ c, tx.marshalBinary = .ok c → tx'.size = some c.length := by
  by_cases h0 : tx.inner.txType = 0
  · -- a list
    obtain ⟨data, hdata⟩ := TxData.exists_legacy h0
    rw [hdata] at hcomplete ⊢
    rw [encodeRLP, hdata] at hencode
    have hok := (ok_legacyTx data).mpr hcomplete
    obtain rfl := (encode_eq_ok hok hb).mp hencode
    have hpeeks : Peeks LegacyTx.schema.read := peeks_struct _ _
    obtain ⟨content, hcontent⟩ : ∃ content, LegacyTx.schema.bytes data = list content :=
      ⟨_, rfl⟩
    have hlist : Ahead s (list content) := hcontent ▸ hahead
    obtain ⟨s₁, hk, hp, -⟩ := Stream.exists_kindAhead .list 0 content hs nofun hlist
    obtain ⟨s₂, hread, ht, -⟩ := LegacyTx.schema.codec.exists_ahead hs hok hahead
    rw [← hpeeks s _ s₁ hk hp.again] at hread
    refine ⟨setDecoded (.legacy data) (listSize (UInt64.ofNat content.length)), s₂, ?_, rfl, ht,
      fun c hc => ?_⟩
    · rw [decodeRLP, onStream_bind hk]
      exact onStream_bind hread _
    · rw [marshalBinary, hdata] at hc
      obtain rfl := Except.ok.inj (hencode.symm.trans hc)
      rw [hcontent] at hb ⊢
      rw [listSize_eq (length_content_le hb)]
      exact size_setDecoded _ (list_ne_nil content)
  · -- a string with the canonical encoding, which is not a single byte
    rw [encodeRLP_typed h0] at hencode
    obtain ⟨payload, htyped, hencode⟩ := exceptBind_eq_ok.mp hencode
    obtain rfl : string payload = b :=
      (encode_eq_ok (ok_slicedBytes payload) hb).mp hencode
    have hlen : payload.length < 2 ^ 63 := (length_le_string payload).trans_lt hb
    have hdec : decodeTyped payload = .ok tx.inner := by
      obtain ⟨b', rfl, henc⟩ := encodeTyped_eq_ok.mp htyped
      exact (decodeTyped_cons ((Nat.lt_succ_self _).trans hlen)).mpr ⟨hcomplete, rfl, h0, henc⟩
    obtain ⟨size, s₁, hk⟩ : ∃ size s₁, Stream.kindAhead s = .ok (.string, size) s₁ := by
      rcases Stream.ahead_string hs hahead with ⟨x, _, rfl, -⟩ | ⟨size, s₁, hk, -⟩
      · cases hdec
      · exact ⟨size, s₁, hk⟩
    have hp := (Stream.sat_kindAhead hs).of_ok hk
    obtain ⟨s₂, hread, ht, -⟩ := Stream.codec_bytes.exists_ahead hs trivial hahead
    rw [← Peeks.bytes s _ s₁ hk hp.again] at hread
    refine ⟨setDecoded tx.inner payload.length, s₂, ?_, rfl, ht, fun c hc => ?_⟩
    · rw [decodeRLP, onStream_bind hk]
      refine (onStream_bind hread _).trans ?_
      rw [hdec]
      rfl
    · rw [marshalBinary_typed h0] at hc
      obtain rfl := Except.ok.inj (htyped.symm.trans hc)
      obtain ⟨b', rfl, -⟩ := encodeTyped_eq_ok.mp htyped
      exact size_setDecoded _ (List.cons_ne_nil _ _)

/-- `DecodeBytes` of what `EncodeRLP` writes. -/
theorem exists_decodeBytes (hcomplete : tx.inner.Complete) (hb : b.length < 2 ^ 63)
    (hencode : tx.encodeRLP = .ok b) :
    ∃ tx', decodeBytes b = .ok tx' ∧ tx'.inner = tx.inner ∧
      ∀ c, tx.marshalBinary = .ok c → tx'.size = some c.length := by
  have hs : Ready (Stream.ofBytes b) := ⟨⟨hb, fun _ => rfl⟩, rfl⟩
  obtain ⟨tx', s', hdec, hinner, ht, hsize⟩ :=
    exists_decodeRLP hs hcomplete hb hencode ⟨List.prefix_rfl, nofun⟩
  have hnil : s'.input = [] := by
    have hinput : b = b ++ s'.input := ht.input
    exact List.self_eq_append_right.mp hinput
  refine ⟨tx', ?_, hinner, hsize⟩
  rw [decodeBytes, hdec]
  exact if_pos hnil

/-- The hash is that of the data. -/
theorem hash_congr [Keccak] {tx' : Transaction} (h : tx'.inner = tx.inner) :
    tx'.hash = tx.hash := by
  rw [hash, hash, h]

theorem exists_marshalBinary (h : tx.inner.Complete) : ∃ b, tx.marshalBinary = .ok b := by
  by_cases h0 : tx.inner.txType = 0
  · obtain ⟨data, hdata⟩ := TxData.exists_legacy h0
    rw [hdata] at h
    rw [marshalBinary, hdata]
    exact exists_encode ((ok_legacyTx data).mpr h)
  · obtain ⟨b, hb⟩ := tx.inner.exists_encode h
    exact ⟨_, (marshalBinary_typed h0).trans (encodeTyped_eq_ok.mpr ⟨b, rfl, hb⟩)⟩

theorem exists_encodeRLP (h : tx.inner.Complete) : ∃ b, tx.encodeRLP = .ok b := by
  obtain ⟨b, hb⟩ := exists_marshalBinary h
  by_cases h0 : tx.inner.txType = 0
  · obtain ⟨data, hdata⟩ := TxData.exists_legacy h0
    rw [marshalBinary, hdata] at hb
    rw [encodeRLP, hdata]
    exact ⟨b, hb⟩
  · rw [encodeRLP_typed h0]
    rw [marshalBinary_typed h0] at hb
    obtain ⟨e, he⟩ := exists_encode (ok_slicedBytes b)
    exact ⟨e, exceptBind_eq_ok.mpr ⟨b, hb, he⟩⟩

/-- **The codec of transactions is a bijection.** A transaction of any
type whose integers are all there and not negative is read back from its
canonical encoding and from its RLP encoding, with the same fields and
the same hash; and a byte string that is accepted as a transaction is
the canonical encoding of that transaction. -/
theorem marshalBinary_unmarshalBinary [Keccak] :
    (∀ tx : Transaction, tx.inner.Complete → ∃ b e,
      tx.marshalBinary = .ok b ∧ tx.encodeRLP = .ok e ∧
      (b.length < 2 ^ 63 → ∃ tx', unmarshalBinary b = .ok tx' ∧ tx'.inner = tx.inner ∧
        tx'.hash = tx.hash) ∧
      (e.length < 2 ^ 63 → ∃ tx', decodeBytes e = .ok tx' ∧ tx'.inner = tx.inner ∧
        tx'.hash = tx.hash)) ∧
    (∀ (b : Bytes) (tx : Transaction), b.length < 2 ^ 63 → unmarshalBinary b = .ok tx →
      tx.marshalBinary = .ok b) := by
  refine ⟨fun tx hcomplete => ?_, fun b tx hb h => ((unmarshalBinary_eq_ok hb).mp h).2.1⟩
  obtain ⟨b, hmarshal⟩ := exists_marshalBinary hcomplete
  obtain ⟨e, hencode⟩ := exists_encodeRLP hcomplete
  refine ⟨b, e, hmarshal, hencode, fun hb => ?_, fun he => ?_⟩
  · -- the size is cached, the data is the same
    have hdec : unmarshalBinary b = .ok ⟨tx.inner, some b.length⟩ :=
      (unmarshalBinary_eq_ok hb).mpr ⟨hcomplete, hmarshal, rfl⟩
    exact ⟨_, hdec, rfl, hash_congr rfl⟩
  · obtain ⟨tx', hdec, hinner, -⟩ := exists_decodeBytes hcomplete he hencode
    exact ⟨tx', hdec, hinner, hash_congr hinner⟩

/-- A signed transaction with a tip. -/
theorem marshalBinary_unmarshalBinary_tip :
    letI := Keccak.digests
    let inner : DynamicFeeTx :=
      { chainID := some 1, nonce := 9, gasTipCap := some 2, gasFeeCap := some 20, gas := 21000
        recipient := some 0x1000, value := some 1000, data := [1, 2]
        accessList := [⟨0x1000, [5]⟩], v := some 1, r := some 7, s := some 11 }
    let tx : Transaction := { inner := .dynamicFee inner }
    ∃ b e tx' tx'', unmarshalBinary b = .ok tx' ∧ decodeBytes e = .ok tx''
      ∧ tx'.inner = tx.inner ∧ tx''.inner = tx.inner ∧ tx'.marshalBinary = .ok b := by
  let _ := Keccak.digests
  intro inner tx
  obtain ⟨b, e, hb, he, hbinary, hrlp⟩ :=
    marshalBinary_unmarshalBinary.1 tx (by simp [tx, inner, TxData.Complete])
  have hlength : ∀ r : Except Rlp.EncErr Bytes, (r.toOption.getD []).length < 2 ^ 63 →
      ∀ {b}, r = .ok b → b.length < 2 ^ 63 := by
    rintro _ h b rfl
    exact h
  have hb := hlength _ (by decide +kernel) hb
  obtain ⟨tx', hdec, hinner, -⟩ := hbinary hb
  obtain ⟨tx'', hdec', hinner', -⟩ := hrlp (hlength _ (by decide +kernel) he)
  exact ⟨b, e, tx', tx'', hdec, hdec', hinner, hinner',
    marshalBinary_unmarshalBinary.2 b tx' hb hdec⟩

end Transaction

end Envelopes

end Types
