import CardinalEvm.TransactionCodec
import CardinalEvm.Signer

/-!
# The size of a transaction

`Size` returns the size that was cached when the transaction was decoded:
that of the canonical encoding, on all three ways of decoding one. A new
transaction has none cached, and then `Size` counts what `rlp.Encode`
writes of the data of the transaction. For a legacy transaction that is
the canonical encoding. For a typed one it is not: the type is missing,
and so are the blobs of a blob transaction.

`oneSize_iff` says that the two ways agree for legacy transactions and for
no others.
-/

namespace Types

open Rlp (Schema Writes)

/-- The writers of the fields of a legacy transaction. -/
def LegacyTx.writers (tx : LegacyTx) : List (Rlp.EncM Unit) :=
  [Schema.uint64.write tx.nonce, Schema.bigInt.ptr.write tx.gasPrice, Schema.uint64.write tx.gas,
    recipientSchema.write tx.recipient, Schema.bigInt.ptr.write tx.value,
    Schema.slicedBytes.write tx.data, Schema.bigInt.ptr.write tx.v, Schema.bigInt.ptr.write tx.r,
    Schema.bigInt.ptr.write tx.s]

theorem encode_legacyTx (tx : LegacyTx) :
    LegacyTx.schema.encode tx = Rlp.encodeToBytes (Rlp.EncBuffer.writeList tx.writers) := rfl

namespace Transaction

/-- **`Size`**: the size that is cached, or the number of bytes that
`rlp.Encode` writes, which are none if it fails. `StorageSize` is a
`float64`, and counts bytes below `2 ^ 53` as they are. -/
def storageSize (tx : Transaction) : ℕ :=
  tx.size.getD (tx.inner.rlpEncode.toOption.getD []).length

/-- **There is one size**: that of the new transaction, and those of what
is decoded from its two encodings, are the length of the canonical one. -/
structure OneSize (data : TxData) (b e : Bytes) : Prop where
  new : (newTx data).storageSize = b.length
  binary : ∃ tx, unmarshalBinary b = .ok tx ∧ tx.storageSize = b.length
  rlp : ∃ tx, decodeBytes e = .ok tx ∧ tx.storageSize = b.length

/-! ## Sizes that are cached -/

variable {tx : Transaction} {b e : Bytes}

theorem storageSize_cached {size : ℕ} (h : tx.size = some size) : tx.storageSize = size := by
  rw [storageSize, h]
  rfl

/-- **The size of a decoded transaction is that of its canonical
encoding**, whichever encoding it was decoded from. -/
theorem storageSize_decoded (hcomplete : tx.inner.Complete) (hmarshal : tx.marshalBinary = .ok b)
    (hencode : tx.encodeRLP = .ok e) (hb : b.length < 2 ^ 63) (he : e.length < 2 ^ 63) :
    (∃ tx', unmarshalBinary b = .ok tx' ∧ tx'.storageSize = b.length)
      ∧ ∃ tx', decodeBytes e = .ok tx' ∧ tx'.storageSize = b.length := by
  constructor
  · have hdec : unmarshalBinary b = .ok ⟨tx.inner, some b.length⟩ :=
      (unmarshalBinary_eq_ok hb).mpr ⟨hcomplete, hmarshal, rfl⟩
    exact ⟨_, hdec, rfl⟩
  · obtain ⟨tx', hdec, -, hsize⟩ := exists_decodeBytes hcomplete he hencode
    exact ⟨tx', hdec, storageSize_cached (hsize b hmarshal)⟩

/-! ## Sizes that are counted -/

/-- A new transaction has no size yet. -/
theorem storageSize_newTx {data : TxData} (h : data.copy.rlpEncode = .ok b) :
    (newTx data).storageSize = b.length := by
  show (data.copy.rlpEncode.toOption.getD []).length = _
  rw [h]
  rfl

/-- A legacy transaction that can be encoded has no negative integer. -/
theorem complete_of_encode {tx : LegacyTx} (h : LegacyTx.schema.encode tx = .ok b)
    (hpresent : ∀ v ∈ [tx.gasPrice, tx.value, tx.v, tx.r, tx.s], v ≠ none) :
    (TxData.legacy tx).Complete := by
  intro v hv
  obtain ⟨n, rfl⟩ := Option.ne_none_iff_exists'.mp (hpresent v hv)
  refine ⟨n, rfl, ?_⟩
  by_contra hneg
  have hfails : Writes.Fails (Schema.bigInt.ptr.write (some n)) :=
    Writes.Fails.bigInt (not_le.mp hneg)
  have hmem : Schema.bigInt.ptr.write (some n) ∈ tx.writers := by
    simp only [List.mem_cons, List.not_mem_nil, or_false] at hv
    rcases hv with h | h | h | h | h <;> simp [LegacyTx.writers, ← h]
  obtain ⟨buf', hbuf'⟩ := hfails.list hmem Rlp.EncBuffer.empty
  rw [encode_legacyTx, Rlp.encodeToBytes, hbuf'] at h
  cases h

/-- Nothing is missing in a copy of a legacy transaction. -/
theorem complete_copy {tx : LegacyTx} (h : (TxData.legacy tx).copy.encode = .ok b) :
    (TxData.legacy tx).copy.Complete := by
  refine complete_of_encode h fun v hv => ?_
  simp only [List.mem_cons, List.not_mem_nil, or_false] at hv
  rcases hv with rfl | rfl | rfl | rfl | rfl <;> exact Option.some_ne_none _

/-- **A blob transaction is counted without its blobs.** -/
theorem exists_rlpEncode_blob {tx : BlobTx} (hcomplete : (TxData.blob tx).Complete)
    (henc : tx.encode = .ok b) (hb : b.length < 2 ^ 63) :
    ∃ c, (TxData.blob tx).rlpEncode = .ok c ∧ c.length ≤ b.length := by
  have hok := (ok_blobTxBody tx).mpr hcomplete
  cases hsidecar : tx.sidecar with
  | none =>
    rw [BlobTx.encode, hsidecar] at henc
    exact ⟨b, henc, le_rfl⟩
  | some sidecar =>
    rw [BlobTx.encode, hsidecar] at henc
    have hinner : BlobTxWithBlobs.schema.Ok (tx.withBlobs sidecar) :=
      (ok_blobTxWithBlobs _).mpr ⟨_, rfl, hok⟩
    obtain rfl := (Schema.encode_eq_ok hinner hb).mp henc
    -- the fields are the first element of the list
    have hle : (BlobTxBody.schema.bytes tx.toBlobTxBody).length
        ≤ (BlobTxWithBlobs.schema.bytes (tx.withBlobs sidecar)).length := by
      obtain ⟨rest, hrest⟩ : ∃ rest, BlobTxWithBlobs.schema.bytes (tx.withBlobs sidecar)
          = Rlp.list (BlobTxBody.schema.bytes tx.toBlobTxBody ++ rest) := ⟨_, rfl⟩
      rw [hrest, Rlp.list, List.length_append, List.length_append]
      omega
    exact ⟨_, (Schema.encode_eq_ok hok (hle.trans_lt hb)).mpr rfl, hle⟩

theorem exists_rlpEncode {data : TxData} (henc : data.copy.encode = .ok b)
    (hb : b.length < 2 ^ 63) : ∃ c, data.copy.rlpEncode = .ok c ∧ c.length ≤ b.length := by
  cases data with
  | blob tx =>
    refine exists_rlpEncode_blob ?_ henc hb
    simp [TxData.Complete]
  | legacy tx | accessList tx | dynamicFee tx | setCode tx => exact ⟨b, henc, le_rfl⟩

/-- **The type is never counted.** -/
theorem storageSize_lt {data : TxData} (htype : data.txType ≠ 0)
    (hmarshal : (newTx data).marshalBinary = .ok b) (hb : b.length < 2 ^ 63) :
    (newTx data).storageSize < b.length := by
  have htype' : (newTx data).inner.txType ≠ 0 := (TxData.txType_copy data).trans_ne htype
  rw [marshalBinary_typed htype', encodeTyped_eq_ok] at hmarshal
  obtain ⟨b', rfl, henc⟩ := hmarshal
  obtain ⟨c, hc, hle⟩ := exists_rlpEncode henc ((Nat.lt_succ_self _).trans hb)
  rw [storageSize_newTx hc]
  exact Nat.lt_succ_of_le hle

/-- **A transaction has one size exactly if it is a legacy transaction.**
For every transaction that can be encoded, and shorter than `2 ^ 53`
bytes. -/
theorem oneSize_iff (data : TxData) (b e : Bytes) (hmarshal : (newTx data).marshalBinary = .ok b)
    (hencode : (newTx data).encodeRLP = .ok e) (hb : b.length < 2 ^ 53) (he : e.length < 2 ^ 53) :
    OneSize data b e ↔ data.txType = 0 := by
  have hb' : b.length < 2 ^ 63 := hb.trans (by decide)
  have he' : e.length < 2 ^ 63 := he.trans (by decide)
  constructor
  · intro h
    by_contra htype
    exact (storageSize_lt htype hmarshal hb').ne h.new
  · intro htype
    obtain ⟨tx, rfl⟩ := TxData.exists_legacy htype
    obtain ⟨hbinary, hrlp⟩ := storageSize_decoded (complete_copy hmarshal) hmarshal hencode hb' he'
    exact ⟨storageSize_newTx hmarshal, hbinary, hrlp⟩

/-- A signed legacy transaction, of 36 bytes. -/
theorem oneSize_iff_legacy :
    let data : TxData := .legacy
      { nonce := 9, gasPrice := some 20, gas := 21000, recipient := some 0x1000
        value := some 1000, data := [1, 2], v := some 27, r := some 7, s := some 11 }
    let b : Bytes := [0xE3, 9, 20, 0x82, 0x52, 0x08, 0x94] ++ toBytes 20 0x1000
      ++ [0x82, 0x03, 0xE8, 0x82, 1, 2, 27, 7, 11]
    OneSize data b b :=
  (oneSize_iff _ _ _ (by decide +kernel) (by decide +kernel) (by decide) (by decide)).mpr rfl

/-- The empty access list transaction: `Size` is 12, and the canonical
encoding has 13 bytes. -/
theorem not_oneSize_accessList :
    (newTx (.accessList default)).marshalBinary
      = .ok [0x01, 0xCB, 0x80, 0x80, 0x80, 0x80, 0x80, 0x80, 0x80, 0xC0, 0x80, 0x80, 0x80]
    ∧ (newTx (.accessList default)).storageSize = 12 :=
  ⟨rfl, rfl⟩

end Transaction

end Types
