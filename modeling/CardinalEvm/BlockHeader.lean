import CardinalEvm.RlpTypes

/-!
# Block headers

`types.Header` as it is hashed and stored: the fields in the order of
the struct, the last six of them pointers with the tag `optional`. A
header from before a fork has no value in the fields of the fork, which
are nil and not encoded.

A header is decoded from one byte string only, and that is what it is
encoded as again; so a header that was read has the hash it was stored
under. The other way round a header is read as it was written if its
integers are there and not negative, and no optional field follows one
that is nil – an inner nil pointer is written as an empty value, and
read as a zero.
-/

open Rlp (Ty Fields)

/-- **`types.Header`**, with `nil` for a pointer without a value. -/
structure BlockHeader where
  parentHash : Hash
  uncleHash : Hash
  coinbase : Address
  root : Hash
  txHash : Hash
  receiptHash : Hash
  bloom : BitVec 2048
  difficulty : Option Int
  number : Option Int
  gasLimit : UInt64
  gasUsed : UInt64
  time : UInt64
  extra : Bytes
  mixDigest : Hash
  nonce : BitVec 64
  baseFee : Option Int
  withdrawalsHash : Option Hash
  blobGasUsed : Option UInt64
  excessBlobGas : Option UInt64
  beaconRoot : Option Hash
  requestsHash : Option Hash

namespace BlockHeader

/-- The fields of the struct. -/
def fields : Fields :=
  .cons "ParentHash" (.array 32) <|
  .cons "UncleHash" (.array 32) <|
  .cons "Coinbase" (.array 20) <|
  .cons "Root" (.array 32) <|
  .cons "TxHash" (.array 32) <|
  .cons "ReceiptHash" (.array 32) <|
  .cons "Bloom" (.array 256) <|
  .cons "Difficulty" (.ptr .bigInt) <|
  .cons "Number" (.ptr .bigInt) <|
  .cons "GasLimit" (.uint 64) <|
  .cons "GasUsed" (.uint 64) <|
  .cons "Time" (.uint 64) <|
  .cons "Extra" .bytes <|
  .cons "MixDigest" (.array 32) <|
  .cons "Nonce" (.array 8) <|
  .optional "BaseFee" .bigInt <|
  .optional "WithdrawalsHash" (.array 32) <|
  .optional "BlobGasUsed" (.uint 64) <|
  .optional "ExcessBlobGas" (.uint 64) <|
  .optional "BeaconRoot" (.array 32) <|
  .optional "RequestsHash" (.array 32) .nil

/-- The values of the fields. -/
def toVal (h : BlockHeader) : (Ty.struct fields).Val :=
  (h.parentHash, h.uncleHash, h.coinbase, h.root, h.txHash, h.receiptHash, h.bloom, h.difficulty,
    h.number, h.gasLimit.toBitVec, h.gasUsed.toBitVec, h.time.toBitVec, h.extra, h.mixDigest,
    h.nonce, h.baseFee, h.withdrawalsHash, h.blobGasUsed.map UInt64.toBitVec,
    h.excessBlobGas.map UInt64.toBitVec, h.beaconRoot, h.requestsHash, ())

/-- The header with the given values. -/
def ofVal : (Ty.struct fields).Val → BlockHeader
  | (parentHash, uncleHash, coinbase, root, txHash, receiptHash, bloom, difficulty, number,
      gasLimit, gasUsed, time, extra, mixDigest, nonce, baseFee, withdrawalsHash, blobGasUsed,
      excessBlobGas, beaconRoot, requestsHash, _) =>
    { parentHash, uncleHash, coinbase, root, txHash, receiptHash, bloom, difficulty, number
      gasLimit := UInt64.ofBitVec gasLimit
      gasUsed := UInt64.ofBitVec gasUsed
      time := UInt64.ofBitVec time
      extra, mixDigest, nonce, baseFee, withdrawalsHash
      blobGasUsed := Option.map UInt64.ofBitVec blobGasUsed
      excessBlobGas := Option.map UInt64.ofBitVec excessBlobGas
      beaconRoot, requestsHash }

theorem map_ofBitVec (v : Option UInt64) : (v.map UInt64.toBitVec).map UInt64.ofBitVec = v := by
  cases v with
  | none => rfl
  | some x => rfl

theorem ofVal_toVal (h : BlockHeader) : ofVal h.toVal = h := by
  have hfields : ofVal h.toVal =
      { h with
        blobGasUsed := (h.blobGasUsed.map UInt64.toBitVec).map UInt64.ofBitVec
        excessBlobGas := (h.excessBlobGas.map UInt64.toBitVec).map UInt64.ofBitVec } := rfl
  rw [hfields, map_ofBitVec, map_ofBitVec]

theorem toVal_ofVal : (v : (Ty.struct fields).Val) → (ofVal v).toVal = v
  | (_, _, _, _, _, _, _, _, _, _, _, _, _, _, _, _, _, blobGasUsed, excessBlobGas, _, _, ()) => by
    cases blobGasUsed with
    | none => cases excessBlobGas <;> rfl
    | some x => cases excessBlobGas <;> rfl

theorem wf_fields : (Ty.struct fields).Wf := by
  unfold Ty.Wf fields
  simp [Fields.Wf, Ty.Wf, Fields.AllOptional]

/-- The header as a Go type. -/
def schema : Rlp.Schema BlockHeader where
  type := .struct fields
  wf := wf_fields
  equiv := ⟨toVal, ofVal, ofVal_toVal, toVal_ofVal⟩

/-- `rlp.DecodeBytes` into a header. -/
def decode (b : Bytes) : Except Rlp.Err BlockHeader := schema.decode b

/-- `rlp.EncodeToBytes` of a header. -/
def encode (h : BlockHeader) : Except Rlp.EncErr Bytes := schema.encode h

/-- The integers of a header are there, and not negative. -/
structure NonNegative (h : BlockHeader) : Prop where
  difficulty : ∃ d, h.difficulty = some d ∧ 0 ≤ d
  number : ∃ n, h.number = some n ∧ 0 ≤ n
  baseFee : ∀ f, h.baseFee = some f → 0 ≤ f

/-- **The optional fields that are there come first**: after a nil field
there are only nil fields. -/
structure IsPrefix (h : BlockHeader) : Prop where
  baseFee : h.baseFee = none → h.withdrawalsHash = none
  withdrawalsHash : h.withdrawalsHash = none → h.blobGasUsed = none
  blobGasUsed : h.blobGasUsed = none → h.excessBlobGas = none
  excessBlobGas : h.excessBlobGas = none → h.beaconRoot = none
  beaconRoot : h.beaconRoot = none → h.requestsHash = none

/-- **The headers that are read as they were written.** -/
theorem ok_iff {h : BlockHeader} : schema.Ok h ↔ h.NonNegative ∧ h.IsPrefix := by
  have hmap : ∀ v : Option UInt64, v.map UInt64.toBitVec = none ↔ v = none := fun v =>
    Option.map_eq_none_iff
  constructor
  · rintro ⟨-, -, -, -, -, -, -, hd, hn, -, -, -, -, -, -, hoptional⟩
    obtain ⟨h₁, hf, hoptional⟩ := Fields.ok_optional_optional.mp hoptional
    obtain ⟨h₂, -, hoptional⟩ := Fields.ok_optional_optional.mp hoptional
    obtain ⟨h₃, -, hoptional⟩ := Fields.ok_optional_optional.mp hoptional
    obtain ⟨h₄, -, hoptional⟩ := Fields.ok_optional_optional.mp hoptional
    obtain ⟨h₅, -, -⟩ := Fields.ok_optional_optional.mp hoptional
    exact ⟨⟨hd, hn, hf⟩, h₁, fun h => (hmap _).mp (h₂ h),
      fun h => (hmap _).mp (h₃ ((hmap _).mpr h)), fun h => h₄ ((hmap _).mpr h), h₅⟩
  · rintro ⟨⟨hd, hn, hf⟩, h₁, h₂, h₃, h₄, h₅⟩
    refine ⟨trivial, trivial, trivial, trivial, trivial, trivial, trivial, hd, hn, trivial, trivial,
      trivial, trivial, trivial, trivial, ?_⟩
    refine Fields.ok_optional_optional.mpr ⟨h₁, hf, ?_⟩
    refine Fields.ok_optional_optional.mpr ⟨fun h => (hmap _).mpr (h₂ h), fun _ _ => trivial, ?_⟩
    refine Fields.ok_optional_optional.mpr
      ⟨fun h => (hmap _).mpr (h₃ ((hmap _).mp h)), fun _ _ => trivial, ?_⟩
    refine Fields.ok_optional_optional.mpr ⟨fun h => h₄ ((hmap _).mp h), fun _ _ => trivial, ?_⟩
    refine Fields.ok_optional_optional.mpr ⟨h₅, fun _ _ => trivial, ?_⟩
    exact Fields.ok_optional_nil.mpr fun _ _ => trivial

/-- **The codec of headers.** What is accepted as a header is what the
header is encoded as; and a header whose integers are there and not
negative, and whose optional fields that are there come first, is read
back as it was, with the same nil fields. -/
theorem encode_decode_header :
    (∀ (b : Bytes) (h : BlockHeader), b.length < 2 ^ 63 → decode b = .ok h →
      h.encode = .ok b) ∧
    (∀ h : BlockHeader, h.NonNegative → h.IsPrefix → ∃ b, h.encode = .ok b ∧
      (b.length < 2 ^ 63 → decode b = .ok h)) := by
  refine ⟨fun b h hb hdec => ((Rlp.Schema.decode_eq_ok hb).mp hdec).2, fun h hn hp => ?_⟩
  have hok : schema.Ok h := ok_iff.mpr ⟨hn, hp⟩
  obtain ⟨b, hb⟩ := Rlp.Schema.exists_encode hok
  exact ⟨b, hb, fun hlt => (Rlp.Schema.decode_eq_ok hlt).mpr ⟨hok, hb⟩⟩

/-- A header of a fork with a base fee and withdrawals. -/
theorem encode_decode_header_shanghai :
    let h : BlockHeader :=
      { parentHash := 1, uncleHash := 2, coinbase := 3, root := 4, txHash := 5, receiptHash := 6
        bloom := 7, difficulty := some 0, number := some 17034870, gasLimit := 30000000
        gasUsed := 21000, time := 1681338455, extra := [8, 9], mixDigest := 10, nonce := 0
        baseFee := some 7, withdrawalsHash := some 11, blobGasUsed := none, excessBlobGas := none
        beaconRoot := none, requestsHash := none }
    ∃ b, h.encode = .ok b ∧ decode b = .ok h := by
  intro h
  obtain ⟨b, hb, hdec⟩ := encode_decode_header.2 h
    ⟨⟨0, rfl, le_rfl⟩, ⟨17034870, rfl, by decide⟩, by rintro _ ⟨⟩; decide⟩
    ⟨nofun, fun _ => rfl, fun _ => rfl, fun _ => rfl, fun _ => rfl⟩
  have hlt : (h.encode.toOption.getD []).length < 2 ^ 63 := by decide +kernel
  rw [hb] at hlt
  exact ⟨b, encode_decode_header.1 b h hlt (hdec hlt), hdec hlt⟩

end BlockHeader
