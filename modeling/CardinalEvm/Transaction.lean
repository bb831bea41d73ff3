import CardinalEvm.RlpSchema
import CardinalEvm.RlpRaw
import CardinalEvm.StateTransition

/-!
# Transactions

The five types of transactions of `types/` and their encodings. A legacy
transaction is encoded as the RLP list of its fields; a typed one as its
type, which is below `0x80`, and the list of its fields after it – the
canonical encoding, of `MarshalBinary`. Inside other RLP values a typed
transaction is that byte string as an RLP string, of `EncodeRLP`.

A blob transaction has two lists: that of its fields, and – if it
carries its blobs – a list of that list and those of the blobs, their
commitments and proofs. The first element tells which one it is.
-/

namespace Types

open Rlp (Schema Row)

/-! ## The types of transactions -/

/-- **`types.LegacyTx`**, with `none` for a nil pointer. -/
structure LegacyTx where
  nonce : UInt64
  gasPrice : Option Int
  gas : UInt64
  /-- `To`: nothing for the creation of a contract. -/
  recipient : Option Address
  value : Option Int
  data : Bytes
  v : Option Int
  r : Option Int
  s : Option Int
  deriving DecidableEq, Inhabited

/-- `types.AccessListTx`. -/
structure AccessListTx where
  chainID : Option Int
  nonce : UInt64
  gasPrice : Option Int
  gas : UInt64
  recipient : Option Address
  value : Option Int
  data : Bytes
  accessList : List AccessTuple
  v : Option Int
  r : Option Int
  s : Option Int
  deriving DecidableEq, Inhabited

/-- `types.DynamicFeeTx`. -/
structure DynamicFeeTx where
  chainID : Option Int
  nonce : UInt64
  gasTipCap : Option Int
  gasFeeCap : Option Int
  gas : UInt64
  recipient : Option Address
  value : Option Int
  data : Bytes
  accessList : List AccessTuple
  v : Option Int
  r : Option Int
  s : Option Int
  deriving DecidableEq, Inhabited

/-- `kzg4844.Blob`. -/
abbrev Blob := BitVec (8 * 131072)

/-- `kzg4844.Commitment` and `kzg4844.Proof`. -/
abbrev Point := BitVec (8 * 48)

/-- `types.BlobTxSidecar`. -/
structure BlobTxSidecar where
  blobs : List Blob
  commitments : List Point
  proofs : List Point
  deriving DecidableEq

/-- The fields of `types.BlobTx` that are encoded, without those with
the tag `-`. -/
structure BlobTxBody where
  chainID : Option Word
  nonce : UInt64
  gasTipCap : Option Word
  gasFeeCap : Option Word
  gas : UInt64
  recipient : Address
  value : Option Word
  data : Bytes
  accessList : List AccessTuple
  blobFeeCap : Option Word
  blobHashes : List Hash
  v : Option Word
  r : Option Word
  s : Option Word
  deriving DecidableEq, Inhabited

/-- `types.BlobTx`. -/
structure BlobTx extends BlobTxBody where
  sidecar : Option BlobTxSidecar
  deriving DecidableEq, Inhabited

/-- `types.blobTxWithBlobs`. -/
structure BlobTxWithBlobs where
  blobTx : Option BlobTxBody
  blobs : List Blob
  commitments : List Point
  proofs : List Point
  deriving DecidableEq

/-- `types.Authorization`, with its signature. -/
structure Authorization where
  chainID : Word
  address : Address
  nonce : UInt64
  v : UInt8
  r : Word
  s : Word
  deriving DecidableEq

/-- `types.SetCodeTx`. -/
structure SetCodeTx where
  chainID : Option Word
  nonce : UInt64
  gasTipCap : Option Word
  gasFeeCap : Option Word
  gas : UInt64
  recipient : Address
  value : Option Word
  data : Bytes
  accessList : List AccessTuple
  authList : List Authorization
  v : Option Word
  r : Option Word
  s : Option Word
  deriving DecidableEq, Inhabited

/-- **`types.TxData`.** -/
inductive TxData where
  | legacy (tx : LegacyTx)
  | accessList (tx : AccessListTx)
  | dynamicFee (tx : DynamicFeeTx)
  | blob (tx : BlobTx)
  | setCode (tx : SetCodeTx)
  deriving DecidableEq

/-- **`types.Transaction`**: the data, and the size if it is cached. -/
structure Transaction where
  inner : TxData
  size : Option Nat := none
  deriving DecidableEq

/-! ## Their fields as Go types -/

/-- `common.Address`. -/
def addressSchema : Schema Address := .array 20 (by decide)

/-- `types.Hash`. -/
def hashSchema : Schema Hash := .array 32 (by decide)

/-- `*common.Address` with the tag `nil`. -/
def recipientSchema : Schema (Option Address) := .nilArray 20 (by decide)

/-- `kzg4844.Blob`. -/
def blobSchema : Schema Blob := .array 131072 (by decide)

/-- `kzg4844.Commitment` and `kzg4844.Proof`. -/
def pointSchema : Schema Point := .array 48 (by decide)

/-- `[]common.Hash`. -/
abbrev hashesSchema : Schema (List Hash) := .slice hashSchema

/-- `types.AccessTuple`. -/
def accessTupleSchema : Schema AccessTuple :=
  .struct
    (.cons "Address" addressSchema <|
    .cons "StorageKeys" hashesSchema <|
    .nil)
    ⟨fun t => (t.address, t.storageKeys, ()),
      fun (address, storageKeys, _) => { address, storageKeys }, fun _ => rfl, fun _ => rfl⟩

/-- `types.AccessList`. -/
def accessListSchema : Schema (List AccessTuple) := .slice accessTupleSchema

/-- The fields of a legacy transaction. -/
def LegacyTx.schema : Schema LegacyTx :=
  .struct
    (.cons "Nonce" .uint64 <|
    .cons "GasPrice" (.ptr .bigInt) <|
    .cons "Gas" .uint64 <|
    .cons "To" recipientSchema <|
    .cons "Value" (.ptr .bigInt) <|
    .cons "Data" .slicedBytes <|
    .cons "V" (.ptr .bigInt) <|
    .cons "R" (.ptr .bigInt) <|
    .cons "S" (.ptr .bigInt) <|
    .nil)
    ⟨fun tx => (tx.nonce, tx.gasPrice, tx.gas, tx.recipient, tx.value, tx.data, tx.v, tx.r, tx.s,
      ()),
      fun (nonce, gasPrice, gas, recipient, value, data, v, r, s, _) =>
        { nonce, gasPrice, gas, recipient, value, data, v, r, s },
      fun _ => rfl, fun _ => rfl⟩

/-- Those of an access list transaction. -/
def AccessListTx.schema : Schema AccessListTx :=
  .struct
    (.cons "ChainID" (.ptr .bigInt) <|
    .cons "Nonce" .uint64 <|
    .cons "GasPrice" (.ptr .bigInt) <|
    .cons "Gas" .uint64 <|
    .cons "To" recipientSchema <|
    .cons "Value" (.ptr .bigInt) <|
    .cons "Data" .slicedBytes <|
    .cons "AccessList" accessListSchema <|
    .cons "V" (.ptr .bigInt) <|
    .cons "R" (.ptr .bigInt) <|
    .cons "S" (.ptr .bigInt) <|
    .nil)
    ⟨fun tx => (tx.chainID, tx.nonce, tx.gasPrice, tx.gas, tx.recipient, tx.value, tx.data,
      tx.accessList, tx.v, tx.r, tx.s, ()),
      fun (chainID, nonce, gasPrice, gas, recipient, value, data, accessList, v, r, s, _) =>
        { chainID, nonce, gasPrice, gas, recipient, value, data, accessList, v, r, s },
      fun _ => rfl, fun _ => rfl⟩

/-- Those of a dynamic fee transaction. -/
def DynamicFeeTx.schema : Schema DynamicFeeTx :=
  .struct
    (.cons "ChainID" (.ptr .bigInt) <|
    .cons "Nonce" .uint64 <|
    .cons "GasTipCap" (.ptr .bigInt) <|
    .cons "GasFeeCap" (.ptr .bigInt) <|
    .cons "Gas" .uint64 <|
    .cons "To" recipientSchema <|
    .cons "Value" (.ptr .bigInt) <|
    .cons "Data" .slicedBytes <|
    .cons "AccessList" accessListSchema <|
    .cons "V" (.ptr .bigInt) <|
    .cons "R" (.ptr .bigInt) <|
    .cons "S" (.ptr .bigInt) <|
    .nil)
    ⟨fun tx => (tx.chainID, tx.nonce, tx.gasTipCap, tx.gasFeeCap, tx.gas, tx.recipient, tx.value,
      tx.data, tx.accessList, tx.v, tx.r, tx.s, ()),
      fun (chainID, nonce, gasTipCap, gasFeeCap, gas, recipient, value, data, accessList, v, r, s,
        _) =>
        { chainID, nonce, gasTipCap, gasFeeCap, gas, recipient, value, data, accessList, v, r, s },
      fun _ => rfl, fun _ => rfl⟩

/-- Those of a blob transaction. -/
def BlobTxBody.schema : Schema BlobTxBody :=
  .struct
    (.cons "ChainID" (.ptr .uint256) <|
    .cons "Nonce" .uint64 <|
    .cons "GasTipCap" (.ptr .uint256) <|
    .cons "GasFeeCap" (.ptr .uint256) <|
    .cons "Gas" .uint64 <|
    .cons "To" addressSchema <|
    .cons "Value" (.ptr .uint256) <|
    .cons "Data" .slicedBytes <|
    .cons "AccessList" accessListSchema <|
    .cons "BlobFeeCap" (.ptr .uint256) <|
    .cons "BlobHashes" hashesSchema <|
    .cons "V" (.ptr .uint256) <|
    .cons "R" (.ptr .uint256) <|
    .cons "S" (.ptr .uint256) <|
    .nil)
    ⟨fun tx => (tx.chainID, tx.nonce, tx.gasTipCap, tx.gasFeeCap, tx.gas, tx.recipient, tx.value,
      tx.data, tx.accessList, tx.blobFeeCap, tx.blobHashes, tx.v, tx.r, tx.s, ()),
      fun (chainID, nonce, gasTipCap, gasFeeCap, gas, recipient, value, data, accessList,
        blobFeeCap, blobHashes, v, r, s, _) =>
        { chainID, nonce, gasTipCap, gasFeeCap, gas, recipient, value, data, accessList, blobFeeCap,
          blobHashes, v, r, s },
      fun _ => rfl, fun _ => rfl⟩

/-- Those of a blob transaction with its blobs. -/
def BlobTxWithBlobs.schema : Schema BlobTxWithBlobs :=
  .struct
    (.cons "BlobTx" (.ptr BlobTxBody.schema) <|
    .cons "Blobs" (.slice blobSchema) <|
    .cons "Commitments" (.slice pointSchema) <|
    .cons "Proofs" (.slice pointSchema) <|
    .nil)
    ⟨fun tx => (tx.blobTx, tx.blobs, tx.commitments, tx.proofs, ()),
      fun (blobTx, blobs, commitments, proofs, _) =>
        { blobTx, blobs, commitments, proofs },
      fun _ => rfl, fun _ => rfl⟩

/-- Those of an authorization. -/
def Authorization.schema : Schema Authorization :=
  .struct
    (.cons "ChainID" .uint256 <|
    .cons "Address" addressSchema <|
    .cons "Nonce" .uint64 <|
    .cons "V" .uint8 <|
    .cons "R" .uint256 <|
    .cons "S" .uint256 <|
    .nil)
    ⟨fun tx => (tx.chainID, tx.address, tx.nonce, tx.v, tx.r, tx.s, ()),
      fun (chainID, address, nonce, v, r, s, _) =>
        { chainID, address, nonce, v, r, s },
      fun _ => rfl, fun _ => rfl⟩

/-- `[]types.Authorization`. -/
abbrev authListSchema : Schema (List Authorization) := .slice Authorization.schema

/-- Those of a set code transaction. -/
def SetCodeTx.schema : Schema SetCodeTx :=
  .struct
    (.cons "ChainID" (.ptr .uint256) <|
    .cons "Nonce" .uint64 <|
    .cons "GasTipCap" (.ptr .uint256) <|
    .cons "GasFeeCap" (.ptr .uint256) <|
    .cons "Gas" .uint64 <|
    .cons "To" addressSchema <|
    .cons "Value" (.ptr .uint256) <|
    .cons "Data" .slicedBytes <|
    .cons "AccessList" accessListSchema <|
    .cons "AuthList" authListSchema <|
    .cons "V" (.ptr .uint256) <|
    .cons "R" (.ptr .uint256) <|
    .cons "S" (.ptr .uint256) <|
    .nil)
    ⟨fun tx => (tx.chainID, tx.nonce, tx.gasTipCap, tx.gasFeeCap, tx.gas, tx.recipient, tx.value,
      tx.data, tx.accessList, tx.authList, tx.v, tx.r, tx.s, ()),
      fun (chainID, nonce, gasTipCap, gasFeeCap, gas, recipient, value, data, accessList, authList,
        v, r, s, _) =>
        { chainID, nonce, gasTipCap, gasFeeCap, gas, recipient, value, data, accessList, authList,
          v, r, s },
      fun _ => rfl, fun _ => rfl⟩

/-! ## Encoding -/

/-- `BlobTx.encode`. -/
def BlobTx.encode (tx : BlobTx) : Except Rlp.EncErr Bytes :=
  match tx.sidecar with
  | none => BlobTxBody.schema.encode tx.toBlobTxBody
  | some sidecar => BlobTxWithBlobs.schema.encode
    { blobTx := some tx.toBlobTxBody
      blobs := sidecar.blobs
      commitments := sidecar.commitments
      proofs := sidecar.proofs }

namespace TxData

/-- `txType`. -/
def txType : TxData → UInt8
  | legacy _ => 0
  | accessList _ => 1
  | dynamicFee _ => 2
  | blob _ => 3
  | setCode _ => 4

/-- `TxData.encode`: the fields, and the sidecar of a blob transaction that
has one. -/
def encode : TxData → Except Rlp.EncErr Bytes
  | legacy tx => LegacyTx.schema.encode tx
  | accessList tx => AccessListTx.schema.encode tx
  | dynamicFee tx => DynamicFeeTx.schema.encode tx
  | blob tx => tx.encode
  | setCode tx => SetCodeTx.schema.encode tx

/-- `rlp.Encode` of the data, which leaves the blobs out. -/
def rlpEncode : TxData → Except Rlp.EncErr Bytes
  | blob tx => BlobTxBody.schema.encode tx.toBlobTxBody
  | inner => inner.encode

end TxData

namespace Transaction

/-- `encodeTyped`. -/
def encodeTyped (tx : Transaction) : Except Rlp.EncErr Bytes :=
  tx.inner.encode.map (tx.inner.txType :: ·)

/-- **`MarshalBinary`.** -/
def marshalBinary (tx : Transaction) : Except Rlp.EncErr Bytes :=
  match tx.inner with
  | .legacy inner => LegacyTx.schema.encode inner
  | _ => tx.encodeTyped

/-- **`EncodeRLP`**, to a writer of its own. -/
def encodeRLP (tx : Transaction) : Except Rlp.EncErr Bytes :=
  match tx.inner with
  | .legacy inner => LegacyTx.schema.encode inner
  | _ => do Schema.slicedBytes.encode (← tx.encodeTyped)

/-- **`Hash`.** What cannot be encoded is not written to the hasher. -/
def hash [Keccak] (tx : Transaction) : Hash :=
  match tx.inner with
  | .legacy inner => keccak256Hash ((LegacyTx.schema.encode inner).toOption.getD [])
  | inner => keccak256Hash (inner.txType :: inner.rlpEncode.toOption.getD [])

end Transaction

/-! ## Decoding -/

/-- The errors of decoding a transaction. -/
inductive DecodeErr where
  | rlp (e : Rlp.Err)
  | shortTypedTx
  | txTypeNotSupported
  /-- A nil pointer is followed, which is a run-time panic. -/
  | nilPointer
  deriving DecidableEq

/-- The errors of the package `rlp`. -/
def ofRlp {α : Type} (r : Except Rlp.Err α) : Except DecodeErr α := r.mapError .rlp

/-- The blob transaction with the given blobs. -/
def BlobTxWithBlobs.blobTransaction (inner : BlobTxWithBlobs) : Except DecodeErr BlobTx :=
  match inner.blobTx with
  | none => .error .nilPointer
  | some body => .ok
    { body with
      sidecar := some
        { blobs := inner.blobs, commitments := inner.commitments, proofs := inner.proofs } }

/-- `BlobTx.decode`, by the kind of the first element of the list. -/
def BlobTx.decodeAs (firstElemKind : Rlp.Kind) (input : Bytes) : Except DecodeErr BlobTx := do
  if firstElemKind ≠ .list then
    let body ← ofRlp (BlobTxBody.schema.decode input)
    return { body with sidecar := none }
  else
    let inner ← ofRlp (BlobTxWithBlobs.schema.decode input)
    inner.blobTransaction

/-- `BlobTx.decode`. -/
def BlobTx.decode (input : Bytes) : Except DecodeErr BlobTx := do
  let (outerList, _) ← ofRlp (Rlp.splitList input)
  let (firstElemKind, _, _) ← ofRlp (Rlp.split outerList)
  BlobTx.decodeAs firstElemKind input

/-- `rlp.headsize`. -/
def headsize (size : UInt64) : Nat := if size < 56 then 1 else 1 + Rlp.intsize size

/-- `rlp.ListSize`. -/
def listSize (contentSize : UInt64) : Nat := headsize contentSize + contentSize.toNat

namespace Transaction

/-- `setDecoded`, on a new transaction. -/
def setDecoded (inner : TxData) (size : Nat) : Transaction :=
  { inner, size := if 0 < size then some size else none }

/-- `decodeTyped`. -/
def decodeTyped : Bytes → Except DecodeErr TxData
  | t :: b =>
    if b = [] then .error .shortTypedTx
    else if t = 1 then .accessList <$> ofRlp (AccessListTx.schema.decode b)
    else if t = 2 then .dynamicFee <$> ofRlp (DynamicFeeTx.schema.decode b)
    else if t = 3 then .blob <$> BlobTx.decode b
    else if t = 4 then .setCode <$> ofRlp (SetCodeTx.schema.decode b)
    else .error .txTypeNotSupported
  | [] => .error .shortTypedTx

/-- **`UnmarshalBinary`**, of a new transaction. -/
def unmarshalBinary (b : Bytes) : Except DecodeErr Transaction :=
  if b.head?.any (0x7F < ·) then
    (fun data => setDecoded (.legacy data) b.length) <$> ofRlp (LegacyTx.schema.decode b)
  else (fun inner => setDecoded inner b.length) <$> decodeTyped b

/-- A stream operation of the package `rlp`. -/
def onStream {α : Type} (m : Rlp.StreamM α) : EStateM DecodeErr Rlp.Stream α := fun s =>
  match m s with
  | .ok a s' => .ok a s'
  | .error e s' => .error (.rlp e) s'

/-- `DecodeRLP`, by the kind and the size of the value. -/
def decodeValue (size : UInt64) : Rlp.Kind → EStateM DecodeErr Rlp.Stream Transaction
  | .list => do
    let inner ← onStream LegacyTx.schema.read
    return setDecoded (.legacy inner) (listSize size)
  | .string => do
    let b ← onStream Rlp.Stream.bytes
    match decodeTyped b with
    | .ok inner => return setDecoded inner b.length
    | .error e => throw e
  | .byte => throw (.rlp .expectedList)

/-- **`DecodeRLP`**, of a new transaction. -/
def decodeRLP : EStateM DecodeErr Rlp.Stream Transaction := do
  let (kind, size) ← onStream Rlp.Stream.kindAhead
  decodeValue size kind

/-- `rlp.DecodeBytes` into a transaction. -/
def decodeBytes (b : Bytes) : Except DecodeErr Transaction :=
  match decodeRLP (Rlp.Stream.ofBytes b) with
  | .error e _ => .error e
  | .ok tx s => if s.input = [] then .ok tx else .error (.rlp .moreThanOneValue)

end Transaction

end Types
