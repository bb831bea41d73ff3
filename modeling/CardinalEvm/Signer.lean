import CardinalEvm.Transaction
import CardinalEvm.Manager

/-!
# Signers

`types/transaction_signing.go`: the hash of a transaction that is
signed, what a signature is stored as in the transaction, and the
recovery of the sender from it. There is a signer for each fork that
changed one of these; each handles the transactions that came with its
fork and leaves the others to the signer of the fork before.

The elliptic curve is a parameter: what the library signs and recovers
is a `Secp256k1`, and `Secp256k1.Correct` what it promises.
-/

namespace Types

open Rlp (Schema)

/-! ## The curve -/

/-- `secp256k1N`, the order of the curve. -/
def secp256k1N : Int := 0xfffffffffffffffffffffffffffffffebaaedce6af48a03bbfd25e8cd0364141

/-- `secp256k1halfN`. -/
def secp256k1halfN : Int := secp256k1N / 2

/-- **The library of the curve**: `crypto.Sign`, whose signatures are 65
bytes `R || S || V`, `crypto.Ecrecover` and the uncompressed public
keys. -/
structure Secp256k1 where
  PrivateKey : Type
  sign : Hash → PrivateKey → Option Bytes
  ecrecover : Hash → Bytes → Option Bytes
  publicKey : PrivateKey → Bytes

/-- The signature of the given values. -/
def signatureBytes (r s : Nat) (v : UInt8) : Bytes := toBytes 32 r ++ toBytes 32 s ++ [v]

/-- **Signing and recovery are correct, with a low `s`.** -/
structure Secp256k1.Correct (C : Secp256k1) : Prop where
  uncompressed : ∀ key, (C.publicKey key).head? = some 4
  sign : ∀ h key sig, C.sign h key = some sig → ∃ r s v, sig = signatureBytes r s v ∧
    1 ≤ r ∧ (r : Int) < secp256k1N ∧ 1 ≤ s ∧ (s : Int) ≤ secp256k1halfN ∧ (v = 0 ∨ v = 1) ∧
    C.ecrecover h sig = some (C.publicKey key)

/-- `crypto.PubkeyToAddress`, of an uncompressed key. -/
def pubkeyToAddress [Keccak] (pub : Bytes) : Address := (keccak256Hash (pub.drop 1)).setWidth 160

/-- `crypto.ValidateSignatureValues`. -/
def validateSignatureValues (v : UInt8) (r s : Int) (homestead : Bool) : Bool :=
  if r < 1 ∨ s < 1 then false
  else if homestead ∧ secp256k1halfN < s then false
  else r < secp256k1N ∧ s < secp256k1N ∧ (v = 0 ∨ v = 1)

/-! ## The data of a transaction -/

namespace TxData

/-- `copy`: a pointer that is nil becomes one to zero, but for the chain
id of a set code transaction. -/
def copy : TxData → TxData
  | .legacy tx => .legacy
    { tx with
      gasPrice := tx.gasPrice.getD 0, value := tx.value.getD 0
      v := tx.v.getD 0, r := tx.r.getD 0, s := tx.s.getD 0 }
  | .accessList tx => .accessList
    { tx with
      chainID := tx.chainID.getD 0, gasPrice := tx.gasPrice.getD 0, value := tx.value.getD 0
      v := tx.v.getD 0, r := tx.r.getD 0, s := tx.s.getD 0 }
  | .dynamicFee tx => .dynamicFee
    { tx with
      chainID := tx.chainID.getD 0, gasTipCap := tx.gasTipCap.getD 0
      gasFeeCap := tx.gasFeeCap.getD 0, value := tx.value.getD 0
      v := tx.v.getD 0, r := tx.r.getD 0, s := tx.s.getD 0 }
  | .blob tx => .blob
    { tx with
      chainID := tx.chainID.getD 0, gasTipCap := tx.gasTipCap.getD 0
      gasFeeCap := tx.gasFeeCap.getD 0, value := tx.value.getD 0
      blobFeeCap := tx.blobFeeCap.getD 0
      v := tx.v.getD 0, r := tx.r.getD 0, s := tx.s.getD 0 }
  | .setCode tx => .setCode
    { tx with
      gasTipCap := tx.gasTipCap.getD 0, gasFeeCap := tx.gasFeeCap.getD 0
      value := tx.value.getD 0
      v := tx.v.getD 0, r := tx.r.getD 0, s := tx.s.getD 0 }

@[simp] theorem txType_copy (data : TxData) : data.copy.txType = data.txType := by
  cases data <;> rfl

/-- `uint256.Int.ToBig`. -/
def toBig (v : Option Word) : Option Int := v.map fun w => (w.toNat : Int)

/-- `deriveChainId`. -/
def deriveChainId (v : Int) : Int :=
  if Rlp.bitLen v.natAbs ≤ 64 then
    let v := UInt64.ofNat v.natAbs
    if v = 27 ∨ v = 28 then 0 else (((v - 35) / 2).toNat : Int)
  else (v - 35) / 2

/-- `isProtectedV`. -/
def isProtectedV (v : Int) : Bool :=
  if Rlp.bitLen v.natAbs ≤ 8 then
    let v := UInt64.ofNat v.natAbs
    v ≠ 27 ∧ v ≠ 28 ∧ v ≠ 1 ∧ v ≠ 0
  else true

/-- `Protected`. -/
def isProtected : TxData → Bool
  | .legacy tx => tx.v.any isProtectedV
  | _ => true

/-- `chainID`, nil for a set code transaction without one. -/
def chainID : TxData → Option Int
  | .legacy tx => deriveChainId (tx.v.getD 0)
  | .accessList tx => tx.chainID
  | .dynamicFee tx => tx.chainID
  | .blob tx => toBig tx.chainID
  | .setCode tx => toBig tx.chainID

/-- `rawSignatureValues`: V, R and S, which `copy` and the decoder leave
no nil pointers in. -/
def rawSignatureValues : TxData → Int × Int × Int
  | .legacy tx => (tx.v.getD 0, tx.r.getD 0, tx.s.getD 0)
  | .accessList tx => (tx.v.getD 0, tx.r.getD 0, tx.s.getD 0)
  | .dynamicFee tx => (tx.v.getD 0, tx.r.getD 0, tx.s.getD 0)
  | .blob tx => ((toBig tx.v).getD 0, (toBig tx.r).getD 0, (toBig tx.s).getD 0)
  | .setCode tx => ((toBig tx.v).getD 0, (toBig tx.r).getD 0, (toBig tx.s).getD 0)

/-- `setSignatureValues`. What does not fit into 256 bits is cut off. -/
def setSignatureValues (chainID : Option Int) (v r s : Int) : TxData → TxData
  | .legacy tx => .legacy { tx with v := v, r := r, s := s }
  | .accessList tx => .accessList { tx with chainID, v := v, r := r, s := s }
  | .dynamicFee tx => .dynamicFee { tx with chainID, v := v, r := r, s := s }
  | .blob tx => .blob
    { tx with
      chainID := chainID.map (BitVec.ofInt 256)
      v := BitVec.ofInt 256 v, r := BitVec.ofInt 256 r, s := BitVec.ofInt 256 s }
  | .setCode tx => .setCode
    { tx with
      chainID := chainID.map (BitVec.ofInt 256)
      v := BitVec.ofInt 256 v, r := BitVec.ofInt 256 r, s := BitVec.ofInt 256 s }

end TxData

/-! ## What is signed -/

/-- The encoding of a slice of interfaces, nothing if it fails. -/
def encodeValues (values : List (Rlp.EncM Unit)) : Bytes :=
  (Rlp.encodeToBytes (Rlp.EncBuffer.writeSlice values)).toOption.getD []

/-- A `*big.Int` among the values. -/
def bigValue (v : Option Int) : Rlp.EncM Unit := Schema.bigInt.ptr.write v

/-- A `*common.Address` among the values. -/
def addressValue (a : Option Address) : Rlp.EncM Unit := addressSchema.ptr.write a

section Hashes

variable [Keccak] (chainId : Int)

/-- `rlpHash` of some values. -/
def rlpHash (values : List (Rlp.EncM Unit)) : Hash := keccak256Hash (encodeValues values)

/-- `prefixedRlpHash` of some values. -/
def prefixedRlpHash (t : UInt8) (values : List (Rlp.EncM Unit)) : Hash :=
  keccak256Hash (t :: encodeValues values)

/-- The values of a transaction with a gas price that are signed. A
transaction without one has its fee cap as its price. -/
def priceValues (nonce : UInt64) (gasPrice : Option Int) (gas : UInt64)
    (recipient : Option Address) (value : Option Int) (data : Bytes) : List (Rlp.EncM Unit) :=
  [Schema.uint64.write nonce, bigValue gasPrice, Schema.uint64.write gas, addressValue recipient,
    bigValue value, Schema.slicedBytes.write data]

/-- Those of a transaction with two fees. -/
def feeValues (nonce : UInt64) (gasTipCap gasFeeCap : Option Int) (gas : UInt64)
    (recipient : Option Address) (value : Option Int) (data : Bytes)
    (accessList : List AccessTuple) : List (Rlp.EncM Unit) :=
  [bigValue (some chainId), Schema.uint64.write nonce, bigValue gasTipCap, bigValue gasFeeCap,
    Schema.uint64.write gas, addressValue recipient, bigValue value, Schema.slicedBytes.write data,
    accessListSchema.write accessList]

namespace TxData

/-- The values that every signer can hash: nonce, gas price, gas,
recipient, value and data. -/
def commonValues : TxData → List (Rlp.EncM Unit)
  | .legacy tx => priceValues tx.nonce tx.gasPrice tx.gas tx.recipient tx.value tx.data
  | .accessList tx => priceValues tx.nonce tx.gasPrice tx.gas tx.recipient tx.value tx.data
  | .dynamicFee tx => priceValues tx.nonce tx.gasFeeCap tx.gas tx.recipient tx.value tx.data
  | .blob tx =>
    priceValues tx.nonce (toBig tx.gasFeeCap) tx.gas (some tx.recipient) (toBig tx.value) tx.data
  | .setCode tx =>
    priceValues tx.nonce (toBig tx.gasFeeCap) tx.gas (some tx.recipient) (toBig tx.value) tx.data

/-- `FrontierSigner.Hash`. -/
def frontierHash (tx : TxData) : Hash := rlpHash tx.commonValues

/-- `EIP155Signer.Hash`. -/
def eip155Hash (tx : TxData) : Hash :=
  rlpHash (tx.commonValues ++
    [bigValue (some chainId), Schema.uint64.write 0, Schema.uint64.write 0])

/-- `eip2930Signer.Hash`. -/
def eip2930Hash : TxData → Hash
  | .legacy tx => eip155Hash chainId (.legacy tx)
  | .accessList tx => prefixedRlpHash 1 (bigValue (some chainId) ::
      priceValues tx.nonce tx.gasPrice tx.gas tx.recipient tx.value tx.data ++
      [accessListSchema.write tx.accessList])
  | _ => 0

/-- `londonSigner.Hash`. -/
def londonHash : TxData → Hash
  | .dynamicFee tx => prefixedRlpHash 2 (feeValues chainId tx.nonce tx.gasTipCap tx.gasFeeCap
      tx.gas tx.recipient tx.value tx.data tx.accessList)
  | tx => eip2930Hash chainId tx

/-- `cancunSigner.Hash`. -/
def cancunHash : TxData → Hash
  | .blob tx => prefixedRlpHash 3 (feeValues chainId tx.nonce (toBig tx.gasTipCap)
      (toBig tx.gasFeeCap) tx.gas (some tx.recipient) (toBig tx.value) tx.data tx.accessList ++
      [bigValue (toBig tx.blobFeeCap), hashesSchema.write tx.blobHashes])
  | tx => londonHash chainId tx

/-- `pragueSigner.Hash`. -/
def pragueHash : TxData → Hash
  | .setCode tx => prefixedRlpHash 4 (feeValues chainId tx.nonce (toBig tx.gasTipCap)
      (toBig tx.gasFeeCap) tx.gas (some tx.recipient) (toBig tx.value) tx.data tx.accessList ++
      [authListSchema.write tx.authList])
  | tx => cancunHash chainId tx

end TxData

end Hashes

/-! ## Signers -/

/-- The errors of signing and recovery. -/
inductive SignErr where
  | txTypeNotSupported
  /-- `ErrInvalidChainId`, and the two chain ids where they are named. -/
  | invalidChainId (ids : Option (Int × Int))
  | invalidSig
  | invalidPublicKey
  /-- The library of the curve returned an error. -/
  | curve
  /-- A signature of the wrong size, which is a run-time panic. -/
  | wrongSize
  /-- A nil pointer is followed, which is a run-time panic. -/
  | nilPointer
  deriving DecidableEq

/-- **A signer.** The chain id of `NewEIP155Signer` and the later ones
is zero if nil is given. -/
inductive Signer where
  | frontier
  | homestead
  | eip155 (chainId : Int)
  | eip2930 (chainId : Int)
  | london (chainId : Int)
  | cancun (chainId : Int)
  | prague (chainId : Int)
  deriving DecidableEq

/-- `decodeSignature`: R, S and V. -/
def decodeSignature (sig : Bytes) : Except SignErr (Int × Int × Int) :=
  if sig.length ≠ 65 then .error .wrongSize
  else .ok (beNat (sig.take 32), beNat ((sig.drop 32).take 32), ((sig.getD 64 0) + 27).toNat)

/-- The recovery id of a signature, as the V of a typed transaction. -/
def recoveryId (sig : Bytes) : Int := (sig.getD 64 0).toNat

section Recovery

variable [Keccak] (C : Secp256k1)

/-- The recovered public key as an address, if it is an uncompressed
one. -/
def senderOf : Option Bytes → Except SignErr Address
  | none => .error .curve
  | some pub => if pub.head? = some 4 then .ok (pubkeyToAddress pub) else .error .invalidPublicKey

/-- `recoverPlain`. -/
def recoverPlain (sighash : Hash) (r s v : Int) (homestead : Bool) : Except SignErr Address :=
  if 8 < Rlp.bitLen v.natAbs then .error .invalidSig
  else
    let v := (UInt64.ofNat v.natAbs - 27).toUInt8
    if validateSignatureValues v r s homestead then
      senderOf (C.ecrecover sighash (signatureBytes r.toNat s.toNat v))
    else .error .invalidSig

/-- The chain id of a transaction is compared with that of the signer. -/
def checkChainId (tx : TxData) (chainId : Int) (err : Int → SignErr) : Except SignErr Unit :=
  match tx.chainID with
  | none => .error .nilPointer
  | some id => if id ≠ chainId then .error (err id) else .ok ()

/-- `ErrInvalidChainId` with the two chain ids. -/
def namedChainId (chainId id : Int) : SignErr := .invalidChainId (some (id, chainId))

/-- The recovery of the sender of a typed transaction, whose V is 0 or 1. -/
def recoverTyped (tx : TxData) (sighash : Hash) (chainId : Int) (err : Int → SignErr) :
    Except SignErr Address := do
  let (v, r, s) := tx.rawSignatureValues
  checkChainId tx chainId err
  recoverPlain C sighash r s (v + 27) true

/-- `FrontierSigner.Sender`. -/
def frontierSender : TxData → Except SignErr Address
  | .legacy tx =>
    let (v, r, s) := (TxData.legacy tx).rawSignatureValues
    recoverPlain C (TxData.legacy tx).frontierHash r s v false
  | _ => .error .txTypeNotSupported

/-- `HomesteadSigner.Sender`. -/
def homesteadSender : TxData → Except SignErr Address
  | .legacy tx =>
    let (v, r, s) := (TxData.legacy tx).rawSignatureValues
    recoverPlain C (TxData.legacy tx).frontierHash r s v true
  | _ => .error .txTypeNotSupported

/-- The recovery of the sender of a legacy transaction, whose V has the
chain id if it is protected. -/
def recoverLegacy (tx : LegacyTx) (chainId : Int) : Except SignErr Address := do
  if ¬ (TxData.legacy tx).isProtected then homesteadSender C (.legacy tx)
  else
    let (v, r, s) := (TxData.legacy tx).rawSignatureValues
    checkChainId (.legacy tx) chainId fun _ => .invalidChainId none
    recoverPlain C ((TxData.legacy tx).eip155Hash chainId) r s (v - 2 * chainId - 8) true

/-- `EIP155Signer.Sender`. -/
def eip155Sender (chainId : Int) : TxData → Except SignErr Address
  | .legacy tx => recoverLegacy C tx chainId
  | _ => .error .txTypeNotSupported

/-- `eip2930Signer.Sender`. -/
def eip2930Sender (chainId : Int) : TxData → Except SignErr Address
  | .legacy tx => recoverLegacy C tx chainId
  | .accessList tx => recoverTyped C (.accessList tx) ((TxData.accessList tx).eip2930Hash chainId)
      chainId fun _ => .invalidChainId none
  | _ => .error .txTypeNotSupported

/-- `londonSigner.Sender`. -/
def londonSender (chainId : Int) : TxData → Except SignErr Address
  | .dynamicFee tx => recoverTyped C (.dynamicFee tx) ((TxData.dynamicFee tx).londonHash chainId)
      chainId fun _ => .invalidChainId none
  | tx => eip2930Sender C chainId tx

/-- `cancunSigner.Sender`. -/
def cancunSender (chainId : Int) : TxData → Except SignErr Address
  | .blob tx => recoverTyped C (.blob tx) ((TxData.blob tx).cancunHash chainId)
      chainId (namedChainId chainId)
  | tx => londonSender C chainId tx

/-- `pragueSigner.Sender`. -/
def pragueSender (chainId : Int) : TxData → Except SignErr Address
  | .setCode tx => recoverTyped C (.setCode tx) ((TxData.setCode tx).pragueHash chainId)
      chainId (namedChainId chainId)
  | tx => cancunSender C chainId tx

end Recovery

/-! ## Signature values -/

section Values

variable (chainId : Int)

variable (tx : TxData) (sig : Bytes)

/-- `FrontierSigner.SignatureValues`, and that of `HomesteadSigner`: R, S
and V. -/
def frontierValues : Except SignErr (Int × Int × Int) :=
  match tx with
  | .legacy _ => decodeSignature sig
  | _ => .error .txTypeNotSupported

/-- `EIP155Signer.SignatureValues`. -/
def eip155Values : Except SignErr (Int × Int × Int) :=
  match tx with
  | .legacy _ => do
    let (r, s, v) ← decodeSignature sig
    return (r, s, if chainId ≠ 0 then ((sig.getD 64 0) + 35).toNat + 2 * chainId else v)
  | _ => .error .txTypeNotSupported

/-- The values of a typed transaction, with the recovery id as V. -/
def typedValues : Except SignErr (Int × Int × Int) := do
  let (r, s, _) ← decodeSignature sig
  return (r, s, recoveryId sig)

/-- The chain id of a transaction is that of the signer, or zero. -/
def checkGivenChainId (given : Option Int) (err : Int → SignErr) : Except SignErr Unit :=
  match given with
  | none => .error .nilPointer
  | some id => if id ≠ 0 ∧ id ≠ chainId then .error (err id) else .ok ()

/-- `eip2930Signer.SignatureValues`. -/
def eip2930Values : Except SignErr (Int × Int × Int) :=
  match tx with
  | .legacy _ => eip155Values chainId tx sig
  | .accessList txdata => do
    checkGivenChainId chainId txdata.chainID fun _ => .invalidChainId none
    typedValues sig
  | _ => .error .txTypeNotSupported

/-- `londonSigner.SignatureValues`. -/
def londonValues : Except SignErr (Int × Int × Int) :=
  match tx with
  | .dynamicFee txdata => do
    checkGivenChainId chainId txdata.chainID fun _ => .invalidChainId none
    typedValues sig
  | _ => eip2930Values chainId tx sig

/-- `cancunSigner.SignatureValues`. -/
def cancunValues : Except SignErr (Int × Int × Int) :=
  match tx with
  | .blob txdata => do
    checkGivenChainId chainId (TxData.toBig txdata.chainID) (namedChainId chainId)
    typedValues sig
  | _ => londonValues chainId tx sig

/-- `pragueSigner.SignatureValues`. A chain id of zero is not accepted
here. -/
def pragueValues : Except SignErr (Int × Int × Int) :=
  match tx with
  | .setCode _ => do
    checkChainId tx chainId (namedChainId chainId)
    typedValues sig
  | _ => cancunValues chainId tx sig

end Values

/-! ## Signing a transaction -/

namespace Signer

/-- `Signer.Hash`. -/
def hash [Keccak] : Signer → TxData → Hash
  | frontier => TxData.frontierHash
  | homestead => TxData.frontierHash
  | eip155 chainId => TxData.eip155Hash chainId
  | eip2930 chainId => TxData.eip2930Hash chainId
  | london chainId => TxData.londonHash chainId
  | cancun chainId => TxData.cancunHash chainId
  | prague chainId => TxData.pragueHash chainId

/-- `Signer.ChainID`. -/
def chainID : Signer → Option Int
  | frontier => none
  | homestead => none
  | eip155 chainId => chainId
  | eip2930 chainId => chainId
  | london chainId => chainId
  | cancun chainId => chainId
  | prague chainId => chainId

/-- `Signer.SignatureValues`. -/
def signatureValues : Signer → TxData → Bytes → Except SignErr (Int × Int × Int)
  | frontier => frontierValues
  | homestead => frontierValues
  | eip155 chainId => eip155Values chainId
  | eip2930 chainId => eip2930Values chainId
  | london chainId => londonValues chainId
  | cancun chainId => cancunValues chainId
  | prague chainId => pragueValues chainId

/-- **`Signer.Sender`.** -/
def sender [Keccak] (C : Secp256k1) : Signer → TxData → Except SignErr Address
  | frontier => frontierSender C
  | homestead => homesteadSender C
  | eip155 chainId => eip155Sender C chainId
  | eip2930 chainId => eip2930Sender C chainId
  | london chainId => londonSender C chainId
  | cancun chainId => cancunSender C chainId
  | prague chainId => pragueSender C chainId

end Signer

namespace Transaction

/-- `NewTx`. -/
def newTx (inner : TxData) : Transaction := setDecoded inner.copy 0

/-- `WithSignature`. -/
def withSignature (tx : Transaction) (signer : Signer) (sig : Bytes) :
    Except SignErr Transaction := do
  let (r, s, v) ← signer.signatureValues tx.inner sig
  return { inner := tx.inner.copy.setSignatureValues signer.chainID v r s }

/-- **`SignTx`.** -/
def signTx [Keccak] (C : Secp256k1) (tx : Transaction) (signer : Signer) (key : C.PrivateKey) :
    Except SignErr Transaction :=
  match C.sign (signer.hash tx.inner) key with
  | none => .error .curve
  | some sig => tx.withSignature signer sig

/-- **`Sender`**, with the sender that is cached in the transaction and
the signer that recovered it. A new transaction has none. -/
def sender [Keccak] (C : Secp256k1) (cache : Option (Signer × Address)) (signer : Signer)
    (tx : Transaction) : Except SignErr Address :=
  match cache with
  | none => signer.sender C tx.inner
  | some (cached, address) => if cached = signer then .ok address else signer.sender C tx.inner

end Transaction

/-! ## The signer of a block -/

/-- `MakeSigner`. -/
def makeSigner (config : ChainConfig) (blockNumber : Int) (blockTime : UInt64) : Signer :=
  if config.isCancun blockTime.toNat blockNumber then .cancun (config.chainID.getD 0)
  else if config.isLondon blockNumber then .london (config.chainID.getD 0)
  else if isForked config.berlinBlock blockNumber then .eip2930 (config.chainID.getD 0)
  else if isForked config.eip155Block blockNumber then .eip155 (config.chainID.getD 0)
  else if config.isHomestead blockNumber then .homestead
  else .frontier

/-- `LatestSigner`. -/
def latestSigner (config : ChainConfig) : Signer :=
  match config.chainID with
  | none => .homestead
  | some chainID =>
    if config.pragueTime.isSome then .prague chainID
    else if config.cancunTime.isSome then .cancun chainID
    else if config.londonBlock.isSome then .london chainID
    else if config.berlinBlock.isSome then .eip2930 chainID
    else if config.eip155Block.isSome then .eip155 chainID
    else .homestead

end Types
