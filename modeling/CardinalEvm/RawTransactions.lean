import CardinalEvm.Signing
import CardinalEvm.Submission

/-!
# Transactions as they are submitted

`SendRawTransaction` is given bytes. `UnmarshalBinary` makes a transaction
of them, and the signer of the latest block recovers its sender; what the
checks of a submission see of the two is a `SignedTx`
(`Types.Transaction.submitted`). What is emitted was therefore decoded
from the bytes and signed, and no transaction that sets code is: the
signer of a block does not know them.
-/

namespace Types

open Rlp (Schema)
open TxData Transaction

/-! ## What the checks see -/

/-- What the types of transactions have in common. -/
structure TxFields where
  kind : TxKind
  nonce : UInt64
  gas : UInt64
  gasFeeCap : Option Int
  gasTipCap : Option Int
  recipient : Option Address
  value : Option Int
  data : Bytes
  accessList : List AccessTuple := []
  authList : List Authorization := []

/-- **The methods of `TxData`** that a submission calls. A blob takes
`1 << 17` of gas. -/
def TxData.fields : TxData → TxFields
  | .legacy tx => ⟨.legacy, tx.nonce, tx.gas, tx.gasPrice, tx.gasPrice, tx.recipient, tx.value,
      tx.data, [], []⟩
  | .accessList tx => ⟨.accessList, tx.nonce, tx.gas, tx.gasPrice, tx.gasPrice, tx.recipient,
      tx.value, tx.data, tx.accessList, []⟩
  | .dynamicFee tx => ⟨.dynamicFee, tx.nonce, tx.gas, tx.gasFeeCap, tx.gasTipCap, tx.recipient,
      tx.value, tx.data, tx.accessList, []⟩
  | .blob tx => ⟨.blob (tx.blobFeeCap.getD 0).toNat (131072 * .ofNat tx.blobHashes.length),
      tx.nonce, tx.gas, toBig tx.gasFeeCap, toBig tx.gasTipCap, some tx.recipient, toBig tx.value,
      tx.data, tx.accessList, []⟩
  | .setCode tx => ⟨.setCode, tx.nonce, tx.gas, toBig tx.gasFeeCap, toBig tx.gasTipCap,
      some tx.recipient, toBig tx.value, tx.data, tx.accessList, tx.authList⟩

/-- Lists that are in memory, as those of every transaction are. -/
def TxFields.Fits (x : TxFields) : Prop :=
  x.data.length < 2 ^ 48 ∧ x.authList.length < 2 ^ 48 ∧
    x.accessList.length + (x.accessList.map fun t => t.storageKeys.length).sum < 2 ^ 48

instance (x : TxFields) : Decidable x.Fits := inferInstanceAs (Decidable (_ ∧ _))

variable [Keccak] (C : Secp256k1)

/-- `Authorization.Authority`. -/
def Authorization.authority (a : Authorization) : Except SignErr Address :=
  let sighash := prefixedRlpHash 5 [Schema.uint256.write a.chainID,
    addressSchema.write a.address, Schema.uint64.write a.nonce]
  if validateSignatureValues a.v a.r.toNat a.s.toNat true then
    senderOf (C.ecrecover sighash (signatureBytes a.r.toNat a.s.toNat a.v))
  else .error .invalidSig

/-- **A transaction as the checks of a submission see it.** Its sender is
whom the signer of a block recovers. -/
def Transaction.submitted (tx : Transaction) : Option SignedTx :=
  let x := tx.inner.fields
  if h : x.Fits then some
    { hash := tx.hash
      kind := x.kind
      nonce := x.nonce
      gas := x.gas
      gasFeeCap := (x.gasFeeCap.getD 0).toNat
      gasTipCap := (x.gasTipCap.getD 0).toNat
      recipient := x.recipient
      value := x.value.getD 0
      data := x.data
      accessList := ⟨x.accessList, h.2.2⟩
      authList := ⟨x.authList.map fun a =>
        ⟨a.chainID, a.address, a.nonce, (a.authority C).toOption⟩, by simpa using h.2.1⟩
      sender := fun config header =>
        ((makeSigner config header.number header.time).sender C tx.inner).toOption
      data_fits := h.1 }
  else none

/-- **`SendRawTransaction`** of bytes. -/
def sendRawBytes (lru : SentCache) (node : Node) (b : Bytes) :
    StateM lru.Cache (Except SendErr Unit) :=
  sendRawTransaction lru node ((unmarshalBinary b).toOption.bind (submitted C))

/-! ## What is emitted -/

variable {C} {config : ChainConfig} {header : Header}

theorem Transaction.sender_submitted {tx : Transaction} {x : SignedTx}
    (h : tx.submitted C = some x) : x.sender config header
      = ((makeSigner config header.number header.time).sender C tx.inner).toOption := by
  unfold submitted at h
  dsimp only at h
  split_ifs at h
  cases h
  rfl

/-- **A key submits as its address**: if the signer of the block recovers
what it signs, the checks are about the account of the key. -/
theorem sender_of_signTx {data : TxData} {key : C.PrivateKey} {signed : Transaction} {x : SignedTx}
    (h : RoundTrip C (makeSigner config header.number header.time) data)
    (hsign : signTx C (.newTx data) (makeSigner config header.number header.time) key
      = .ok signed) (hx : signed.submitted C = some x) :
    x.sender config header = some (pubkeyToAddress (C.publicKey key)) :=
  (sender_submitted hx).trans (congrArg Except.toOption (h key signed hsign))

/-- The signer of a block does not recover who sets code. -/
theorem sender_setCode (tx : SetCodeTx) :
    (makeSigner config header.number header.time).sender C (.setCode tx)
      = .error .txTypeNotSupported := by
  unfold makeSigner
  split_ifs <;> rfl

/-- **What is emitted was signed**: the bytes decode to a transaction whose
sender the signer of the latest block recovers, and this account passed
the checks. No transaction that sets code is emitted. -/
theorem exists_of_sendRawBytes {lru : SentCache} {node : Node} {b : Bytes} {cache : lru.Cache}
    (h : (sendRawBytes C lru node b cache).1 = .ok ()) :
    ∃ tx x config header d a, unmarshalBinary b = .ok tx ∧ tx.submitted C = some x ∧
      node.chain = some (config, header, d) ∧
      (makeSigner config header.number header.time).sender C tx.inner = .ok a ∧
      x.checkState config header d a = .ok () ∧ ∀ data, tx.inner ≠ .setCode data := by
  have hok : ∀ {ε α : Type} {r : Except ε α} {a : α}, r.toOption = some a → r = .ok a := by
    rintro ε α (_ | _) a ⟨⟩
    rfl
  unfold sendRawBytes at h
  cases hx : (unmarshalBinary b).toOption.bind (submitted C) with
  | none =>
    rw [hx] at h
    cases h
  | some x =>
    obtain ⟨tx, hb, hsubmitted⟩ := Option.bind_eq_some_iff.mp hx
    rw [hx, sendRawTransaction_some] at h
    dsimp only at h
    split_ifs at h
    obtain ⟨config, header, d, a, hchain, hsender, hcheck⟩ := SignedTx.exists_of_submit h
    have hrecovered := hok ((sender_submitted hsubmitted).symm.trans hsender)
    refine ⟨tx, x, config, header, d, a, hok hb, hsubmitted, hchain, hrecovered, hcheck, ?_⟩
    intro data hdata
    rw [hdata, sender_setCode] at hrecovered
    cases hrecovered

end Types
