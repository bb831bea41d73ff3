import CardinalEvm.Signer
import CardinalEvm.TransactionCodec

/-!
# Signing and recovery

A transaction that was signed is recovered to the address of the key:
the signature that is stored in it validates, its V leads back to the
recovery id, and the hash does not depend on what was stored. For each
type of transaction one signer has to be looked at, since the later ones
leave the type to it.

There are two exceptions. A legacy transaction that is signed with the
chain id zero gets a V of 27 or 28 for a hash with the chain id, and
recovery takes it for an unprotected transaction, of a hash without one.
And the chain id of a blob transaction has 256 bits, into which that of
the signer does not always fit.
-/

namespace Types

open Rlp (Schema Writes)

/-- The newest type of transaction that a signer supports. -/
def Signer.newest : Signer → UInt8
  | frontier => 0
  | homestead => 0
  | eip155 _ => 0
  | eip2930 _ => 1
  | london _ => 2
  | cancun _ => 3
  | prague _ => 4

section Recovery

variable {C : Secp256k1} {h : Hash} {key : C.PrivateKey} {sig : Bytes} {r s : Nat}
  {v : UInt8}

theorem length_signatureBytes (r s : Nat) (v : UInt8) : (signatureBytes r s v).length = 65 := by
  simp [signatureBytes]

@[simp] theorem getD_signatureBytes (r s : Nat) (v : UInt8) :
    (signatureBytes r s v).getD 64 0 = v := by
  simp [signatureBytes]

theorem decodeSignature_signatureBytes (hr : r < 2 ^ 256) (hs : s < 2 ^ 256) :
    decodeSignature (signatureBytes r s v) = .ok (r, s, (v + 27).toNat) := by
  have hpow : 256 ^ 32 = 2 ^ 256 := by norm_num
  have htake : (signatureBytes r s v).take 32 = toBytes 32 r := by
    rw [signatureBytes, List.append_assoc, List.take_left' (length_toBytes 32 r)]
  have hdrop : ((signatureBytes r s v).drop 32).take 32 = toBytes 32 s := by
    rw [signatureBytes, List.append_assoc, List.drop_left' (length_toBytes 32 r),
      List.take_left' (length_toBytes 32 s)]
  rw [decodeSignature, if_neg (not_not.mpr (length_signatureBytes r s v)), htake, hdrop,
    beNat_toBytes, beNat_toBytes, getD_signatureBytes, hpow, Nat.mod_eq_of_lt hr,
    Nat.mod_eq_of_lt hs]

/-- **A signature of the curve**, as `Secp256k1.Correct` describes it. -/
structure Signed (C : Secp256k1) (h : Hash) (key : C.PrivateKey) (r s : Nat) (v : UInt8) :
    Prop where
  r_pos : 1 ≤ r
  r_lt : (r : Int) < secp256k1N
  s_pos : 1 ≤ s
  s_le : (s : Int) ≤ secp256k1halfN
  v_eq : v = 0 ∨ v = 1
  head : (C.publicKey key).head? = some 4
  recovered : C.ecrecover h (signatureBytes r s v) = some (C.publicKey key)

theorem Secp256k1.Correct.exists_signed (hC : C.Correct) (hsig : C.sign h key = some sig) :
    ∃ r s v, sig = signatureBytes r s v ∧ Signed C h key r s v := by
  obtain ⟨r, s, v, rfl, hr, hrN, hs, hsN, hv, hrec⟩ := hC.sign h key sig hsig
  exact ⟨r, s, v, rfl, hr, hrN, hs, hsN, hv, hC.uncompressed key, hrec⟩

variable (hsig : Signed C h key r s v)

include hsig

theorem Signed.s_lt : (s : Int) < secp256k1N :=
  hsig.s_le.trans_lt (by decide)

theorem Signed.lt_pow : r < 2 ^ 256 ∧ s < 2 ^ 256 := by
  have hN : secp256k1N < ((2 ^ 256 : Nat) : Int) := by decide
  exact ⟨Int.ofNat_lt.mp (hsig.r_lt.trans hN), Int.ofNat_lt.mp (hsig.s_lt.trans hN)⟩

theorem Signed.decodeSignature_eq :
    decodeSignature (signatureBytes r s v) = .ok (r, s, (v + 27).toNat) :=
  decodeSignature_signatureBytes hsig.lt_pow.1 hsig.lt_pow.2

/-- **The values of a signature are valid**, whether or not a low `s` is
asked for. -/
theorem Signed.recoverPlain_eq_senderOf [Keccak] (h' : Hash)
    (homestead : Bool) :
    recoverPlain C h' r s (v.toNat + 27) homestead
      = senderOf (C.ecrecover h' (signatureBytes r s v)) := by
  have hvalid : ∀ v : UInt8, v = 0 ∨ v = 1 → validateSignatureValues v r s homestead = true := by
    intro v hv
    have hr := hsig.r_pos
    have hs := hsig.s_pos
    rw [validateSignatureValues, if_neg (by omega), if_neg fun h => not_lt.mpr hsig.s_le h.2]
    exact decide_eq_true ⟨hsig.r_lt, hsig.s_lt, hv⟩
  rcases hsig.v_eq with rfl | rfl
  · refine (if_neg (by decide)).trans ?_
    show (if validateSignatureValues 0 r s homestead = true then _ else _) = _
    rw [if_pos (hvalid 0 (.inl rfl)), Int.toNat_natCast, Int.toNat_natCast]
    rfl
  · refine (if_neg (by decide)).trans ?_
    show (if validateSignatureValues 1 r s homestead = true then _ else _) = _
    rw [if_pos (hvalid 1 (.inr rfl)), Int.toNat_natCast, Int.toNat_natCast]
    rfl

/-- **A signature of the hash is recovered** to the address of the key. -/
theorem Signed.recoverPlain_eq [Keccak] (homestead : Bool) :
    recoverPlain C h r s (v.toNat + 27) homestead = .ok (pubkeyToAddress (C.publicKey key)) := by
  rw [hsig.recoverPlain_eq_senderOf, hsig.recovered]
  exact if_pos hsig.head

theorem Signed.typedValues_eq :
    typedValues (signatureBytes r s v) = .ok (r, s, v.toNat) := by
  rw [typedValues, hsig.decodeSignature_eq]
  show Except.ok ((r : Int), (s : Int), recoveryId (signatureBytes r s v)) = _
  rw [recoveryId, getD_signatureBytes]

theorem Signed.toNat_add :
    (((v + 27).toNat : Nat) : Int) = v.toNat + 27 := by
  rcases hsig.v_eq with rfl | rfl <;> rfl

end Recovery

/-! ## The V of a protected transaction -/

theorem isProtectedV_of_le {v : Int} (h : 35 ≤ v) : TxData.isProtectedV v = true := by
  unfold TxData.isProtectedV
  split
  · next hlen =>
    have hlt := Rlp.bitLen_le_iff.mp hlen
    have htoNat : (UInt64.ofNat v.natAbs).toNat = v.natAbs :=
      UInt64.toNat_ofNat_of_lt' (show v.natAbs < 18446744073709551616 by omega)
    have hne : ∀ n : UInt64, n.toNat < 35 → UInt64.ofNat v.natAbs ≠ n := by
      rintro n hn rfl
      omega
    exact decide_eq_true
      ⟨hne 27 (by decide), hne 28 (by decide), hne 1 (by decide), hne 0 (by decide)⟩
  · rfl

variable {chainId : Int} {tx : LegacyTx}

/-- The V of a protected transaction has the chain id. -/
theorem deriveChainId_eq {v : Int} (hpos : 0 ≤ chainId)
    (hv : v = 2 * chainId + 35 ∨ v = 2 * chainId + 36) : TxData.deriveChainId v = chainId := by
  unfold TxData.deriveChainId
  split
  · next hlen =>
    have hlt := Rlp.bitLen_le_iff.mp hlen
    have htoNat : (UInt64.ofNat v.natAbs).toNat = v.natAbs :=
      UInt64.toNat_ofNat_of_lt' (show v.natAbs < 18446744073709551616 by omega)
    have hle : (35 : UInt64) ≤ UInt64.ofNat v.natAbs := by
      rw [UInt64.le_iff_toNat_le, htoNat]
      show 35 ≤ _
      omega
    have hne : ¬ (UInt64.ofNat v.natAbs = 27 ∨ UInt64.ofNat v.natAbs = 28) := by
      rintro (h | h)
      all_goals
        rw [h] at hle
        exact absurd hle (by decide)
    rw [if_neg hne, UInt64.toNat_div, UInt64.toNat_sub_of_le _ _ hle, htoNat]
    show (((v.natAbs - 35) / 2 : Nat) : Int) = chainId
    omega
  · omega

theorem toBig_ofInt {n : Int} (hpos : 0 ≤ n) (hlt : n < 2 ^ 256) :
    TxData.toBig (some (BitVec.ofInt 256 n)) = some n := by
  show some (((BitVec.ofInt 256 n).toNat : Nat) : Int) = _
  rw [BitVec.toNat_ofInt, Int.toNat_of_nonneg (Int.emod_nonneg _ (by decide))]
  exact congrArg some (Int.emod_eq_of_lt hpos hlt)

theorem Signed.raw_eq {C : Secp256k1} {h : Hash} {key : C.PrivateKey} {r s : Nat} {v : UInt8}
    (hsig : Signed C h key r s v) :
    ((TxData.toBig (some (BitVec.ofInt 256 v.toNat))).getD 0,
      (TxData.toBig (some (BitVec.ofInt 256 r))).getD 0,
      (TxData.toBig (some (BitVec.ofInt 256 s))).getD 0)
      = ((v.toNat : Int), (r : Int), (s : Int)) := by
  obtain ⟨hr, hs⟩ := hsig.lt_pow
  have hv : (v.toNat : Int) < 2 ^ 256 := (Int.ofNat_lt.mpr v.toNat_lt).trans (by decide)
  rw [toBig_ofInt (Int.natCast_nonneg _) hv,
    toBig_ofInt (Int.natCast_nonneg _) (by exact_mod_cast hr),
    toBig_ofInt (Int.natCast_nonneg _) (by exact_mod_cast hs)]
  rfl

theorem checkChainId_eq_ok {tx : TxData} {err : Int → SignErr} :
    checkChainId tx chainId err = .ok () ↔ tx.chainID = some chainId := by
  unfold checkChainId
  cases tx.chainID with
  | none => exact ⟨nofun, nofun⟩
  | some id =>
    show (if id ≠ chainId then Except.error (err id) else .ok ()) = .ok () ↔ _
    by_cases h : id = chainId
    · rw [if_neg (not_not.mpr h), h]
      exact ⟨fun _ => rfl, fun _ => rfl⟩
    · rw [if_pos h]
      exact ⟨nofun, fun heq => absurd (Option.some.inj heq) h⟩

/-! ## What is hashed -/

section Values

variable {values : List (Rlp.EncM Unit × Bytes)}

/-- The values that are encoded one after the other are encoded as a
list, if they fit into memory. -/
theorem encodeValues_eq_iff (hne : values ≠ []) (h : ∀ w ∈ values, Writes w.1 w.2) {b : Bytes}
    (hb : b.length < 2 ^ 63) :
    encodeValues (values.map (·.1)) = b ↔ Rlp.list (values.flatMap (·.2)) = b := by
  have hwrites : Writes (Rlp.EncBuffer.writeSlice (values.map (·.1)))
      (Rlp.list (values.flatMap (·.2))) := by
    cases values with
    | nil => exact absurd rfl hne
    | cons w values => exact Writes.list (w :: values) h
  obtain ⟨buf, hbuf, -⟩ := hwrites Rlp.EncBuffer.empty
  have hencode : Rlp.encodeToBytes (Rlp.EncBuffer.writeSlice (values.map (·.1)))
      = .ok (encodeValues (values.map (·.1))) := by
    rw [encodeValues, Rlp.encodeToBytes, hbuf]
    rfl
  rw [← Rlp.encodeToBytes_eq_ok hwrites hb, hencode, Except.ok.injEq]

/-- **More values are encoded as something else.** -/
theorem encodeValues_append_ne (more : List (Rlp.EncM Unit × Bytes)) (hne : values ≠ [])
    (h : ∀ w ∈ values ++ more, Writes w.1 w.2) (hmore : more.flatMap (·.2) ≠ [])
    (hfits : (encodeValues (values.map (·.1))).length + (more.flatMap (·.2)).length < 2 ^ 62) :
    encodeValues (values.map (·.1)) ≠ encodeValues ((values ++ more).map (·.1)) := by
  have hlist := (encodeValues_eq_iff hne (fun w hw => h w (List.mem_append_left _ hw))
    (show (encodeValues (values.map (·.1))).length < 2 ^ 63 by omega)).mp rfl
  have hle : (values.flatMap (·.2)).length ≤ (encodeValues (values.map (·.1))).length := by
    rw [← hlist, Rlp.list, List.length_append]
    exact Nat.le_add_left _ _
  intro heq
  have hlist' := (encodeValues_eq_iff (by simp [hne]) h
    (show (encodeValues ((values ++ more).map (·.1))).length < 2 ^ 63 by rw [← heq]; omega)).mp rfl
  rw [← heq, ← hlist, List.flatMap_append] at hlist'
  -- a list has one content
  have hsplit := Rlp.split_list (values.flatMap (·.2)) []
    (by rw [List.append_nil, hlist]; omega)
  rw [List.append_nil, ← hlist', ← List.append_nil (Rlp.list _), Rlp.split_list _ _
    (by rw [List.append_nil, hlist', hlist]; omega)] at hsplit
  have hcontent := congrArg (fun r => r.map fun t => t.2.1) hsplit
  have := List.append_right_eq_self.mp (Except.ok.inj hcontent)
  exact hmore this

/-- A value that cannot be encoded leaves nothing to hash. -/
theorem encodeValues_eq_nil {values : List (Rlp.EncM Unit)} {w : Rlp.EncM Unit} (hw : w ∈ values)
    (hfails : Writes.Fails w) : encodeValues values = [] := by
  obtain ⟨buf', hbuf'⟩ := hfails.list hw Rlp.EncBuffer.empty
  have hwrite : Rlp.EncBuffer.writeSlice values Rlp.EncBuffer.empty
      = .error .negativeBigInt buf' := by
    cases values with
    | nil => cases hw
    | cons w' values => exact hbuf'
  rw [encodeValues, Rlp.encodeToBytes, hwrite]
  rfl

theorem bigValue_negative {n : Int} (h : n < 0) : Writes.Fails (bigValue (some n)) :=
  Writes.Fails.bigInt h

end Values

/-! ## The round trip of each type -/

section RoundTrip

variable [Keccak] {C : Secp256k1}

/-- **What is signed with a key is recovered to its address.** -/
def RoundTrip (C : Secp256k1) (signer : Signer) (data : TxData) : Prop :=
  ∀ (key : C.PrivateKey) (signed : Transaction),
    Transaction.signTx C (.newTx data) signer key = .ok signed →
      Transaction.sender C none signer signed = .ok (pubkeyToAddress (C.publicKey key))

variable {signer signer' : Signer} {data : TxData} {tx : LegacyTx} {chainId : Int} {t : UInt8}

/-- What `SignTx` stores in a transaction. -/
theorem signTx_eq_ok {tx signed : Transaction} {key : C.PrivateKey} :
    Transaction.signTx C tx signer key = .ok signed ↔ ∃ sig values,
      C.sign (signer.hash tx.inner) key = some sig ∧
      signer.signatureValues tx.inner sig = .ok values ∧
      signed = { inner := tx.inner.copy.setSignatureValues signer.chainID values.2.2 values.1
                  values.2.1 } := by
  rw [Transaction.signTx]
  cases C.sign (signer.hash tx.inner) key with
  | none => exact ⟨nofun, nofun⟩
  | some sig =>
    refine exceptBind_eq_ok.trans ⟨?_, ?_⟩
    · rintro ⟨values, hvalues, ⟨⟩⟩
      exact ⟨sig, values, rfl, hvalues, rfl⟩
    · rintro ⟨_, values, ⟨⟩, hvalues, rfl⟩
      exact ⟨values, hvalues, rfl⟩

/-- The sender only has to be recovered from the signature that was
stored. -/
theorem roundTrip_of_signed (hC : C.Correct)
    (h : ∀ key r s v values, Signed C (signer.hash data.copy) key r s v →
      signer.signatureValues data.copy (signatureBytes r s v) = .ok values →
      signer.sender C (data.copy.copy.setSignatureValues signer.chainID values.2.2 values.1
        values.2.1) = .ok (pubkeyToAddress (C.publicKey key))) :
    RoundTrip C signer data := by
  intro key signed hsign
  obtain ⟨sig, values, hsig, hvalues, rfl⟩ := signTx_eq_ok.mp hsign
  obtain ⟨r, s, v, rfl, hsigned⟩ := hC.exists_signed hsig
  exact h key r s v values hsigned hvalues

theorem roundTrip_frontier (hC : C.Correct) (tx : LegacyTx) :
    RoundTrip C .frontier (.legacy tx) := by
  refine roundTrip_of_signed hC fun key r s v values hsig hvalues => ?_
  replace hvalues := hsig.decodeSignature_eq.symm.trans hvalues
  cases hvalues
  rw [hsig.toNat_add]
  exact hsig.recoverPlain_eq false

theorem roundTrip_homestead (hC : C.Correct) (tx : LegacyTx) :
    RoundTrip C .homestead (.legacy tx) := by
  refine roundTrip_of_signed hC fun key r s v values hsig hvalues => ?_
  replace hvalues := hsig.decodeSignature_eq.symm.trans hvalues
  cases hvalues
  rw [hsig.toNat_add]
  exact hsig.recoverPlain_eq true

theorem recoverLegacy_protected {v : Int} (htx : tx.v = some v)
    (hprotected : TxData.isProtectedV v = true) (hchain : TxData.deriveChainId v = chainId) :
    recoverLegacy C tx chainId = recoverPlain C ((TxData.legacy tx).eip155Hash chainId)
      (tx.r.getD 0) (tx.s.getD 0) (v - 2 * chainId - 8) true := by
  have hp : (TxData.legacy tx).isProtected = true := by
    rw [TxData.isProtected, htx]
    exact hprotected
  have hcheck : checkChainId (.legacy tx) chainId (fun _ => .invalidChainId none) = .ok () := by
    rw [checkChainId_eq_ok, ← hchain, TxData.chainID, htx]
    rfl
  rw [recoverLegacy, if_neg (not_not.mpr hp)]
  show (checkChainId (.legacy tx) chainId (fun _ => .invalidChainId none) >>= fun _ =>
    recoverPlain C _ _ _ (tx.v.getD 0 - 2 * chainId - 8) true) = _
  rw [hcheck, htx]
  rfl

theorem recoverLegacy_unprotected (h : (TxData.legacy tx).isProtected = false) :
    recoverLegacy C tx chainId = homesteadSender C (.legacy tx) :=
  if_pos (by rw [h]; exact Bool.false_ne_true)

/-- **Legacy transactions with replay protection.** -/
theorem roundTrip_eip155 (hC : C.Correct) (tx : LegacyTx) (hpos : 0 < chainId) :
    RoundTrip C (.eip155 chainId) (.legacy tx) := by
  refine roundTrip_of_signed hC fun key r s v values hsig hvalues => ?_
  have heq : eip155Values chainId (TxData.legacy tx).copy (signatureBytes r s v)
      = .ok ((r : Int), (s : Int), (v.toNat : Int) + 35 + 2 * chainId) := by
    show (decodeSignature (signatureBytes r s v) >>= _) = _
    rw [hsig.decodeSignature_eq]
    show Except.ok ((r : Int), (s : Int), if chainId ≠ 0 then _ else _) = _
    rw [if_pos hpos.ne', getD_signatureBytes]
    rcases hsig.v_eq with rfl | rfl <;> rfl
  replace hvalues := heq.symm.trans hvalues
  cases hvalues
  have hv : (v.toNat : Int) = 0 ∨ (v.toNat : Int) = 1 := by
    rcases hsig.v_eq with rfl | rfl
    · exact .inl rfl
    · exact .inr rfl
  have hprotected : TxData.isProtectedV ((v.toNat : Int) + 35 + 2 * chainId) = true :=
    isProtectedV_of_le (by omega)
  have hchain : TxData.deriveChainId ((v.toNat : Int) + 35 + 2 * chainId) = chainId :=
    deriveChainId_eq hpos.le (by omega)
  refine (recoverLegacy_protected rfl hprotected hchain).trans ?_
  rw [show (v.toNat : Int) + 35 + 2 * chainId - 2 * chainId - 8 = v.toNat + 27 by omega]
  exact hsig.recoverPlain_eq true

/-- What is stored for the chain id zero is not protected. -/
theorem sender_eip155_zero {h : Hash} {key : C.PrivateKey} {r s : Nat} {v : UInt8}
    {values : Int × Int × Int} (hsig : Signed C h key r s v)
    (hvalues : (Signer.eip155 0).signatureValues (TxData.legacy tx).copy (signatureBytes r s v)
      = .ok values) :
    (Signer.eip155 0).sender C ((TxData.legacy tx).copy.copy.setSignatureValues (some 0) values.2.2
        values.1 values.2.1)
      = recoverPlain C (TxData.legacy tx).copy.frontierHash r s (v.toNat + 27) true := by
  have heq : eip155Values 0 (TxData.legacy tx).copy (signatureBytes r s v)
      = .ok ((r : Int), (s : Int), (((v + 27).toNat : Nat) : Int)) := by
    show (decodeSignature (signatureBytes r s v) >>= _) = _
    rw [hsig.decodeSignature_eq]
    rfl
  replace hvalues := heq.symm.trans hvalues
  cases hvalues
  rw [hsig.toNat_add]
  refine (recoverLegacy_unprotected ?_).trans rfl
  show TxData.isProtectedV ((v.toNat : Int) + 27) = false
  rcases hsig.v_eq with rfl | rfl <;> decide

/-- **Signing with the chain id zero** is recovered if the hash has no
room for a chain id. -/
theorem roundTrip_eip155_zero (hC : C.Correct) (tx : LegacyTx)
    (h : (TxData.legacy tx).copy.eip155Hash 0 = (TxData.legacy tx).copy.frontierHash) :
    RoundTrip C (.eip155 0) (.legacy tx) := by
  refine roundTrip_of_signed hC fun key r s v values hsig hvalues => ?_
  refine (sender_eip155_zero hsig hvalues).trans ?_
  rw [← h]
  exact hsig.recoverPlain_eq true

/-- The sender of a typed transaction, from the values that are stored
in it. -/
theorem recoverTyped_eq {tx : TxData} {sighash : Hash} {v r s : Int} {err : Int → SignErr}
    (hchain : tx.chainID = some chainId) (hraw : tx.rawSignatureValues = (v, r, s)) :
    recoverTyped C tx sighash chainId err = recoverPlain C sighash r s (v + 27) true := by
  rw [recoverTyped, hraw, checkChainId_eq_ok.mpr hchain]
  rfl

theorem roundTrip_accessList (hC : C.Correct) (tx : AccessListTx) (chainId : Int) :
    RoundTrip C (.eip2930 chainId) (.accessList tx) := by
  refine roundTrip_of_signed hC fun key r s v values hsig hvalues => ?_
  obtain ⟨-, -, hvalues⟩ := exceptBind_eq_ok.mp hvalues
  cases hsig.typedValues_eq.symm.trans hvalues
  exact (recoverTyped_eq rfl rfl).trans (hsig.recoverPlain_eq true)

theorem roundTrip_dynamicFee (hC : C.Correct) (tx : DynamicFeeTx) (chainId : Int) :
    RoundTrip C (.london chainId) (.dynamicFee tx) := by
  refine roundTrip_of_signed hC fun key r s v values hsig hvalues => ?_
  obtain ⟨-, -, hvalues⟩ := exceptBind_eq_ok.mp hvalues
  cases hsig.typedValues_eq.symm.trans hvalues
  exact (recoverTyped_eq rfl rfl).trans (hsig.recoverPlain_eq true)

theorem roundTrip_blob (hC : C.Correct) (tx : BlobTx) (hpos : 0 ≤ chainId)
    (h : tx.chainID.getD 0 = 0 → chainId < 2 ^ 256) : RoundTrip C (.cancun chainId) (.blob tx) := by
  refine roundTrip_of_signed hC fun key r s v values hsig hvalues => ?_
  obtain ⟨⟨⟩, hcheck, hvalues⟩ := exceptBind_eq_ok.mp hvalues
  cases hsig.typedValues_eq.symm.trans hvalues
  -- the chain id of the transaction is zero, or that of the signer
  have hlt : chainId < 2 ^ 256 := by
    by_contra hge
    have hid :
        ¬ ((((tx.chainID.getD 0).toNat : Int) ≠ 0) ∧ ((tx.chainID.getD 0).toNat : Int) ≠ chainId) :=
      fun hne => by cases (if_pos hne).symm.trans hcheck
    have hword : ((tx.chainID.getD 0).toNat : Int) < 2 ^ 256 := by
      exact_mod_cast (tx.chainID.getD 0).isLt
    refine hge (h (BitVec.eq_of_toNat_eq ?_))
    show _ = 0
    omega
  refine (recoverTyped_eq ?_ ?_).trans (hsig.recoverPlain_eq true)
  · exact toBig_ofInt hpos hlt
  · exact hsig.raw_eq

theorem roundTrip_setCode (hC : C.Correct) (tx : SetCodeTx) (chainId : Int) :
    RoundTrip C (.prague chainId) (.setCode tx) := by
  refine roundTrip_of_signed hC fun key r s v values hsig hvalues => ?_
  obtain ⟨⟨⟩, hcheck, hvalues⟩ := exceptBind_eq_ok.mp hvalues
  cases hsig.typedValues_eq.symm.trans hvalues
  -- the chain id of the transaction is that of the signer
  obtain ⟨id, hid, rfl⟩ : ∃ id, tx.chainID = some id ∧ (id.toNat : Int) = chainId := by
    have hchain : TxData.toBig tx.chainID = some chainId := checkChainId_eq_ok.mp hcheck
    exact Option.map_eq_some_iff.mp hchain
  have hlt : ((id.toNat : Nat) : Int) < 2 ^ 256 := by exact_mod_cast id.isLt
  refine (recoverTyped_eq ?_ ?_).trans (hsig.recoverPlain_eq true)
  · exact toBig_ofInt (Int.natCast_nonneg _) hlt
  · exact hsig.raw_eq

omit [Keccak] in
/-- What a signer does not support it does not sign. -/
theorem signatureValues_unsupported (h : signer.newest < data.txType) (sig : Bytes) :
    signer.signatureValues data sig = .error .txTypeNotSupported := by
  cases signer <;> cases data <;>
    first | rfl | exact absurd h (by simp [Signer.newest, TxData.txType])

/-- **Two signers treat the transactions of a type alike.** -/
structure Agree (C : Secp256k1) (signer signer' : Signer) (t : UInt8) : Prop where
  chainID : signer.chainID = signer'.chainID
  hash : ∀ data : TxData, data.txType = t → signer.hash data = signer'.hash data
  values : ∀ (data : TxData) (sig : Bytes), data.txType = t →
    signer.signatureValues data sig = signer'.signatureValues data sig
  sender : ∀ data : TxData, data.txType = t → signer.sender C data = signer'.sender C data

theorem Agree.symm (h : Agree C signer signer' t) :
    Agree C signer' signer t where
  chainID := h.chainID.symm
  hash data ht := (h.hash data ht).symm
  values data sig ht := (h.values data sig ht).symm
  sender data ht := (h.sender data ht).symm

theorem Agree.trans {signer'' : Signer} (h : Agree C signer signer' t)
    (h' : Agree C signer' signer'' t) : Agree C signer signer'' t where
  chainID := h.chainID.trans h'.chainID
  hash data ht := (h.hash data ht).trans (h'.hash data ht)
  values data sig ht := (h.values data sig ht).trans (h'.values data sig ht)
  sender data ht := (h.sender data ht).trans (h'.sender data ht)

/-- The signer of the fork that brought a type. -/
def TxData.signerFor (chainId : Int) : TxData → Signer
  | .legacy _ => .eip155 chainId
  | .accessList _ => .eip2930 chainId
  | .dynamicFee _ => .london chainId
  | .blob _ => .cancun chainId
  | .setCode _ => .prague chainId

/-- **The signers of the later forks leave a type to the signer of the
fork that brought it.** -/
theorem agree_signer (data : TxData) (h : signer.chainID = some chainId)
    (hnewest : data.txType ≤ signer.newest) :
    Agree C signer (data.signerFor chainId) data.txType := by
  -- a fork that knows the type hands it down; the others are ruled out by `newest`
  have hdown : ∀ data' : TxData, data'.txType = data.txType →
      signer.hash data' = (data.signerFor chainId).hash data' ∧
      (∀ sig, signer.signatureValues data' sig =
        (data.signerFor chainId).signatureValues data' sig) ∧
      signer.sender C data' = (data.signerFor chainId).sender C data' := by
    intro data' ht
    cases signer <;> cases h <;> cases data <;> cases data' <;> first
      | exact ⟨rfl, fun _ => rfl, rfl⟩
      | (simp [TxData.txType] at ht; done)
      | simp [Signer.newest, TxData.txType] at hnewest
  exact ⟨by cases data <;> exact h, fun data' ht => (hdown data' ht).1,
    fun data' sig ht => (hdown data' ht).2.1 sig, fun data' ht => (hdown data' ht).2.2⟩

omit [Keccak] in
@[simp] theorem txType_setSignatureValues (data : TxData) (chainID : Option Int) (v r s : Int) :
    (data.setSignatureValues chainID v r s).txType = data.txType := by
  cases data <;> rfl

theorem RoundTrip.of_agree (hagree : Agree C signer signer' data.txType)
    (h : RoundTrip C signer' data) :
    RoundTrip C signer data := by
  intro key signed hsign
  obtain ⟨sig, values, hsig, hvalues, rfl⟩ := signTx_eq_ok.mp hsign
  have ht : (Transaction.newTx data).inner.txType = data.txType := TxData.txType_copy data
  rw [hagree.hash _ ht] at hsig
  rw [hagree.values _ sig ht] at hvalues
  rw [hagree.chainID]
  refine Eq.trans ?_ (h key _ (signTx_eq_ok.mpr ⟨sig, values, hsig, hvalues, rfl⟩))
  exact hagree.sender _ (by rw [txType_setSignatureValues, TxData.txType_copy, ht])

/-- **A legacy transaction that is signed with the chain id zero**, and
whose gas price and value are not negative, so that it can be encoded. -/
def SignedWithoutChain (signer : Signer) (data : TxData) : Prop :=
  ∃ tx, data = .legacy tx ∧ signer.chainID = some 0 ∧ 0 ≤ tx.gasPrice.getD 0 ∧ 0 ≤ tx.value.getD 0

/-- **A blob transaction without a chain id**, whose field the chain id
of a signer of blob transactions does not fit into. -/
def ChainIdCutOff (signer : Signer) (data : TxData) : Prop :=
  ∃ tx chainId, data = .blob tx ∧ tx.chainID.getD 0 = 0 ∧ 3 ≤ signer.newest ∧
    signer.chainID = some chainId ∧ 2 ^ 256 ≤ chainId

theorem eip155Hash_negative (chainId : Int) (h : tx.gasPrice.getD 0 < 0 ∨ tx.value.getD 0 < 0) :
    (TxData.legacy tx).copy.eip155Hash chainId = (TxData.legacy tx).copy.frontierHash := by
  obtain ⟨n, hmem, hn⟩ : ∃ n, bigValue (some n) ∈ (TxData.legacy tx).copy.commonValues ∧ n < 0 := by
    rcases h with h | h
    · exact ⟨_, .tail _ (.head _), h⟩
    · exact ⟨_, .tail _ (.tail _ (.tail _ (.tail _ (.head _)))), h⟩
  rw [TxData.eip155Hash, TxData.frontierHash, rlpHash, rlpHash,
    encodeValues_eq_nil hmem (bigValue_negative hn),
    encodeValues_eq_nil (List.mem_append_left _ hmem) (bigValue_negative hn)]

/-- **Everything else is recovered.** -/
theorem roundTrip (hC : C.Correct) (hpos : ∀ chainId, signer.chainID = some chainId → 0 ≤ chainId)
    (hlegacy : ¬ SignedWithoutChain signer data) (hblob : ¬ ChainIdCutOff signer data) :
    RoundTrip C signer data := by
  by_cases hnewest : signer.newest < data.txType
  · refine roundTrip_of_signed hC fun key r s v values _ hvalues => ?_
    rw [signatureValues_unsupported (by rwa [TxData.txType_copy])] at hvalues
    cases hvalues
  replace hnewest := UInt8.not_lt.mp hnewest
  cases hchain : signer.chainID with
  | none =>
    -- only legacy transactions have no chain id
    cases signer with
    | frontier =>
      obtain ⟨tx, rfl⟩ := TxData.exists_legacy (UInt8.le_antisymm hnewest (UInt8.zero_le))
      exact roundTrip_frontier hC tx
    | homestead =>
      obtain ⟨tx, rfl⟩ := TxData.exists_legacy (UInt8.le_antisymm hnewest (UInt8.zero_le))
      exact roundTrip_homestead hC tx
    | _ => cases hchain
  | some chainId =>
    have hnonneg := hpos chainId hchain
    cases data with
    | legacy tx =>
      refine RoundTrip.of_agree (agree_signer _ hchain hnewest) ?_
      rcases hnonneg.eq_or_lt with rfl | hlt
      · refine roundTrip_eip155_zero hC tx (eip155Hash_negative 0 ?_)
        by_contra hencodable
        rw [not_or, not_lt, not_lt] at hencodable
        exact hlegacy ⟨tx, rfl, hchain, hencodable⟩
      · exact roundTrip_eip155 hC tx hlt
    | accessList tx =>
      exact (roundTrip_accessList hC tx chainId).of_agree (agree_signer _ hchain hnewest)
    | dynamicFee tx =>
      exact (roundTrip_dynamicFee hC tx chainId).of_agree (agree_signer _ hchain hnewest)
    | blob tx =>
      refine (roundTrip_blob hC tx hnonneg fun h0 => ?_).of_agree (agree_signer _ hchain hnewest)
      exact not_le.mp fun hle => hblob ⟨tx, chainId, rfl, h0, hnewest, hchain, hle⟩
    | setCode tx =>
      exact (roundTrip_setCode hC tx chainId).of_agree (agree_signer _ hchain hnewest)

end RoundTrip

/-! ## The exceptions -/

/-- **A curve whose signatures name the hash**, and are recovered from no
other hash. -/
def Secp256k1.transparent : Secp256k1 where
  PrivateKey := Unit
  sign h _ := some (signatureBytes (h.toNat / 2 ^ 128 + 1) (h.toNat % 2 ^ 128 + 1) 0)
  ecrecover h sig :=
    if sig = signatureBytes (h.toNat / 2 ^ 128 + 1) (h.toNat % 2 ^ 128 + 1) 0 then some [4]
    else none
  publicKey _ := [4]

theorem Secp256k1.correct_transparent : Secp256k1.transparent.Correct where
  uncompressed _ := rfl
  sign h _ sig hsig := by
    cases hsig
    have hlt : h.toNat < 2 ^ 256 := h.isLt
    refine ⟨_, _, 0, rfl, by omega, ?_, by omega, ?_, .inl rfl, if_pos rfl⟩
    · show _ < (0xfffffffffffffffffffffffffffffffebaaedce6af48a03bbfd25e8cd0364141 : Int)
      omega
    · show _ ≤ (0xfffffffffffffffffffffffffffffffebaaedce6af48a03bbfd25e8cd0364141 : Int) / 2
      omega

theorem signatureBytes_inj {r s r' s' : Nat} {v v' : UInt8} (hr : r < 2 ^ 256) (hs : s < 2 ^ 256)
    (hr' : r' < 2 ^ 256) (hs' : s' < 2 ^ 256) (h : signatureBytes r s v = signatureBytes r' s' v') :
    r = r' ∧ s = s' := by
  have hdec := decodeSignature_signatureBytes (v := v) hr hs
  rw [h, decodeSignature_signatureBytes hr' hs'] at hdec
  have hpair := Except.ok.inj hdec
  exact ⟨(Int.ofNat.inj (congrArg Prod.fst hpair)).symm,
    (Int.ofNat.inj (congrArg (fun p => p.2.1) hpair)).symm⟩

theorem Secp256k1.ecrecover_transparent {h h' : Hash} (hne : h ≠ h') {sig : Bytes}
    (hsig : Secp256k1.transparent.sign h' () = some sig) :
    Secp256k1.transparent.ecrecover h sig = none := by
  cases hsig
  refine if_neg fun heq => hne (BitVec.eq_of_toNat_eq ?_)
  have hlt : h.toNat < 2 ^ 256 := h.isLt
  have hlt' : h'.toNat < 2 ^ 256 := h'.isLt
  obtain ⟨hr, hs⟩ := signatureBytes_inj (by omega) (by omega) (by omega) (by omega) heq
  omega

/-- What is signed with a chain id is not recovered without one. -/
theorem not_roundTrip_eip155_zero [Keccak]
    (hne : (TxData.legacy tx).copy.frontierHash ≠ (TxData.legacy tx).copy.eip155Hash 0) :
    ¬ RoundTrip .transparent (.eip155 0) (.legacy tx) := by
  intro h
  have hsign : Secp256k1.transparent.sign ((Signer.eip155 0).hash (TxData.legacy tx).copy) ()
      = some _ := rfl
  obtain ⟨r, s, v, hbytes, hsig⟩ := Secp256k1.correct_transparent.exists_signed hsign
  have hnone := Secp256k1.ecrecover_transparent hne hsign
  rw [hbytes] at hsign hnone
  have hvalues : (Signer.eip155 0).signatureValues (TxData.legacy tx).copy (signatureBytes r s v)
      = .ok (r, s, ((v + 27).toNat : Nat)) := by
    show (decodeSignature (signatureBytes r s v) >>= _) = _
    rw [hsig.decodeSignature_eq]
    rfl
  have hsender := h () _ (signTx_eq_ok.mpr ⟨_, _, hsign, hvalues, rfl⟩)
  have herror := (sender_eip155_zero hsig hvalues).trans (hsig.recoverPlain_eq_senderOf _ true)
  rw [hnone] at herror
  cases herror.symm.trans hsender

/-- A chain id that is cut off is not that of the signer. -/
theorem not_roundTrip_blob [Keccak] {tx : BlobTx} (h0 : tx.chainID.getD 0 = 0)
    (hge : 2 ^ 256 ≤ chainId) : ¬ RoundTrip .transparent (.cancun chainId) (.blob tx) := by
  intro h
  have hsign : Secp256k1.transparent.sign ((Signer.cancun chainId).hash (TxData.blob tx).copy) ()
      = some _ := rfl
  obtain ⟨r, s, v, hbytes, hsig⟩ := Secp256k1.correct_transparent.exists_signed hsign
  rw [hbytes] at hsign
  have hvalues :
      (Signer.cancun chainId).signatureValues (TxData.blob tx).copy (signatureBytes r s v)
      = .ok (r, s, v.toNat) := by
    show (checkGivenChainId chainId (some ((tx.chainID.getD 0).toNat : Int)) _ >>= fun _ =>
      typedValues (signatureBytes r s v)) = _
    rw [h0, hsig.typedValues_eq]
    rfl
  have hsender := h () _ (signTx_eq_ok.mpr ⟨_, _, hsign, hvalues, rfl⟩)
  obtain ⟨⟨⟩, hcheck, -⟩ := exceptBind_eq_ok.mp hsender
  have hchain : some (((BitVec.ofInt 256 chainId).toNat : Nat) : Int) = some chainId :=
    checkChainId_eq_ok.mp hcheck
  have hlt : (((BitVec.ofInt 256 chainId).toNat : Nat) : Int) < 2 ^ 256 := by
    exact_mod_cast (BitVec.ofInt 256 chainId).isLt
  have := Option.some.inj hchain
  omega

/-- The values of a legacy transaction, with their encodings. -/
def LegacyTx.writtenValues (tx : LegacyTx) : List (Rlp.EncM Unit × Bytes) :=
  [(Schema.uint64.write tx.nonce, Schema.uint64.bytes tx.nonce),
    (bigValue (some (tx.gasPrice.getD 0)), Schema.bigInt.ptr.bytes (some (tx.gasPrice.getD 0))),
    (Schema.uint64.write tx.gas, Schema.uint64.bytes tx.gas),
    (addressValue tx.recipient, addressSchema.ptr.bytes tx.recipient),
    (bigValue (some (tx.value.getD 0)), Schema.bigInt.ptr.bytes (some (tx.value.getD 0))),
    (Schema.slicedBytes.write tx.data, Schema.slicedBytes.bytes tx.data)]

/-- A chain id of zero, and two zeros. -/
def zeroValues : List (Rlp.EncM Unit × Bytes) :=
  [(bigValue (some 0), [0x80]), (Schema.uint64.write 0, [0x80]), (Schema.uint64.write 0, [0x80])]

theorem LegacyTx.writes_writtenValues (hprice : 0 ≤ tx.gasPrice.getD 0)
    (hvalue : 0 ≤ tx.value.getD 0) : ∀ w ∈ tx.writtenValues ++ zeroValues, Writes w.1 w.2 := by
  have hbig : ∀ n : Int, 0 ≤ n → Writes (bigValue (some n)) (Schema.bigInt.ptr.bytes (some n)) :=
    fun n hn => Schema.writes ((Schema.ok_ptr _ _).mpr ⟨n, rfl, hn⟩)
  have huint : ∀ n : UInt64, Writes (Schema.uint64.write n) (Schema.uint64.bytes n) := fun n =>
    Schema.writes (Schema.ok_uint64 n)
  have haddress : Writes (addressValue tx.recipient) (addressSchema.ptr.bytes tx.recipient) := by
    cases tx.recipient with
    | none => exact Writes.append _
    | some a => exact Schema.writes ((Schema.ok_ptr _ _).mpr ⟨a, rfl, ok_addressSchema a⟩)
  intro w hw
  simp only [writtenValues, zeroValues, List.cons_append, List.nil_append, List.mem_cons,
    List.not_mem_nil, or_false] at hw
  rcases hw with rfl | rfl | rfl | rfl | rfl | rfl | rfl | rfl | rfl
  · exact huint _
  · exact hbig _ hprice
  · exact huint _
  · exact haddress
  · exact hbig _ hvalue
  · exact Schema.writes (Schema.ok_slicedBytes _)
  · exact hbig 0 le_rfl
  · exact huint 0
  · exact huint 0

/-- **What is signed fits into memory.** -/
def Fits (data : TxData) : Prop := (encodeValues data.copy.commonValues).length + 3 < 2 ^ 62

/-- The hash for the chain id zero is not the hash without a chain id. -/
theorem encodeValues_chain_ne (hfits : Fits (.legacy tx)) (hprice : 0 ≤ tx.gasPrice.getD 0)
    (hvalue : 0 ≤ tx.value.getD 0) :
    encodeValues (TxData.legacy tx).copy.commonValues
      ≠ encodeValues ((TxData.legacy tx).copy.commonValues ++
        [bigValue (some 0), Schema.uint64.write 0, Schema.uint64.write 0]) := by
  have hne := encodeValues_append_ne zeroValues
    (List.cons_ne_nil _ _) (LegacyTx.writes_writtenValues hprice hvalue)
    (List.cons_ne_nil _ _) hfits
  rw [List.map_append] at hne
  exact hne

/-- **The round trip of signing and recovery.** For every signer with a
chain id that is not negative and every transaction, what is signed with
a key is recovered to the address of the key – for every hash and every
correct curve – except for legacy transactions that are signed with the
chain id zero, and blob transactions without a chain id whose field that
of the signer does not fit into. -/
theorem sender_signTx_iff (signer : Signer) (data : TxData)
    (hpos : ∀ chainId, signer.chainID = some chainId → 0 ≤ chainId) (hfits : Fits data) :
    (∀ (_ : Keccak) (C : Secp256k1), C.Correct → ∀ (key : C.PrivateKey) (signed : Transaction),
      Transaction.signTx C (.newTx data) signer key = .ok signed →
        Transaction.sender C none signer signed = .ok (pubkeyToAddress (C.publicKey key))) ↔
    ¬ SignedWithoutChain signer data ∧ ¬ ChainIdCutOff signer data := by
  constructor
  · intro h
    refine ⟨?_, ?_⟩
    · rintro ⟨tx, rfl, hchain, hprice, hvalue⟩
      -- a hash that tells the two encodings apart
      let _ : Keccak := ⟨fun b =>
        if b = encodeValues (TxData.legacy tx).copy.commonValues then 0 else 1⟩
      have hround : RoundTrip .transparent signer (.legacy tx) :=
        h _ .transparent Secp256k1.correct_transparent
      refine not_roundTrip_eip155_zero ?_
        (hround.of_agree (agree_signer (.legacy tx) hchain UInt8.zero_le).symm)
      have hne := encodeValues_chain_ne hfits hprice hvalue
      show (if _ then (0 : Hash) else 1) ≠ if _ then 0 else 1
      rw [if_pos rfl, if_neg hne.symm]
      decide
    · rintro ⟨tx, chainId, rfl, h0, hnewest, hchain, hge⟩
      let _ : Keccak := ⟨fun _ => 0⟩
      have hround : RoundTrip .transparent signer (.blob tx) :=
        h _ .transparent Secp256k1.correct_transparent
      exact not_roundTrip_blob h0 hge
        (hround.of_agree (agree_signer (.blob tx) hchain hnewest).symm)
  · rintro ⟨hlegacy, hblob⟩ _ C hC
    exact roundTrip hC hpos hlegacy hblob

/-- A transaction of 21000 gas and nothing else. -/
def plainTx : LegacyTx where
  nonce := 0
  gasPrice := none
  gas := 21000
  recipient := none
  value := none
  data := []
  v := none
  r := none
  s := none

/-- Keccak-256 of what is signed of the transaction, without a chain id
and with the chain id zero. -/
@[reducible] def plainDigests : Keccak where
  keccak256Hash b :=
    if b = [0xc8, 0x80, 0x80, 0x82, 0x52, 0x08, 0x80, 0x80, 0x80] then
      0xa6dc90635a8cd7ee4fb315927588e2cdc48d9277046c02e7ebaf1b08527c951b
    else if b = [0xcb, 0x80, 0x80, 0x82, 0x52, 0x08, 0x80, 0x80, 0x80, 0x80, 0x80, 0x80] then
      0x85971695e5d7b26724b49823f7b2e094b1569c20362c9a4973ad359a75d740c1
    else 0

theorem sender_signTx_iff_mainnet :
    Fits (.legacy plainTx) ∧
    ∀ (_ : Keccak) (C : Secp256k1), C.Correct → ∀ (key : C.PrivateKey) (signed : Transaction),
      Transaction.signTx C (.newTx (.legacy plainTx)) (.london 1) key = .ok signed →
        Transaction.sender C none (.london 1) signed = .ok (pubkeyToAddress (C.publicKey key)) := by
  have hfits : Fits (.legacy plainTx) := by
    unfold Fits
    decide +kernel
  refine ⟨hfits, (sender_signTx_iff (.london 1) (.legacy plainTx) ?_ hfits).mpr ⟨?_, ?_⟩⟩
  · rintro _ ⟨⟩
    decide
  · rintro ⟨_, -, h, -⟩
    cases h
  · rintro ⟨_, _, h, -⟩
    cases h

/-- With the chain id zero the sender of what was signed is not found. -/
theorem sender_signTx_chain_zero :
    letI := plainDigests
    Secp256k1.transparent.Correct ∧
    ¬ ∀ (key : Secp256k1.transparent.PrivateKey) (signed : Transaction),
      Transaction.signTx .transparent (.newTx (.legacy plainTx)) (.eip155 0) key = .ok signed →
        Transaction.sender .transparent none (.eip155 0) signed
          = .ok (pubkeyToAddress (Secp256k1.transparent.publicKey key)) := by
  let _ := plainDigests
  refine ⟨Secp256k1.correct_transparent, not_roundTrip_eip155_zero ?_⟩
  decide +kernel

end Types
