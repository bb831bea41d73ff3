import CardinalEvm.Signing

/-!
# Which signer a block has

`MakeSigner` takes the signer of the newest fork that is active at a
block, and `LatestSigner` that of the newest fork that is scheduled at
all. A signer supports the types of transactions up to its own, so the
first is right about a block if it knows all forks, and the second
recovers what the first does if its signer is not older.

Neither knows all of them: `MakeSigner` stops at Cancun, `LatestSigner`
does not see a Cancun that is scheduled by block number, and it has no
signer for the high `s` values from before Homestead.
-/

namespace Types

section Support

variable [Keccak] {C : Secp256k1}

theorem senderOf_ne_unsupported (pub : Option Bytes) :
    senderOf pub ≠ .error .txTypeNotSupported := by
  cases pub with
  | none => exact nofun
  | some pub =>
    rw [senderOf]
    split_ifs <;> exact nofun

theorem recoverPlain_ne_unsupported (h : Hash) (r s v : Int) (homestead : Bool) :
    recoverPlain C h r s v homestead ≠ .error .txTypeNotSupported := by
  unfold recoverPlain
  by_cases hlen : 8 < Rlp.bitLen v.natAbs
  · rw [if_pos hlen]
    exact nofun
  · rw [if_neg hlen]
    generalize (UInt64.ofNat v.natAbs - 27).toUInt8 = v
    show (if _ then _ else _) ≠ _
    split_ifs
    · exact senderOf_ne_unsupported _
    · exact nofun

variable {chainId : Int} {signer : Signer} {data : TxData} {a : Address}

omit [Keccak] in
theorem checkChainId_ne_unsupported {tx : TxData} {err : Int → SignErr}
    (herr : ∀ id, err id ≠ .txTypeNotSupported) :
    checkChainId tx chainId err ≠ .error .txTypeNotSupported := by
  rw [checkChainId]
  cases tx.chainID with
  | none => exact nofun
  | some id =>
    show (if id ≠ chainId then Except.error (err id) else .ok ()) ≠ _
    split_ifs
    · exact fun h => herr id (Except.error.inj h)
    · exact nofun

omit [Keccak] in
/-- A check before something else. -/
theorem bind_ne_unsupported {α : Type} {x : Except SignErr Unit} {f : Unit → Except SignErr α}
    (hx : x ≠ .error .txTypeNotSupported) (hf : f () ≠ .error .txTypeNotSupported) :
    (x >>= f) ≠ .error .txTypeNotSupported := by
  cases x with
  | error e => exact fun h => hx (congrArg Except.error (Except.error.inj h))
  | ok _ => exact hf

theorem recoverTyped_ne_unsupported {tx : TxData} {h : Hash} {err : Int → SignErr}
    (herr : ∀ id, err id ≠ .txTypeNotSupported) :
    recoverTyped C tx h chainId err ≠ .error .txTypeNotSupported :=
  bind_ne_unsupported (checkChainId_ne_unsupported herr) (recoverPlain_ne_unsupported _ _ _ _ _)

theorem recoverLegacy_ne_unsupported (tx : LegacyTx) (chainId : Int) :
    recoverLegacy C tx chainId ≠ .error .txTypeNotSupported := by
  by_cases hp : (TxData.legacy tx).isProtected = true
  · rw [recoverLegacy, if_neg (not_not.mpr hp)]
    refine bind_ne_unsupported (checkChainId_ne_unsupported ?_)
      (recoverPlain_ne_unsupported _ _ _ _ _)
    rintro _ ⟨⟩
  · rw [recoverLegacy_unprotected (Bool.not_eq_true _ ▸ hp)]
    exact recoverPlain_ne_unsupported _ _ _ _ _

/-- **The signers that support a type agree on its transactions.** -/
theorem agree_of_le {signer' : Signer} (h : signer.chainID = some chainId)
    (h' : signer'.chainID = some chainId) (hle : data.txType ≤ signer.newest)
    (hle' : data.txType ≤ signer'.newest) :
    Agree C signer signer' data.txType :=
  (agree_signer data h hle).trans (agree_signer data h' hle').symm

/-- **A signer supports the types up to its newest.** -/
theorem sender_eq_unsupported :
    signer.sender C data = .error .txTypeNotSupported ↔ signer.newest < data.txType := by
  constructor
  · intro h
    by_contra hlt
    have hle := UInt8.not_lt.mp hlt
    cases hchain : signer.chainID with
    | none =>
      cases signer with
      | frontier | homestead =>
        obtain ⟨tx, rfl⟩ := TxData.exists_legacy (UInt8.le_antisymm hle UInt8.zero_le)
        exact recoverPlain_ne_unsupported _ _ _ _ _ h
      | _ => cases hchain
    | some chainId =>
      rw [(agree_signer data hchain hle).sender _ rfl] at h
      cases data with
      | legacy tx => exact recoverLegacy_ne_unsupported tx chainId h
      | _ =>
        refine recoverTyped_ne_unsupported ?_ h
        exact fun _ => nofun
  · intro h
    cases signer <;> cases data <;>
      first | rfl | exact absurd h (by simp [Signer.newest, TxData.txType])

/-- **A newer signer of the chain recovers the same senders.** -/
theorem sender_of_newest_le (signer : Signer) {signer' : Signer} (h : signer.chainID = some chainId)
    (h' : signer'.chainID = some chainId) (hle : signer.newest ≤ signer'.newest)
    (hsender : signer.sender C data = .ok a) :
    signer'.sender C data = .ok a := by
  have hsupported : data.txType ≤ signer.newest := by
    refine UInt8.not_lt.mp fun hlt => ?_
    rw [sender_eq_unsupported.mpr hlt] at hsender
    cases hsender
  rw [← (agree_of_le h h' hsupported (UInt8.le_trans hsupported hle)).sender data rfl]
  exact hsender

omit [Keccak] in
/-- The byte of a V that is a recovery id. -/
theorem recoveryId_of_lt : ∀ n < 256,
    (UInt64.ofNat n - 27).toUInt8 = 0 ∨ (UInt64.ofNat n - 27).toUInt8 = 1 → n = 27 ∨ n = 28 := by
  decide +kernel

/-- The V of a signature that is recovered is 27 or 28. -/
theorem natAbs_of_recoverPlain {h : Hash} {r s v : Int} {homestead : Bool}
    (hok : recoverPlain C h r s v homestead = .ok a) : v.natAbs = 27 ∨ v.natAbs = 28 := by
  unfold recoverPlain at hok
  by_cases hlen : 8 < Rlp.bitLen v.natAbs
  · rw [if_pos hlen] at hok
    cases hok
  · rw [if_neg hlen] at hok
    have hlt : v.natAbs < 256 := Rlp.bitLen_le_iff.mp (not_lt.mp hlen)
    by_cases hvalid : validateSignatureValues (UInt64.ofNat v.natAbs - 27).toUInt8 r s homestead
    · have hv :
          (UInt64.ofNat v.natAbs - 27).toUInt8 = 0 ∨ (UInt64.ofNat v.natAbs - 27).toUInt8 = 1 := by
        unfold validateSignatureValues at hvalid
        split_ifs at hvalid
        exact (of_decide_eq_true hvalid).2.2
      exact recoveryId_of_lt _ hlt hv
    · replace hok := (if_neg hvalid).symm.trans hok
      cases hok

/-- What `HomesteadSigner` recovers is not protected, and every later
signer recovers it too. -/
theorem sender_of_homestead (hsigner : signer.chainID = some chainId)
    (h : Signer.homestead.sender C data = .ok a) :
    signer.sender C data = .ok a := by
  cases data with
  | legacy tx =>
    have hv := natAbs_of_recoverPlain h
    rw [(agree_signer (.legacy tx) hsigner UInt8.zero_le).sender _ rfl]
    refine (recoverLegacy_unprotected ?_).trans h
    show tx.v.any TxData.isProtectedV = false
    cases htx : tx.v with
    | none => rfl
    | some v =>
      rw [htx] at hv
      show TxData.isProtectedV v = false
      unfold TxData.isProtectedV
      rcases hv with hv | hv <;> rw [show v.natAbs = _ from hv] <;> rfl
  | _ => cases h

end Support

/-! ## The schedule -/

/-- **A signer supports a type of transaction**: it returns another error
than that for an unsupported type, or none. -/
def Signer.Supports (signer : Signer) (t : UInt8) : Prop :=
  ∀ (_ : Keccak) (C : Secp256k1) (data : TxData), data.txType = t →
    signer.sender C data ≠ .error .txTypeNotSupported

theorem exists_txType {t : UInt8} (h : t ≤ 4) : ∃ data : TxData, data.txType = t := by
  have hcases : ∀ n ≤ 4, ∃ data : TxData, data.txType = UInt8.ofNat n := by
    intro n hn
    match n, hn with
    | 0, _ => exact ⟨.legacy default, rfl⟩
    | 1, _ => exact ⟨.accessList default, rfl⟩
    | 2, _ => exact ⟨.dynamicFee default, rfl⟩
    | 3, _ => exact ⟨.blob default, rfl⟩
    | 4, _ => exact ⟨.setCode default, rfl⟩
  obtain ⟨data, hdata⟩ := hcases t.toNat (UInt8.le_iff_toNat_le.mp h)
  exact ⟨data, hdata.trans (UInt8.ofNat_toNat)⟩

theorem supports_iff {signer : Signer} {t : UInt8} (ht : t ≤ 4) :
    signer.Supports t ↔ t ≤ signer.newest := by
  constructor
  · intro h
    obtain ⟨data, rfl⟩ := exists_txType ht
    let _ : Keccak := ⟨fun _ => 0⟩
    exact UInt8.not_lt.mp fun hlt => h _ .transparent data rfl (sender_eq_unsupported.mpr hlt)
  · rintro h _ C data rfl hsender
    exact UInt8.not_lt.mpr h (sender_eq_unsupported.mp hsender)

section Schedule

variable (config : ChainConfig) (number : Int) (time : UInt64)

/-- **The forks are activated in order.** -/
structure InOrder : Prop where
  prague : config.isPrague time.toNat number = true → config.isCancun time.toNat number = true
  cancun : config.isCancun time.toNat number = true → config.isLondon number = true
  london : config.isLondon number = true → isForked config.berlinBlock number = true
  berlin : isForked config.berlinBlock number = true → isForked config.eip155Block number = true
  eip155 : isForked config.eip155Block number = true → config.isHomestead number = true

/-- **The signers follow the schedule**: the signer of a block supports
the types of the forks that are active there, and what it recovers is
recovered by the latest signer. -/
structure Follows : Prop where
  accessList : (makeSigner config number time).Supports 1 ↔
    isForked config.berlinBlock number = true
  dynamicFee : (makeSigner config number time).Supports 2 ↔ config.isLondon number = true
  blob : (makeSigner config number time).Supports 3 ↔ config.isCancun time.toNat number = true
  setCode : (makeSigner config number time).Supports 4 ↔ config.isPrague time.toNat number = true
  latest : ∀ (_ : Keccak) (C : Secp256k1), C.Correct → ∀ (data : TxData) (a : Address),
    (makeSigner config number time).sender C data = .ok a →
      (latestSigner config).sender C data = .ok a

variable {config number time}

theorem isSome_of_isForked {s : Option Int} {head : Int} (h : isForked s head = true) :
    s.isSome = true := by
  cases s with
  | none => cases h
  | some n => rfl

variable {chainId : Int}

/-- The signer of a block, by the newest fork that is active there. -/
theorem makeSigner_cases (number : Int) (time : UInt64) (hc : config.chainID = some chainId) :
    (config.isCancun time.toNat number = true ∧ makeSigner config number time = .cancun chainId) ∨
    (config.isCancun time.toNat number = false ∧ config.isLondon number = true ∧
      makeSigner config number time = .london chainId) ∨
    (config.isLondon number = false ∧ isForked config.berlinBlock number = true ∧
      makeSigner config number time = .eip2930 chainId) ∨
    (isForked config.berlinBlock number = false ∧ isForked config.eip155Block number = true ∧
      makeSigner config number time = .eip155 chainId) ∨
    (isForked config.eip155Block number = false ∧ config.isHomestead number = true ∧
      makeSigner config number time = .homestead) ∨
    (config.isHomestead number = false ∧ makeSigner config number time = .frontier) := by
  unfold makeSigner
  rw [hc]
  split_ifs with hcancun hlondon hberlin heip155 hhomestead
  · exact .inl ⟨hcancun, rfl⟩
  · exact .inr (.inl ⟨Bool.eq_false_iff.mpr hcancun, hlondon, rfl⟩)
  · exact .inr (.inr (.inl ⟨Bool.eq_false_iff.mpr hlondon, hberlin, rfl⟩))
  · exact .inr (.inr (.inr (.inl ⟨Bool.eq_false_iff.mpr hberlin, heip155, rfl⟩)))
  · exact .inr (.inr (.inr (.inr (.inl ⟨Bool.eq_false_iff.mpr heip155, hhomestead, rfl⟩))))
  · exact .inr (.inr (.inr (.inr (.inr ⟨Bool.eq_false_iff.mpr hhomestead, rfl⟩))))

/-- **The latest signer** has the chain id if any of the forks from
EIP-155 on is scheduled as it looks for it, and is not older than the
newest of them. -/
theorem latestSigner_spec (hc : config.chainID = some chainId) :
    ((latestSigner config).chainID = some chainId ∨ latestSigner config = .homestead) ∧
    (config.eip155Block.isSome = true → (latestSigner config).chainID = some chainId) ∧
    (config.berlinBlock.isSome = true →
      (latestSigner config).chainID = some chainId ∧ 1 ≤ (latestSigner config).newest) ∧
    (config.londonBlock.isSome = true →
      (latestSigner config).chainID = some chainId ∧ 2 ≤ (latestSigner config).newest) ∧
    (config.cancunTime.isSome = true ∨ config.pragueTime.isSome = true →
      (latestSigner config).chainID = some chainId ∧ 3 ≤ (latestSigner config).newest) ∧
    (¬ (config.cancunTime.isSome = true ∨ config.pragueTime.isSome = true) →
      (latestSigner config).newest ≤ 2) := by
  unfold latestSigner
  rw [hc]
  split_ifs with hprague hcancun hlondon hberlin heip155 <;>
    simp_all [Signer.chainID, Signer.newest]

/-- **The newest type of the signer of a block**: everything but set code
transactions follows the schedule. -/
theorem newest_makeSigner (hc : config.chainID = some chainId) (h : InOrder config number time) :
    (1 ≤ (makeSigner config number time).newest ↔ isForked config.berlinBlock number = true) ∧
    (2 ≤ (makeSigner config number time).newest ↔ config.isLondon number = true) ∧
    (3 ≤ (makeSigner config number time).newest ↔ config.isCancun time.toNat number = true) ∧
    ¬ 4 ≤ (makeSigner config number time).newest := by
  obtain ⟨-, hcancun, hlondon, hberlin, heip155⟩ := h
  rcases makeSigner_cases number time hc with
    ⟨h, hm⟩ | ⟨h, h', hm⟩ | ⟨h, h', hm⟩ | ⟨h, h', hm⟩ | ⟨h, h', hm⟩ | ⟨h, hm⟩ <;>
    rw [hm] <;> simp_all [Signer.newest]

/-- **A blob transaction is recovered only if the chain id fits.** -/
theorem chainId_of_sender_blob [Keccak] {C : Secp256k1} {tx : BlobTx} {a : Address}
    (h : (Signer.cancun chainId).sender C (.blob tx) = .ok a) :
    0 ≤ chainId ∧ chainId < 2 ^ 256 := by
  obtain ⟨⟨⟩, hcheck, -⟩ := exceptBind_eq_ok.mp h
  have hchain : TxData.toBig tx.chainID = some chainId := checkChainId_eq_ok.mp hcheck
  cases hid : tx.chainID with
  | none =>
    rw [hid] at hchain
    cases hchain
  | some id =>
    rw [hid] at hchain
    have hid : (id.toNat : Int) = chainId := Option.some.inj hchain
    have hlt : id.toNat < 2 ^ 256 := id.isLt
    omega

/-- What the signer of a block recovers is recovered by the latest signer,
if that knows the block's fork. -/
theorem latest_of_homestead [Keccak] {C : Secp256k1} (hc : config.chainID = some chainId)
    (horder : InOrder config number time) (hhomestead : config.isHomestead number = true)
    (hcancun : config.isCancun time.toNat number = true →
      (config.cancunTime.isSome = true ∨ config.pragueTime.isSome = true) ∨
        ¬ (0 ≤ chainId ∧ chainId < 2 ^ 256))
    {data : TxData} {a : Address} (h : (makeSigner config number time).sender C data = .ok a) :
    (latestSigner config).sender C data = .ok a := by
  obtain ⟨hany, heip155, hberlin, hlondon, htime, -⟩ := latestSigner_spec hc
  rcases makeSigner_cases number time hc with
    ⟨hactive, hm⟩ | ⟨-, hactive, hm⟩ | ⟨-, hactive, hm⟩ | ⟨-, hactive, hm⟩ | ⟨-, -, hm⟩ | ⟨hnot, -⟩
  · rw [hm] at h
    rcases hcancun hactive with hset | hrange
    · exact sender_of_newest_le (.cancun chainId) rfl (htime hset).1 (htime hset).2 h
    · -- no blob transaction has this chain id, and the rest is London's
      have hset := hlondon (isSome_of_isForked (horder.cancun hactive))
      cases data with
      | blob tx => exact absurd (chainId_of_sender_blob h) hrange
      | _ => exact sender_of_newest_le (.london chainId) rfl hset.1 hset.2 h
  · rw [hm] at h
    have hset := hlondon (isSome_of_isForked hactive)
    exact sender_of_newest_le (.london chainId) rfl hset.1 hset.2 h
  · rw [hm] at h
    have hset := hberlin (isSome_of_isForked hactive)
    exact sender_of_newest_le (.eip2930 chainId) rfl hset.1 hset.2 h
  · rw [hm] at h
    exact sender_of_newest_le (.eip155 chainId) rfl (heip155 (isSome_of_isForked hactive))
      UInt8.zero_le h
  · rw [hm] at h
    rcases hany with hchain | hlatest
    · exact sender_of_homestead hchain h
    · rw [hlatest]
      exact h
  · rw [hhomestead] at hnot
    cases hnot

/-- **A curve that recovers a key from every signature**, and signs
nothing. -/
def Secp256k1.permissive : Secp256k1 where
  PrivateKey := Unit
  sign _ _ := none
  ecrecover _ _ := some [4]
  publicKey _ := [4]

theorem Secp256k1.correct_permissive : Secp256k1.permissive.Correct where
  uncompressed _ := rfl
  sign _ _ _ := nofun

theorem recoverPlain_permissive [Keccak] (h : Hash) :
    recoverPlain .permissive h 1 1 27 true = .ok (pubkeyToAddress [4]) := rfl

/-- A transaction from before Homestead, with a high `s`. -/
def highTx : LegacyTx :=
  { (default : LegacyTx) with v := some 27, r := some 1, s := some (secp256k1N - 1) }

section Latest

variable (hc : config.chainID = some chainId)
  (h : ∀ (_ : Keccak) (C : Secp256k1), C.Correct → ∀ (data : TxData) (a : Address),
    (makeSigner config number time).sender C data = .ok a →
      (latestSigner config).sender C data = .ok a)

include hc h

/-- **Before Homestead there are signatures that the latest signer does
not accept.** -/
theorem homestead_of_latest (horder : InOrder config number time) :
    config.isHomestead number = true := by
  by_contra hnot
  have hm : makeSigner config number time = .frontier := by
    obtain ⟨-, hcancun, hlondon, hberlin, heip155⟩ := horder
    unfold makeSigner
    rw [if_neg, if_neg, if_neg, if_neg, if_neg] <;> tauto
  let _ : Keccak := ⟨fun _ => 0⟩
  have hsender := h _ .permissive Secp256k1.correct_permissive (.legacy highTx)
    (pubkeyToAddress [4]) (by rw [hm]; rfl)
  have hinvalid : Signer.homestead.sender .permissive (.legacy highTx) = .error .invalidSig := rfl
  rcases (latestSigner_spec hc).1 with hchain | hlatest
  · rw [(agree_signer (.legacy highTx) hchain UInt8.zero_le).sender _ rfl] at hsender
    have hrecover : recoverLegacy .permissive highTx chainId = .error .invalidSig :=
      (recoverLegacy_unprotected rfl).trans hinvalid
    cases hrecover.symm.trans hsender
  · rw [hlatest, hinvalid] at hsender
    cases hsender

/-- A blob transaction of the chain. -/
def blobTxOn (chainId : Int) : BlobTx :=
  { (default : BlobTx) with chainID := some (BitVec.ofInt 256 chainId),
                            v := some 0, r := some 1, s := some 1 }

/-- **A Cancun that is scheduled by its block is not seen by the latest
signer.** -/
theorem cancunTime_of_latest
    (hcancun : config.isCancun time.toNat number = true)
    (hrange : 0 ≤ chainId ∧ chainId < 2 ^ 256) :
    config.cancunTime.isSome = true ∨ config.pragueTime.isSome = true := by
  by_contra hnone
  have hm : makeSigner config number time = .cancun chainId := by
    unfold makeSigner
    rw [if_pos hcancun, hc]
    rfl
  let _ : Keccak := ⟨fun _ => 0⟩
  have hblob : (Signer.cancun chainId).sender .permissive (.blob (blobTxOn chainId))
      = .ok (pubkeyToAddress [4]) := by
    refine exceptBind_eq_ok.mpr ⟨(), checkChainId_eq_ok.mpr ?_, recoverPlain_permissive _⟩
    show some (((BitVec.ofInt 256 chainId).toNat : Nat) : Int) = some chainId
    rw [BitVec.toNat_ofInt]
    congr 1
    omega
  have hsender := h _ .permissive Secp256k1.correct_permissive (.blob (blobTxOn chainId)) _
    (hm ▸ hblob)
  have hold : (latestSigner config).newest < (TxData.blob (blobTxOn chainId)).txType :=
    UInt8.lt_of_le_of_lt ((latestSigner_spec hc).2.2.2.2.2 hnone) (show (2 : UInt8) < 3 by decide)
  rw [sender_eq_unsupported.mpr hold] at hsender
  cases hsender

end Latest

/-- **The signers follow the schedule exactly up to Cancun**: where
Prague is not active, Homestead is, and an active Cancun, on a chain that
can have blob transactions at all, is one whose time or Prague's is set. -/
theorem makeSigner_follows_iff (config : ChainConfig) (chainId number : Int) (time : UInt64)
    (hc : config.chainID = some chainId) (horder : InOrder config number time) :
    Follows config number time ↔
      config.isPrague time.toNat number = false ∧ config.isHomestead number = true ∧
      (config.isCancun time.toNat number = true →
        (config.cancunTime.isSome = true ∨ config.pragueTime.isSome = true) ∨
          ¬ (0 ≤ chainId ∧ chainId < 2 ^ 256)) := by
  obtain ⟨hberlin, hlondon, hcancun, hprague⟩ := newest_makeSigner hc horder
  constructor
  · intro h
    refine ⟨Bool.eq_false_iff.mpr fun hactive => ?_, homestead_of_latest hc h.latest horder,
      fun hactive => ?_⟩
    · exact hprague ((supports_iff (by decide)).mp (h.setCode.mpr hactive))
    · by_cases hrange : 0 ≤ chainId ∧ chainId < 2 ^ 256
      · exact .inl (cancunTime_of_latest hc h.latest hactive hrange)
      · exact .inr hrange
  · rintro ⟨hinactive, hhomestead, htime⟩
    refine ⟨(supports_iff (by decide)).trans hberlin, (supports_iff (by decide)).trans hlondon,
      (supports_iff (by decide)).trans hcancun, (supports_iff (by decide)).trans ?_,
      fun _ C _ data a h => latest_of_homestead hc horder hhomestead htime h⟩
    rw [hinactive]
    exact iff_of_false hprague Bool.false_ne_true

end Schedule

/-- A chain with all forks up to Cancun from its start. -/
def cancunConfig : ChainConfig where
  chainID := some 1
  homesteadBlock := some 0
  eip155Block := some 0
  berlinBlock := some 0
  londonBlock := some 0
  cancunTime := some 0

theorem makeSigner_follows_cancun : Follows cancunConfig 0 0 :=
  (makeSigner_follows_iff cancunConfig 1 0 0 rfl
    ⟨fun _ => rfl, fun _ => rfl, fun _ => rfl, fun _ => rfl, fun _ => rfl⟩).mpr
    ⟨rfl, rfl, fun _ => .inl (.inl rfl)⟩

/-- **Set code transactions are not supported after Prague.** -/
theorem makeSigner_prague_unsupported :
    InOrder { cancunConfig with pragueTime := some 0 } 0 0 ∧
      ¬ Follows { cancunConfig with pragueTime := some 0 } 0 0 := by
  have horder : InOrder { cancunConfig with pragueTime := some 0 } 0 0 :=
    ⟨fun _ => rfl, fun _ => rfl, fun _ => rfl, fun _ => rfl, fun _ => rfl⟩
  refine ⟨horder, fun h => ?_⟩
  have hsupports := (supports_iff (by decide)).mp (h.setCode.mpr rfl)
  exact (newest_makeSigner rfl horder).2.2.2 hsupports

end Types
