import CardinalEvm.Manager

/-!
# The blob base fee

The schedule of a configuration says how fast the blob fee reacts from
which time on. But the block contexts of `EVMManager.View` are made with
`CalcBlobFee`, which has a constant in place of the schedule. The
instruction `BLOBBASEFEE` is right only while the constant is in force
(`Eip4844.blobBaseFee_eq_iff`).

The schedule is looked up in two places, which agree only before its
second entry comes into force (`lookupsAgree_iff`).
-/

namespace Eip4844

/-- `eip4844.BlobConfig`. -/
structure BlobConfig where
  target : ℤ
  max : ℤ
  updateFraction : UInt64
  deriving DecidableEq

/-- `blobBaseFee`. It panics if the update fraction is zero. -/
def BlobConfig.blobBaseFee (bc : BlobConfig) (excessBlobGas : UInt64) : Option ℕ :=
  fakeExponential Params.blobTxMinBlobGasprice excessBlobGas.toNat bc.updateFraction.toNat

/-- **`latestBlobConfig`**: the last entry of the schedule whose time has
come. -/
def latestBlobConfig (cfg : ChainConfig) (time : UInt64) : Option BlobConfig :=
  (cfg.blobSchedule.foldl (fun latestConfig config =>
    if config.activationTime ≤ time then some config else latestConfig) none).map
    fun config => ⟨config.target, config.max, config.updateFraction⟩

/-! ## The constant -/

section Constant

open FakeExponential

/-- A fee, from a bounded number of terms. -/
theorem fee_of_steps {fee : ℕ} (n d steps : ℕ) (hd : d ≠ 0)
    (h : (sumSteps n d steps 1 (1 * d) 0).map (· / d) = some fee) :
    fakeExponential 1 n d = some fee := by
  obtain ⟨sum, hsum, hfee⟩ := Option.map_eq_some_iff.mp h
  rw [fakeExponential, if_neg hd, sumFrom_of_steps hsum, hfee]

/-- **Another fraction gives another fee** at some excess. -/
theorem exists_fee_ne {fraction : ℕ} (h : fraction ≠ Params.blobTxBlobGaspriceUpdateFraction) :
    ∃ excess : UInt64, fakeExponential 1 excess.toNat fraction
      ≠ fakeExponential 1 excess.toNat Params.blobTxBlobGaspriceUpdateFraction := by
  -- the fee falls with the fraction, so the neighbours of the constant are enough
  obtain hlt | hgt := Nat.lt_or_gt_of_ne h
  · refine ⟨10850489, fun heq => ?_⟩
    have hconst : fakeExponential 1 10850489 2225652 = some 130 :=
      fee_of_steps 10850489 2225652 24 (by decide) (by decide)
    have hnext : fakeExponential 1 10850489 2225651 = some 131 :=
      fee_of_steps 10850489 2225651 24 (by decide) (by decide)
    change fakeExponential 1 10850489 fraction = fakeExponential 1 10850489 2225652 at heq
    rw [hconst] at heq
    obtain hzero | hpos := Nat.eq_zero_or_pos fraction
    · rw [hzero] at heq
      cases heq
    · obtain ⟨x, x', hx, hx', hle⟩ := fakeExponential_antitone 10850489 Nat.one_pos hpos
        (Nat.le_of_lt_succ hlt : fraction ≤ 2225651)
      obtain rfl := Option.some.inj (hx.symm.trans heq)
      obtain rfl := Option.some.inj (hx'.symm.trans hnext)
      omega
  · refine ⟨10850493, fun heq => ?_⟩
    have hconst : fakeExponential 1 10850493 2225652 = some 131 :=
      fee_of_steps 10850493 2225652 24 (by decide) (by decide)
    have hnext : fakeExponential 1 10850493 2225653 = some 130 :=
      fee_of_steps 10850493 2225653 24 (by decide) (by decide)
    change fakeExponential 1 10850493 fraction = fakeExponential 1 10850493 2225652 at heq
    rw [hconst] at heq
    obtain ⟨x, x', hx, hx', hle⟩ := fakeExponential_antitone 10850493 Nat.one_pos
      (by decide) (show 2225653 ≤ fraction from hgt)
    obtain rfl := Option.some.inj (hx.symm.trans hnext)
    obtain rfl := Option.some.inj (hx'.symm.trans heq)
    omega

end Constant

/-- **The blob fee grows with the excess**: the one of block contexts, and
that of any entry of a schedule. Neither falls below the minimum. -/
theorem fees_mono {excess excess' : UInt64} (h : excess ≤ excess') :
    (∃ fee fee', calcBlobFee (some excess) = some fee ∧ calcBlobFee (some excess') = some fee'
        ∧ 1 ≤ fee ∧ fee ≤ fee')
      ∧ ∀ bc : BlobConfig, bc.updateFraction ≠ 0 → ∃ fee fee', bc.blobBaseFee excess = some fee
        ∧ bc.blobBaseFee excess' = some fee' ∧ 1 ≤ fee ∧ fee ≤ fee' := by
  refine ⟨?_, fun bc hbc => fakeExponential_mono Nat.one_pos ?_ h⟩
  · obtain ⟨x, x', hx, hx', hpos, hle⟩ := fakeExponential_mono Nat.one_pos
      (show 0 < Params.blobTxBlobGaspriceUpdateFraction by decide) h
    exact ⟨x, x', congrArg (·.map Int.ofNat) hx, congrArg (·.map Int.ofNat) hx', by omega, by omega⟩
  · exact Nat.pos_of_ne_zero fun hzero => hbc (UInt64.toNat_inj.mp hzero)

/-- Without excess the fee is not above that of a blob's excess. -/
theorem fees_mono_blob : ∃ fee fee', calcBlobFee (some 0) = some fee
    ∧ calcBlobFee (some 131072) = some fee' ∧ 1 ≤ fee ∧ fee ≤ fee' :=
  (fees_mono (by decide)).1

/-! ## The block context -/

/-- **The blob base fee follows the schedule** in the EVMs of every view on
a block of this configuration and time. -/
def FeeFollows (cfg : ChainConfig) (time : UInt64) : Prop :=
  ∀ (v : View) (excess : UInt64) (bc : BlobConfig), v.chaincfg = cfg → v.header.time = time →
    v.header.excessBlobGas = some excess →
    latestBlobConfig v.chaincfg v.header.time = some bc →
    ∀ (host : Host) (d : StateDB) (a : BuildArgs) (c : Captured),
      ((v.evm d c).1.env host).blobBaseFee = (bc.blobBaseFee excess).map Int.ofNat
      ∧ ((v.evmFn a c).1.env host).blobBaseFee = (bc.blobBaseFee excess).map Int.ofNat

/-- The blob base fee in the EVMs of a view. -/
theorem blobBaseFee_env (v : View) (host : Host) (d : StateDB) (a : BuildArgs) (c : Captured) :
    ((v.evm d c).1.env host).blobBaseFee = calcBlobFee v.header.excessBlobGas
      ∧ ((v.evmFn a c).1.env host).blobBaseFee = calcBlobFee v.header.excessBlobGas := by
  refine ⟨rfl, ?_⟩
  show (if v.header.difficulty = 0 then { v.blockCtx with random := some v.header.mixDigest }
    else v.blockCtx).blobBaseFee = _
  split_ifs <;> rfl

/-- **When the blob base fee follows the schedule**: the entry in force has
the constant of `CalcBlobFee` as its fraction. -/
theorem blobBaseFee_eq_iff (cfg : ChainConfig) (time : UInt64) :
    FeeFollows cfg time ↔ ∀ bc, latestBlobConfig cfg time = some bc →
      bc.updateFraction.toNat = Params.blobTxBlobGaspriceUpdateFraction := by
  constructor
  · intro hfollows bc hbc
    by_contra hne
    obtain ⟨excess, hexcess⟩ := exists_fee_ne hne
    let v : View := { chaincfg := cfg, header := { time, excessBlobGas := some excess } }
    have hfee := (hfollows v excess bc rfl rfl rfl hbc {} (.newStateDB .empty)
      { sdb := .newStateDB .empty } {}).1
    rw [(blobBaseFee_env v {} (.newStateDB .empty) { sdb := .newStateDB .empty } {}).1] at hfee
    have hsame := Option.map_injective Int.ofNat_injective hfee
    exact hexcess hsame.symm
  · rintro hconst v excess bc rfl rfl hexcess hbc host d a c
    obtain ⟨hevm, hevmFn⟩ := blobBaseFee_env v host d a c
    have hfee : calcBlobFee v.header.excessBlobGas = (bc.blobBaseFee excess).map Int.ofNat := by
      rw [hexcess, BlobConfig.blobBaseFee, hconst bc hbc]
      rfl
    exact ⟨hevm.trans hfee, hevmFn.trans hfee⟩

/-- **A block of Cancun** with the fraction of the main network: the fee is
19, but `BLOBBASEFEE` pushes 89. -/
theorem not_feeFollows :
    let v : View :=
      { chaincfg := { blobSchedule := [{ target := 3, max := 6, updateFraction := 3338477 }] }
        header := { excessBlobGas := some 10000000 } }
    latestBlobConfig v.chaincfg v.header.time = some ⟨3, 6, 3338477⟩
      ∧ BlobConfig.blobBaseFee ⟨3, 6, 3338477⟩ 10000000 = some 19
      ∧ ((v.evm (.newStateDB .empty) {}).1.env {}).blobBaseFee = some 89 := by
  intro v
  refine ⟨rfl, fee_of_steps 10000000 3338477 24 (by decide) (by decide), ?_⟩
  rw [(blobBaseFee_env v {} _ { sdb := .newStateDB .empty } {}).1]
  exact congrArg (Option.map Int.ofNat)
    (fee_of_steps 10000000 2225652 24 (by decide) (by decide))

end Eip4844

/-! ## The two lookups

`ChainConfig.BlobConfig` goes through the same schedule, but returns the
first entry whose time is past, where `latestBlobConfig` keeps the last
whose time has come. -/

/-- **`ChainConfig.BlobConfig`**: the first entry whose time is past. The
`Uint64` of an integer is the low part of its absolute value. -/
def ChainConfig.blobConfig (c : ChainConfig) (time : ℤ) : Option BlobConfig :=
  c.blobSchedule.find? fun config => decide (config.activationTime < UInt64.ofNat time.natAbs)

namespace BlobConfig

/-- What `latestBlobConfig` keeps of an entry. -/
def parameters (config : BlobConfig) : Eip4844.BlobConfig :=
  ⟨config.target, config.max, config.updateFraction⟩

/-- **The entry in force**: the one with the greatest activation time that
has come, or none if there is none. -/
def InForce (schedule : List BlobConfig) (t : UInt64) : Option BlobConfig → Prop
  | none => ∀ c ∈ schedule, t < c.activationTime
  | some c => c ∈ schedule ∧ c.activationTime ≤ t
    ∧ ∀ c' ∈ schedule, c'.activationTime ≤ t → c'.activationTime ≤ c.activationTime

/-- A schedule sorted by time. -/
def Sorted (schedule : List BlobConfig) : Prop :=
  schedule.Pairwise fun c c' => c.activationTime < c'.activationTime

variable {schedule : List BlobConfig} {t : UInt64}

/-- The last entry whose time has come is the one in force. -/
theorem inForce_foldl (hs : Sorted schedule) :
    InForce schedule t (schedule.foldl (fun latestConfig config =>
      if config.activationTime ≤ t then some config else latestConfig) none) := by
  induction schedule using List.reverseRecOn with
  | nil => exact fun c hc => absurd hc List.not_mem_nil
  | append_singleton entries last ih =>
    obtain ⟨hentries, -, hlast⟩ := List.pairwise_append.mp hs
    have hbefore : ∀ c ∈ entries, c.activationTime < last.activationTime :=
      fun c hc => hlast c hc last (List.mem_singleton_self last)
    rw [List.foldl_append, List.foldl_cons, List.foldl_nil]
    split_ifs with hcome
    · refine ⟨List.mem_append_right _ (List.mem_singleton_self last), hcome, fun c hc _ => ?_⟩
      obtain hc | hc := List.mem_append.mp hc
      · exact UInt64.le_of_lt (hbefore c hc)
      · rw [List.mem_singleton.mp hc]
        exact UInt64.le_refl _
    · have hlater := UInt64.not_le.mp hcome
      have hin := ih hentries
      revert hin
      generalize entries.foldl _ _ = latest
      intro hin
      cases latest with
      | none =>
        intro c hc
        obtain hc | hc := List.mem_append.mp hc
        · exact hin c hc
        · rw [List.mem_singleton.mp hc]
          exact hlater
      | some e =>
        refine ⟨List.mem_append_left _ hin.1, hin.2.1, fun c hc hct => ?_⟩
        obtain hc | hc := List.mem_append.mp hc
        · exact hin.2.2 c hc hct
        · rw [List.mem_singleton.mp hc] at hct
          exact absurd hct hcome

/-- The first entry whose time is past is the one in force only if no later
one is, and it did not just come into force. -/
theorem find?_eq_inForce_iff (hs : Sorted schedule) {e : Option BlobConfig}
    (hin : InForce schedule t e) :
    (schedule.find? fun config => decide (config.activationTime < t)) = e
      ↔ (∀ c ∈ schedule.head?, c.activationTime ≠ t)
        ∧ ∀ c ∈ schedule.tail, t < c.activationTime := by
  cases schedule with
  | nil =>
    refine iff_of_true ?_ ⟨fun c hc => absurd hc (by simp), fun c hc => absurd hc (by simp)⟩
    cases e with
    | none => rfl
    | some c => exact absurd hin.1 List.not_mem_nil
  | cons first rest =>
    obtain ⟨hfirst, -⟩ := List.pairwise_cons.mp hs
    constructor
    · intro hfind
      refine ⟨fun c hc heq => ?_, fun c hc => ?_⟩
      · obtain rfl : first = c := by simpa using hc
        have hnone : ((first :: rest).find? fun config => decide (config.activationTime < t))
            = none := by
          refine List.find?_eq_none.mpr fun c hc => ?_
          obtain rfl | hc := List.mem_cons.mp hc
          · simp [heq]
          · simpa using UInt64.le_of_lt (heq ▸ hfirst c hc)
        rw [← hfind, hnone] at hin
        exact UInt64.lt_irrefl t (heq ▸ hin first List.mem_cons_self)
      · by_contra hcome
        have hle := UInt64.not_lt.mp hcome
        have hpast : first.activationTime < t := UInt64.lt_of_lt_of_le (hfirst c hc) hle
        rw [List.find?_cons_of_pos (by simpa using hpast)] at hfind
        rw [← hfind] at hin
        exact UInt64.not_lt.mpr (hin.2.2 c (List.mem_cons_of_mem _ hc) hle) (hfirst c hc)
    · rintro ⟨hne, hrest⟩
      cases e with
      | none =>
        exact List.find?_eq_none.mpr fun c hc => by simpa using UInt64.le_of_lt (hin c hc)
      | some c =>
        obtain ⟨hmem, hle, -⟩ := hin
        obtain rfl | hc := List.mem_cons.mp hmem
        · have hpast : c.activationTime < t := UInt64.lt_of_le_of_ne hle (hne c rfl)
          exact List.find?_cons_of_pos (by simpa using hpast)
        · exact absurd hle (UInt64.not_le.mpr (hrest c hc))

end BlobConfig

open BlobConfig

/-- **The lookups agree** on the entry in force. -/
def LookupsAgree (cfg : ChainConfig) (t : UInt64) : Prop :=
  ∃ e, InForce cfg.blobSchedule t e ∧ cfg.blobConfig t.toNat = e
    ∧ Eip4844.latestBlobConfig cfg t = e.map parameters

/-- **When the lookups agree**: no entry but the first is in force, and it
did not just come into force. -/
theorem lookupsAgree_iff (cfg : ChainConfig) (t : UInt64) (hs : Sorted cfg.blobSchedule) :
    LookupsAgree cfg t ↔ (∀ c ∈ cfg.blobSchedule.head?, c.activationTime ≠ t)
      ∧ ∀ c ∈ cfg.blobSchedule.tail, t < c.activationTime := by
  have hfind : cfg.blobConfig t.toNat
      = cfg.blobSchedule.find? fun config => decide (config.activationTime < t) := by
    rw [ChainConfig.blobConfig, Int.natAbs_natCast, UInt64.ofNat_toNat]
  constructor
  · rintro ⟨e, hin, hfirst, -⟩
    exact (find?_eq_inForce_iff hs hin).mp (hfind.symm.trans hfirst)
  · intro h
    have hin := inForce_foldl (t := t) hs
    exact ⟨_, hin, hfind.trans ((find?_eq_inForce_iff hs hin).mpr h), rfl⟩

/-- **The schedule of the main network**: in Prague `BlobConfig` still has
the entry of Cancun. -/
theorem not_lookupsAgree_second :
    let cancun : BlobConfig :=
      { activationTime := 1710338135, target := 3, max := 6, updateFraction := 3338477 }
    let prague : BlobConfig :=
      { activationTime := 1746612311, target := 6, max := 9, updateFraction := 5007716 }
    let cfg : ChainConfig := { blobSchedule := [cancun, prague] }
    Sorted cfg.blobSchedule ∧ cfg.blobConfig (1750000000 : UInt64).toNat = some cancun
      ∧ Eip4844.latestBlobConfig cfg 1750000000 = some prague.parameters
      ∧ ¬ LookupsAgree cfg 1750000000 := by
  intro cancun prague cfg
  have hsorted : Sorted cfg.blobSchedule := by simp [Sorted, cfg, cancun, prague]
  have hfirst : cfg.blobConfig (1750000000 : UInt64).toNat = some cancun := rfl
  refine ⟨hsorted, hfirst, rfl, ?_⟩
  rintro ⟨e, hin, he, -⟩
  obtain rfl := hfirst.symm.trans he
  have hle := hin.2.2 prague (by simp [cfg]) (by decide)
  exact absurd hle (by decide)

/-- **The same schedule before Prague**: both lookups have the entry of
Cancun, which is the one in force. -/
theorem lookupsAgree_iff_first :
    let cancun : BlobConfig :=
      { activationTime := 1710338135, target := 3, max := 6, updateFraction := 3338477 }
    let prague : BlobConfig :=
      { activationTime := 1746612311, target := 6, max := 9, updateFraction := 5007716 }
    let cfg : ChainConfig := { blobSchedule := [cancun, prague] }
    Sorted cfg.blobSchedule ∧ LookupsAgree cfg 1720000000
      ∧ cfg.blobConfig (1720000000 : UInt64).toNat = some cancun := by
  intro cancun prague cfg
  have hsorted : Sorted cfg.blobSchedule := by simp [Sorted, cfg, cancun, prague]
  refine ⟨hsorted, (lookupsAgree_iff cfg _ hsorted).mpr ⟨fun c hc => ?_, fun c hc => ?_⟩, rfl⟩
  · cases hc
    decide
  · obtain rfl := List.mem_singleton.mp hc
    decide
