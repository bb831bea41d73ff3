import CardinalEvm.Manager

/-!
# Compatible configurations

`CheckCompatible` compares the configuration a chain was imported with to
a new one. It should return nil only if no block up to the head would be
executed under other rules. It compares the forks one by one, but not all
of them: those of Polygon and the block numbers that stand for a time are
left out. And Petersburg is compared without a look at the block that
stands in for it when it is nil (`ChainConfig.rules_eq_iff`).
-/

/-! ## The errors -/

/-- **`ConfigCompatError`.** -/
structure ConfigCompatError where
  what : String
  storedBlock : Option ℤ := none
  newBlock : Option ℤ := none
  storedTime : Option ℤ := none
  newTime : Option ℤ := none
  rewindToBlock : UInt64 := 0
  rewindToTime : UInt64 := 0
  deriving DecidableEq

/-- The lower of two numbers, of which one may be nil. -/
def rewindTarget (stored new : Option ℤ) : Option ℤ :=
  match stored, new with
  | none, new => new
  | some stored, none => some stored
  | some stored, some new => if stored < new then some stored else some new

/-- The number before it, if it is positive. `Uint64` keeps the low bits. -/
def rewindBefore (rew : Option ℤ) : UInt64 :=
  match rew with
  | none => 0
  | some rew => if 0 < rew then UInt64.ofNat rew.toNat - 1 else 0

def newBlockCompatError (what : String) (storedblock newblock : Option ℤ) : ConfigCompatError where
  what
  storedBlock := storedblock
  newBlock := newblock
  rewindToBlock := rewindBefore (rewindTarget storedblock newblock)

def newTimestampCompatError (what : String) (storedtime newtime : Option ℤ) :
    ConfigCompatError where
  what
  storedTime := storedtime
  newTime := newtime
  rewindToTime := rewindBefore (rewindTarget storedtime newtime)

/-! ## The comparison -/

/-- `isBlockForked` and `isTimestampForked` of a head that may be nil. -/
def isForkedHead (s head : Option ℤ) : Bool := head.any (isForked s)

/-- `isForkBlockIncompatible` and `isForkTimestampIncompatible`: the head
is past one of the forks, and they are not equal. -/
def isForkIncompatible (s1 s2 head : Option ℤ) : Bool :=
  (isForkedHead s1 head || isForkedHead s2 head) && decide (s1 ≠ s2)

namespace ChainConfig

section Check

variable (c newcfg : ChainConfig) (headNumber headTimestamp : Option ℤ)

/-- One comparison of `checkCompatible`. -/
def checkBlock (what : String) (block : ChainConfig → Option ℤ) : Option ConfigCompatError :=
  if isForkIncompatible (block c) (block newcfg) headNumber then
    some (newBlockCompatError what (block c) (block newcfg))
  else none

/-- One comparison of times. -/
def checkTime (what : String) (time : ChainConfig → Option ℤ) : Option ConfigCompatError :=
  if isForkIncompatible (time c) (time newcfg) headTimestamp then
    some (newTimestampCompatError what (time c) (time newcfg))
  else none

/-- The comparison of the support of the DAO fork. -/
def checkDAOForkSupport : Option ConfigCompatError :=
  if isForkedHead c.daoForkBlock headNumber ∧ c.daoForkSupport ≠ newcfg.daoForkSupport then
    some (newBlockCompatError "DAO fork support flag" c.daoForkBlock newcfg.daoForkBlock)
  else none

/-- The comparison of the chain ids. -/
def checkChainID : Option ConfigCompatError :=
  if isForkedHead c.eip158Block headNumber ∧ c.chainID ≠ newcfg.chainID then
    some (newBlockCompatError "EIP158 chain ID" c.eip158Block newcfg.eip158Block)
  else none

/-- The comparison of Petersburg. It may be set in the past if it is equal
to Constantinople. -/
def checkPetersburg : Option ConfigCompatError :=
  if isForkIncompatible c.petersburgBlock newcfg.petersburgBlock headNumber
      ∧ isForkIncompatible c.constantinopleBlock newcfg.petersburgBlock headNumber then
    some (newBlockCompatError "Petersburg fork block" c.petersburgBlock newcfg.petersburgBlock)
  else none

/-- **`checkCompatible`**: the first comparison that fails. -/
def checkOnce : Option ConfigCompatError :=
  c.checkBlock newcfg headNumber "Homestead fork block" homesteadBlock
    <|> c.checkBlock newcfg headNumber "DAO fork block" daoForkBlock
    <|> c.checkDAOForkSupport newcfg headNumber
    <|> c.checkBlock newcfg headNumber "EIP150 fork block" eip150Block
    <|> c.checkBlock newcfg headNumber "EIP155 fork block" eip155Block
    <|> c.checkBlock newcfg headNumber "EIP158 fork block" eip158Block
    <|> c.checkChainID newcfg headNumber
    <|> c.checkBlock newcfg headNumber "Byzantium fork block" byzantiumBlock
    <|> c.checkBlock newcfg headNumber "Constantinople fork block" constantinopleBlock
    <|> c.checkPetersburg newcfg headNumber
    <|> c.checkBlock newcfg headNumber "Istanbul fork block" istanbulBlock
    <|> c.checkBlock newcfg headNumber "Muir Glacier fork block" muirGlacierBlock
    <|> c.checkBlock newcfg headNumber "Berlin fork block" berlinBlock
    <|> c.checkBlock newcfg headNumber "London fork block" londonBlock
    <|> c.checkTime newcfg headTimestamp "Shanghai fork timestamp" shanghaiTime
    <|> c.checkTime newcfg headTimestamp "Cancun fork timestamp" cancunTime
    <|> c.checkTime newcfg headTimestamp "Prague fork timestamp" pragueTime
    <|> c.checkTime newcfg headTimestamp "Osaka fork timestamp" osakaTime

end Check

/-- The loop of `CheckCompatible`: it goes back to where the conflict is
gone, until there is none or the same place comes up again. The number
bounds its rounds. -/
def checkFrom (c newcfg : ChainConfig) : ℕ → UInt64 → Option UInt64 → Option ConfigCompatError →
    Option (Option ConfigCompatError)
  | 0, _, _, _ => none
  | rounds + 1, bhead, btime, lasterr =>
    match c.checkOnce newcfg (some bhead.toNat) (btime.map fun t => (t.toNat : ℤ)) with
    | none => some lasterr
    | some err =>
      if lasterr.any fun last =>
          err.rewindToBlock = last.rewindToBlock ∧ err.rewindToTime = last.rewindToTime then
        some lasterr
      else if 0 < err.rewindToTime then
        checkFrom c newcfg rounds bhead (some err.rewindToTime) (some err)
      else checkFrom c newcfg rounds err.rewindToBlock btime (some err)

/-- **`CheckCompatible`**, with a bound on its rounds. -/
def checkCompatible (c newcfg : ChainConfig) (height : UInt64) (time : Option UInt64) (rounds : ℕ) :
    Option (Option ConfigCompatError) :=
  c.checkFrom newcfg rounds height time none

/-- An error is not forgotten. -/
theorem checkFrom_ne_nil (c newcfg : ChainConfig) {err : ConfigCompatError} (rounds : ℕ)
    (bhead : UInt64) (btime : Option UInt64) :
    c.checkFrom newcfg rounds bhead btime (some err) ≠ some none := by
  induction rounds generalizing bhead btime err with
  | zero => exact nofun
  | succ rounds ih =>
    rw [checkFrom]
    split
    · exact nofun
    · split_ifs
      · exact nofun
      · exact ih _ _
      · exact ih _ _

/-- **Nil is returned if the first round finds nothing.** -/
theorem checkCompatible_eq_nil {c newcfg : ChainConfig} {height : UInt64} {time : Option UInt64}
    {rounds : ℕ} (h : c.checkCompatible newcfg height time rounds = some none) :
    c.checkOnce newcfg (some height.toNat) (time.map fun t => (t.toNat : ℤ)) = none := by
  unfold checkCompatible at h
  cases rounds with
  | zero => cases h
  | succ rounds =>
    rw [checkFrom] at h
    cases hcheck : c.checkOnce newcfg (some height.toNat) (time.map fun t => (t.toNat : ℤ)) with
    | none => rfl
    | some err =>
      rw [hcheck] at h
      simp only [Option.any_none, Bool.false_eq_true, if_false] at h
      split_ifs at h <;> exact absurd h (checkFrom_ne_nil c newcfg rounds _ _)

end ChainConfig

/-! ## Forks up to a head -/

section Forks

variable {a b : Option ℤ} {head : ℕ}

theorem isForkIncompatible_eq_false {head : ℤ} : isForkIncompatible a b (some head) = false
    ↔ a = b ∨ isForked a head = false ∧ isForked b head = false := by
  unfold isForkIncompatible isForkedHead
  by_cases hab : a = b <;> simp [hab]

/-- A fork is not active before the head if it is not at the head. -/
theorem isForked_of_le {n m : ℤ} (hnm : n ≤ m) (h : isForked a m = false) :
    isForked a n = false := by
  unfold isForked at h ⊢
  cases a with
  | none => rfl
  | some a =>
    simp only [Option.any_some, decide_eq_false_iff_not] at h ⊢
    omega

/-- **Forks that are compatible** are active at the same blocks up to the
head. -/
theorem isForked_eq_of_compatible {n head : ℤ} (h : isForkIncompatible a b (some head) = false)
    (hn : n ≤ head) : isForked a n = isForked b n := by
  obtain rfl | ⟨ha, hb⟩ := isForkIncompatible_eq_false.mp h
  · rfl
  · rw [isForked_of_le hn ha, isForked_of_le hn hb]

/-- The start of a fork: a negative number is as good as zero. -/
def forkStart (s : Option ℤ) : Option ℤ := s.map (max 0)

theorem isForked_forkStart (n : ℕ) : isForked (forkStart a) n = isForked a n := by
  unfold isForked forkStart
  cases a with
  | none => rfl
  | some a => simp

/-- The start of a fork that is active at the head is a block up to it. -/
theorem exists_forkStart (h : isForked a head = true) :
    ∃ n ≤ head, forkStart a = some (n : ℤ) ∧ isForked a (n : ℕ) = true := by
  cases a with
  | none => cases h
  | some a =>
    have hle : a ≤ head := by simpa [isForked] using h
    refine ⟨a.toNat, by omega, ?_, ?_⟩
    · show some (max 0 a) = _
      rw [Int.toNat_eq_max, max_comm]
    · exact decide_eq_true (Int.self_le_toNat a)

/-- **When forks are active at the same blocks** up to the head: neither is
at the head, or both start at the same block. -/
theorem isForked_eq_iff : (∀ n ≤ head, isForked a (n : ℕ) = isForked b (n : ℕ))
    ↔ isForkIncompatible (forkStart a) (forkStart b) (some head) = false := by
  rw [isForkIncompatible_eq_false, isForked_forkStart, isForked_forkStart]
  constructor
  · intro h
    cases hhead : isForked a head with
    | false => exact .inr ⟨rfl, by rw [← h head le_rfl, hhead]⟩
    | true =>
      left
      obtain ⟨n, hn, hstart, hactive⟩ := exists_forkStart hhead
      obtain ⟨n', hn', hstart', hactive'⟩ := exists_forkStart ((h head le_rfl).symm.trans hhead)
      -- each start is not before the other
      have hb := (h n hn).symm.trans hactive
      have ha := (h n' hn').trans hactive'
      rw [← isForked_forkStart, hstart'] at hb
      rw [← isForked_forkStart, hstart] at ha
      have hle : (n' : ℤ) ≤ n := by simpa [isForked] using hb
      have hle' : (n : ℤ) ≤ n' := by simpa [isForked] using ha
      rw [hstart, hstart', le_antisymm hle hle']
  · rintro (heq | ⟨ha, hb⟩) n hn
    · rw [← isForked_forkStart, heq, isForked_forkStart]
    · have hn' : (n : ℤ) ≤ head := Int.ofNat_le.mpr hn
      rw [isForked_of_le hn' ha, isForked_of_le hn' hb]

/-- The block that stands for a fork that is not scheduled by time. -/
def unlessTimed (time block : Option ℤ) : Option ℤ := if time.isSome then none else block

/-- **Forks scheduled by time or by block**, whose times are compatible:
they are active at the same blocks if those without a time are. -/
theorem isForkedAt_eq_iff {t t' : Option ℤ} {time : ℕ}
    (h : isForkIncompatible t t' (some time) = false) :
    (∀ n ≤ head, ∀ s ≤ time, isForkedAt t a (s : ℕ) (n : ℕ) = isForkedAt t' b (s : ℕ) (n : ℕ))
      ↔ ∀ n ≤ head, isForked (unlessTimed t a) (n : ℕ) = isForked (unlessTimed t' b) (n : ℕ) := by
  have hcompatible : ∀ s ≤ time, isForked t (s : ℕ) = isForked t' (s : ℕ) :=
    fun s hs => isForked_eq_of_compatible h (Int.ofNat_le.mpr hs)
  refine forall₂_congr fun n _ => ?_
  cases t with
  | none =>
    cases t' with
    | none => exact ⟨fun h => h 0 (Nat.zero_le _), fun h _ _ => h⟩
    | some t' =>
      constructor
      · exact fun h => (h 0 (Nat.zero_le _)).trans (hcompatible 0 (Nat.zero_le _)).symm
      · exact fun h s hs => h.trans (hcompatible s hs)
  | some t =>
    cases t' with
    | none =>
      constructor
      · exact fun h => (hcompatible 0 (Nat.zero_le _)).symm.trans (h 0 (Nat.zero_le _))
      · exact fun h s hs => (hcompatible s hs).trans h
    | some t' => exact ⟨fun _ => rfl, fun _ s hs => hcompatible s hs⟩

end Forks

/-! ## The rules up to a head -/

namespace ChainConfig

/-- Forks that start alike up to the head, or later. -/
def StartAlike (head : ℕ) (a b : Option ℤ) : Prop :=
  isForkIncompatible (forkStart a) (forkStart b) (some head) = false

instance (head : ℕ) (a b : Option ℤ) : Decidable (StartAlike head a b) :=
  inferInstanceAs (Decidable (_ = false))

/-- **What `CheckCompatible` leaves out.** -/
structure Alike (c newcfg : ChainConfig) (head : ℕ) : Prop where
  petersburg : StartAlike head (c.petersburgBlock <|> c.constantinopleBlock)
    (newcfg.petersburgBlock <|> newcfg.constantinopleBlock)
  shanghai : StartAlike head (unlessTimed c.shanghaiTime c.shanghaiBlock)
    (unlessTimed newcfg.shanghaiTime newcfg.shanghaiBlock)
  cancun : StartAlike head (unlessTimed c.cancunTime c.cancunBlock)
    (unlessTimed newcfg.cancunTime newcfg.cancunBlock)
  napoli : StartAlike head c.napoliBlock newcfg.napoliBlock
  pip30 : StartAlike head c.pip30Block newcfg.pip30Block
  prague : StartAlike head (unlessTimed c.pragueTime c.pragueBlock)
    (unlessTimed newcfg.pragueTime newcfg.pragueBlock)
  osaka : StartAlike head (unlessTimed c.osakaTime c.osakaBlock)
    (unlessTimed newcfg.osakaTime newcfg.osakaBlock)

theorem isPetersburg_eq (c : ChainConfig) (num : ℤ) :
    c.isPetersburg num = isForked (c.petersburgBlock <|> c.constantinopleBlock) num := by
  unfold isPetersburg
  cases c.petersburgBlock with
  | none => rfl
  | some block => simp

/-- **What `CheckCompatible` compares.** -/
structure Compared (c newcfg : ChainConfig) (head time : ℕ) : Prop where
  homestead : isForkIncompatible c.homesteadBlock newcfg.homesteadBlock (some head) = false
  eip150 : isForkIncompatible c.eip150Block newcfg.eip150Block (some head) = false
  eip155 : isForkIncompatible c.eip155Block newcfg.eip155Block (some head) = false
  eip158 : isForkIncompatible c.eip158Block newcfg.eip158Block (some head) = false
  byzantium : isForkIncompatible c.byzantiumBlock newcfg.byzantiumBlock (some head) = false
  constantinople :
    isForkIncompatible c.constantinopleBlock newcfg.constantinopleBlock (some head) = false
  istanbul : isForkIncompatible c.istanbulBlock newcfg.istanbulBlock (some head) = false
  berlin : isForkIncompatible c.berlinBlock newcfg.berlinBlock (some head) = false
  london : isForkIncompatible c.londonBlock newcfg.londonBlock (some head) = false
  shanghai : isForkIncompatible c.shanghaiTime newcfg.shanghaiTime (some time) = false
  cancun : isForkIncompatible c.cancunTime newcfg.cancunTime (some time) = false
  prague : isForkIncompatible c.pragueTime newcfg.pragueTime (some time) = false
  osaka : isForkIncompatible c.osakaTime newcfg.osakaTime (some time) = false

/-- A check that finds no conflict compared every fork. -/
theorem Compared.of_checkOnce {c newcfg : ChainConfig} {head time : ℕ}
    (h : c.checkOnce newcfg (some head) (some time) = none) : c.Compared newcfg head time := by
  have hblock : ∀ {what block}, c.checkBlock newcfg (some head) what block = none →
      isForkIncompatible (block c) (block newcfg) (some head) = false := by
    intro what block hcheck
    unfold checkBlock at hcheck
    split_ifs at hcheck with hinc
    exact Bool.eq_false_iff.mpr hinc
  have htime : ∀ {what block}, c.checkTime newcfg (some time) what block = none →
      isForkIncompatible (block c) (block newcfg) (some time) = false := by
    intro what block hcheck
    unfold checkTime at hcheck
    split_ifs at hcheck with hinc
    exact Bool.eq_false_iff.mpr hinc
  unfold checkOnce at h
  simp only [Option.orElse_eq_orElse, Option.orElse_eq_or, Option.or_eq_none_iff] at h
  obtain ⟨hhomestead, -, -, h150, h155, h158, -, hbyzantium, hconstantinople, -, histanbul, -,
    hberlin, hlondon, hshanghai, hcancun, hprague, hosaka⟩ := h
  exact ⟨hblock hhomestead, hblock h150, hblock h155, hblock h158, hblock hbyzantium,
    hblock hconstantinople, hblock histanbul, hblock hberlin, hblock hlondon, htime hshanghai,
    htime hcancun, htime hprague, htime hosaka⟩

/-- **When two configurations that were found compatible have the same
rules** up to the head: what was not compared is alike. -/
theorem rules_eq_iff (c newcfg : ChainConfig) (height time : UInt64) (rounds : ℕ)
    (h : c.checkCompatible newcfg height (some time) rounds = some none) :
    (∀ n ≤ height.toNat, ∀ t ≤ time.toNat, ∀ isMerge,
      c.rules (n : ℕ) isMerge (t : ℕ) = newcfg.rules (n : ℕ) isMerge (t : ℕ))
      ↔ c.Alike newcfg height.toNat := by
  have hnil := checkCompatible_eq_nil h
  rw [Option.map_some] at hnil
  have hc : c.Compared newcfg height.toNat time.toNat := .of_checkOnce hnil
  constructor
  · intro hrules
    have hblock : ∀ {a b : Option ℤ} (flag : Rules → Bool),
        (∀ n : ℕ, flag (c.rules n false 0) = isForked a n) →
        (∀ n : ℕ, flag (newcfg.rules n false 0) = isForked b n) →
        StartAlike height.toNat a b := fun flag ha hb => isForked_eq_iff.mp fun n hn =>
      (ha n).symm.trans ((congrArg flag (hrules n hn 0 (Nat.zero_le _) false)).trans (hb n))
    refine ⟨hblock Rules.isPetersburg (fun n => c.isPetersburg_eq n)
      (fun n => newcfg.isPetersburg_eq n), ?_, ?_,
      hblock Rules.isNapoli (fun _ => rfl) (fun _ => rfl),
      hblock Rules.isPip30 (fun _ => rfl) (fun _ => rfl), ?_, ?_⟩
    · exact isForked_eq_iff.mp ((isForkedAt_eq_iff hc.shanghai).mp fun n hn t ht =>
        congrArg Rules.isShanghai (hrules n hn t ht false))
    · exact isForked_eq_iff.mp ((isForkedAt_eq_iff hc.cancun).mp fun n hn t ht =>
        congrArg Rules.isCancun (hrules n hn t ht false))
    · exact isForked_eq_iff.mp ((isForkedAt_eq_iff hc.prague).mp fun n hn t ht =>
        congrArg Rules.isPrague (hrules n hn t ht false))
    · exact isForked_eq_iff.mp ((isForkedAt_eq_iff hc.osaka).mp fun n hn t ht =>
        congrArg Rules.isOsaka (hrules n hn t ht false))
  · intro ha n hn t ht isMerge
    have hcompared : ∀ {a b : Option ℤ}, isForkIncompatible a b (some (height.toNat : ℤ)) = false →
        isForked a n = isForked b n :=
      fun hab => isForked_eq_of_compatible hab (Int.ofNat_le.mpr hn)
    have halike : ∀ {a b : Option ℤ}, StartAlike height.toNat a b → isForked a n = isForked b n :=
      fun hab => isForked_eq_iff.mpr hab n hn
    have hpetersburg : c.isPetersburg n = newcfg.isPetersburg n := by
      rw [isPetersburg_eq, isPetersburg_eq]
      exact halike ha.petersburg
    simp only [rules, Rules.mk.injEq]
    exact ⟨hcompared hc.homestead, hcompared hc.eip150, hcompared hc.eip155, hcompared hc.eip158,
      hcompared hc.byzantium, hcompared hc.constantinople, hpetersburg, hcompared hc.istanbul,
      hcompared hc.berlin, hcompared hc.london, trivial,
      (isForkedAt_eq_iff hc.shanghai).mpr (isForked_eq_iff.mpr ha.shanghai) n hn t ht,
      (isForkedAt_eq_iff hc.cancun).mpr (isForked_eq_iff.mpr ha.cancun) n hn t ht,
      halike ha.napoli, halike ha.pip30,
      (isForkedAt_eq_iff hc.prague).mpr (isForked_eq_iff.mpr ha.prague) n hn t ht,
      (isForkedAt_eq_iff hc.osaka).mpr (isForked_eq_iff.mpr ha.osaka) n hn t ht⟩

/-- **Petersburg that is taken back**, and Shanghai by block that is put
off: both are found compatible at block 50. -/
theorem not_rules_eq :
    let c : ChainConfig := { constantinopleBlock := some 0, petersburgBlock := some 100 }
    let polygon : ChainConfig := { londonBlock := some 0, shanghaiBlock := some 10 }
    c.checkCompatible { constantinopleBlock := some 0 } 50 (some 50) 1 = some none
      ∧ c.rules 50 false 50 ≠ rules { constantinopleBlock := some 0 } 50 false 50
      ∧ polygon.checkCompatible { londonBlock := some 0, shanghaiBlock := some 60 } 50 (some 50) 1
        = some none
      ∧ polygon.rules 50 false 50
        ≠ rules { londonBlock := some 0, shanghaiBlock := some 60 } 50 false 50 := by
  decide

/-- A fork by time that is put off. -/
theorem rules_eq_iff_shanghai :
    let c : ChainConfig := { londonBlock := some 0, shanghaiTime := some 100 }
    let newcfg : ChainConfig := { londonBlock := some 0, shanghaiTime := some 200 }
    ∀ n ≤ 50, ∀ t ≤ 50, ∀ isMerge,
      c.rules (n : ℕ) isMerge (t : ℕ) = newcfg.rules (n : ℕ) isMerge (t : ℕ) :=
  (rules_eq_iff { londonBlock := some 0, shanghaiTime := some 100 }
    { londonBlock := some 0, shanghaiTime := some 200 } 50 50 1 (by decide)).mpr
    (by constructor <;> decide)

end ChainConfig
