import CardinalEvm.Types

/-!
# Resuming the producer

A consumer that reconnects says which block it had last, and
`resumer.BlocksFrom` sends it the blocks from there on. If the block is
no longer on the chain, the loop goes back by the reorg threshold first.
It does so by changing its own index, and the index is still counted up
at the end of the turn: the block it went back to is not sent
(`BlocksFrom.delivers_iff`).
-/

/-- What `GetBlock` makes of the updates of a block. The rest of the batch
plays no part here. -/
structure PendingBatch (V : Type) where
  number : Int64
  hash : Hash
  rest : V
  deriving DecidableEq

namespace BlocksFrom

variable {V : Type}

/-- **A resumer**: the updates the node has of a number, and the flags of
the plugin. -/
structure Resumer (V : Type) where
  blockUpdatesByNumber : Int64 → Option (Hash × V)
  reorgThreshold : Int64

/-- `resumer.GetBlock`. -/
def Resumer.getBlock (r : Resumer V) (number : UInt64) : Option (PendingBatch V) :=
  (r.blockUpdatesByNumber number.toInt64).map fun updates =>
    ⟨number.toInt64, updates.1, updates.2⟩

/-- The state of the loop: its index, whether it went back, and what it has
sent. -/
structure Loop (V : Type) where
  i : UInt64
  reset : Bool := false
  sent : List (PendingBatch V) := []

section Loop

variable (r : Resumer V) (number : UInt64) (hash : Hash)

/-- The index the loop goes back to. -/
def Resumer.rewind (i : UInt64) : UInt64 :=
  if i.toInt64 < r.reorgThreshold then 0 else i - r.reorgThreshold.toUInt64

/-- **One turn of the loop**, with the increment at its end. There is none
after the turn that returns, which closes the channel. -/
def Resumer.turn (l : Loop V) : Option (Loop V) :=
  match r.getBlock l.i with
  | none => none
  | some pb =>
    if pb.number = number.toInt64 ∧ pb.hash ≠ hash ∧ l.reset = false then
      some { l with i := r.rewind l.i + 1, reset := true }
    else some { l with i := l.i + 1, sent := l.sent ++ [pb] }

/-- The loop for a number of turns, with what was sent if it returned. -/
def Resumer.run : ℕ → Loop V → Option (List (PendingBatch V))
  | 0, _ => none
  | turns + 1, l =>
    match r.turn number hash l with
    | none => some l.sent
    | some l' => run turns l'

/-- **`resumer.BlocksFrom`**: the blocks sent by the time the channel is
closed, if that is within a number of turns. -/
def Resumer.blocksFrom (turns : ℕ) : Option (List (PendingBatch V)) :=
  r.run number hash turns { i := number }

/-- The blocks of a range of numbers. -/
def Resumer.blocks (first count : ℕ) : List (PendingBatch V) :=
  (List.range' first count).filterMap fun n => r.getBlock (UInt64.ofNat n)

/-- A chain with the blocks up to a head. -/
def Resumer.Chain (head : UInt64) : Prop :=
  ∀ i, (r.getBlock i).isSome = true ↔ i ≤ head

/-- The block at a number has the given hash. -/
def Resumer.Knows : Prop :=
  (r.getBlock number).map PendingBatch.hash = some hash
  deriving Decidable

end Loop

/-! ## The index -/

/-- A signed number, from its bits. -/
theorem toInt_eq (x : Int64) : x.toInt = if 2 * x.toUInt64.toNat < 2 ^ 64 then
    (x.toUInt64.toNat : ℤ) else x.toUInt64.toNat - (2 ^ 64 : ℕ) :=
  BitVec.toInt_eq_toNat_cond x.toBitVec

/-- Numbers that are the same signed are the same. -/
theorem toInt64_inj {i j : UInt64} (h : i.toInt64 = j.toInt64) : i = j :=
  congrArg Int64.toUInt64 h

variable {r : Resumer V} {number head : UInt64} {hash : Hash}

/-- **Going back**: to zero from a number below the threshold, and from one
that is negative as an `int`. -/
theorem toNat_rewind (hT : 0 ≤ r.reorgThreshold.toInt) (i : UInt64) :
    (r.rewind i).toNat
      = if i.toNat < 2 ^ 63 then i.toNat - r.reorgThreshold.toInt.toNat else 0 := by
  have hi : i.toInt64.toUInt64 = i := rfl
  have hsigned := toInt_eq i.toInt64
  have hthreshold := toInt_eq r.reorgThreshold
  have hlt := i.toNat_lt
  have hlt' := r.reorgThreshold.toUInt64.toNat_lt
  have hpos : r.reorgThreshold.toInt = r.reorgThreshold.toUInt64.toNat := by
    split_ifs at hthreshold <;> omega
  rw [hi] at hsigned
  rw [hpos, Int.toNat_natCast]
  unfold Resumer.rewind
  by_cases hbelow : i.toInt64 < r.reorgThreshold
  · rw [if_pos hbelow]
    rw [Int64.lt_iff_toInt_lt, hsigned, hpos] at hbelow
    show 0 = _
    split_ifs at hbelow ⊢ <;> omega
  · rw [if_neg hbelow]
    rw [Int64.lt_iff_toInt_lt, hsigned, hpos] at hbelow
    have hsmall : i.toNat < 2 ^ 63 := by
      split_ifs at hbelow <;> omega
    rw [if_pos (show 2 * i.toNat < 2 ^ 64 by omega)] at hbelow
    rw [if_pos hsmall]
    exact UInt64.toNat_sub_of_le _ _ (UInt64.le_iff_toNat_le.mpr (by omega))

theorem toNat_rewind_le (hT : 0 ≤ r.reorgThreshold.toInt) (i : UInt64) :
    (r.rewind i).toNat ≤ i.toNat := by
  rw [toNat_rewind hT]
  split_ifs
  · exact Nat.sub_le _ _
  · exact Nat.zero_le _

theorem toNat_add_one {i : UInt64} (h : i.toNat + 1 < 2 ^ 64) : (i + 1).toNat = i.toNat + 1 := by
  rw [UInt64.toNat_add]
  exact Nat.mod_eq_of_lt h

/-! ## What is sent -/

/-- A block that is sent is the first of a range. -/
theorem blocks_succ {i : UInt64} {pb : PendingBatch V} (h : r.getBlock i = some pb) (k : ℕ) :
    r.blocks i.toNat (k + 1) = pb :: r.blocks (i.toNat + 1) k := by
  rw [Resumer.blocks, List.range'_succ, List.filterMap_cons, UInt64.ofNat_toNat, h]
  rfl

/-- The blocks of a range on the chain are as many as its numbers. -/
theorem length_blocks (hchain : r.Chain head) {first count : ℕ}
    (hle : first + count ≤ head.toNat + 1) : (r.blocks first count).length = count := by
  induction count generalizing first with
  | zero => rfl
  | succ k ih =>
    have hlt := head.toNat_lt
    have hfirst : (UInt64.ofNat first).toNat = first := UInt64.toNat_ofNat_of_lt' (by
      show first < 2 ^ 64
      omega)
    obtain ⟨pb, hpb⟩ := Option.isSome_iff_exists.mp
      ((hchain (.ofNat first)).mpr (UInt64.le_iff_toNat_le.mpr (by omega)))
    have hcons := blocks_succ hpb k
    rw [hfirst] at hcons
    rw [hcons, List.length_cons, ih (by omega)]

/-- A turn that sends. -/
theorem turn_of_some {l : Loop V} {pb : PendingBatch V} (hpb : r.getBlock l.i = some pb)
    (hsend : l.reset = true ∨ r.Knows number hash) :
    r.turn number hash l = some { l with i := l.i + 1, sent := l.sent ++ [pb] } := by
  have hnumber : pb.number = l.i.toInt64 := by
    obtain ⟨updates, -, rfl⟩ := Option.map_eq_some_iff.mp hpb
    rfl
  have hcond : ¬ (pb.number = number.toInt64 ∧ pb.hash ≠ hash ∧ l.reset = false) := by
    rintro ⟨hsame, hhash, hreset⟩
    obtain hl | hknows := hsend
    · rw [hl] at hreset
      cases hreset
    · rw [hnumber] at hsame
      rw [toInt64_inj hsame] at hpb
      rw [Resumer.Knows, hpb] at hknows
      exact hhash (Option.some.inj hknows)
  rw [Resumer.turn, hpb]
  exact if_neg hcond

/-- **The loop sends every block from its index on**, once it has gone back
or if it never will. -/
theorem run_sends (hchain : r.Chain head) (hhead : head.toNat + 1 < 2 ^ 64) {l : Loop V} {k : ℕ}
    (hsend : l.reset = true ∨ r.Knows number hash) (hk : l.i.toNat + k = head.toNat + 1) :
    r.run number hash (k + 1) l = some (l.sent ++ r.blocks l.i.toNat k) := by
  induction k generalizing l with
  | zero =>
    have hnone : r.getBlock l.i = none := by
      rw [← Option.not_isSome_iff_eq_none, hchain, UInt64.le_iff_toNat_le]
      omega
    have hturn : r.turn number hash l = none := by rw [Resumer.turn, hnone]
    rw [Resumer.run, hturn]
    exact congrArg some (List.append_nil _).symm
  | succ k ih =>
    obtain ⟨pb, hpb⟩ := Option.isSome_iff_exists.mp
      ((hchain l.i).mpr (UInt64.le_iff_toNat_le.mpr (by omega)))
    have hnext : (l.i + 1).toNat = l.i.toNat + 1 := toNat_add_one (by omega)
    have hrest := ih (l := { l with i := l.i + 1, sent := l.sent ++ [pb] }) hsend
      (by simp only [hnext]; omega)
    rw [Resumer.run, turn_of_some hpb hsend, blocks_succ hpb]
    refine hrest.trans ?_
    simp only [hnext, List.append_assoc, List.singleton_append]

/-- On a chain with a block of every number the loop never returns. -/
theorem run_endless (hchain : r.Chain head) (hhead : ¬ head.toNat + 1 < 2 ^ 64) (turns : ℕ)
    (l : Loop V) : r.run number hash turns l = none := by
  induction turns generalizing l with
  | zero => rfl
  | succ turns ih =>
    have hlt := l.i.toNat_lt
    obtain ⟨pb, hpb⟩ := Option.isSome_iff_exists.mp
      ((hchain l.i).mpr (UInt64.le_iff_toNat_le.mpr (by omega)))
    obtain ⟨l', hl'⟩ : ∃ l', r.turn number hash l = some l' := by
      rw [Resumer.turn, hpb]
      dsimp only
      split_ifs <;> exact ⟨_, rfl⟩
    rw [Resumer.run, hl']
    exact ih l'

/-- More turns do not change what was sent by a loop that returned. -/
theorem run_unique {l : Loop V} {turns turns' : ℕ} {sent sent' : List (PendingBatch V)}
    (h : r.run number hash turns l = some sent) (h' : r.run number hash turns' l = some sent') :
    sent = sent' := by
  induction turns generalizing l turns' with
  | zero => cases h
  | succ turns ih =>
    cases turns' with
    | zero => cases h'
    | succ turns' =>
      rw [Resumer.run] at h h'
      cases hturn : r.turn number hash l with
      | none =>
        rw [hturn] at h h'
        exact Option.some.inj (h.symm.trans h')
      | some l' =>
        rw [hturn] at h h'
        exact ih h h'

/-- The turn that goes back. -/
theorem turn_rewinds (hchain : r.Chain head) (hnumber : number ≤ head)
    (hknows : ¬ r.Knows number hash) :
    r.turn number hash { i := number } = some { i := r.rewind number + 1, reset := true } := by
  obtain ⟨pb, hpb⟩ := Option.isSome_iff_exists.mp ((hchain number).mpr hnumber)
  have hsame : pb.number = number.toInt64 := by
    obtain ⟨updates, -, rfl⟩ := Option.map_eq_some_iff.mp hpb
    rfl
  have hhash : pb.hash ≠ hash := fun h => hknows (by
    rw [Resumer.Knows, hpb, ← h]
    rfl)
  rw [Resumer.turn, hpb]
  exact if_pos ⟨hsame, hhash, rfl⟩

/-- What is sent after going back. -/
theorem run_rewound (hchain : r.Chain head) (hhead : head.toNat + 1 < 2 ^ 64)
    (hnumber : number ≤ head) (hknows : ¬ r.Knows number hash)
    (hT : 0 ≤ r.reorgThreshold.toInt) :
    r.run number hash (head.toNat + 1 - (r.rewind number + 1).toNat + 2) { i := number }
      = some (r.blocks (r.rewind number + 1).toNat
        (head.toNat + 1 - (r.rewind number + 1).toNat)) := by
  have hle := UInt64.le_iff_toNat_le.mp hnumber
  have hback := toNat_rewind_le hT number
  have hnext : (r.rewind number + 1).toNat = (r.rewind number).toNat + 1 :=
    toNat_add_one (by omega)
  rw [Resumer.run, turn_rewinds hchain hnumber hknows]
  exact run_sends hchain hhead (l := { i := r.rewind number + 1, reset := true }) (.inl rfl)
    (show (r.rewind number + 1).toNat + _ = _ by omega)

/-- The number the consumer is to resume from. -/
def Resumer.start (r : Resumer V) (number : UInt64) (hash : Hash) : ℕ :=
  if r.Knows number hash then number.toNat else number.toNat - r.reorgThreshold.toInt.toNat

/-- **The blocks from the start to the head are sent**, one after the other,
and the channel is closed. -/
def Resumer.Delivers (r : Resumer V) (number : UInt64) (hash : Hash) (head : UInt64) : Prop :=
  ∃ turns, r.blocksFrom number hash turns
    = some (r.blocks (r.start number hash) (head.toNat + 1 - r.start number hash))

/-- **When the blocks are delivered.** The given block has to be known, for
the block the loop goes back to is left out – unless the number is the
first that is negative as an `int`, and the threshold the largest there
is. And there has to be a number past the head. -/
theorem delivers_iff (hchain : r.Chain head) (hnumber : number ≤ head)
    (hT : 0 ≤ r.reorgThreshold.toInt) :
    r.Delivers number hash head ↔ head.toNat ≠ 2 ^ 64 - 1
      ∧ (r.Knows number hash
        ∨ number.toNat = 2 ^ 63 ∧ r.reorgThreshold.toInt = 2 ^ 63 - 1) := by
  have hlt := head.toNat_lt
  have hle := UInt64.le_iff_toNat_le.mp hnumber
  by_cases hhead : head.toNat + 1 < 2 ^ 64
  · have hne : head.toNat ≠ 2 ^ 64 - 1 := by omega
    rw [and_iff_right hne]
    by_cases hknows : r.Knows number hash
    · refine iff_of_true ?_ (.inl hknows)
      rw [Resumer.Delivers, Resumer.start, if_pos hknows]
      exact ⟨_, run_sends hchain hhead (.inr hknows)
        (show number.toNat + (head.toNat + 1 - number.toNat) = head.toNat + 1 by omega)⟩
    · rw [or_iff_right hknows, Resumer.Delivers, Resumer.start, if_neg hknows]
      have hback := toNat_rewind hT number
      have hbefore := toNat_rewind_le hT number
      have hnext : (r.rewind number + 1).toNat = (r.rewind number).toNat + 1 :=
        toNat_add_one (by omega)
      have hrun := run_rewound hchain hhead hnumber hknows hT
      constructor
      · rintro ⟨turns, hturns⟩
        have hlen := congrArg List.length (run_unique hrun hturns)
        rw [length_blocks hchain (by omega), length_blocks hchain (by omega)] at hlen
        have hlarge := r.reorgThreshold.toInt_lt
        split_ifs at hback <;> omega
      · rintro ⟨h63, hmax⟩
        refine ⟨_, hrun.trans ?_⟩
        have hone : (r.rewind number + 1).toNat = 1 := by
          rw [hnext, hback, if_neg (by omega)]
        have hstart : number.toNat - r.reorgThreshold.toInt.toNat = 1 := by omega
        rw [hone, hstart]
  · refine iff_of_false ?_ fun h => h.1 (by omega)
    rintro ⟨turns, hrun⟩
    rw [Resumer.blocksFrom, run_endless hchain hhead] at hrun
    cases hrun

/-- A chain of three blocks, with the hashes 7, 8 and 9. -/
def threeBlocks (reorgThreshold : Int64) : Resumer Unit where
  blockUpdatesByNumber number :=
    if number.toUInt64 ≤ 2 then some (.ofNat 256 (7 + number.toUInt64.toNat), ()) else none
  reorgThreshold := reorgThreshold

theorem chain_threeBlocks (reorgThreshold : Int64) : (threeBlocks reorgThreshold).Chain 2 := by
  intro i
  show (Option.map _ (if i ≤ 2 then _ else _)).isSome = true ↔ i ≤ 2
  split_ifs with h <;> simp [h]

/-- **A consumer with a block that is gone**, and a threshold of one: the
block before it is not sent. -/
theorem not_delivers_rewound :
    (threeBlocks 1).Chain 2 ∧ (threeBlocks 1).start 2 5 = 1
      ∧ (threeBlocks 1).blocksFrom 2 5 3 = some [⟨2, 9, ()⟩]
      ∧ ¬ (threeBlocks 1).Delivers 2 5 2 := by
  have hrun : (threeBlocks 1).blocksFrom 2 5 3 = some [⟨2, 9, ()⟩] := by decide
  refine ⟨chain_threeBlocks 1, by decide, hrun, ?_⟩
  rintro ⟨turns, hturns⟩
  exact absurd (run_unique hrun hturns) (by decide)

/-- One whose block is there. -/
theorem delivers_iff_known :
    (threeBlocks 1).Knows 1 8 ∧ (threeBlocks 1).Delivers 1 8 2 := by
  have hknows : (threeBlocks 1).Knows 1 8 := by decide
  exact ⟨hknows, (delivers_iff (chain_threeBlocks 1) (by decide) (by decide)).mpr
    ⟨by decide, .inl hknows⟩⟩

end BlocksFrom
