import CardinalEvm.Journal

/-!
# Empty accounts

An account is empty, after EIP-161, if it shows no nonce, no balance and
no code. `Empty` does not ask the getters: it adds up a balance without
looking for a record, and takes the code hash for the code. Whether the
two agree depends on the record that `empty` goes by (`seen`), which is
the one in the store unless a nonce was set:

* with a record, the balance is the one shown, but the code hash may be
  that of other code – it is no hash at all in the record `CreateAccount`
  makes, and stays behind when `SetCode` sets code over a record;
* without one the hash is that of the code, but the balance may not be
  the one shown: without a record none is shown, and a record not seen
  has a balance that is not counted.

`emptyLaw_iff` says that these are the only ways it fails. `Exist` is
the negation of `Empty` in every case.
-/

variable [Keccak]

namespace StateObject

variable {tx : StorageTx} {a : Address} {o : StateObject}

/-- The account record `empty` goes by. A nonce that was set is returned
without loading the account. -/
def seen (tx : StorageTx) (a : Address) (o : StateObject) : Option Account :=
  if o.nonce.isSome then o.account else o.record tx a

omit [Keccak] in
theorem getNonce_snd (tx : StorageTx) (a : Address) (o : StateObject) :
    (o.getNonce tx a).2 = { o with account := o.seen tx a } := by
  unfold getNonce seen
  have h : (o.loadAccount tx a).2 = { o with account := o.record tx a } := by
    rw [loadAccount_eq]
  obtain ⟨_, _, _, _, _, _, _, _, nonce, _⟩ := o
  cases nonce with
  | some n => rfl
  | none =>
    revert h
    rcases loadAccount tx a _ with ⟨_ | _, o'⟩ <;> exact id

omit [Keccak] in
/-- A record that is seen is the account's. -/
theorem record_of_seen {account : Account} (hd : o.deleted = false)
    (h : o.seen tx a = some account) : o.record tx a = some account := by
  unfold seen at h
  split_ifs at h with hn
  · simp [record, hd, h]
  · exact h

omit [Keccak] in
/-- One that is not seen is not loaded. -/
theorem account_of_seen (hd : o.deleted = false) (h : o.seen tx a = none) :
    o.account = none := by
  unfold seen record at h
  rw [hd, if_neg Bool.false_ne_true] at h
  split_ifs at h with hn
  · exact h
  · exact (Option.or_eq_none_iff.mp h).1

/-- **What `empty` asks.** -/
theorem empty_iff (hd : o.deleted = false) :
    (o.empty tx a).1 = true ↔
      o.nonceOf tx a = 0 ∧ { o with account := o.seen tx a }.getBalance = (0 : Int)
        ∧ match o.seen tx a with
          | some account => bytesToHash account.codeHash = emptyCode
          | none => (o.codeEntry tx a).rehash.hash = emptyCode := by
  have hhash : ({ o with account := o.seen tx a }.getCodeHash tx a).1
      = match o.seen tx a with
        | some account => bytesToHash account.codeHash
        | none => (o.codeEntry tx a).rehash.hash := by
    rw [getCodeHash_fst]
    cases hs : o.seen tx a with
    | some account => rfl
    | none =>
      have ho := account_of_seen hd hs
      simp [hd, codeEntry, record, ho]
  unfold empty
  rw [← Prod.mk.eta (p := o.getNonce tx a), getNonce_fst, getNonce_snd]
  dsimp only
  split_ifs with hn hb
  · simp [hn]
  · simp [hb]
  · rw [not_not] at hn hb
    rw [beq_iff_eq, hhash, and_iff_right hn, and_iff_right hb]
    cases o.seen tx a <;> rfl

/-- **When the record seen tells.** Either a nonce is shown, or: with a
record, a balance is shown or the record's code hash is that of the
empty code exactly if no code is shown; without, code is shown or what
was added to the balance and set for it is zero exactly if the balance
shown is (or any balance is shown, if the code has no hash). -/
def EmptySound (tx : StorageTx) (a : Address) (o : StateObject) : Prop :=
  o.nonceOf tx a ≠ 0 ∨ match o.seen tx a with
    | some account => o.balance tx a ≠ 0
        ∨ (bytesToHash account.codeHash = emptyCode ↔ o.codeOf tx a = [])
    | none => o.codeOf tx a ≠ []
        ∨ if (o.codeEntry tx a).hash = 0 then o.balance tx a ≠ 0
          else (o.getBalance = 0 ↔ o.balance tx a = 0)

/-- **An object is empty if it shows nothing**, exactly if the record
seen tells. -/
theorem empty_iff_shown (hk : ∀ code, keccak256Hash code = emptyCode → code = [])
    (h0 : emptyCode ≠ 0) (hd : o.deleted = false) :
    ((o.empty tx a).1 = true ↔
        o.nonceOf tx a = 0 ∧ o.balance tx a = 0 ∧ o.codeOf tx a = [])
      ↔ o.EmptySound tx a := by
  rw [empty_iff hd, EmptySound]
  by_cases hn : o.nonceOf tx a = 0
  · cases hs : o.seen tx a with
    | some account =>
      have hb : { o with account := some account }.getBalance = o.balance tx a := by
        have hr := record_of_seen hd hs
        rw [balance, if_pos ⟨hd, hr ▸ rfl⟩, hr]
      rw [hb]
      tauto
    | none =>
      have hacc := account_of_seen hd hs
      have hb : { o with account := none }.getBalance = o.getBalance := by
        rw [← hacc]
      have hcode : o.codeOf tx a = (o.codeEntry tx a).code := by
        rw [codeOf, hd]
        rfl
      rw [hb, hcode]
      split_ifs with hz
      · have hh : (o.codeEntry tx a).rehash.hash ≠ emptyCode := by
          rw [CodeEntry.rehash, if_neg (not_not.mpr hz), hz]
          exact h0.symm
        tauto
      · have hh : (o.codeEntry tx a).rehash.hash = emptyCode ↔ (o.codeEntry tx a).code = [] := by
          rw [CodeEntry.rehash, if_pos hz]
          exact ⟨hk _, fun hc => congrArg keccak256Hash hc⟩
        tauto
  · tauto

end StateObject

namespace StateDB

/-- **EIP-161 emptiness**, as the getters show it. -/
structure EmptyLaw (s : StateDB) (a : Address) : Prop where
  empty : (s.empty a).1 = true ↔
    (s.getNonce a).1 = 0 ∧ (s.getBalance a).1 = 0 ∧ (s.getCode a).1.length = 0
  exist : (s.exist a).1 = !(s.empty a).1

/-- **`Empty` and `Exist`**, at every address that is neither deleted nor
self-destructed: the law holds exactly if the record `empty` goes by
tells what is shown. Of Keccak it takes that no other string has the
hash of the empty one, and that this hash is not zero. -/
theorem emptyLaw_iff (hk : ∀ code, keccak256Hash code = emptyCode → code = [])
    (h0 : emptyCode ≠ 0) {s : StateDB} {a : Address}
    (hd : (s.getAccount a).deleted = false) (hs : (s.getAccount a).suicided = false) :
    s.EmptyLaw a ↔ (s.getAccount a).EmptySound s.tx a := by
  have hempty : (s.empty a).1 = ((s.getAccount a).empty s.tx a).1 := by
    simp [StateDB.empty, read, hd, hs]
  have hexist : (s.exist a).1 = !(s.empty a).1 := by
    rw [hempty]
    simp [StateDB.exist, read, hd]
  have hnonce : (s.getNonce a).1 = (s.getAccount a).nonceOf s.tx a :=
    StateObject.getNonce_fst s.tx a _
  have hcode : (s.getCode a).1 = (s.getAccount a).codeOf s.tx a :=
    StateObject.getCode_fst s.tx a _
  rw [← StateObject.empty_iff_shown hk h0 hd]
  constructor
  · intro h
    rw [← hempty, h.empty, hnonce, getBalance_fst, hcode, List.length_eq_zero_iff]
  · intro h
    refine ⟨?_, hexist⟩
    rw [hempty, h, hnonce, getBalance_fst, hcode, List.length_eq_zero_iff]

omit [Keccak]

/-- The empty string alone has its digest in the table. -/
theorem keccak_digests_empty (code : Bytes) :
    letI := Keccak.digests
    keccak256Hash code = emptyCode → code = [] := by
  intro h
  replace h : (digestTable.lookup code).getD 0 = Keccak.digests.keccak256Hash [] := h
  cases hl : digestTable.lookup code with
  | none =>
    rw [hl] at h
    exact absurd h (by decide)
  | some v =>
    rw [hl] at h
    obtain ⟨l₁, l₂, hl, -⟩ := List.lookup_eq_some_iff.mp hl
    have hmem : (code, v) ∈ digestTable := hl ▸ List.mem_append_right l₁ List.mem_cons_self
    exact (by decide : ∀ p ∈ digestTable, p.2 = Keccak.digests.keccak256Hash [] → p.1 = [])
      _ hmem h

/-- An account with a balance, one with nothing, and the one that
`CreateAccount` makes. -/
theorem emptyLaw_iff_stored :
    letI := Keccak.digests
    let s := newStateDB (.single 1 { balance := some 7, codeHash := emptyCode.bytes } [])
    s.EmptyLaw 1 ∧ s.EmptyLaw 2 ∧ ¬ (s.createAccount 2).EmptyLaw 2 := by
  let _ := Keccak.digests
  intro s
  refine ⟨(emptyLaw_iff keccak_digests_empty (by decide) rfl rfl).mpr ?_,
    (emptyLaw_iff keccak_digests_empty (by decide) rfl rfl).mpr ?_, fun h => ?_⟩
  · exact .inr (.inl (by decide))
  · exact .inr (.inr (by decide))
  · obtain hn | hb | hc := (emptyLaw_iff keccak_digests_empty (by decide) rfl rfl).mp h
    · exact hn rfl
    · exact hb rfl
    · exact absurd (hc.mpr rfl) (by decide)

/-- The account `CreateAccount` makes shows nothing and is not empty;
one with a balance in the store is, once its nonce was set to zero. -/
theorem empty_not_shown :
    letI := Keccak.digests
    let s := newStateDB (.single 1 { balance := some 7, codeHash := emptyCode.bytes } [])
    let t := (s.createAccount 2).setNonce 1 0
    Reachable t ∧ (t.empty 2).1 = false ∧ (t.getNonce 2).1 = 0 ∧ (t.getBalance 2).1 = 0
      ∧ (t.getCode 2).1 = [] ∧ (t.empty 1).1 = true ∧ (t.getBalance 1).1 = 7 := by
  let _ := Keccak.digests
  intro s t
  have hcreated : Reachable (s.createAccount 2) := .op (.createAccount 2) (.new _) trivial rfl
  exact ⟨.op (.setNonce 1 0) hcreated trivial rfl, by decide, rfl, rfl, rfl, by decide, rfl⟩

end StateDB
