import CardinalEvm.RlpReaders

/-!
# The list iterator

`NewListIterator` takes the content of a list, and every call of `Next`
cuts the first value off what is left of it, until nothing is left. That
is the loop of `CountValues`, one turn at a time, and it ends where that
one does.

It does not end where a value is malformed. `readKind` returns zero sizes
with its error there, so nothing is cut off, and `Next` is true again.
-/

namespace Rlp

/-- `listIterator`. -/
structure ListIterator where
  data : Bytes
  next : Bytes
  err : Option Err

/-- `NewListIterator`. -/
def newListIterator (data : Bytes) : Except Err ListIterator := do
  let tag ← readKind data
  if tag.kind ≠ .list then throw .expectedList
  return ⟨(data.drop tag.tagsize.toNat).take tag.contentsize.toNat, [], none⟩

namespace ListIterator

/-- **`Next`**: whether there was a value, and the iterator after the
call. With an error, both sizes are zero. -/
def forward (it : ListIterator) : Bool × ListIterator :=
  match it.data with
  | [] => (false, it)
  | data@(_ :: _) => match readKind data with
    | .ok tag =>
      let size := (tag.tagsize + tag.contentsize).toNat
      (true, ⟨data.drop size, data.take size, none⟩)
    | .error e => (true, ⟨data.drop 0, data.take 0, some e⟩)

/-- The iterator after some calls of `Next`. -/
def after (it : ListIterator) (n : ℕ) : ListIterator := (fun it => it.forward.2)^[n] it

/-- **Iterating over a list ends**, after no more calls than there are
bytes: with the values that `CountValues` counts, or with an error. -/
structure Iterates (data : Bytes) (it : ListIterator) : Prop where
  ends : ∃ n < data.length, (it.after n).forward.1 = false
  counted : ∀ n, countValues it.data = .ok n →
    (∀ k < n, (it.after k).forward.1 = true) ∧ (it.after n).forward.1 = false
      ∧ ((List.range n).map fun k => (it.after (k + 1)).next).flatten = it.data
      ∧ ∀ k, (it.after k).err = none
  failed : ∀ e, countValues it.data = .error e → ∃ k, ∀ j, k ≤ j → (it.after j).err ≠ none

variable {b : Bytes} {tag : Tag} {it : ListIterator} {e : Err}

/-- A value takes a byte. -/
theorem length_drop_lt (hb : b.length < 2 ^ 63) (h : readKind b = .ok tag) :
    (b.drop (tag.tagsize + tag.contentsize).toNat).length < b.length := by
  have hsplit : split b = .ok (tag.kind, (b.drop tag.tagsize.toNat).take tag.contentsize.toNat,
      b.drop (tag.tagsize + tag.contentsize).toNat) := by
    rw [split, h]
    rfl
  have hlen := congrArg List.length (split_sound hb hsplit)
  rw [List.length_append] at hlen
  have hpos :
      0 < (wrap tag.kind ((b.drop tag.tagsize.toNat).take tag.contentsize.toNat)).length := by
    refine List.length_pos_of_ne_nil ?_
    unfold wrap
    split_ifs
    · exact list_ne_nil _
    · exact string_ne_nil _
  omega

theorem countFrom_eq (fuel : ℕ) : ∀ {fuel' : ℕ} {b : Bytes}, b.length ≤ fuel → b.length ≤ fuel' →
    b.length < 2 ^ 63 → countFrom fuel b = countFrom fuel' b := by
  induction fuel with
  | zero =>
    intro fuel' b h _ _
    rw [List.length_eq_zero_iff.mp (Nat.le_zero.mp h), countFrom, countFrom]
  | succ fuel ih =>
    intro fuel' b h h' hb
    cases b with
    | nil => rw [countFrom, countFrom]
    | cons x buf =>
      obtain ⟨fuel', rfl⟩ : ∃ n, fuel' = n + 1 := ⟨fuel' - 1, by rw [List.length_cons] at h'; omega⟩
      rw [countFrom, countFrom]
      cases hread : readKind (x :: buf) with
      | error e => rfl
      | ok tag =>
        have hlt := length_drop_lt hb hread
        exact congrArg (· >>= fun count => pure (count + 1)) (ih (by omega) (by omega) (by omega))

/-- A turn of the loop of `CountValues`. -/
theorem countValues_of_readKind (hb : b.length < 2 ^ 63) (h : readKind b = .ok tag) :
    countValues b = (countValues (b.drop (tag.tagsize + tag.contentsize).toNat)).map (· + 1) := by
  have hlt := length_drop_lt hb h
  cases b with
  | nil => cases h
  | cons x buf =>
    rw [countValues, List.length_cons, countFrom, h, countValues]
    rw [List.length_cons] at hlt
    show (countFrom buf.length _ >>= _) = _
    rw [countFrom_eq buf.length (by omega) le_rfl (hlt.trans hb)]
    cases countFrom _ _ <;> rfl

theorem countValues_of_error (hne : b ≠ []) (h : readKind b = .error e) :
    countValues b = .error e := by
  cases b with
  | nil => exact absurd rfl hne
  | cons x buf =>
    rw [countValues, List.length_cons, countFrom, h]
    rfl

theorem forward_nil (h : it.data = []) : it.forward = (false, it) := by rw [forward, h]

theorem forward_ok (h : readKind it.data = .ok tag) :
    it.forward = (true, ⟨it.data.drop (tag.tagsize + tag.contentsize).toNat,
      it.data.take (tag.tagsize + tag.contentsize).toNat, none⟩) := by
  unfold forward
  cases hd : it.data with
  | nil =>
    rw [hd] at h
    cases h
  | cons x buf =>
    rw [hd] at h
    simp only [h]

theorem forward_error (hne : it.data ≠ []) (h : readKind it.data = .error e) :
    it.forward = (true, ⟨it.data, [], some e⟩) := by
  unfold forward
  cases hd : it.data with
  | nil => exact absurd hd hne
  | cons x buf =>
    rw [hd] at h
    simp only [h, List.drop_zero, List.take_zero]

theorem forward_stuck (hne : it.data ≠ []) (h : readKind it.data = .error e) :
    (⟨it.data, [], some e⟩ : ListIterator).forward = (true, ⟨it.data, [], some e⟩) :=
  forward_error hne h

theorem after_nil (h : it.data = []) (n : ℕ) : it.after n = it :=
  Function.iterate_fixed (congrArg Prod.snd (forward_nil h)) n

/-- **A malformed value is met again and again.** -/
theorem after_error (hne : it.data ≠ []) (h : readKind it.data = .error e) (n : ℕ) :
    it.after (n + 1) = ⟨it.data, [], some e⟩ := by
  have hstep : it.after (n + 1) = it.forward.2.after n := rfl
  rw [hstep, forward_error hne h]
  exact Function.iterate_fixed (congrArg Prod.snd (forward_stuck hne h)) n

/-- **The values that are counted are cut off one after the other.** -/
theorem after_of_countValues (n : ℕ) : ∀ it : ListIterator, it.data.length < 2 ^ 63 →
    it.err = none → countValues it.data = .ok n →
    (∀ k < n, (it.after k).forward.1 = true) ∧ (it.after n).data = []
      ∧ ((List.range n).map fun k => (it.after (k + 1)).next).flatten = it.data
      ∧ (∀ k, (it.after k).err = none) ∧ n ≤ it.data.length := by
  induction n with
  | zero =>
    intro it hlt herr hcount
    have hnil : it.data = [] := by
      by_contra hne
      cases hread : readKind it.data with
      | error e => cases (countValues_of_error hne hread).symm.trans hcount
      | ok tag =>
        rw [countValues_of_readKind hlt hread] at hcount
        obtain ⟨m, -, hm⟩ := exceptMap_eq_ok.mp hcount
        cases hm
    exact ⟨nofun, hnil, hnil.symm, fun k => by rwa [after_nil hnil], Nat.zero_le _⟩
  | succ n ih =>
    intro it hlt herr hcount
    have hne : it.data ≠ [] := fun hnil => by
      rw [hnil] at hcount
      cases hcount
    cases hread : readKind it.data with
    | error e => cases (countValues_of_error hne hread).symm.trans hcount
    | ok tag =>
      rw [countValues_of_readKind hlt hread] at hcount
      obtain ⟨m, hm, hsucc⟩ := exceptMap_eq_ok.mp hcount
      obtain rfl := Nat.succ.inj hsucc
      have hforward := forward_ok hread
      have hshorter := length_drop_lt hlt hread
      obtain ⟨htrue, hend, hvalues, herrs, hle⟩ := ih it.forward.2
        (by rw [hforward]; exact hshorter.trans hlt) (by rw [hforward]) (by rw [hforward]; exact hm)
      refine ⟨fun k hk => ?_, hend, ?_, fun k => ?_, ?_⟩
      · cases k with
        | zero => exact congrArg Prod.fst hforward
        | succ k => exact htrue k (by omega)
      · rw [List.range_succ_eq_map, List.map_cons, List.flatten_cons, List.map_map]
        refine (congrArg (it.forward.2.next ++ ·) hvalues).trans ?_
        rw [hforward]
        exact List.take_append_drop _ _
      · cases k with
        | zero => exact herr
        | succ k => exact herrs k
      · rw [hforward] at hle
        dsimp only at hle
        omega

/-- **Where they cannot be counted, there is always another one.** -/
theorem after_of_error (n : ℕ) : ∀ it : ListIterator, it.data.length ≤ n →
    it.data.length < 2 ^ 63 → countValues it.data = .error e →
    (∀ k, (it.after k).forward.1 = true) ∧ ∃ k, ∀ j, k ≤ j → (it.after j).err ≠ none := by
  induction n with
  | zero =>
    intro it hle _ hcount
    rw [List.length_eq_zero_iff.mp (Nat.le_zero.mp hle)] at hcount
    cases hcount
  | succ n ih =>
    intro it hle hlt hcount
    have hne : it.data ≠ [] := fun hnil => by
      rw [hnil] at hcount
      cases hcount
    cases hread : readKind it.data with
    | error e' =>
      refine ⟨fun k => ?_, 1, fun j hj => ?_⟩
      · cases k with
        | zero => exact congrArg Prod.fst (forward_error hne hread)
        | succ k =>
          rw [after_error hne hread]
          exact congrArg Prod.fst (forward_stuck hne hread)
      · obtain ⟨j, rfl⟩ : ∃ n, j = n + 1 := ⟨j - 1, by omega⟩
        rw [after_error hne hread]
        exact Option.some_ne_none e'
    | ok tag =>
      have hforward := forward_ok hread
      have hshorter := length_drop_lt hlt hread
      have hrest : countValues it.forward.2.data = .error e := by
        rw [countValues_of_readKind hlt hread] at hcount
        rw [hforward]
        cases hc : countValues (it.data.drop (tag.tagsize + tag.contentsize).toNat) with
        | ok m =>
          rw [hc] at hcount
          cases hcount
        | error e' =>
          rw [hc] at hcount
          exact hcount
      have hlen : it.forward.2.data.length < it.data.length := by
        rw [hforward]
        exact hshorter
      obtain ⟨htrue, k, herr⟩ := ih it.forward.2 (by omega) (by omega) hrest
      refine ⟨fun k => ?_, k + 1, fun j hj => ?_⟩
      · cases k with
        | zero => exact congrArg Prod.fst hforward
        | succ k => exact htrue k
      · obtain ⟨j, rfl⟩ : ∃ n, j = n + 1 := ⟨j - 1, by omega⟩
        exact herr j (by omega)

/-- The iterator is over the content of a list. -/
theorem exists_splitList {data : Bytes} (h : newListIterator data = .ok it) :
    ∃ rest, splitList data = .ok (it.data, rest) ∧ it.err = none := by
  obtain ⟨tag, htag, h⟩ := exceptBind_eq_ok.mp h
  by_cases hkind : tag.kind = .list
  · rw [if_neg (not_not.mpr hkind)] at h
    cases h
    refine ⟨data.drop (tag.tagsize + tag.contentsize).toNat, ?_, rfl⟩
    rw [splitList, split, htag]
    exact if_neg (not_not.mpr hkind)
  · rw [if_pos hkind] at h
    cases h

/-- **Iterating over a list ends exactly where its values can be
counted.** -/
theorem iterates_iff_countValues {data : Bytes} (hlt : data.length < 2 ^ 63)
    (h : newListIterator data = .ok it) : Iterates data it ↔ ∃ n, countValues it.data = .ok n := by
  obtain ⟨rest, hsplit, herr⟩ := exists_splitList h
  have hlen := congrArg List.length ((splitList_eq_ok hlt).mp hsplit)
  have hheader := length_header_pos 0xC0 0xF7 it.data.length
  rw [list, List.length_append, List.length_append] at hlen
  have hshort : it.data.length < 2 ^ 63 := by omega
  constructor
  · intro hit
    cases hcount : countValues it.data with
    | ok n => exact ⟨n, rfl⟩
    | error e =>
      obtain ⟨n, -, hend⟩ := hit.ends
      cases hend.symm.trans ((after_of_error _ it le_rfl hshort hcount).1 n)
  · rintro ⟨n, hcount⟩
    obtain ⟨htrue, hend, hvalues, herrs, hle⟩ := after_of_countValues n it hshort herr hcount
    have hfalse := congrArg Prod.fst (forward_nil hend)
    refine ⟨⟨n, by omega, hfalse⟩, fun n' hn' => ?_, fun e he => ?_⟩
    · obtain rfl := Except.ok.inj (hcount.symm.trans hn')
      exact ⟨htrue, hfalse, hvalues, herrs⟩
    · cases hcount.symm.trans he

theorem iterates_iff_countValues_two :
    newListIterator [0xC2, 0x01, 0x02] = .ok ⟨[0x01, 0x02], [], none⟩
      ∧ Iterates [0xC2, 0x01, 0x02] ⟨[0x01, 0x02], [], none⟩ :=
  ⟨rfl, (iterates_iff_countValues (by decide) rfl).mpr ⟨2, rfl⟩⟩

/-- **A list of half a string**: `Next` is true for ever. -/
theorem not_ends_of_malformed :
    newListIterator [0xC1, 0x81] = .ok ⟨[0x81], [], none⟩
      ∧ ∀ n, ((⟨[0x81], [], none⟩ : ListIterator).after n).forward.1 = true :=
  ⟨rfl, (after_of_error (e := .valueTooLarge) 1 _ le_rfl (by decide) rfl).1⟩

end ListIterator

end Rlp
