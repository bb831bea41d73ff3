import CardinalEvm.Types

/-!
# The access list

The addresses and slots a transaction has touched. The list is two
levels deep: `addresses` maps an address to an index into `slots`, or to
`-1` while none of its slots is on the list, and `slots` holds one set
per address that has some.

Deletion is only ever an undo. `deleteSlot` cuts `slots` off at the
index of the set it emptied, which drops every later set along with it –
right if and only if the sets after it are already gone, that is if
deletions come in the reverse order of the additions. `WF.addSlot` is
that statement for one addition: on a well-formed list the undo entries
of `addSlot` give back the very list it started from.
-/

/-- **The access list.** -/
structure AccessList where
  /-- The index of each address on the list, `-1` if it has no slots. -/
  addresses : GoMap Address Int
  /-- The slot sets, one per address that has slots. -/
  slots : List (Finset Hash)

namespace AccessList

/-- `newAccessList`. -/
def newAccessList : AccessList := ⟨fun _ => none, []⟩

section Methods

variable (al : AccessList) (address : Address) (slot : Hash)

/-- `al.slots[idx]`, which panics out of range. -/
def slotsAt (idx : Int) : Option (Finset Hash) :=
  if idx < 0 then none else al.slots[idx.toNat]?

/-- `ContainsAddress`. -/
def containsAddress : Bool :=
  (al.addresses address).isSome

/-- `Contains`: whether the address and whether the slot is present. -/
def contains : Option (Bool × Bool) :=
  match al.addresses address with
  | none => some (false, false)
  | some idx =>
    if idx = -1 then some (true, false)
    else (al.slotsAt idx).map (fun slotmap => (true, decide (slot ∈ slotmap)))

/-- `AddAddress`, with whether it caused a change. -/
def addAddress : AccessList × Bool :=
  match al.addresses address with
  | some _ => (al, false)
  | none => ({ al with addresses := Function.update al.addresses address (some (-1)) }, true)

/-- The list with a first slot for an address. -/
def newSlots : AccessList where
  addresses := Function.update al.addresses address (some al.slots.length)
  slots := al.slots ++ [{slot}]

/-- `AddSlot`, with whether the address and whether the slot was added. -/
def addSlot : Option (AccessList × Bool × Bool) :=
  match al.addresses address with
  | none => some (al.newSlots address slot, true, true)
  | some idx =>
    if idx = -1 then some (al.newSlots address slot, false, true)
    else (al.slotsAt idx).map (fun slotmap =>
      if slot ∈ slotmap then (al, false, false)
      else ({ al with slots := al.slots.set idx.toNat (insert slot slotmap) }, false, true))

/-- `DeleteSlot`. It panics if the address is not on the list or its
index is out of range. -/
def deleteSlot : Option AccessList :=
  match al.addresses address with
  | none => none
  | some idx => (al.slotsAt idx).map (fun slotmap =>
      if slotmap.erase slot = ∅ then
        { addresses := Function.update al.addresses address (some (-1))
          slots := al.slots.take idx.toNat }
      else { al with slots := al.slots.set idx.toNat (slotmap.erase slot) })

/-- `DeleteAddress`. -/
def deleteAddress : AccessList :=
  { al with addresses := Function.update al.addresses address none }

end Methods

/-! ## Well-formed lists -/

/-- **The invariant of the list**: an index is `-1` or points to a set,
and no set is empty. -/
def WF (al : AccessList) : Prop :=
  ∀ address idx, al.addresses address = some idx →
    idx = -1 ∨ ∃ slotmap, al.slotsAt idx = some slotmap ∧ slotmap.Nonempty

theorem wf_newAccessList : newAccessList.WF := by
  intro a idx h
  exact absurd h (by simp [newAccessList])

variable {al : AccessList}

theorem slotsAt_of_getElem? {i : ℕ} :
    al.slotsAt (i : Int) = al.slots[i]? := by
  rw [slotsAt, if_neg (by omega), Int.toNat_natCast]

/-- An index that points to a set is a position of `slots`. -/
theorem slotsAt_eq_some {idx : Int} {m : Finset Hash} (h : al.slotsAt idx = some m) :
    0 ≤ idx ∧ idx.toNat < al.slots.length ∧ al.slots[idx.toNat]? = some m := by
  unfold slotsAt at h
  split at h
  · cases h
  · exact ⟨by omega, (List.getElem?_eq_some_iff.mp h).1, h⟩

/-- On a well-formed list `Contains` does not panic. -/
theorem WF.contains_isSome (h : al.WF) (a : Address) (k : Hash) :
    (al.contains a k).isSome := by
  unfold AccessList.contains
  cases ha : al.addresses a with
  | none => rfl
  | some idx =>
    dsimp only
    split
    · rfl
    · obtain hm | ⟨m, hm, -⟩ := h a idx ha
      · contradiction
      · rw [hm]; rfl

/-- An address without slots may be put on the list. -/
theorem WF.mark (h : al.WF) (a : Address) :
    WF { al with addresses := Function.update al.addresses a (some (-1)) } := by
  intro b idx hb
  dsimp only at hb
  by_cases hba : b = a
  · subst hba
    rw [Function.update_self] at hb
    exact .inl (Option.some.inj hb).symm
  · rw [Function.update_of_ne hba] at hb
    exact h b idx hb

/-- `AddAddress` keeps the invariant. -/
theorem WF.addAddress (h : al.WF) (a : Address) :
    (al.addAddress a).1.WF := by
  unfold AccessList.addAddress
  split
  · exact h
  · exact h.mark a

/-- After `AddAddress` the address is on the list, and every other one is
if it was. -/
theorem containsAddress_addAddress (al : AccessList) (a b : Address) :
    (al.addAddress a).1.containsAddress b = (al.containsAddress b || b == a) := by
  unfold addAddress containsAddress
  by_cases hb : b = a
  · subst hb
    cases h : al.addresses b <;> simp [h]
  · cases h : al.addresses a <;> simp [hb]

/-- `AddAddress` adds no slot. -/
theorem contains_addAddress (al : AccessList) (a b : Address) (k : Hash) :
    (al.addAddress a).1.contains b k
      = (al.contains b k).map (fun p => (p.1 || b == a, p.2)) := by
  unfold addAddress contains
  by_cases hb : b = a
  · subst hb
    cases h : al.addresses b with
    | none => simp
    | some idx =>
      by_cases hi : idx = -1
      · simp [h, hi]
      · simp only [h, hi, if_false, Option.map_map]
        rfl
  · have hba : (b == a) = false := beq_eq_false_iff_ne.mpr hb
    have hmap : ∀ o : Option (Bool × Bool), o.map (fun p => (p.1 || b == a, p.2)) = o := by
      intro o
      cases o <;> simp [hba]
    rw [hmap]
    cases h : al.addresses a with
    | none => simp only [Function.update_of_ne hb]; rfl
    | some idx => rfl

/-- Undoing an `AddAddress` that made a change gives the list back. -/
theorem deleteAddress_addAddress {al' : AccessList} {a : Address}
    (h : al.addAddress a = (al', true)) : al'.deleteAddress a = al := by
  unfold addAddress at h
  split at h
  · simp at h
  · rename_i hnone
    obtain rfl := (Prod.mk.inj h).1
    simp only [deleteAddress, Function.update_idem]
    rw [Function.update_eq_self_iff.mpr hnone.symm]

/-- An `AddAddress` that made no change left the list alone. -/
theorem addAddress_false {al' : AccessList} {a : Address} (h : al.addAddress a = (al', false)) :
    al' = al := by
  unfold addAddress at h
  split at h
  · exact (Prod.mk.inj h).1.symm
  · simp at h

theorem WF.newSlots (h : al.WF) (a : Address) (k : Hash) :
    (al.newSlots a k).WF := by
  intro b idx hb
  by_cases hba : b = a
  · subst hba
    simp only [AccessList.newSlots, Function.update_self, Option.some.injEq] at hb
    subst hb
    refine .inr ⟨{k}, ?_, by simp⟩
    rw [slotsAt_of_getElem?, AccessList.newSlots, List.getElem?_append_right (le_refl _)]
    simp
  · simp only [AccessList.newSlots, Function.update_of_ne hba] at hb
    obtain hm | ⟨m, hm, hne⟩ := h b idx hb
    · exact .inl hm
    · obtain ⟨hpos, hlt, hget⟩ := slotsAt_eq_some hm
      refine .inr ⟨m, ?_, hne⟩
      rw [slotsAt, if_neg (by omega), AccessList.newSlots, List.getElem?_append_left hlt]
      exact hget

/-- Deleting the only slot of the newest set drops the set. -/
theorem deleteSlot_newSlots (al : AccessList) (a : Address) (k : Hash) :
    (al.newSlots a k).deleteSlot a k
      = some { addresses := Function.update al.addresses a (some (-1)), slots := al.slots } := by
  have hat : (al.newSlots a k).slotsAt (al.slots.length : Int) = some {k} := by
    rw [slotsAt_of_getElem?, newSlots, List.getElem?_append_right (le_refl _)]
    simp
  have haddr : (al.newSlots a k).addresses a = some (al.slots.length : Int) := by
    simp [newSlots]
  unfold deleteSlot
  rw [haddr]
  dsimp only
  rw [hat, Option.map_some, if_pos (by simp)]
  simp [newSlots]

/-- `AddSlot` does not panic on a well-formed list, keeps the invariant,
and **its undo entries give the list back**: the slot is deleted first,
then the address if it was added too. -/
theorem WF.addSlot (h : al.WF) (a : Address) (k : Hash) :
    ∃ al' addrMod slotMod, al.addSlot a k = some (al', addrMod, slotMod) ∧ al'.WF
      ∧ (slotMod = false → addrMod = false ∧ al' = al)
      ∧ (slotMod = true → ∃ al'', al'.deleteSlot a k = some al'' ∧ al''.WF
          ∧ (if addrMod then al''.deleteAddress a else al'') = al) := by
  unfold AccessList.addSlot
  cases ha : al.addresses a with
  | none =>
    refine ⟨_, _, _, rfl, h.newSlots a k, by simp,
      fun _ => ⟨_, deleteSlot_newSlots al a k, h.mark a, ?_⟩⟩
    simp only [if_true, deleteAddress, Function.update_idem]
    rw [Function.update_eq_self_iff.mpr ha.symm]
  | some idx =>
    dsimp only
    by_cases hidx : idx = -1
    · subst hidx
      rw [if_pos rfl]
      refine ⟨_, _, _, rfl, h.newSlots a k, by simp,
        fun _ => ⟨_, deleteSlot_newSlots al a k, h.mark a, ?_⟩⟩
      simp only [Bool.false_eq_true, if_false]
      rw [Function.update_eq_self_iff.mpr ha.symm]
    · obtain hm | ⟨m, hm, hne⟩ := h a idx ha
      · contradiction
      obtain ⟨hpos, hlt, hget⟩ := slotsAt_eq_some hm
      rw [if_neg hidx, hm, Option.map_some]
      by_cases hk : k ∈ m
      · rw [if_pos hk]
        exact ⟨_, _, _, rfl, h, by simp, by simp⟩
      · rw [if_neg hk]
        have hset : ({ al with slots := al.slots.set idx.toNat (insert k m) } : AccessList).slotsAt
            idx = some (insert k m) := by
          rw [slotsAt, if_neg (by omega), List.getElem?_set_self hlt]
        refine ⟨_, _, _, rfl, ?_, by simp, fun _ => ⟨al, ?_, h, by simp⟩⟩
        · intro b i hb
          obtain hb' | ⟨m', hm', hne'⟩ := h b i hb
          · exact .inl hb'
          obtain ⟨hpos', hlt', hget'⟩ := slotsAt_eq_some hm'
          by_cases hi : idx.toNat = i.toNat
          · obtain rfl : i = idx := by omega
            exact .inr ⟨_, hset, by simp⟩
          · refine .inr ⟨m', ?_, hne'⟩
            rw [slotsAt, if_neg (by omega), List.getElem?_set_ne hi]
            exact hget'
        · unfold deleteSlot
          rw [ha]
          dsimp only
          rw [hset, Option.map_some, Finset.erase_insert hk, if_neg hne.ne_empty,
            List.set_set]
          obtain ⟨_, hm'⟩ := List.getElem?_eq_some_iff.mp hget
          rw [← hm', List.set_getElem_self]

end AccessList
