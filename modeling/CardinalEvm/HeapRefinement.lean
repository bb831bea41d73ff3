import CardinalEvm.Heap
import CardinalEvm.Emptiness

/-!
# The heap as values

`StateDB` is right about a state in memory as long as no two of its
references that matter lead to the same cell. `HandleRep` says so: each cell
has a label, the one place its reference is kept at, and the value of a
handle is a `StateDB`. Code entries have no label. They may be shared,
because the only change made to one in place, `getHash`'s, does not show.

The labels name a handle as well, so two handles with references of
their own do not meet. Every call on one of them is the call of
`StateDB` on its value, and leaves the cells of the other alone
(`HandleRep.run`).

A handle may have a floor: the entries of its journal below it are left
out of the account, as it will not go back to them.
-/

variable [Keccak]

open Function StateDB CodeEntry Option

namespace StateObject

/-! ## Objects up to the hash of their code entry -/

/-- An object with its code entry as `getHash` leaves it. -/
def norm (o : StateObject) : StateObject := { o with code := o.code.map rehash }

@[simp] theorem norm_norm (o : StateObject) : o.norm.norm = o.norm := by
  simp [norm, comp_def]

/-- Objects with the same normal form differ in the hash of their code
entries at most. -/
theorem eq_of_norm {o p : StateObject} (h : o.norm = p.norm) : o = { p with code := o.code } := by
  obtain ⟨_, _, _, _, _, _, _, _, _, _⟩ := o
  simp only [norm, StateObject.mk.injEq] at h ⊢
  tauto

theorem norm_code {o p q : StateObject} (hq : q.code = p.code) (h : o.norm = p.norm) :
    ({ q with code := o.code } : StateObject).norm = q.norm := by
  simp only [norm, StateObject.mk.injEq, true_and, and_true, hq]
  exact congrArg StateObject.code h

/-- **A method that works in place**: it leaves `dirty` a map or nil as
it is, it leaves a code entry in place but for its hash, and it does not
notice whether that was recomputed. -/
structure InPlace {α : Type} (f : StateObject → α × StateObject) : Prop where
  dirty : ∀ o, (f o).2.dirty.isSome = o.dirty.isSome
  code : ∀ o e, o.code = some e → ∃ e', (f o).2.code = some e' ∧ e'.rehash = e.rehash
  value : ∀ o, (f o.norm).1 = (f o).1
  norm : ∀ o, (f o.norm).2.norm = (f o).2.norm

section InPlace

variable {α β : Type} {f : StateObject → α × StateObject} (tx : StorageTx) (a : Address)

/-- What a method returns may be wrapped. -/
theorem InPlace.map (h : InPlace f) (g : α → β) : InPlace (fun o => (f o).map g id) where
  dirty := h.dirty
  code := h.code
  value o := congrArg g (h.value o)
  norm := h.norm

/-- One method after another. -/
theorem InPlace.bind (hf : InPlace f) {g : α → StateObject → β × StateObject}
    (hg : ∀ v, InPlace (g v)) : InPlace (fun o => g (f o).1 (f o).2) := by
  refine ⟨fun o => ((hg _).dirty _).trans (hf.dirty o), fun o e he => ?_, fun o => ?_, fun o => ?_⟩
  · obtain ⟨e₁, he₁, hr₁⟩ := hf.code o e he
    obtain ⟨e₂, he₂, hr₂⟩ := (hg (f o).1).code _ e₁ he₁
    exact ⟨e₂, he₂, hr₂.trans hr₁⟩
  · rw [hf.value, ← (hg _).value, hf.norm, (hg _).value]
  · rw [hf.value, ← (hg _).norm, hf.norm, (hg _).norm]

/-- A method that may have nothing to do. -/
theorem InPlace.ite {c : StateObject → Prop} [DecidablePred c]
    (hc : ∀ o : StateObject, c o.norm = c o) (v : α) (hf : InPlace f) :
    InPlace (fun o => if c o then (v, o) else f o) := by
  refine ⟨fun o => ?_, fun o e he => ?_, fun o => ?_, fun o => ?_⟩
  · split_ifs
    · rfl
    · exact hf.dirty o
  · split_ifs
    · exact ⟨e, he, rfl⟩
    · exact hf.code o e he
  · simp only [hc]
    split_ifs
    · rfl
    · exact hf.value o
  · simp only [hc]
    split_ifs
    · exact norm_norm o
    · exact hf.norm o

/-- A method that does not touch the code entry. -/
theorem InPlace.of_code (hd : ∀ o, (f o).2.dirty.isSome = o.dirty.isSome)
    (hc : ∀ (o : StateObject) code, f { o with code := code }
      = ((f o).1, { (f o).2 with code := code })) : InPlace f where
  dirty := hd
  code o e he := by
    refine ⟨e, ?_, rfl⟩
    have h := hc o o.code
    rw [show f o = f { o with code := o.code } from rfl, h]
    exact he
  value o := by rw [StateObject.norm, hc]
  norm o := by
    have h := hc o o.code
    have hcode : (f o).2.code = o.code := by
      rw [show f o = f { o with code := o.code } from rfl, h]
    show StateObject.norm (f { o with code := o.code.map rehash }).2 = _
    rw [hc o (o.code.map rehash)]
    simp only [StateObject.norm, hcode, map_map, comp_def,
      rehash_rehash]

theorem inPlace_loadAccount : InPlace (loadAccount tx a) :=
  .of_code (fun o => by rw [loadAccount_eq]) (fun o code => by
    rw [loadAccount_eq, loadAccount_eq]
    rfl)

theorem inPlace_getNonce : InPlace (getNonce tx a) := by
  refine .of_code (fun o => by rw [getNonce_snd]) (fun o code => Prod.ext ?_ ?_)
  · rw [getNonce_fst, getNonce_fst]
    rfl
  · rw [getNonce_snd, getNonce_snd]
    rfl

theorem inPlace_getCommittedState (k : Hash) : InPlace (getCommittedState tx a k) :=
  .of_code (fun o => by rw [getCommittedState_eq]) (fun o code => by
    rw [getCommittedState_eq, getCommittedState_eq]
    rfl)

theorem inPlace_getState (k : Hash) : InPlace (getState tx a k) := by
  refine .of_code (fun o => ?_) (fun o code => ?_)
  · unfold getState
    cases o.dirty.bind (fun m => m k) with
    | some v => rfl
    | none => exact (inPlace_getCommittedState tx a k).dirty o
  · unfold getState
    dsimp only
    cases o.dirty.bind (fun m => m k) with
    | some v => rfl
    | none =>
      dsimp only
      rw [getCommittedState_eq, getCommittedState_eq]
      rfl

theorem codeEntry_norm (o : StateObject) :
    (o.norm.codeEntry tx a).rehash = (o.codeEntry tx a).rehash := by
  unfold codeEntry
  rw [show o.norm.record tx a = o.record tx a from rfl]
  cases hc : o.code <;> simp [StateObject.norm, hc]

theorem inPlace_getCode : InPlace (getCode tx a) := by
  have hsnd : ∀ o : StateObject, (o.getCode tx a).2 = (o.loadCode tx a).2 := by
    intro o
    unfold getCode
    rcases o.loadCode tx a with ⟨_ | _, o'⟩ <;> rfl
  refine ⟨fun o => ?_, fun o e he => ?_, fun o => ?_, fun o => ?_⟩
  · rw [hsnd, loadCode_eq]
    split_ifs <;> rfl
  · rw [hsnd, loadCode_eq, if_pos (.inr (he ▸ rfl))]
    exact ⟨e, he, rfl⟩
  · rw [getCode_fst, getCode_fst]
    unfold codeOf
    have h := congrArg CodeEntry.code (codeEntry_norm tx a o)
    rw [rehash_code, rehash_code] at h
    rw [h]
    rfl
  · rw [hsnd, hsnd, loadCode_eq, loadCode_eq]
    rw [show o.norm.deleted = o.deleted from rfl,
      show o.norm.code.isSome = o.code.isSome from isSome_map]
    split_ifs with hd
    · exact norm_norm o
    · have hn : o.code = none := by
        rw [not_or, not_isSome_iff_eq_none] at hd
        exact hd.2
      have hnorm : o.norm = o := by
        rw [StateObject.norm, hn]
        obtain ⟨_, _, code, _, _, _, _, _, _, _⟩ := o
        obtain rfl : code = none := hn
        rfl
      rw [hnorm]

/-- What `getCodeHash` leaves: the code, if it was asked for, loaded and
rehashed. -/
theorem getCodeHash_snd (o : StateObject) :
    (o.getCodeHash tx a).2 = if o.account.isSome ∨ o.deleted then o
      else { o with
        account := if o.code.isSome then none else o.record tx a
        code := some (o.codeEntry tx a).rehash } := by
  obtain ⟨account, _, code, _, _, _, _, deleted, _, _⟩ := o
  cases account with
  | some account => rfl
  | none =>
    unfold getCodeHash
    rw [loadCode_eq]
    cases deleted with
    | true => rfl
    | false => cases code <;> simp [codeEntry, getHash]

theorem inPlace_getCodeHash : InPlace (getCodeHash tx a) := by
  refine ⟨fun o => ?_, fun o e he => ?_, fun o => ?_, fun o => ?_⟩
  · rw [getCodeHash_snd]
    split_ifs <;> rfl
  · rw [getCodeHash_snd]
    by_cases h : o.account.isSome ∨ o.deleted
    · rw [if_pos h]
      exact ⟨e, he, rfl⟩
    · rw [if_neg h]
      exact ⟨_, rfl, by simp [codeEntry, he]⟩
  · rw [getCodeHash_fst, getCodeHash_fst, codeEntry_norm]
    rfl
  · rw [getCodeHash_snd, getCodeHash_snd, codeEntry_norm,
      show o.norm.code.isSome = o.code.isSome from isSome_map]
    show StateObject.norm (if o.account.isSome ∨ o.deleted then o.norm else _) = _
    by_cases h : o.account.isSome ∨ o.deleted
    · rw [if_pos h, if_pos h]
      exact norm_norm o
    · rw [if_neg h, if_neg h]
      rfl

theorem inPlace_empty : InPlace (empty tx a) := by
  have hbalance : ∀ o : StateObject, (o.norm.getBalance ≠ 0) = (o.getBalance ≠ 0) := fun _ => rfl
  refine (inPlace_getNonce tx a).bind (g := fun n o => if n ≠ 0 then (false, o)
    else if o.getBalance ≠ 0 then (false, o) else (o.getCodeHash tx a).map (· == emptyCode) id)
    fun n => .ite (fun _ => rfl) false (.ite hbalance false ((inPlace_getCodeHash tx a).map _))

end InPlace

/-- The getters work in place. -/
theorem inPlace_reader {tx : StorageTx} {o : Op} {a : Address}
    {f : StateObject → Value × StateObject} (h : Handle.reader tx o = some (a, f)) :
    InPlace f := by
  cases o with
  | getBalance a =>
    cases h
    refine .of_code (fun o => by rw [loadAccount_eq]) (fun o code => ?_)
    rw [loadAccount_eq, loadAccount_eq]
    rfl
  | getNonce a =>
    cases h
    exact (inPlace_getNonce tx a).map _
  | getCodeHash a =>
    cases h
    exact (inPlace_getCodeHash tx a).map _
  | getCode a | getCodeSize a =>
    cases h
    exact (inPlace_getCode tx a).map _
  | getCommittedState a k =>
    cases h
    exact (inPlace_getCommittedState tx a (slotKey k)).map _
  | getState a k =>
    cases h
    exact (inPlace_getState tx a (slotKey k)).map _
  | hasSuicided a =>
    cases h
    exact .of_code (fun _ => rfl) (fun _ _ => rfl)
  | exist a | empty a =>
    cases h
    exact .ite (fun _ => rfl) _ ((inPlace_empty tx a).map _)
  | _ => cases h

end StateObject

/-- The setters that work in place. -/
def ObjectOp.isInPlace : ObjectOp → Bool
  | setCode _ | setStorage _ => false
  | _ => true

/-- The undos that work in place. -/
def ObjectUndo.isInPlace : ObjectUndo → Bool
  | code _ | dirtyMap _ => false
  | _ => true

section Undos

omit [Keccak]

/-- An undo in place leaves the code alone, and `dirty` a map or nil. -/
theorem ObjectUndo.run_inPlace {u : ObjectUndo} (hu : u.isInPlace) {o p : StateObject}
    (h : u.run o = some p) :
    p.code = o.code ∧ p.dirty.isSome = o.dirty.isSome
      ∧ ∀ code, u.run { o with code := code } = some { p with code := code } := by
  cases u with
  | code | dirtyMap => cases hu
  | balanceDeltaAdd x | balanceDeltaSub x =>
    obtain ⟨d, hd, rfl⟩ := map_eq_some_iff.mp h
    exact ⟨rfl, rfl, fun code => map_eq_some_iff.mpr ⟨d, hd, rfl⟩⟩
  | dirtyPut k old =>
    obtain ⟨m, hm, rfl⟩ := map_eq_some_iff.mp h
    exact ⟨rfl, by rw [hm]; rfl, fun code => map_eq_some_iff.mpr ⟨m, hm, rfl⟩⟩
  | dirtyDelete k =>
    cases h
    exact ⟨rfl, isSome_map, fun _ => rfl⟩
  | _ =>
    cases h
    exact ⟨rfl, rfl, fun _ => rfl⟩

theorem ObjectUndo.run_code {u : ObjectUndo} (hu : u.isInPlace) (o : StateObject)
    (code : Option CodeEntry) : u.run { o with code := code }
      = (u.run o).map (fun p => { p with code := code }) := by
  cases h : u.run o with
  | some p => exact (run_inPlace hu h).2.2 code
  | none => cases h' : u.run { o with code := code } with
    | none => rfl
    | some p => cases h.symm.trans ((run_inPlace hu h').2.2 o.code)

end Undos

/-- So does a setter, and its undo. -/
theorem ObjectOp.run_inPlace {c : ObjectOp} (hc : c.isInPlace) {o : StateObject}
    {r : StateObject × ObjectUndo} (h : c.run o = some r) :
    r.1.code = o.code ∧ r.1.dirty.isSome = o.dirty.isSome ∧ r.2.isInPlace = true
      ∧ ∀ code, c.run { o with code := code } = some ({ r.1 with code := code }, r.2) := by
  cases c with
  | setCode | setStorage => cases hc
  | subBalance x | addBalance x =>
    cases h
    simp only [ObjectOp.run, StateObject.subBalance, StateObject.addBalance]
    cases o.balanceDelta <;> exact ⟨rfl, rfl, rfl, fun _ => rfl⟩
  | setState k v =>
    obtain ⟨m, hm, rfl⟩ := map_eq_some_iff.mp h
    refine ⟨rfl, by rw [hm]; rfl, ?_, fun code => map_eq_some_iff.mpr ⟨m, hm, rfl⟩⟩
    cases m k <;> rfl
  | suicide =>
    simp only [ObjectOp.run, StateObject.suicide] at h ⊢
    split_ifs at h ⊢
    cases h
    exact ⟨rfl, rfl, rfl, fun _ => rfl⟩
  | setBalance x | setNonce n =>
    cases h
    exact ⟨rfl, rfl, rfl, fun _ => rfl⟩

theorem ObjectOp.run_code {c : ObjectOp} (hc : c.isInPlace) (o : StateObject)
    (code : Option CodeEntry) : c.run { o with code := code }
      = (c.run o).map (fun r => ({ r.1 with code := code }, r.2)) := by
  cases h : c.run o with
  | some r => exact (run_inPlace hc h).2.2.2 code
  | none => cases h' : c.run { o with code := code } with
    | none => rfl
    | some r => cases h.symm.trans ((run_inPlace hc h').2.2.2 o.code)

/-! ## Labels -/

/-- Where the reference of an object is kept. -/
inductive ObjectPlace where
  | state (addr : Address)
  | entry (i : ℕ)

/-- Where the reference of a map is kept. -/
inductive MapPlace where
  | dirty (r : Ref)
  | entry (i : ℕ)
  | transient (addr : Address)

/-- **A label for every cell**: which of several handles has a reference
to it, and where. -/
structure Labels (ι : Type) where
  object : Ref → ι × ObjectPlace
  map : Ref → ι × MapPlace

variable {ι : Type}

/-- **A change of the memory that leaves some cells alone**: those with
labels in `P` and `M`. Code entries keep all but their hash. -/
structure Heap.Agree (P : ι × ObjectPlace → Prop) (M : ι × MapPlace → Prop)
    (L L' : Labels ι) (h h' : Heap) : Prop where
  next : h.next ≤ h'.next
  objects : ∀ r < h.next, P (L.object r) →
    h'.objects r = h.objects r ∧ L'.object r = L.object r
  maps : ∀ m < h.next, M (L.map m) → h'.maps m = h.maps m ∧ L'.map m = L.map m
  codes : ∀ c < h.next, (h'.codes c).rehash = (h.codes c).rehash

/-- A change that leaves the cells of all other handles alone. -/
abbrev Heap.Frame (i : ι) : Labels ι → Labels ι → Heap → Heap → Prop :=
  Heap.Agree (fun l => l.1 ≠ i) (fun l => l.1 ≠ i)

/-- **A cell has an object**, up to the hash of its code entry, and a map
of its own. -/
structure Holds (L : Labels ι) (i : ι) (h : Heap) (r : Ref) (o : StateObject) : Prop where
  lt : r < h.next
  value : (h.get r).norm = o.norm
  code : ∀ c, (h.objects r).code = some c → c < h.next
  dirty : ∀ m, (h.objects r).dirty = some m → m < h.next ∧ L.map m = (i, .dirty r)

/-- **An entry of a journal**, the `k`-th from the bottom. -/
inductive EntryRep (L : Labels ι) (i : ι) (h : Heap) (k : ℕ) : HeapEntry → JournalEntry → Prop
  | inPlace {a : Address} {u : ObjectUndo} : u.isInPlace = true →
    EntryRep L i h k (.object a (.inPlace u)) (.object a u)
  | code {a : Address} {old : Option Ref} {old' : Option CodeEntry} :
    (∀ c, old = some c → c < h.next) →
    (old.map h.codes).map rehash = old'.map rehash →
    EntryRep L i h k (.object a (.code old)) (.object a (.code old'))
  | dirtyMap {a : Address} {old : Option Ref} {old' : Option Storage} :
    (∀ m, old = some m → m < h.next ∧ L.map m = (i, .entry k)) → old.map h.maps = old' →
    EntryRep L i h k (.object a (.dirtyMap old)) (.object a (.dirtyMap old'))
  | createAccount {a : Address} {r : Ref} {o : StateObject} : L.object r = (i, .entry k) →
    Holds L i h r o → EntryRep L i h k (.createAccount a r) (.createAccount a o)
  | refund (old : UInt64) : EntryRep L i h k (.refund old) (.refund old)
  | transient (a : Address) (slot old : Hash) :
    EntryRep L i h k (.transient a slot old) (.transient a slot old)
  | accessListAddress (a : Address) :
    EntryRep L i h k (.accessListAddress a) (.accessListAddress a)
  | accessListSlot (a : Address) (slot : Hash) :
    EntryRep L i h k (.accessListSlot a slot) (.accessListSlot a slot)

/-- **A journal** above a floor. -/
inductive JournalRep (L : Labels ι) (i : ι) (floor : ℕ) (h : Heap) :
    List HeapEntry → List JournalEntry → Prop
  | floor {es : List HeapEntry} {es' : List JournalEntry} : es.length = floor →
    es'.length = floor → JournalRep L i floor h es es'
  | cons {e : HeapEntry} {e' : JournalEntry} {es : List HeapEntry} {es' : List JournalEntry} :
    EntryRep L i h es.length e e' → JournalRep L i floor h es es' →
    JournalRep L i floor h (e :: es) (e' :: es')

/-- **The value of a handle.** -/
structure HandleRep (L : Labels ι) (i : ι) (floor : ℕ) (h : Heap) (s : Handle) (σ : StateDB) :
    Prop where
  tx : s.tx = σ.tx
  refund : s.refund = σ.refund
  accessList : s.accessList = σ.accessList
  alcalc : s.alcalc = σ.alcalc
  keys : (s.state.map Prod.fst).Nodup
  state : ∀ a, Rel (fun r o => L.object r = (i, .state a) ∧ Holds L i h r o)
    (s.state.lookup a) (σ.state a)
  transient : ∀ a, Rel
    (fun m f => m < h.next ∧ L.map m = (i, .transient a) ∧ h.maps m = f)
    (s.transient.lookup a) (σ.transient a)
  journal : JournalRep L i floor h s.journal σ.journal

section Agree

variable {P : ι × ObjectPlace → Prop} {M : ι × MapPlace → Prop} {L L' : Labels ι} {i : ι}
  {h h' : Heap} {r : Ref} {o : StateObject}

theorem Heap.Agree.refl (P : ι × ObjectPlace → Prop) (M : ι × MapPlace → Prop) (L : Labels ι)
    (h : Heap) : Heap.Agree P M L L h h :=
  ⟨le_rfl, fun _ _ _ => ⟨rfl, rfl⟩, fun _ _ _ => ⟨rfl, rfl⟩, fun _ _ => rfl⟩

theorem Heap.Agree.mono {P' : ι × ObjectPlace → Prop} {M' : ι × MapPlace → Prop}
    (ha : Heap.Agree P M L L' h h') (hP : ∀ l, P' l → P l) (hM : ∀ l, M' l → M l) :
    Heap.Agree P' M' L L' h h' :=
  ⟨ha.next, fun r hr hl => ha.objects r hr (hP _ hl), fun m hm hl => ha.maps m hm (hM _ hl),
    ha.codes⟩

theorem Heap.Agree.trans {L'' : Labels ι} {h'' : Heap} (ha : Heap.Agree P M L L' h h')
    (hb : Heap.Agree P M L' L'' h' h'') : Heap.Agree P M L L'' h h'' := by
  refine ⟨ha.next.trans hb.next, fun r hr hl => ?_, fun m hm hl => ?_, fun c hc => ?_⟩
  · obtain ⟨h₁, hL₁⟩ := ha.objects r hr hl
    obtain ⟨h₂, hL₂⟩ := hb.objects r (hr.trans_le ha.next) (hL₁ ▸ hl)
    exact ⟨h₂.trans h₁, hL₂.trans hL₁⟩
  · obtain ⟨h₁, hL₁⟩ := ha.maps m hm hl
    obtain ⟨h₂, hL₂⟩ := hb.maps m (hm.trans_le ha.next) (hL₁ ▸ hl)
    exact ⟨h₂.trans h₁, hL₂.trans hL₁⟩
  · exact (hb.codes c (hc.trans_le ha.next)).trans (ha.codes c hc)

theorem Heap.Agree.map_codes (ha : Heap.Agree P M L L' h h') {old : Option Ref}
    (hlt : ∀ c, old = some c → c < h.next) :
    (old.map h'.codes).map rehash = (old.map h.codes).map rehash := by
  cases hold : old with
  | none => rfl
  | some c => exact congrArg some (ha.codes c (hlt c hold))

/-- A map that is left alone. -/
theorem Heap.Agree.map_maps (ha : Heap.Agree P M L L' h h') {old : Option Ref} {l : ι × MapPlace}
    (hlt : ∀ m, old = some m → m < h.next ∧ L.map m = l) (hM : M l) :
    (∀ m, old = some m → m < h'.next ∧ L'.map m = l) ∧ old.map h'.maps = old.map h.maps := by
  have hmap : ∀ m, old = some m → h'.maps m = h.maps m ∧ L'.map m = L.map m :=
    fun m hm => ha.maps m (hlt m hm).1 (by rw [(hlt m hm).2]; exact hM)
  refine ⟨fun m hm => ⟨(hlt m hm).1.trans_le ha.next, (hmap m hm).2.trans (hlt m hm).2⟩, ?_⟩
  cases hold : old with
  | none => rfl
  | some m => exact congrArg some (hmap m hold).1

theorem Holds.code_eq (hh : Holds L i h r o) :
    ((h.objects r).code.map h.codes).map rehash = o.code.map rehash :=
  congrArg StateObject.code hh.value

theorem Holds.dirty_eq (hh : Holds L i h r o) : (h.objects r).dirty.map h.maps = o.dirty :=
  congrArg StateObject.dirty hh.value

/-- What a cell has, it keeps if it and its map are left alone. -/
theorem Holds.agree (hh : Holds L i h r o) (ha : Heap.Agree P M L L' h h')
    (hP : P (L.object r)) (hM : M (i, .dirty r)) : Holds L' i h' r o := by
  obtain ⟨hlt, hv, hc, hd⟩ := hh
  have hobj := (ha.objects r hlt hP).1
  obtain ⟨hmap, hdirty⟩ := ha.map_maps hd hM
  refine ⟨hlt.trans_le ha.next, ?_, ?_, hobj ▸ hmap⟩
  · rw [← hv]
    simp only [Heap.get, StateObject.norm, hobj, ha.map_codes hc, hdirty]
  · rw [hobj]
    exact fun c hcr => (hc c hcr).trans_le ha.next

theorem EntryRep.agree {k : ℕ} {e : HeapEntry} {e' : JournalEntry}
    (he : EntryRep L i h k e e') (ha : Heap.Agree P M L L' h h') (hP : P (i, .entry k))
    (hM : M (i, .entry k))
    (hdirty : ∀ r < h.next, L.object r = (i, .entry k) → M (i, .dirty r)) :
    EntryRep L' i h' k e e' := by
  cases he with
  | inPlace hu => exact .inPlace hu
  | @code a old old' hlt hv =>
    exact .code (fun c hc => (hlt c hc).trans_le ha.next) ((ha.map_codes hlt).trans hv)
  | @dirtyMap a old old' hlt hv =>
    obtain ⟨hmap, hmaps⟩ := ha.map_maps hlt hM
    exact .dirtyMap hmap (hmaps.trans hv)
  | createAccount hl hh =>
    refine .createAccount ?_ (hh.agree ha (hl ▸ hP) (hdirty _ hh.lt hl))
    rw [(ha.objects _ hh.lt (hl ▸ hP)).2, hl]
  | refund | transient | accessListAddress | accessListSlot => constructor

variable {floor : ℕ} {es : List HeapEntry} {es' : List JournalEntry}

theorem JournalRep.agree (hj : JournalRep L i floor h es es') (ha : Heap.Agree P M L L' h h')
    (hP : ∀ k < es.length, P (i, .entry k)) (hM : ∀ k < es.length, M (i, .entry k))
    (hdirty : ∀ r < h.next, ∀ k < es.length, L.object r = (i, .entry k) → M (i, .dirty r)) :
    JournalRep L' i floor h' es es' := by
  induction hj with
  | floor hes hes' => exact .floor hes hes'
  | @cons e e' es es' he _ ih =>
    have hlt : ∀ {k}, k < es.length → k < (e :: es).length := fun hk => Nat.lt_succ_of_lt hk
    have hes : es.length < (e :: es).length := Nat.lt_succ_self _
    exact .cons (he.agree ha (hP _ hes) (hM _ hes) (fun r hr => hdirty r hr _ hes))
      (ih (fun k hk => hP k (hlt hk)) (fun k hk => hM k (hlt hk))
        (fun r hr k hk => hdirty r hr k (hlt hk)))

theorem JournalRep.length_eq (hj : JournalRep L i floor h es es') :
    es'.length = es.length ∧ floor ≤ es.length := by
  induction hj with
  | floor hes hes' => exact ⟨hes'.trans hes.symm, hes.ge⟩
  | cons _ _ ih =>
    exact ⟨by simp [ih.1], by rw [List.length_cons]; exact ih.2.trans (Nat.le_succ _)⟩

/-- The newest entry, and the others. -/
theorem JournalRep.tail {e : HeapEntry} {e' : JournalEntry}
    (hj : JournalRep L i floor h (e :: es) (e' :: es')) (hfloor : floor ≤ es.length) :
    EntryRep L i h es.length e e' ∧ JournalRep L i floor h es es' := by
  cases hj with
  | floor hes _ =>
    rw [List.length_cons] at hes
    omega
  | cons he hj => exact ⟨he, hj⟩

end Agree

/-! ## Objects -/

section Lookup

omit [Keccak]

theorem lookup_filter_ne {a b : Address} (hb : b ≠ a) (m : List (Address × Ref)) :
    (m.filter (fun p => p.1 ≠ a)).lookup b = m.lookup b := by
  induction m with
  | nil => rfl
  | cons p m ih =>
    obtain ⟨c, r⟩ := p
    by_cases hc : c = a
    · subst hc
      rw [List.filter_cons_of_neg (by simp), ih, List.lookup_cons, beq_eq_false_iff_ne.mpr hb]
    · rw [List.filter_cons_of_pos (by simpa using hc), List.lookup_cons, List.lookup_cons, ih]

/-- Assigning to a key of a map. -/
theorem lookup_assign (a b : Address) (r : Ref) (m : List (Address × Ref)) :
    (assign a r m).lookup b = if b = a then some r else m.lookup b := by
  rw [assign, List.lookup_cons]
  by_cases hb : b = a
  · simp [hb]
  · rw [beq_eq_false_iff_ne.mpr hb, if_neg hb]
    exact lookup_filter_ne hb m

theorem nodup_assign (a : Address) (r : Ref) {m : List (Address × Ref)}
    (hm : (m.map Prod.fst).Nodup) : ((assign a r m).map Prod.fst).Nodup := by
  refine List.nodup_cons.mpr ⟨fun hmem => ?_, hm.sublist (List.filter_sublist.map _)⟩
  obtain ⟨p, hp, hpa⟩ := List.mem_map.mp hmem
  exact of_decide_eq_true (List.mem_filter.mp hp).2 hpa

theorem lookup_same {m : List (Address × Ref)} {a : Address} {r : Ref} (hr : m.lookup a = some r)
    (b : Address) : m.lookup b = if b = a then some r else m.lookup b := by
  split_ifs with hb
  · rw [hb, hr]
  · rfl

/-- The value under a key is that of its entry. -/
theorem lookup_eq_some_iff {m : List (Address × Ref)} (hm : (m.map Prod.fst).Nodup)
    {a : Address} {r : Ref} : m.lookup a = some r ↔ (a, r) ∈ m := by
  induction m with
  | nil => simp
  | cons p m ih =>
    obtain ⟨b, r'⟩ := p
    obtain ⟨hb, hm⟩ := List.nodup_cons.mp hm
    rw [List.lookup_cons, List.mem_cons]
    by_cases hab : a = b
    · subst hab
      have hmem : (a, r) ∉ m := fun hmem => hb (List.mem_map.mpr ⟨_, hmem, rfl⟩)
      simp [hmem, eq_comm]
    · rw [beq_eq_false_iff_ne.mpr hab]
      simp [hab, ih hm]

/-- The value under a key of a map whose values are numbered anew. -/
theorem lookup_mapIdx (f : ℕ → Ref) (m : List (Address × Ref)) (a : Address) :
    Rel (fun r r' => ∃ n, m[n]? = some (a, r) ∧ r' = f n) (m.lookup a)
      ((m.mapIdx (fun n p => (p.1, f n))).lookup a) := by
  induction m generalizing f with
  | nil => exact .none
  | cons p m ih =>
    obtain ⟨b, r⟩ := p
    rw [List.mapIdx_cons, List.lookup_cons, List.lookup_cons]
    by_cases hab : a = b
    · subst hab
      simp only [beq_self_eq_true]
      exact .some ⟨0, rfl, rfl⟩
    · simp only [beq_eq_false_iff_ne.mpr hab]
      exact (ih (fun n => f (n + 1))).mono fun r r' ⟨n, hn, hr'⟩ => ⟨n + 1, hn, hr'⟩

end Lookup

/-- The objects that a change of an address's leaves alone: those of
other addresses, and of the entries below `n`. -/
def ObjectAway (i : ι) (a : Address) (n : ℕ) (l : ι × ObjectPlace) : Prop :=
  l ≠ (i, .state a) ∧ ∀ k, n ≤ k → l ≠ (i, .entry k)

/-- The maps that a change of an object leaves alone: those of other
objects, of the entries below `n`, and of transient storage. -/
def MapAway (i : ι) (r : Ref) (n : ℕ) (l : ι × MapPlace) : Prop :=
  l ≠ (i, .dirty r) ∧ ∀ k, n ≤ k → l ≠ (i, .entry k)

section Away

omit [Keccak]

variable {i j : ι} {a b : Address} {r r' : Ref} {n k : ℕ}

theorem objectAway_state (hb : b ≠ a) : ObjectAway i a n (i, .state b) :=
  ⟨by simpa using hb, by simp⟩

theorem objectAway_entry (hk : k < n) : ObjectAway i a n (i, .entry k) :=
  ⟨by simp, fun k' hk' heq => by cases heq; omega⟩

theorem objectAway_of_ne {l : ι × ObjectPlace} (hl : l.1 ≠ i) : ObjectAway i a n l :=
  ⟨fun heq => hl (heq ▸ rfl), fun _ _ heq => hl (heq ▸ rfl)⟩

theorem mapAway_dirty (hr : r' ≠ r) : MapAway i r n (i, .dirty r') :=
  ⟨by simpa using hr, by simp⟩

theorem mapAway_entry (hk : k < n) : MapAway i r n (i, .entry k) :=
  ⟨by simp, fun k' hk' heq => by cases heq; omega⟩

theorem mapAway_transient : MapAway i r n (i, .transient a) := ⟨by simp, by simp⟩

theorem mapAway_of_ne {l : ι × MapPlace} (hl : l.1 ≠ i) : MapAway i r n l :=
  ⟨fun heq => hl (heq ▸ rfl), fun _ _ heq => hl (heq ▸ rfl)⟩

end Away

/-! ## Writing an object in place -/

namespace Heap

variable {L : Labels ι} {i : ι} {h : Heap} {r : Ref} {o p q : StateObject}

omit [Keccak] in
theorem get_put (hd : p.dirty.isSome = (h.objects r).dirty.isSome) : (h.put r p).get r = p := by
  obtain ⟨_, _, code, dirty, _, _, _, _, _, _⟩ := p
  simp only [get, put, update_self, StateObject.mk.injEq, true_and, and_true]
  refine ⟨?_, ?_⟩
  · cases code <;> simp
  · cases hc : (h.objects r).dirty <;> cases dirty <;> simp [hc] at hd ⊢

/-- Only the object, its map and its code entry are written. -/
theorem agree_put (hh : Holds L i h r o)
    (hc : ∀ e, (h.get r).code = some e → ∃ e', p.code = some e' ∧ e'.rehash = e.rehash) :
    Agree (· ≠ L.object r) (· ≠ (i, .dirty r)) L L h (h.put r p) := by
  refine ⟨Nat.le_succ _, fun r' _ hne => ⟨?_, rfl⟩, fun m _ hne => ⟨?_, rfl⟩, fun c hlt => ?_⟩
  · have hr' : r' ≠ r := fun heq => hne (by rw [heq])
    exact update_of_ne hr' _ _
  · have hm' : ∀ m', (h.objects r).dirty = some m' → m ≠ m' :=
      fun m' hr heq => hne (by rw [heq, (hh.dirty m' hr).2])
    unfold put
    dsimp only
    cases hr : (h.objects r).dirty with
    | none => rfl
    | some m' => cases p.dirty with
      | none => rfl
      | some f => exact update_of_ne (hm' m' hr) _ _
  · unfold put
    dsimp only
    cases hp : p.code with
    | none => rfl
    | some e =>
      dsimp only
      by_cases hcr : c = (h.objects r).code.getD h.next
      · rw [hcr, update_self]
        cases hr : (h.objects r).code with
        | none =>
          rw [hr, getD_none] at hcr
          exact absurd hlt (hcr ▸ lt_irrefl _)
        | some c' =>
          obtain ⟨e', he', hre⟩ := hc (h.codes c') (by simp [get, hr])
          obtain rfl := Option.some.inj (he'.symm.trans hp)
          exact hre
      · rw [update_of_ne hcr]

end Heap

/-- What is written is held. -/
theorem Holds.put {L : Labels ι} {i : ι} {h : Heap} {r : Ref} {o p q : StateObject}
    (hh : Holds L i h r o)
    (hd : p.dirty.isSome = (h.objects r).dirty.isSome) (hpq : p.norm = q.norm) :
    Holds L i (h.put r p) r q := by
  have hobj : (h.put r p).objects r = _ := update_self _ _ _
  refine ⟨Nat.lt_succ_of_lt hh.lt, by rw [Heap.get_put hd, hpq], fun c hc => ?_, fun m hm => ?_⟩
  · rw [hobj] at hc
    split_ifs at hc with hp
    cases hc
    cases hr : (h.objects r).code with
    | none => exact Nat.lt_succ_self _
    | some c => exact Nat.lt_succ_of_lt (hh.code c hr)
  · rw [hobj] at hm
    exact ⟨Nat.lt_succ_of_lt (hh.dirty m hm).1, (hh.dirty m hm).2⟩

/-- The labels with those of a new object. -/
def Labels.alloc (L : Labels ι) (i : ι) (a : Address) (r : Ref) : Labels ι where
  object := Function.update L.object r (i, .state a)
  map := Function.update L.map r (i, .dirty r)

theorem Heap.agree_alloc (L : Labels ι) (i : ι) (a : Address) (h : Heap) (c : Cell) :
    Heap.Agree (fun _ => True) (fun _ => True) L (L.alloc i a h.next) h (h.alloc c) := by
  refine ⟨Nat.le_succ _, fun r hr _ => ?_, fun m hm _ => ?_, fun _ _ => rfl⟩
  · exact ⟨update_of_ne hr.ne _ _, update_of_ne hr.ne _ _⟩
  · exact ⟨update_of_ne hm.ne _ _, update_of_ne hm.ne _ _⟩

/-- A new object has what it was made with. -/
theorem Holds.alloc (L : Labels ι) (i : ι) (a : Address) (h : Heap) {c : Cell} {o : StateObject}
    (hc : c.code = none) (ho : (h.alloc c).get h.next = o) :
    Holds (L.alloc i a h.next) i (h.alloc c) h.next o := by
  have hobj : (h.alloc c).objects h.next = { c with dirty := some h.next } :=
    update_self _ _ _
  refine ⟨Nat.lt_succ_self _, by rw [ho], ?_, ?_⟩
  · simp [hobj, hc]
  · rw [hobj]
    rintro m ⟨⟩
    exact ⟨Nat.lt_succ_self _, update_self _ _ _⟩

/-- The labels with those of the objects of a copy, which is the handle
`j`. -/
def Labels.copy (L : Labels ι) (j : ι) (h : Heap) (s : Handle) : Labels ι where
  object r := match s.state[r - h.next]? with
    | some (a, _) => if h.next ≤ r then (j, .state a) else L.object r
    | none => L.object r
  map r := if h.next ≤ r then (j, .dirty r) else L.map r

/-! ## Handles -/

/-- A handle of a value, with the cells of all other handles left
alone. -/
def Leads (L : Labels ι) (i : ι) (floor : ℕ) (h : Heap) (p : Heap × Handle) (σ : StateDB) : Prop :=
  ∃ L', HandleRep L' i floor p.1 p.2 σ ∧ Heap.Frame i L L' h p.1

theorem Leads.trans {L L' : Labels ι} {i : ι} {floor : ℕ} {h h' : Heap} {p : Heap × Handle}
    {σ : StateDB} (hp : Leads L' i floor h' p σ) (hf : Heap.Frame i L L' h h') :
    Leads L i floor h p σ := by
  obtain ⟨L'', hrep, hf'⟩ := hp
  exact ⟨L'', hrep, hf.trans hf'⟩

/-- What a call of a handle and one of its value return and leave. -/
def Follows (L : Labels ι) (i : ι) (floor : ℕ) (h : Heap) (q : Value × Heap × Handle)
    (p : Value × StateDB) : Prop :=
  q.1 = p.1 ∧ Leads L i floor h q.2 p.2

/-- A getter of a handle is one of its value. -/
theorem Handle.reader_read {σ : StateDB} {o : Op} {a : Address}
    {f : StateObject → Value × StateObject} (h : Handle.reader σ.tx o = some (a, f)) :
    (Call.op o).run σ = some (σ.read a f) := by
  cases o with
  | getBalance b =>
    obtain ⟨rfl, rfl⟩ := Prod.mk.inj (Option.some.inj h)
    simp only [Call.run, Op.apply, Op.value, StateDB.getBalance,
      StateDB.read, map_some]
    rcases (σ.getAccount b).loadAccount σ.tx b with ⟨_ | _, o'⟩ <;> rfl
  | exist b | empty b =>
    cases h
    simp only [Call.run, Op.apply, Op.value, StateDB.exist, StateDB.empty, StateDB.read, map_some]
    split_ifs <;> rfl
  | getNonce | getCodeHash | getCode | getCodeSize | getCommittedState | getState | hasSuicided =>
    cases h
    rfl
  | _ => cases h

omit [Keccak] in
/-- An entry does not look at the journal. -/
theorem HeapEntry.undo_journal (e : HeapEntry) (h : Heap) (s : Handle) (es : List HeapEntry) :
    e.undo (h, { s with journal := es })
      = (e.undo (h, s)).map (fun p => (p.1, { p.2 with journal := es })) := by
  cases e with
  | object a u =>
    simp only [HeapEntry.undo, Handle.getAccount]
    cases s.state.lookup a <;> simp only [map_map] <;> rfl
  | transient | accessListSlot =>
    simp only [HeapEntry.undo, map_map]
    rfl
  | _ => rfl

namespace HandleRep

variable {P : ι × ObjectPlace → Prop} {M : ι × MapPlace → Prop} {L L' : Labels ι} {i : ι}
  {floor : ℕ} {h h' : Heap} {s : Handle} {σ : StateDB} {a : Address} {r : Ref} {o : StateObject}
  (hrep : HandleRep L i floor h s σ)

include hrep

/-- An address keeps its object if that is left alone. -/
theorem state_agree (ha : Heap.Agree P M L L' h h')
    (hP : P (i, .state a)) (hM : ∀ r < h.next, L.object r = (i, .state a) → M (i, .dirty r)) :
    Rel (fun r o => L'.object r = (i, .state a) ∧ Holds L' i h' r o)
      (s.state.lookup a) (σ.state a) := by
  refine (hrep.state a).mono fun r o ⟨hl, hh⟩ => ⟨?_, hh.agree ha (hl ▸ hP) (hM r hh.lt hl)⟩
  rw [(ha.objects r hh.lt (hl ▸ hP)).2, hl]

/-- So does its transient storage. -/
theorem transient_agree (ha : Heap.Agree P M L L' h h')
    (hM : M (i, .transient a)) :
    Rel (fun m f => m < h'.next ∧ L'.map m = (i, .transient a) ∧ h'.maps m = f)
      (s.transient.lookup a) (σ.transient a) := by
  refine (hrep.transient a).mono fun m f ⟨hlt, hl, hm⟩ => ?_
  obtain ⟨hm', hl'⟩ := ha.maps m hlt (hl ▸ hM)
  exact ⟨hlt.trans_le ha.next, hl'.trans hl, hm'.trans hm⟩

/-- **A handle keeps its value** if its cells are left alone. -/
theorem agree (ha : Heap.Agree P M L L' h h')
    (hP : ∀ a, P (i, .state a)) (hPe : ∀ k < s.journal.length, P (i, .entry k))
    (hM : ∀ r, P (L.object r) → M (i, .dirty r)) (hMt : ∀ a, M (i, .transient a))
    (hMe : ∀ k < s.journal.length, M (i, .entry k)) : HandleRep L' i floor h' s σ :=
  { hrep with
    state := fun a => hrep.state_agree ha (hP a) (fun r _ hl => hM r (hl ▸ hP a))
    transient := fun a => hrep.transient_agree ha (hMt a)
    journal := hrep.journal.agree ha hPe hMe (fun r _ k hk hl => hM r (hl ▸ hPe k hk)) }

omit hrep in
/-- So it does through what is done to others. -/
theorem frame {j : ι} (hrep : HandleRep L j floor h s σ) (hf : Heap.Frame i L L' h h')
    (hj : j ≠ i) : HandleRep L' j floor h' s σ :=
  hrep.agree hf (fun _ => hj) (fun _ _ => hj) (fun _ _ => hj) (fun _ => hj) (fun _ _ => hj)

/-- The object of an address. -/
theorem holds (hr : s.state.lookup a = some r) :
    L.object r = (i, .state a) ∧ Holds L i h r (σ.getAccount a) := by
  obtain ⟨o, hσ, hst⟩ := (hrep.state a).of_some hr
  unfold getAccount
  rw [hσ]
  exact hst

/-- **Changing the object of an address**, or another in its place. -/
theorem update {st : List (Address × Ref)}
    (hlook : ∀ b, st.lookup b = if b = a then some r else s.state.lookup b)
    (hkeys : (st.map Prod.fst).Nodup)
    (ha : Heap.Agree (ObjectAway i a s.journal.length) (MapAway i r s.journal.length) L L' h h')
    (hr : r < h.next → ¬ ObjectAway i a s.journal.length (L.object r))
    (hl : L'.object r = (i, .state a)) (ho : Holds L' i h' r o) :
    HandleRep L' i floor h' { s with state := st } (σ.setAccount a o) ∧ Heap.Frame i L L' h h' := by
  -- another object has another map
  have hne : ∀ r' < h.next, ∀ l, L.object r' = (i, l) →
      ObjectAway i a s.journal.length (i, l) → MapAway i r s.journal.length (i, .dirty r') := by
    intro r' hlt l hl' haway
    refine mapAway_dirty (fun heq => hr (heq ▸ hlt) ?_)
    rw [← heq, hl']
    exact haway
  refine ⟨{ hrep with
    keys := hkeys
    state := fun b => ?_
    transient := fun b => hrep.transient_agree ha mapAway_transient
    journal := hrep.journal.agree ha (fun k hk => objectAway_entry hk)
      (fun k hk => mapAway_entry hk)
      (fun r' hlt k hk hl' => hne r' hlt _ hl' (objectAway_entry hk)) },
    ha.mono (fun l => objectAway_of_ne) (fun l => mapAway_of_ne)⟩
  show Rel _ (st.lookup b) (Function.update σ.state a (some o) b)
  rw [hlook b]
  by_cases hb : b = a
  · rw [if_pos hb, hb, update_self]
    exact .some ⟨hl, ho⟩
  · rw [if_neg hb, update_of_ne hb]
    exact hrep.state_agree ha (objectAway_state hb)
      (fun r' hlt hl' => hne r' hlt _ hl' (objectAway_state hb))

/-- **Changing the object of an address in place.** -/
theorem update_same (hr : s.state.lookup a = some r)
    (ha : Heap.Agree (ObjectAway i a s.journal.length) (MapAway i r s.journal.length) L L' h h')
    (hl : L'.object r = (i, .state a)) (ho : Holds L' i h' r o) :
    HandleRep L' i floor h' s (σ.setAccount a o) ∧ Heap.Frame i L L' h h' :=
  hrep.update (lookup_same hr) hrep.keys ha (fun _ haway => haway.1 (hrep.holds hr).1) hl ho

/-- Pushing an entry. -/
theorem push {e : HeapEntry} {e' : JournalEntry}
    (he : EntryRep L i h s.journal.length e e') :
    HandleRep L i floor h { s with journal := e :: s.journal }
      { σ with journal := e' :: σ.journal } :=
  { hrep with journal := .cons he hrep.journal }

/-! ## The methods -/

/-- `getAccount`: a handle of the same value, with the object in its place. -/
theorem account (a : Address) :
    ∃ L' r h₁ s₁, s.getAccount h a = (r, h₁, s₁) ∧ Heap.Frame i L L' h h₁
      ∧ HandleRep L' i floor h₁ s₁ (σ.setAccount a (σ.getAccount a))
      ∧ s₁.state.lookup a = some r ∧ s₁.journal = s.journal
      ∧ L'.object r = (i, .state a) ∧ Holds L' i h₁ r (σ.getAccount a) := by
  unfold Handle.getAccount
  cases hr : s.state.lookup a with
  | some r =>
    obtain ⟨hl, hh⟩ := hrep.holds hr
    obtain ⟨hrep', hf⟩ := hrep.update_same hr (Heap.Agree.refl _ _ L h) hl hh
    exact ⟨L, r, h, s, rfl, hf, hrep', hr, rfl, hl, hh⟩
  | none =>
    have hσ : σ.getAccount a = {} := by
      unfold getAccount
      rw [(hrep.state a).of_none hr]
      rfl
    have hlook : ∀ b, (assign a h.next s.state).lookup b
        = if b = a then some h.next else s.state.lookup b := fun b => lookup_assign a b _ _
    have hh : Holds (L.alloc i a h.next) i (h.alloc {}) h.next {} :=
      .alloc L i a h rfl (by simp [Heap.get, Heap.alloc])
    have hl : (L.alloc i a h.next).object h.next = (i, .state a) := update_self _ _ _
    obtain ⟨hrep', hf⟩ := hrep.update hlook (nodup_assign _ _ hrep.keys)
      ((Heap.agree_alloc L i a h {}).mono (fun _ _ => trivial) (fun _ _ => trivial))
      (fun hlt => absurd hlt (lt_irrefl _)) hl hh
    rw [hσ]
    exact ⟨_, _, _, _, rfl, hf, hrep', by rw [hlook, if_pos rfl], rfl, hl, hh⟩

omit hrep in
omit [Keccak] in
@[simp] theorem setAccount_touch (σ : StateDB) (a : Address) (o : StateObject) :
    (σ.setAccount a (σ.getAccount a)).setAccount a o = σ.setAccount a o := by
  simp [setAccount]

/-- Writing the object of an address in place. -/
theorem put (hr : s.state.lookup a = some r) {p q : StateObject}
    (hd : p.dirty.isSome = (h.get r).dirty.isSome)
    (hc : ∀ e, (h.get r).code = some e → ∃ e', p.code = some e' ∧ e'.rehash = e.rehash)
    (hpq : p.norm = q.norm) :
    HandleRep L i floor (h.put r p) s (σ.setAccount a q) ∧ Heap.Frame i L L h (h.put r p) := by
  obtain ⟨hl, hh⟩ := hrep.holds hr
  refine hrep.update_same hr
    ((Heap.agree_put hh hc).mono (fun l haway => ?_) (fun l haway => haway.1))
    hl (hh.put (hd.trans isSome_map) hpq)
  rw [hl]
  exact haway.1

/-- A getter. -/
theorem read (a : Address) {α : Type}
    {f : StateObject → α × StateObject} (hf : StateObject.InPlace f) :
    (s.read h a f).1 = (σ.read a f).1 ∧ Leads L i floor h (s.read h a f).2 (σ.read a f).2 := by
  obtain ⟨L', r, h₁, s₁, heq, hframe, hrep', hr, -, -, hh⟩ := hrep.account a
  unfold Handle.read
  rw [heq]
  have hv : (f (h₁.get r)).1 = (f (σ.getAccount a)).1 := by
    rw [← hf.value, hh.value, hf.value]
  have hn : (f (h₁.get r)).2.norm = (f (σ.getAccount a)).2.norm := by
    rw [← hf.norm, hh.value, hf.norm]
  obtain ⟨hrep'', hframe'⟩ := hrep'.put hr (hf.dirty _) (hf.code _) hn
  rw [setAccount_touch] at hrep''
  exact ⟨hv, L', hrep'', hframe.trans hframe'⟩

/-- A setter that works in place. -/
theorem change (a : Address) {c : ObjectOp} (hc : c.isInPlace) :
    Rel (fun p r => Leads L i floor h p (σ.change a r)) (s.change h a c).1
        (c.run (σ.getAccount a))
      ∧ Leads L i floor h (s.change h a c).2 (σ.setAccount a (σ.getAccount a)) := by
  obtain ⟨L', r, h₁, s₁, heq, hframe, hrep', hr, -, -, hh⟩ := hrep.account a
  unfold Handle.change
  rw [heq]
  refine ⟨?_, L', hrep', hframe⟩
  have hx := StateObject.eq_of_norm hh.value
  dsimp only
  rw [hx, ObjectOp.run_code hc, map_map]
  cases hrun : c.run (σ.getAccount a) with
  | none => exact .none
  | some p =>
    obtain ⟨hcode, hdirty, hu, -⟩ := ObjectOp.run_inPlace hc hrun
    obtain ⟨hrep'', hframe'⟩ := hrep'.put hr (p := { p.1 with code := (h₁.get r).code }) (q := p.1)
      (by rw [hx]; exact hdirty) (fun e he => ⟨e, he, rfl⟩) (StateObject.norm_code hcode hh.value)
    rw [setAccount_touch] at hrep''
    exact .some ⟨L', hrep''.push (.inPlace hu), hframe.trans hframe'⟩

/-- **Another cell for the object of an address**, which may have another
code entry and another map, with the labels of the maps that change. -/
theorem setCell (hr : s.state.lookup a = some r) {M : Labels ι} {k : Heap} {c : Cell}
    (hobj : k.objects = Function.update h.objects r c) (hnext : h.next ≤ k.next)
    (hL : M.object = L.object) (hmaps : ∀ m < h.next, MapAway i r s.journal.length (L.map m) →
      k.maps m = h.maps m ∧ M.map m = L.map m)
    (hcodes : ∀ x < h.next, (k.codes x).rehash = (h.codes x).rehash)
    (hv : (k.get r).norm = o.norm) (hc : ∀ x, c.code = some x → x < k.next)
    (hd : ∀ m, c.dirty = some m → m < k.next ∧ M.map m = (i, .dirty r)) :
    HandleRep M i floor k s (σ.setAccount a o) ∧ Heap.Frame i L M h k := by
  obtain ⟨hl, hh⟩ := hrep.holds hr
  have hself : k.objects r = c := by rw [hobj, update_self]
  refine hrep.update_same hr ⟨hnext, fun r' _ haway => ⟨?_, by rw [hL]⟩, hmaps, hcodes⟩ (hL ▸ hl)
    ⟨hh.lt.trans_le hnext, hv, hself ▸ hc, hself ▸ hd⟩
  have hr' : r' ≠ r := fun heq => haway.1 (by rw [heq, hl])
  rw [hobj, update_of_ne hr']

/-- `SetCode`. -/
theorem setCode (a : Address) (code : Bytes) :
    Leads L i floor h (s.setCode h a code) (σ.setCode a code) := by
  obtain ⟨L', r, h₁, s₁, heq, hframe, hrep', hr, -, -, hh⟩ := hrep.account a
  unfold Handle.setCode
  rw [heq]
  set h₂ : Heap := { h₁ with
    objects := Function.update h₁.objects r { h₁.objects r with code := some h₁.next }
    codes := Function.update h₁.codes h₁.next ⟨code, keccak256Hash code⟩
    next := h₁.next + 1 }
  have hcodes : ∀ c < h₁.next, (h₂.codes c).rehash = (h₁.codes c).rehash :=
    fun c hc => congrArg rehash (update_of_ne hc.ne _ _)
  have hget : h₂.get r = { h₁.get r with code := some ⟨code, keccak256Hash code⟩ } := by
    simp [Heap.get, h₂]
  obtain ⟨hrep'', hframe'⟩ := hrep'.setCell (k := h₂) (o := ((σ.getAccount a).setCode code).1) hr
    rfl (Nat.le_succ _) rfl (fun _ _ _ => ⟨rfl, rfl⟩) hcodes
    (by rw [hget, StateObject.eq_of_norm hh.value]; rfl) (by rintro c ⟨⟩; exact Nat.lt_succ_self _)
    (fun m hm => ⟨Nat.lt_succ_of_lt (hh.dirty m hm).1, (hh.dirty m hm).2⟩)
  rw [setAccount_touch] at hrep''
  exact ⟨L', hrep''.push (.code (fun c hc => Nat.lt_succ_of_lt (hh.code c hc))
    ((hframe'.map_codes hh.code).trans hh.code_eq)), hframe.trans hframe'⟩

/-- `SetStorage`: the old map goes to the entry. -/
theorem setStorage (a : Address) (m : Option Storage) :
    Leads L i floor h (s.setStorage h a m) (σ.setStorage a m) := by
  obtain ⟨L', r, h₁, s₁, heq, hframe, hrep', hr, -, -, hh⟩ := hrep.account a
  unfold Handle.setStorage
  rw [heq]
  set h₂ : Heap := { h₁ with
    objects := Function.update h₁.objects r
      { h₁.objects r with dirty := m.map (fun _ => h₁.next) }
    maps := Function.update h₁.maps h₁.next (m.getD (fun _ => none))
    next := h₁.next + 1 }
  let L₂ : Labels ι := { L' with
    map := fun x => if x = h₁.next then (i, .dirty r)
      else if (h₁.objects r).dirty = some x then (i, .entry s₁.journal.length) else L'.map x }
  have hold : ∀ x < h₁.next, L₂.map x = if (h₁.objects r).dirty = some x
      then (i, .entry s₁.journal.length) else L'.map x := fun x hx => if_neg hx.ne
  have hget : h₂.get r = { h₁.get r with dirty := m } := by
    cases m <;> simp [Heap.get, h₂]
  have hv : (h₂.get r).norm = ((σ.getAccount a).setStorage m).1.norm := by
    rw [hget]
    show ({ (h₁.get r).norm with dirty := m } : StateObject)
      = { (σ.getAccount a).norm with dirty := m }
    rw [hh.value]
  obtain ⟨hrep'', hframe'⟩ := hrep'.setCell (M := L₂) (k := h₂) hr rfl (Nat.le_succ _) rfl
    (fun x hx haway => ⟨update_of_ne hx.ne _ _, by
      rw [hold x hx, if_neg (fun heq => haway.1 (hh.dirty x heq).2)]⟩) (fun _ _ => rfl) hv
    (fun c hc => Nat.lt_succ_of_lt (hh.code c hc)) (fun x hx => by
      obtain ⟨_, -, rfl⟩ := map_eq_some_iff.mp hx
      exact ⟨Nat.lt_succ_self _, if_pos rfl⟩)
  rw [setAccount_touch] at hrep''
  refine ⟨L₂, hrep''.push (.dirtyMap (fun x hx => ?_) ?_), hframe.trans hframe'⟩
  · exact ⟨Nat.lt_succ_of_lt (hh.dirty x hx).1, by rw [hold x (hh.dirty x hx).1, if_pos hx]⟩
  · rw [← hh.dirty_eq]
    cases hx : (h₁.objects r).dirty with
    | none => rfl
    | some x => exact congrArg some (update_of_ne (hh.dirty x hx).1.ne _ _)

/-- A new object in the place of an address's, which goes to the next
entry. -/
theorem replace (hr : s.state.lookup a = some r) {c : Cell}
    (hc : c.code = none) (ho : (h.alloc c).get h.next = o) :
    ∃ L', HandleRep L' i floor (h.alloc c) { s with state := assign a h.next s.state }
        (σ.setAccount a o)
      ∧ Heap.Frame i L L' h (h.alloc c) ∧ L'.object r = (i, .entry s.journal.length)
      ∧ Holds L' i (h.alloc c) r (σ.getAccount a) := by
  obtain ⟨hl, hh⟩ := hrep.holds hr
  have ha := Heap.agree_alloc L i a h c
  have hne : h.next ≠ r := hh.lt.ne'
  let L' : Labels ι :=
    { L.alloc i a h.next with
      object := Function.update (L.alloc i a h.next).object r (i, .entry s.journal.length) }
  have ha' : Heap.Agree (ObjectAway i a s.journal.length) (MapAway i h.next s.journal.length)
      L L' h (h.alloc c) := by
    refine ⟨ha.next, fun r' hr' haway => ?_, fun m hm _ => ha.maps m hm trivial, ha.codes⟩
    obtain ⟨hobj, hlabel⟩ := ha.objects r' hr' trivial
    refine ⟨hobj, ?_⟩
    have hr'' : r' ≠ r := fun heq => haway.1 (by rw [heq, hl])
    exact (update_of_ne hr'' _ _).trans hlabel
  obtain ⟨hlt, hv, hcode, hdirty⟩ := Holds.alloc L i a h hc ho
  obtain ⟨hrep', hf⟩ := hrep.update (fun b => lookup_assign a b _ _)
    (nodup_assign _ _ hrep.keys) ha' (fun hlt => absurd hlt (lt_irrefl _))
    ((update_of_ne hne _ _).trans (update_self _ _ _)) ⟨hlt, hv, hcode, hdirty⟩
  obtain ⟨hlt', hv', hcode', hdirty'⟩ := hh.agree ha trivial trivial
  exact ⟨L', hrep', hf, update_self _ _ _, hlt', hv', hcode', hdirty'⟩

/-- `CreateAccount`. -/
theorem createAccount (a : Address) :
    Leads L i floor h (s.createAccount h a) (σ.createAccount a) := by
  obtain ⟨L₁, prev, h₁, s₁, heq, hframe₁, hrep₁, hr, -, -, hh₁⟩ := hrep.account a
  rw [createAccount_replaced]
  unfold Handle.createAccount
  rw [heq]
  dsimp only
  obtain ⟨L₂, hrep₂, hframe₂, hl, hh⟩ := hrep₁.replace hr
    (c := { account := some {}, created := true })
    (o := { account := some {}, created := true }) rfl (by simp [Heap.get, Heap.alloc])
  have hlook : (assign a h₁.next s₁.state).lookup a = some h₁.next := by
    rw [lookup_assign, if_pos rfl]
  have hne : h₁.next ≠ prev := hh₁.lt.ne'
  have hframe := hframe₁.trans hframe₂
  rw [getAccount_setAccount] at hh
  rw [setAccount_touch] at hrep₂
  generalize h₁.alloc { account := some {}, created := true } = h₂ at *
  rw [show (h₂.objects prev).deleted = (σ.getAccount a).deleted from
      congrArg StateObject.deleted hh.value,
    show (h₂.objects prev).suicided = (σ.getAccount a).suicided from
      congrArg StateObject.suicided hh.value, show σ.tx = s₁.tx from hrep₁.tx.symm]
  unfold StateObject.replaced
  by_cases hc : (!(σ.getAccount a).deleted && !(σ.getAccount a).suicided) = true
  · rw [if_pos hc, if_pos hc]
    -- the old object is loaded where it is, in the entry
    have hin := StateObject.inPlace_loadAccount s₁.tx a
    have hv : (h₂.modify prev (StateObject.loadAccount s₁.tx a)).1
        = ((σ.getAccount a).loadAccount s₁.tx a).1 := by
      show ((h₂.get prev).loadAccount s₁.tx a).1 = _
      rw [← hin.value, hh.value, hin.value]
    have hag : Heap.Agree _ _ L₂ L₂ h₂ (h₂.modify prev (StateObject.loadAccount s₁.tx a)).2 :=
      Heap.agree_put hh (hin.code (h₂.get prev))
    have hh₃ : Holds L₂ i (h₂.modify prev (StateObject.loadAccount s₁.tx a)).2 prev
        ((σ.getAccount a).loadAccount s₁.tx a).2 :=
      hh.put ((hin.dirty (h₂.get prev)).trans isSome_map)
        (by rw [← hin.norm, hh.value, hin.norm])
    have hrep₃ := hrep₂.agree hag (fun b => by simp [hl]) (fun k hk => by simp [hl, hk.ne])
      (fun r' hr' heq => hr' (by cases heq; rfl)) (fun b => by simp) (fun k hk => by simp)
    have hframe₃ := hframe.trans (hag.mono (fun l hne heq => hne (by rw [heq, hl]))
      (fun l hne heq => hne (heq ▸ rfl)))
    clear hag hin
    generalize h₂.modify prev (StateObject.loadAccount s₁.tx a) = p₃,
      (σ.getAccount a).loadAccount s₁.tx a = p' at *
    obtain ⟨ok, h₃⟩ := p₃
    obtain ⟨ok', o'⟩ := p'
    obtain rfl : ok = ok' := hv
    cases ok with
    | false => exact ⟨L₂, hrep₃.push (.createAccount hl hh₃), hframe₃⟩
    | true =>
      obtain ⟨hl₃, hobj⟩ := hrep₃.holds hlook
      rw [getAccount_setAccount] at hobj
      have hget : h₃.get h₁.next = { account := some {}, created := true } := by
        have hcode : (h₃.get h₁.next).code = none :=
          map_eq_none_iff.mp (congrArg StateObject.code hobj.value)
        rw [StateObject.eq_of_norm hobj.value, hcode]
      have hbal : (h₃.get prev).getBalance = o'.getBalance := by
        rw [StateObject.eq_of_norm hh₃.value]
        rfl
      dsimp only
      rw [hget, hbal]
      let p : StateObject :=
        { account := some {}, balanceDelta := some o'.getBalance, created := true }
      have hcode : ∀ e, (h₃.get h₁.next).code = some e →
          ∃ e', p.code = some e' ∧ e'.rehash = e.rehash := by
        rw [hget]
        exact nofun
      obtain ⟨hrep₄, hframe₄⟩ := hrep₃.put hlook (p := p) (by rw [hget]) hcode rfl
      have hh₄ := hh₃.agree (Heap.agree_put hobj hcode) (by simp [hl, hl₃])
        (by simpa using hne.symm)
      refine ⟨L₂, ?_, hframe₃.trans hframe₄⟩
      have hset (o₁ o₂ : StateObject) :
          (σ.setAccount a o₁).setAccount a o₂ = σ.setAccount a o₂ := by
        simp [setAccount]
      rw [hset] at hrep₄
      exact hrep₄.push (.createAccount hl hh₄)
  · rw [if_neg hc, if_neg hc]
    exact ⟨L₂, hrep₂.push (.createAccount hl hh), hframe⟩

/-- Changing the transient storage of an address. -/
theorem updateTransient {L' : Labels ι} {h' : Heap} {m : Ref}
    {f : Storage} {tr : List (Address × Ref)}
    (hlook : ∀ b, tr.lookup b = if b = a then some m else s.transient.lookup b)
    (ha : Heap.Agree (fun _ => True) (· ≠ (i, .transient a)) L L' h h') (hlt : m < h'.next)
    (hl : L'.map m = (i, .transient a)) (hm : h'.maps m = f) :
    HandleRep L' i floor h' { s with transient := tr }
        { σ with transient := Function.update σ.transient a (some f) }
      ∧ Heap.Frame i L L' h h' := by
  refine ⟨{ hrep with
    state := fun b => hrep.state_agree ha trivial (by simp)
    transient := fun b => ?_
    journal := hrep.journal.agree ha (by simp) (by simp) (by simp) },
    ha.mono (fun _ _ => trivial) (fun l hl heq => hl (heq ▸ rfl))⟩
  show Rel _ (tr.lookup b) (Function.update σ.transient a (some f) b)
  rw [hlook b]
  by_cases hb : b = a
  · rw [if_pos hb, hb, update_self]
    exact .some ⟨hlt, hl, hm⟩
  · rw [if_neg hb, update_of_ne hb]
    exact hrep.transient_agree ha (by simpa using hb)

/-- Writing a map of transient storage in place. -/
theorem putTransient {m : Ref} (hm : s.transient.lookup a = some m)
    (f : Storage) :
    HandleRep L i floor { h with maps := Function.update h.maps m f } s
        { σ with transient := Function.update σ.transient a (some f) }
      ∧ Heap.Frame i L L h { h with maps := Function.update h.maps m f } := by
  obtain ⟨_, -, hlt, hl, -⟩ := (hrep.transient a).of_some hm
  exact hrep.updateTransient (lookup_same hm) ⟨le_rfl, fun _ _ _ => ⟨rfl, rfl⟩,
    fun x _ hx => ⟨update_of_ne (fun heq => hx (by rw [heq, hl])) _ _, rfl⟩,
    fun _ _ => rfl⟩ hlt hl (update_self _ _ _)

/-- The transient storage of an address. -/
theorem transient_map (a : Address) :
    (s.transient.lookup a).map h.maps = σ.transient a := by
  cases hm : s.transient.lookup a with
  | none => exact ((hrep.transient a).of_none hm).symm
  | some m =>
    obtain ⟨f, hf, -, -, hmaps⟩ := (hrep.transient a).of_some hm
    rw [hf]
    exact congrArg some hmaps

/-- `SetTransientState`. -/
theorem setTransientState (a : Address) (k v : Hash) :
    Leads L i floor h (s.setTransientState h a k v) (σ.setTransientState a k v) := by
  have htr := hrep.transient_map a
  unfold Handle.setTransientState StateDB.setTransientState
  dsimp only
  rw [← htr]
  cases hm : s.transient.lookup a with
  | some m =>
    obtain ⟨hrep', hf⟩ := hrep.putTransient hm (Function.update (h.maps m) k (some v))
    exact ⟨L, hrep'.push (.transient a k _), hf⟩
  | none =>
    let L' : Labels ι := { L with map := Function.update L.map h.next (i, .transient a) }
    let h' : Heap := { h with
      maps := Function.update h.maps h.next (Function.update (fun _ => none) k (some v))
      next := h.next + 1 }
    have ha : Heap.Agree (fun _ => True) (· ≠ (i, .transient a)) L L' h h' :=
      ⟨Nat.le_succ _, fun _ _ _ => ⟨rfl, rfl⟩, fun x hx _ => ⟨update_of_ne hx.ne _ _,
        update_of_ne hx.ne _ _⟩, fun _ _ => rfl⟩
    obtain ⟨hrep', hf⟩ := hrep.updateTransient (m := h.next) (fun b => lookup_assign a b _ _) ha
      (Nat.lt_succ_self _) (update_self _ _ _) (update_self _ _ _)
    exact ⟨L', hrep'.push (.transient a k _), hf⟩

/-- `Suicide`. -/
theorem suicide (a : Address) :
    (s.suicide h a).1 = (σ.suicide a).1 ∧ Leads L i floor h (s.suicide h a).2 (σ.suicide a).2 := by
  obtain ⟨hsome, hnone⟩ := hrep.change a (c := .suicide) rfl
  unfold Handle.suicide StateDB.suicide
  rw [show ObjectOp.run .suicide (σ.getAccount a) = (σ.getAccount a).suicide from rfl] at hsome
  generalize s.change h a .suicide = p at *
  obtain ⟨_ | p, q⟩ := p
  · rw [hsome.of_none rfl]
    exact ⟨rfl, hnone⟩
  · obtain ⟨r, hr, hp⟩ := hsome.of_some rfl
    rw [hr]
    exact ⟨rfl, hp⟩

/-- `SelfDestruct6780`. -/
theorem selfDestruct6780 (a : Address) :
    Leads L i floor h (match s.getAccount h a with
      | (r, h, s) => if (h.objects r).created then (s.suicide h a).2 else (h, s))
      (σ.selfDestruct6780 a) := by
  obtain ⟨L', r, h₁, s₁, heq, hframe, hrep', -, -, -, hh⟩ := hrep.account a
  unfold StateDB.selfDestruct6780
  rw [heq]
  dsimp only
  rw [show (h₁.objects r).created = (σ.getAccount a).created from
    congrArg StateObject.created hh.value]
  split_ifs
  · have hsuicide : ((σ.setAccount a (σ.getAccount a)).suicide a).2 = (σ.suicide a).2 := by
      unfold StateDB.suicide StateDB.change
      rw [getAccount_setAccount]
      cases (σ.getAccount a).suicide with
      | none => exact setAccount_touch σ a _
      | some p =>
        simp only [setAccount_touch]
        rfl
    rw [← hsuicide]
    exact (hrep'.suicide a).2.trans hframe
  · exact ⟨L', hrep', hframe⟩

theorem op_change (a : Address) {c : ObjectOp} (hc : c.isInPlace) :
    Rel (Follows L i floor h) ((s.change h a c).1.map (fun p => (.unit, p)))
      ((c.run (σ.getAccount a)).map (fun r => (.unit, σ.change a r))) :=
  (hrep.change a hc).1.map fun _ _ hp => ⟨rfl, hp⟩

theorem op_read {o : Op}
    {f : StateObject → Value × StateObject} (hf : Handle.reader s.tx o = some (a, f)) :
    Rel (Follows L i floor h) (s.apply o h) ((Call.op o).run σ) := by
  have happly : s.apply o h = some (s.read h a f) := by
    cases o with
    | getBalance | getNonce | getCodeHash | getCode | getCodeSize | getCommittedState | getState
      | hasSuicided | exist | empty => exact congrArg (Option.map (fun p => s.read h p.1 p.2)) hf
    | _ => cases hf
  rw [happly, Handle.reader_read (hrep.tx ▸ hf)]
  exact .some (hrep.read a (StateObject.inPlace_reader hf))

/-- The methods of `Op`. -/
theorem op (o : Op) :
    Rel (Follows L i floor h) (s.apply o h) ((Call.op o).run σ) := by
  have hself : Leads L i floor h (h, s) σ := ⟨L, hrep, .refl _ _ L h⟩
  rcases hr : Handle.reader s.tx o with _ | ⟨a, f⟩
  swap
  · exact hrep.op_read hr
  cases o with
  | createAccount a => exact .some ⟨rfl, hrep.createAccount a⟩
  | setCode a code => exact .some ⟨rfl, hrep.setCode a code⟩
  | setStorage a m => exact .some ⟨rfl, hrep.setStorage a m⟩
  | setTransientState a k v => exact .some ⟨rfl, hrep.setTransientState a k v⟩
  | setBalance a x => exact hrep.op_change a (c := .setBalance x) rfl
  | setNonce a n => exact hrep.op_change a (c := .setNonce n) rfl
  | subBalance a x =>
    unfold Handle.apply Call.run Op.apply StateDB.subBalance
    dsimp only
    split_ifs with hx
    · exact .some ⟨rfl, hself⟩
    · exact hrep.op_change a (c := .subBalance x) rfl
  | addBalance a x =>
    unfold Handle.apply Call.run Op.apply StateDB.addBalance
    dsimp only
    split_ifs with hx
    · exact .some ⟨rfl, hself⟩
    · exact hrep.op_change a (c := .addBalance x) rfl
  | setState a k v =>
    have hrun := hrep.op_change a (c := .setState (slotKey k) v) rfl
    rwa [show (Call.op (.setState a k v)).run σ = _ from map_map _ _ _]
  | suicide a => exact .some ⟨congrArg _ (hrep.suicide a).1, (hrep.suicide a).2⟩
  | selfDestruct6780 a =>
    have hsd := hrep.selfDestruct6780 a
    unfold Handle.apply
    dsimp only at hsd ⊢
    split_ifs at hsd ⊢ <;> exact .some ⟨rfl, hsd⟩
  | addRefund x =>
    refine .some ⟨rfl, L, ?_, .refl _ _ L h⟩
    have he := hrep.push (.refund s.refund)
    exact { he with refund := congrArg (· + x) hrep.refund, journal := hrep.refund ▸ he.journal }
  | subRefund x =>
    refine .some ⟨rfl, L, ?_, .refl _ _ L h⟩
    have he := hrep.push (.refund s.refund)
    exact { he with refund := congrArg (· - x) hrep.refund, journal := hrep.refund ▸ he.journal }
  | addAddressToAccessList a =>
    unfold Handle.apply Call.run Op.apply StateDB.addAddressToAccessList
    dsimp only
    rw [hrep.accessList]
    rcases σ.accessList.addAddress a with ⟨al, _ | _⟩
    · exact .some ⟨rfl, L, { hrep with accessList := rfl }, .refl _ _ L h⟩
    · exact .some ⟨rfl, L, { hrep.push (.accessListAddress a) with accessList := rfl },
        .refl _ _ L h⟩
  | addSlotToAccessList a k =>
    unfold Handle.apply Call.run Op.apply StateDB.addSlotToAccessList
    dsimp only
    rw [hrep.accessList]
    rcases σ.accessList.addSlot a k with _ | ⟨al, addrMod, slotMod⟩
    · exact .none
    · refine .some ⟨rfl, L, ?_, .refl _ _ L h⟩
      have h₁ : HandleRep L i floor h
          { s with journal := (if addrMod then [.accessListAddress a] else []) ++ s.journal }
          { σ with journal := (if addrMod then [.accessListAddress a] else []) ++ σ.journal } := by
        cases addrMod
        · exact hrep
        · exact hrep.push (.accessListAddress a)
      have h₂ : HandleRep L i floor h
          { s with journal := (if slotMod then [.accessListSlot a k] else [])
            ++ (if addrMod then [.accessListAddress a] else []) ++ s.journal }
          { σ with journal := (if slotMod then [.accessListSlot a k] else [])
            ++ (if addrMod then [.accessListAddress a] else []) ++ σ.journal } := by
        cases slotMod
        · exact h₁
        · exact h₁.push (.accessListSlot a k)
      exact { h₂ with accessList := rfl }
  | _ => cases hr

/-! ## Reverts -/

/-- `getAccount`, with an entry that is not in the journal any more. -/
theorem account_entry {e : HeapEntry} {e' : JournalEntry}
    (he : EntryRep L i h s.journal.length e e') (a : Address) :
    ∃ L' r h₁ s₁, s.getAccount h a = (r, h₁, s₁) ∧ Heap.Frame i L L' h h₁
      ∧ HandleRep L' i floor h₁ s₁ (σ.setAccount a (σ.getAccount a))
      ∧ s₁.state.lookup a = some r ∧ EntryRep L' i h₁ s₁.journal.length e e' := by
  obtain ⟨L', r, h₁, s₁, heq, hframe, hrep', hr, hjournal, -⟩ := (hrep.push he).account a
  have hget : s.getAccount h a = (r, h₁, { s₁ with journal := s.journal }) := by
    unfold Handle.getAccount at heq ⊢
    dsimp only at heq
    cases hr : s.state.lookup a <;> (rw [hr] at heq; cases heq; rfl)
  have hj := hrep'.journal
  rw [hjournal] at hj
  obtain ⟨he', hj'⟩ := hj.tail hrep.journal.length_eq.2
  exact ⟨L', r, h₁, _, hget, hframe, { hrep' with journal := hj' }, hr, he'⟩

/-- An undo that works in place. -/
theorem undo_inPlace {r : Ref} (hr : s.state.lookup a = some r)
    {u : ObjectUndo} (hu : u.isInPlace) :
    Rel (fun h' o => Leads L i floor h (h', s) (σ.setAccount a o))
      ((CellUndo.inPlace u).run r h) (u.run (σ.getAccount a)) := by
  obtain ⟨-, hh⟩ := hrep.holds hr
  have hx := StateObject.eq_of_norm hh.value
  unfold CellUndo.run
  dsimp only
  rw [hx, ObjectUndo.run_code hu, map_map]
  cases hrun : u.run (σ.getAccount a) with
  | none => exact .none
  | some p =>
    obtain ⟨hcode, hdirty, -⟩ := ObjectUndo.run_inPlace hu hrun
    obtain ⟨hrep', hframe⟩ := hrep.put hr (p := { p with code := (h.get r).code }) (q := p)
      (by rw [hx]; exact hdirty) (fun e he => ⟨e, he, rfl⟩) (StateObject.norm_code hcode hh.value)
    exact .some ⟨L, hrep', hframe⟩

/-- Putting back a code entry. -/
theorem undo_code {r : Ref} (hr : s.state.lookup a = some r)
    {old : Option Ref} {old' : Option CodeEntry} (hlt : ∀ c, old = some c → c < h.next)
    (hv : (old.map h.codes).map rehash = old'.map rehash) :
    Leads L i floor h
      ({ h with objects := Function.update h.objects r { h.objects r with code := old } }, s)
      (σ.setAccount a { σ.getAccount a with code := old' }) := by
  obtain ⟨-, hh⟩ := hrep.holds hr
  refine ⟨L, hrep.setCell hr rfl le_rfl rfl (fun _ _ _ => ⟨rfl, rfl⟩) (fun _ _ => rfl) ?_ hlt
    hh.dirty⟩
  have hget : ({ (h.get r).norm with code := (old.map h.codes).map rehash } : StateObject)
      = { (σ.getAccount a).norm with code := old'.map rehash } := by rw [hh.value, hv]
  simpa [Heap.get, StateObject.norm] using hget

/-- Putting back a map, which the entry had. -/
theorem undo_dirtyMap {r : Ref} (hr : s.state.lookup a = some r)
    {old : Option Ref}
    (hold : ∀ m, old = some m → m < h.next ∧ L.map m = (i, .entry s.journal.length)) :
    Leads L i floor h
      ({ h with objects := Function.update h.objects r { h.objects r with dirty := old } }, s)
      (σ.setAccount a { σ.getAccount a with dirty := old.map h.maps }) := by
  obtain ⟨-, hh⟩ := hrep.holds hr
  let L' : Labels ι := { L with map := fun x => if old = some x then (i, .dirty r) else L.map x }
  refine ⟨L', hrep.setCell hr rfl le_rfl rfl (fun x _ haway => ⟨rfl, ?_⟩) (fun _ _ => rfl) ?_
    hh.code fun m hm => ⟨(hold m hm).1, if_pos hm⟩⟩
  · exact if_neg (fun heq => haway.2 _ le_rfl (hold x heq).2)
  · have hget : ({ (h.get r).norm with dirty := old.map h.maps } : StateObject)
        = { (σ.getAccount a).norm with dirty := old.map h.maps } := by rw [hh.value]
    simpa [Heap.get, StateObject.norm] using hget

/-- Putting back an object, which the entry had. -/
theorem undo_createAccount {r : Ref} {o : StateObject}
    (hl : L.object r = (i, .entry s.journal.length)) (hh : Holds L i h r o) :
    Leads L i floor h (h, { s with state := assign a r s.state }) (σ.setAccount a o) := by
  let L' : Labels ι := { L with object := Function.update L.object r (i, .state a) }
  have ha :
      Heap.Agree (ObjectAway i a s.journal.length) (MapAway i r s.journal.length) L L' h h := by
    refine ⟨le_rfl, fun r' _ haway => ⟨rfl, ?_⟩, fun _ _ _ => ⟨rfl, rfl⟩, fun _ _ => rfl⟩
    have hr' : r' ≠ r := fun heq => haway.2 _ le_rfl (by rw [heq, hl])
    exact update_of_ne hr' _ _
  obtain ⟨hrep', hf⟩ := hrep.update (fun b => lookup_assign a b _ _)
    (nodup_assign _ _ hrep.keys) ha (fun _ haway => haway.2 _ le_rfl hl)
    (update_self _ _ _) ⟨hh.lt, hh.value, hh.code, hh.dirty⟩
  exact ⟨L', hrep', hf⟩

theorem undo_object {u : CellUndo} {u' : ObjectUndo}
    (he : EntryRep L i h s.journal.length (.object a u) (.object a u')) :
    Rel (Leads L i floor h) ((HeapEntry.object a u).undo (h, s))
      ((JournalEntry.object a u').undo σ) := by
  obtain ⟨L', r, h₁, s₁, heq, hframe, hrep', hr, he'⟩ := hrep.account_entry he a
  have hσ : JournalEntry.undo (.object a u') σ
      = (u'.run ((σ.setAccount a (σ.getAccount a)).getAccount a)).map
        ((σ.setAccount a (σ.getAccount a)).setAccount a) := by
    rw [getAccount_setAccount]
    unfold JournalEntry.undo
    simp only [funext (setAccount_touch σ a)]
  rw [hσ, HeapEntry.undo, heq]
  generalize σ.setAccount a (σ.getAccount a) = σ₁ at *
  cases he' with
  | inPlace hu => exact (hrep'.undo_inPlace hr hu).map fun _ _ hp => hp.trans hframe
  | code hlt hv => exact .some ((hrep'.undo_code hr hlt hv).trans hframe)
  | dirtyMap hold hv =>
    subst hv
    exact .some ((hrep'.undo_dirtyMap hr hold).trans hframe)

/-- **Undoing an entry** on top of the journal. -/
theorem undo {e : HeapEntry} {e' : JournalEntry}
    (he : EntryRep L i h s.journal.length e e') :
    Rel (Leads L i floor h) (e.undo (h, s)) (e'.undo σ) := by
  cases he with
  | inPlace hu => exact hrep.undo_object (.inPlace hu)
  | code hlt hv => exact hrep.undo_object (.code hlt hv)
  | dirtyMap hold hv => exact hrep.undo_object (.dirtyMap hold hv)
  | createAccount hl hh => exact .some (hrep.undo_createAccount hl hh)
  | refund old => exact .some ⟨L, { hrep with refund := rfl }, .refl _ _ L h⟩
  | transient a k old =>
    unfold HeapEntry.undo JournalEntry.undo
    dsimp only
    rw [← hrep.transient_map a]
    cases hm : s.transient.lookup a with
    | none => exact .none
    | some m =>
      obtain ⟨hrep', hf⟩ := hrep.putTransient hm (Function.update (h.maps m) k (some old))
      exact .some ⟨L, hrep', hf⟩
  | accessListAddress a =>
    exact .some ⟨L, { hrep with accessList := congrArg (·.deleteAddress a) hrep.accessList },
      .refl _ _ L h⟩
  | accessListSlot a k =>
    unfold HeapEntry.undo JournalEntry.undo
    dsimp only
    rw [hrep.accessList]
    cases σ.accessList.deleteSlot a k with
    | none => exact .none
    | some al => exact .some ⟨L, { hrep with accessList := rfl }, .refl _ _ L h⟩

/-- `RevertToSnapshot`, to a snapshot above the floor. -/
theorem revertToSnapshot {snap : ℕ} (hsnap : floor ≤ snap) :
    Rel (Leads L i floor h) (s.revertToSnapshot h snap) (σ.revertToSnapshot snap) := by
  have hlen := hrep.journal.length_eq.1
  unfold Handle.revertToSnapshot StateDB.revertToSnapshot
  rw [hlen]
  split_ifs with hlt
  · exact .none
  · set n := s.journal.length - snap
    refine (undoAll_rel (R := fun es es' p τ => Leads L i floor h (p.1, { p.2 with journal := es })
      { τ with journal := es' }) (s.journal.drop n) (σ.journal.drop n) ?_ ?_ ?_).map
        fun _ _ hp => hp
    · -- the entries that are left are those above the floor
      rintro e es e' es' ⟨h₁, s₁⟩ σ₁ hsuffix ⟨L₁, hrep₁, hf⟩
      have hfloor : floor ≤ es.length := by
        have := hsuffix.length_le
        rw [List.length_drop] at this
        omega
      obtain ⟨he, hj⟩ := hrep₁.journal.tail hfloor
      have hundo := undo (s := { s₁ with journal := es }) (σ := { σ₁ with journal := es' })
        { hrep₁ with journal := hj } he
      rw [HeapEntry.undo_journal, StateDB.undo_journal] at hundo
      exact hundo.of_map.mono fun _ _ hp => hp.trans hf
    · rw [List.length_take, List.length_take, hlen]
    · rw [List.take_append_drop, List.take_append_drop]
      exact ⟨L, hrep, .refl _ _ L h⟩

/-- `Finalise`. -/
theorem finalise : Leads L i floor h (s.finalise h) σ.finalise := by
  have hmem : ∀ {r}, r ∈ s.state.map Prod.snd → ∃ a, s.state.lookup a = some r := by
    intro r hr
    obtain ⟨⟨a, r⟩, hp, rfl⟩ := List.mem_map.mp hr
    exact ⟨a, (lookup_eq_some_iff hrep.keys).mpr hp⟩
  have ha :
      Heap.Agree (fun l => ∀ a, l ≠ (i, .state a)) (fun _ => True) L L h (s.finalise h).1 := by
    refine ⟨le_rfl, fun r _ hne => ⟨if_neg (fun hr => ?_), rfl⟩, fun _ _ _ => ⟨rfl, rfl⟩,
      fun _ _ => rfl⟩
    obtain ⟨a, ha⟩ := hmem hr
    exact hne a (hrep.holds ha).1
  refine ⟨L, { hrep with
    accessList := rfl
    refund := rfl
    state := fun a => ?_
    transient := fun _ => .none
    journal := hrep.journal.agree ha (by simp) (by simp) (by simp) },
    ha.mono (fun l hl a heq => hl (heq ▸ rfl)) (fun _ _ => trivial)⟩
  show Rel _ (s.state.lookup a) ((σ.state a).map StateObject.finalise)
  cases hr : s.state.lookup a with
  | none =>
    rw [(hrep.state a).of_none hr]
    exact .none
  | some r =>
    obtain ⟨o, ho, hl, hh⟩ := (hrep.state a).of_some hr
    rw [ho]
    have hobj : (s.finalise h).1.objects r = { h.objects r with
        clean := (h.get r).finalise.clean, deleted := (h.get r).finalise.deleted } :=
      if_pos (List.mem_map_of_mem ((lookup_eq_some_iff hrep.keys).mp hr))
    refine .some ⟨hl, hh.lt, ?_, by rw [hobj]; exact hh.code, by rw [hobj]; exact hh.dirty⟩
    have hget : (s.finalise h).1.get r = (h.get r).finalise := by
      simp only [Heap.get, hobj]
      rfl
    rw [hget]
    show (h.get r).norm.finalise = o.norm.finalise
    rw [hh.value]

omit hrep in
/-- A copy leaves every cell alone. -/
theorem agree_copy (L : Labels ι) (j : ι) (h : Heap) (s : Handle) :
    Heap.Agree (fun _ => True) (fun _ => True) L (L.copy j h s) h (s.copy h).1 := by
  refine ⟨Nat.le_add_right _ _, fun r hr _ => ?_, fun m hm _ => ?_, fun _ _ => rfl⟩
  · simp only [Handle.copy, Labels.copy]
    cases s.state[r - h.next]? with
    | none => exact ⟨rfl, rfl⟩
    | some p => exact ⟨if_neg (not_le.mpr hr), if_neg (not_le.mpr hr)⟩
  · refine ⟨?_, if_neg (not_le.mpr hm)⟩
    simp only [Handle.copy]
    cases s.state[m - h.next]? with
    | none => rfl
    | some p => exact if_neg (not_le.mpr hm)

/-- **The objects of a copy** are copies of the objects. -/
theorem state_copy (j : ι) (a : Address) :
    Rel (fun r o => (L.copy j h s).object r = (j, .state a)
        ∧ Holds (L.copy j h s) j (s.copy h).1 r o)
      ((s.copy h).2.state.lookup a) (σ.copy.state a) := by
  have hlook := lookup_mapIdx (h.next + ·) s.state a
  show Rel _ ((s.state.mapIdx (fun n p => (p.1, h.next + n))).lookup a)
    ((σ.state a).map StateObject.copy)
  cases hr : s.state.lookup a with
  | none =>
    rw [hlook.of_none hr, (hrep.state a).of_none hr]
    exact .none
  | some r =>
    obtain ⟨_, hr', n, hn, rfl⟩ := hlook.of_some hr
    obtain ⟨o, ho, -, hh⟩ := (hrep.state a).of_some hr
    rw [hr', ho]
    have hlt : h.next + n < (s.copy h).1.next :=
      Nat.add_lt_add_left (List.getElem?_eq_some_iff.mp hn).1 _
    have hobj : (s.copy h).1.objects (h.next + n)
        = { h.objects r with dirty := some (h.next + n), fakeBalance := none } := by
      simp [Handle.copy, hn]
    have hget : (s.copy h).1.get (h.next + n) = (h.get r).copy := by
      simp only [Heap.get, hobj]
      simp [Handle.copy, hn, StateObject.copy, Heap.get]
    refine .some ⟨by simp [Labels.copy, hn], hlt, ?_, ?_, ?_⟩
    · rw [hget]
      show (h.get r).norm.copy = o.norm.copy
      rw [hh.value]
    · rw [hobj]
      exact fun c hc => (hh.code c hc).trans_le (Nat.le_add_right _ _)
    · rw [hobj]
      rintro m ⟨⟩
      exact ⟨hlt, if_pos (Nat.le_add_right _ _)⟩

/-- **A copy**, of a handle whose transient storage and journal can be
kept. -/
theorem copied {j : ι} {floor' : ℕ}
    (htr : ∀ a, Rel (fun m f => m < (s.copy h).1.next
        ∧ (L.copy j h s).map m = (j, .transient a) ∧ (s.copy h).1.maps m = f)
      (s.transient.lookup a) (σ.transient a))
    (hj : JournalRep (L.copy j h s) j floor' (s.copy h).1 s.journal σ.journal) :
    HandleRep (L.copy j h s) j floor' (s.copy h).1 (s.copy h).2 σ.copy :=
  { tx := hrep.tx
    refund := hrep.refund
    accessList := hrep.accessList
    alcalc := rfl
    keys := by
      have hkeys : (s.copy h).2.state.map Prod.fst = s.state.map Prod.fst :=
        List.ext_getElem (by simp [Handle.copy]) (fun n _ _ => by simp [Handle.copy])
      rw [hkeys]
      exact hrep.keys
    state := hrep.state_copy j
    transient := htr
    journal := hj }

/-- `Copy`, if the original is not used any more. -/
theorem copy : Leads L i floor h (s.copy h) σ.copy :=
  ⟨_, hrep.copied (fun _ => hrep.transient_agree (agree_copy L i h s) trivial)
    (hrep.journal.agree (agree_copy L i h s) (by simp) (by simp) (by simp)),
    (agree_copy L i h s).mono (fun _ _ => trivial) (fun _ _ => trivial)⟩

/-- **A call of a handle is one of its value**: it returns the same and
leaves a handle of what that leaves, and the cells of other handles stay
as they are. -/
theorem run {c : Call}
    (hc : ∀ snap, c = .revertToSnapshot snap → floor ≤ snap) :
    Rel (Follows L i floor h) (s.run c h) (c.run σ) := by
  have hself : Leads L i floor h (h, s) σ := ⟨L, hrep, .refl _ _ L h⟩
  cases c with
  | op o => exact hrep.op o
  | getTransientState a k =>
    refine .some ⟨congrArg Value.hash ?_, hself⟩
    unfold StateDB.getTransientState
    rw [← hrep.transient_map a, bind_map]
    rfl
  | getRefund => exact .some ⟨congrArg _ hrep.refund, hself⟩
  | addressInAccessList a =>
    refine .some ⟨congrArg Value.bool ?_, hself⟩
    unfold StateDB.addressInAccessList
    rw [hrep.alcalc, hrep.accessList]
  | slotInAccessList a k =>
    unfold Handle.run Call.run StateDB.slotInAccessList
    dsimp only
    rw [hrep.alcalc, hrep.accessList]
    by_cases hal : σ.alcalc = true
    · rw [if_pos hal, if_pos hal]
      exact .some ⟨rfl, hself⟩
    · rw [if_neg hal, if_neg hal]
      cases σ.accessList.contains a k with
      | none => exact .none
      | some p => exact .some ⟨rfl, hself⟩
  | snapshot => exact .some ⟨congrArg _ hrep.journal.length_eq.1.symm, hself⟩
  | revertToSnapshot snap =>
    exact (hrep.revertToSnapshot (hc snap rfl)).map fun _ _ hp => ⟨rfl, hp⟩
  | finalise => exact .some ⟨rfl, hrep.finalise⟩
  | copy => exact .some ⟨rfl, hrep.copy⟩
  | alCalcCopy =>
    obtain ⟨L', hrep', hf⟩ := hrep.copy
    exact .some ⟨rfl, L', { hrep' with alcalc := rfl }, hf⟩

end HandleRep
