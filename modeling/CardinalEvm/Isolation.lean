import CardinalEvm.HeapRefinement

/-!
# Copies

A state alone in memory is its value (`Handle.alone_newStateDB`). A
state and its copy are two handles in one memory. If what they share
is not written, each of them returns to a sequence of calls what the
state returns when it is alone, whatever is called on the other in
between (`copy_isolated`). So the copy returns what the state would, no
call on one of the two changes what the other returns, and the same
calls on both return the same.

Three things are lost in a copy – an override of a balance, a map of
storage that is nil, and that an access list is computed – and three are
shared: the maps of transient storage, the objects that `CreateAccount`
replaced and the maps that `SetStorage` did. The last two are in entries
of the journal, and are written only after both sides reverted to a
snapshot below them.
-/

variable [Keccak]

open StateDB (Op Value Call)

/-! ## Sequences of calls -/

section Sequences

omit [Keccak]

variable {γ ν σ τ : Type}

/-- **What a state returns to a sequence of calls.** After a panic there
is no state any more. -/
def answersOf (run : γ → σ → Option (ν × σ)) : List γ → Option σ → List (Option ν)
  | [], _ => []
  | c :: cs, s => (s.bind (run c)).map Prod.fst :: answersOf run cs ((s.bind (run c)).map Prod.snd)

/-- Related states return the same. -/
theorem answersOf_eq {run : γ → σ → Option (ν × σ)} {run' : γ → τ → Option (ν × τ)}
    {R : σ → τ → Prop} {ok : γ → Prop}
    (hrun : ∀ c s t, ok c → R s t →
      Option.Rel (fun p q => p.1 = q.1 ∧ R p.2 q.2) (run c s) (run' c t))
    {cs : List γ} (hcs : ∀ c ∈ cs, ok c) {s : Option σ} {t : Option τ} (hst : Option.Rel R s t) :
    answersOf run cs s = answersOf run' cs t := by
  induction cs generalizing s t with
  | nil => rfl
  | cons c cs ih =>
    have hbind : Option.Rel (fun p q => p.1 = q.1 ∧ R p.2 q.2) (s.bind (run c))
        (t.bind (run' c)) := by
      cases hst with
      | none => exact .none
      | some hst => exact hrun c _ _ (hcs c List.mem_cons_self) hst
    have htail := ih (fun c hc => hcs c (List.mem_cons_of_mem _ hc))
      (hbind.map (f := Prod.snd) (g := Prod.snd) fun _ _ hp => hp.2)
    have hhead : (s.bind (run c)).map Prod.fst = (t.bind (run' c)).map Prod.fst := by
      revert hbind
      generalize s.bind (run c) = x, t.bind (run' c) = y
      intro hbind
      cases hbind with
      | none => rfl
      | some hp => exact congrArg some hp.1
    exact congrArg₂ List.cons hhead htail

/-- The part of a list that belongs to one of two sides. -/
def side {α : Type} (b : Bool) (l : List (Bool × α)) : List α :=
  l.filterMap (fun p => if p.1 = b then some p.2 else none)

theorem side_cons_self {α : Type} (b : Bool) (x : α) (l : List (Bool × α)) :
    side b ((b, x) :: l) = x :: side b l := by
  simp [side]

theorem side_cons_of_ne {α : Type} {b b' : Bool} (hb : b ≠ b') (x : α) (l : List (Bool × α)) :
    side b' ((b, x) :: l) = side b' l := by
  simp [side, hb]

end Sequences

namespace Handle

/-- **The states in memory that a caller can bring about.** -/
inductive Reachable : Heap → Handle → Prop
  | new (tx : StorageTx) : Reachable {} (newStateDB tx)
  | call {h h' : Heap} {s s' : Handle} {c : Call} {v : Value} : Reachable h s →
    s.run c h = some (v, h', s') → Reachable h' s'

/-- What a state returns when it is the only one. -/
def alone (cs : List Call) (h : Heap) (s : Handle) : List (Option Value) :=
  answersOf (fun c (p : Heap × Handle) => p.2.run c p.1) cs (some (h, s))

/-- **What two states in one memory return**, each to the calls on its
side. -/
def together : List (Bool × Call) → Heap → (Bool → Option Handle) → List (Bool × Option Value)
  | [], _, _ => []
  | (b, c) :: cs, h, s =>
    let r := (s b).bind (run c h)
    (b, r.map Prod.fst) ::
      together cs ((r.map (·.2.1)).getD h) (Function.update s b (r.map (·.2.2)))

/-- **A state and a copy of it are isolated** for some calls on the two,
if each returns what the state returns to the calls on that one when it
is alone. -/
def Isolated (h : Heap) (s : Handle) (cs : List (Bool × Call)) : Prop :=
  ∀ b, side b (together cs (s.copy h).1 (fun b => some (if b then (s.copy h).2 else s)))
    = alone (side b cs) h s

instance (h : Heap) (s : Handle) (cs : List (Bool × Call)) : Decidable (Isolated h s cs) :=
  inferInstanceAs (Decidable (∀ _, _))

end Handle

/-- One call, on a state that may be gone. -/
theorem HandleRep.step {L : Labels Bool} {b : Bool} {floor : ℕ} {h : Heap} {s : Option Handle}
    {σ : Option StateDB} (hrep : Option.Rel (HandleRep L b floor h) s σ) {c : Call}
    (hc : ∀ snap, c = .revertToSnapshot snap → floor ≤ snap) :
    (s.bind (Handle.run c h)).map Prod.fst = (σ.bind c.run).map Prod.fst
      ∧ ∃ L', Option.Rel (HandleRep L' b floor (((s.bind (Handle.run c h)).map (·.2.1)).getD h))
          ((s.bind (Handle.run c h)).map (·.2.2)) ((σ.bind c.run).map Prod.snd)
        ∧ Heap.Frame b L L' h (((s.bind (Handle.run c h)).map (·.2.1)).getD h) := by
  cases hrep with
  | none => exact ⟨rfl, L, .none, .refl _ _ L h⟩
  | @some s σ hrep =>
    have hrun := hrep.run hc
    rw [Option.bind_some, Option.bind_some]
    cases hr : s.run c h with
    | none =>
      rw [hrun.of_none hr]
      exact ⟨rfl, L, .none, .refl _ _ L h⟩
    | some q =>
      obtain ⟨p, hp, hv, L', hrep', hf⟩ := hrun.of_some hr
      rw [hp]
      exact ⟨congrArg some hv, L', .some hrep', hf⟩

/-- Each side returns what its value does. -/
theorem side_together {L : Labels Bool} {floor : Bool → ℕ} {h : Heap} {s : Bool → Option Handle}
    {σ : Bool → Option StateDB} {cs : List (Bool × Call)}
    (hrep : ∀ b, Option.Rel (HandleRep L b (floor b) h) (s b) (σ b))
    (hrev : ∀ b snap, (b, .revertToSnapshot snap) ∈ cs → floor b ≤ snap) (b : Bool) :
    side b (Handle.together cs h s) = answersOf Call.run (side b cs) (σ b) := by
  induction cs generalizing L h s σ with
  | nil => rfl
  | cons p cs ih =>
    obtain ⟨b', c⟩ := p
    obtain ⟨hv, L', hrep', hf⟩ := HandleRep.step (hrep b')
      (fun snap hc => hrev b' snap (hc ▸ List.mem_cons_self))
    have hrev' : ∀ b snap, (b, Call.revertToSnapshot snap) ∈ cs → floor b ≤ snap :=
      fun b snap hmem => hrev b snap (List.mem_cons_of_mem _ hmem)
    have hih := ih (L := L')
      (s := Function.update s b' (((s b').bind (Handle.run c h)).map (·.2.2)))
      (σ := Function.update σ b' (((σ b').bind c.run).map Prod.snd)) (fun b => by
        by_cases hb : b = b'
        · rw [hb, Function.update_self, Function.update_self]
          exact hrep'
        · rw [Function.update_of_ne hb, Function.update_of_ne hb]
          exact (hrep b).mono fun _ _ hrep => hrep.frame hf hb) hrev'
    rw [Handle.together]
    by_cases hb : b' = b
    · subst hb
      rw [side_cons_self, side_cons_self, hv, hih, Function.update_self]
      rfl
    · rw [side_cons_of_ne hb, side_cons_of_ne hb, hih, Function.update_of_ne (Ne.symm hb)]

/-! ## Reachable states -/

/-- A reachable state has a value. -/
theorem Handle.Reachable.rep {h : Heap} {s : Handle} (hs : Handle.Reachable h s) :
    ∃ (L : Labels Bool) (σ : StateDB), HandleRep L false 0 h s σ := by
  induction hs with
  | new tx =>
    exact ⟨⟨fun _ => (false, .entry 0), fun _ => (false, .entry 0)⟩, StateDB.newStateDB tx,
      { tx := rfl, refund := rfl, accessList := rfl, alcalc := rfl, keys := .nil
        state := fun _ => .none, transient := fun _ => .none, journal := .floor rfl rfl }⟩
  | call _ hrun ih =>
    obtain ⟨L, σ, hrep⟩ := ih
    obtain ⟨p, -, -, L', hrep', -⟩ := (hrep.run (fun _ _ => Nat.zero_le _)).of_some hrun
    exact ⟨L', p.2, hrep'⟩

/-- **The state in memory is the state of values**: to every sequence of
calls, a new state with its objects, maps and code behind pointers
returns what the state without pointers does, and it panics where that
does. After a call of `Copy` it is the copy that goes on. -/
theorem Handle.alone_newStateDB (tx : StorageTx) (cs : List Call) :
    alone cs {} (newStateDB tx) = answersOf Call.run cs (some (StateDB.newStateDB tx)) := by
  let R (p : Heap × Handle) (σ : StateDB) : Prop := ∃ L, HandleRep L false 0 p.1 p.2 σ
  have hnew : R ({}, newStateDB tx) (StateDB.newStateDB tx) :=
    ⟨⟨fun _ => (false, .entry 0), fun _ => (false, .entry 0)⟩,
      { tx := rfl, refund := rfl, accessList := rfl, alcalc := rfl, keys := .nil
        state := fun _ => .none, transient := fun _ => .none, journal := .floor rfl rfl }⟩
  have hrun (c : Call) (p : Heap × Handle) (σ : StateDB) (_ : True) : R p σ → Option.Rel
      (fun q r => q.1 = r.1 ∧ R q.2 r.2) (p.2.run c p.1) (c.run σ) := by
    rintro ⟨L, hrep⟩
    exact (hrep.run fun _ _ => Nat.zero_le _).mono fun _ _ ⟨hv, L', hrep', _⟩ => ⟨hv, L', hrep'⟩
  exact answersOf_eq hrun (fun _ _ => trivial) (.some hnew)

/-! ## What a state and its copy share -/

/-- An entry with a cell that is written once it is put back. -/
def HeapEntry.shares : HeapEntry → Bool
  | createAccount _ _ => true
  | object _ (.dirtyMap (some _)) => true
  | _ => false

/-- The length of a journal up to its newest entry with such a cell. -/
def sharedLength : List HeapEntry → ℕ
  | [] => 0
  | e :: es => if e.shares then (e :: es).length else sharedLength es

/-- **A state that a copy keeps all of**, and that has no transient
storage to share. -/
structure Handle.Copyable (h : Heap) (s : Handle) : Prop where
  fakeBalance : ∀ p ∈ s.state, (h.objects p.2).fakeBalance = none
  dirty : ∀ p ∈ s.state, (h.objects p.2).dirty.isSome
  alcalc : s.alcalc = false
  transient : s.transient = []

section Copies

variable {L : Labels Bool} {h : Heap} {s : Handle} {σ : StateDB}

/-- The value of such a state is that of its copy. -/
theorem Handle.Copyable.copy_eq (hc : s.Copyable h) {i : Bool} {floor : ℕ}
    (hrep : HandleRep L i floor h s σ) : σ.copy = σ := by
  have hstate : (fun a => (σ.state a).map StateObject.copy) = σ.state := by
    funext a
    cases hr : s.state.lookup a with
    | none =>
      rw [(hrep.state a).of_none hr]
      rfl
    | some r =>
      obtain ⟨o, ho, -, hh⟩ := (hrep.state a).of_some hr
      have hmem := (lookup_eq_some_iff hrep.keys).mp hr
      have hf : o.fakeBalance = none :=
        (congrArg StateObject.fakeBalance hh.value).symm.trans (hc.fakeBalance _ hmem)
      have hd : o.dirty.isSome := by
        rw [← hh.dirty_eq, Option.isSome_map]
        exact hc.dirty _ hmem
      rw [ho]
      obtain ⟨_, _, _, dirty, _, _, _, _, _, fake⟩ := o
      obtain ⟨m, rfl⟩ := Option.isSome_iff_exists.mp hd
      obtain rfl : fake = none := hf
      rfl
  have halcalc : σ.alcalc = false := hrep.alcalc.symm.trans hc.alcalc
  unfold StateDB.copy
  rw [hstate, ← halcalc]

/-- Above the entries that share a cell, a journal is that of any
handle. -/
theorem JournalRep.above {i j : Bool} {L' : Labels Bool} {h' : Heap} {es : List HeapEntry}
    {es' : List JournalEntry} (hj : JournalRep L i 0 h es es')
    (ha : Heap.Agree (fun _ => True) (fun _ => True) L L h h') :
    JournalRep L' j (sharedLength es) h' es es' := by
  induction hj with
  | floor hes hes' =>
    obtain rfl := List.length_eq_zero_iff.mp hes
    exact .floor rfl hes'
  | @cons e e' es es' he hj ih =>
    unfold sharedLength
    split_ifs with hshares
    · exact .floor rfl (by rw [List.length_cons, List.length_cons, hj.length_eq.1])
    · refine .cons ?_ ih
      cases he with
      | inPlace hu => exact .inPlace hu
      | @code a old old' hlt hv =>
        refine .code (fun c hc => (hlt c hc).trans_le ha.next) ?_
        rw [← hv]
        cases hold : old with
        | none => rfl
        | some c => exact congrArg some (ha.codes c (hlt c hold))
      | @dirtyMap a old old' hold hv => cases old with
        | none => exact .dirtyMap nofun hv
        | some m => exact absurd rfl hshares
      | createAccount => exact absurd rfl hshares
      | refund | transient | accessListAddress | accessListSlot => constructor

/-- The copy of a handle that does not go back below the entries that
share a cell. -/
theorem HandleRep.copy_above (hrep : HandleRep L false 0 h s σ) (hc : s.Copyable h) :
    ∃ L', HandleRep L' false 0 (s.copy h).1 s σ
      ∧ HandleRep L' true (sharedLength s.journal) (s.copy h).1 (s.copy h).2 σ := by
  have ha := HandleRep.agree_copy L true h s
  have htr : ∀ a, s.transient.lookup a = none := by simp [hc.transient]
  have hcopy := hrep.copied (j := true) (fun a => by
    rw [htr, (hrep.transient a).of_none (htr a)]
    exact .none) (hrep.journal.above ⟨ha.next, fun r hr _ => ⟨(ha.objects r hr trivial).1, rfl⟩,
      fun m hm _ => ⟨(ha.maps m hm trivial).1, rfl⟩, ha.codes⟩)
  rw [hc.copy_eq hrep] at hcopy
  exact ⟨_, hrep.agree ha (by simp) (by simp) (by simp) (by simp) (by simp), hcopy⟩

/-- The labels with the cells of the original's journal given to the
copy. -/
def Labels.handOver (L : Labels Bool) : Labels Bool where
  object r := match L.object r with
    | (false, .entry k) => (true, .entry k)
    | l => l
  map m := match L.map m with
    | (false, .entry k) => (true, .entry k)
    | (false, .dirty r) => match L.object r with
      | (false, .entry _) => (true, .dirty r)
      | _ => (false, .dirty r)
    | l => l

theorem Holds.handOver_state {b : Bool} {a : Address} {r : Ref} {o : StateObject}
    (hl : L.object r = (b, .state a)) (hh : Holds L b h r o) :
    L.handOver.object r = (b, .state a) ∧ Holds L.handOver b h r o := by
  refine ⟨by simp [Labels.handOver, hl], hh.lt, hh.value, hh.code, fun m hm => ?_⟩
  obtain ⟨hlt, hlm⟩ := hh.dirty m hm
  refine ⟨hlt, ?_⟩
  cases b <;> simp [Labels.handOver, hlm, hl]

theorem JournalRep.handOver {es : List HeapEntry} {es' : List JournalEntry}
    (hj : JournalRep L false 0 h es es') : JournalRep L.handOver true 0 h es es' := by
  induction hj with
  | floor hes hes' => exact .floor hes hes'
  | @cons e e' es es' he _ ih =>
    refine .cons ?_ ih
    cases he with
    | inPlace hu => exact .inPlace hu
    | code hlt hv => exact .code hlt hv
    | dirtyMap hold hv =>
      exact .dirtyMap (fun m hm => ⟨(hold m hm).1, by simp [Labels.handOver, (hold m hm).2]⟩) hv
    | createAccount hl hh =>
      refine .createAccount (by simp [Labels.handOver, hl])
        ⟨hh.lt, hh.value, hh.code, fun m hm => ?_⟩
      exact ⟨(hh.dirty m hm).1, by simp [Labels.handOver, (hh.dirty m hm).2, hl]⟩
    | refund | transient | accessListAddress | accessListSlot => constructor

/-- The copy of a handle, where it is the original that does not go back
below the entries that share a cell. -/
theorem HandleRep.copy_below (hrep : HandleRep L false 0 h s σ) (hc : s.Copyable h) :
    ∃ L', HandleRep L' false (sharedLength s.journal) (s.copy h).1 s σ
      ∧ HandleRep L' true 0 (s.copy h).1 (s.copy h).2 σ := by
  obtain ⟨L', horig, hcopy⟩ := hrep.copy_above hc
  have htr : ∀ a, s.transient.lookup a = none := by simp [hc.transient]
  have htransient : ∀ (b : Bool) (a : Address), Option.Rel (fun m f => m < (s.copy h).1.next
      ∧ L'.handOver.map m = (b, .transient a) ∧ (s.copy h).1.maps m = f)
      (s.transient.lookup a) (σ.transient a) := by
    intro b a
    rw [htr, (hrep.transient a).of_none (htr a)]
    exact .none
  exact ⟨L'.handOver,
    { horig with
      state := fun a => (horig.state a).mono fun _ _ ⟨hl, hh⟩ => hh.handOver_state hl
      transient := htransient false
      journal := horig.journal.above (.refl _ _ L' _) },
    { hcopy with
      state := fun a => (hcopy.state a).mono fun _ _ ⟨hl, hh⟩ => hh.handOver_state hl
      transient := htransient true
      journal := horig.journal.handOver }⟩

end Copies

namespace Handle

/-- **A copy and its original do not affect each other.** Take a copy of
a reachable state that has no balance override, no nil map and no
transient storage, and is not computing an access list. To any calls on
the two, in any order, each of them returns what the original returns to
the calls on that one when it is alone – if one of the two does not
revert to before a `CreateAccount` or `SetStorage` that was made before
the copy. -/
theorem copy_isolated {h : Heap} {s : Handle} (hs : Reachable h s) (hc : s.Copyable h)
    {cs : List (Bool × Call)}
    (hrev : ∃ b, ∀ snap, (b, .revertToSnapshot snap) ∈ cs → sharedLength s.journal ≤ snap) :
    Isolated h s cs := by
  intro b
  obtain ⟨L, σ, hrep⟩ := hs.rep
  have halone : alone (side b cs) h s = answersOf Call.run (side b cs) (some σ) := by
    have hany : ∀ c ∈ side b cs, (fun _ => True) c := fun _ _ => trivial
    refine answersOf_eq
      (R := fun (p : Heap × Handle) τ => ∃ L : Labels Bool, HandleRep L false 0 p.1 p.2 τ)
      (fun c p τ _ ⟨L, hrep⟩ => ?_) hany (.some ⟨L, hrep⟩)
    exact (hrep.run (fun _ _ => Nat.zero_le _)).mono fun q r ⟨hv, L', hrep', _⟩ => ⟨hv, L', hrep'⟩
  rw [halone]
  obtain ⟨b₀, hrev⟩ := hrev
  obtain ⟨L', hsides⟩ : ∃ L' : Labels Bool, ∀ b, Option.Rel
      (HandleRep L' b (if b = b₀ then sharedLength s.journal else 0) (s.copy h).1)
      (some (if b then (s.copy h).2 else s)) (some σ) := by
    cases b₀ with
    | false =>
      obtain ⟨L', horig, hcopy⟩ := hrep.copy_below hc
      exact ⟨L', Bool.rec (.some horig) (.some hcopy)⟩
    | true =>
      obtain ⟨L', horig, hcopy⟩ := hrep.copy_above hc
      exact ⟨L', Bool.rec (.some horig) (.some hcopy)⟩
  refine side_together (σ := fun _ => some σ) hsides (fun b snap hmem => ?_) b
  split_ifs with hb
  · exact hrev snap (hb ▸ hmem)
  · exact Nat.zero_le _

omit [Keccak]

/-- A copy of a state with a new account. Both are written, and the
original goes back to before the account. -/
theorem copy_isolated_created :
    letI := Keccak.digests
    let p := (newStateDB .empty).createAccount {} 1
    let cs := [(false, Call.op (.setState 1 0 7)), (true, .op (.getState 1 0)),
      (true, .op (.setState 1 0 8)), (false, .op (.getState 1 0)), (true, .revertToSnapshot 1),
      (true, .op (.getState 1 0)), (false, .revertToSnapshot 0), (false, .op (.exist 1))]
    Isolated p.1 p.2 cs
      ∧ alone (side false cs) p.1 p.2
        = [some .unit, some (.hash 7), some .unit, some (.bool false)]
      ∧ alone (side true cs) p.1 p.2
        = [some (.hash 0), some .unit, some .unit, some (.hash 0)] := by
  let _ := Keccak.digests
  intro p cs
  have hp : Reachable p.1 p.2 := .call (c := .op (.createAccount 1)) (.new .empty) rfl
  refine ⟨copy_isolated hp ⟨by decide, by decide, rfl, rfl⟩ ⟨true, fun snap hmem => ?_⟩,
    by decide, by decide⟩
  obtain rfl : snap = 1 := by simpa [cs] using hmem
  decide

/-- A copy does not keep a balance override, a nil map of storage and
`alcalc`, and shares the maps of transient storage, the object under a
`CreateAccount` and the map under a `SetStorage`. -/
theorem copy_not_isolated :
    letI := Keccak.digests
    (∃ h s, Reachable h s ∧ ¬ Isolated h s [(true, .op (.getBalance 1))])
      ∧ (∃ h s, Reachable h s ∧ ¬ Isolated h s [(true, .op (.setState 1 0 7))])
      ∧ (∃ h s, Reachable h s ∧ ¬ Isolated h s [(true, .addressInAccessList 1)])
      ∧ (∃ h s, Reachable h s
        ∧ ¬ Isolated h s [(true, .op (.setTransientState 1 0 7)), (false, .getTransientState 1 0)])
      ∧ (∃ h s, Reachable h s ∧ ¬ Isolated h s [(true, .revertToSnapshot 0),
        (false, .revertToSnapshot 0), (true, .op (.setState 1 0 7)), (false, .op (.getState 1 0))])
      ∧ (∃ h s, Reachable h s ∧ ¬ Isolated h s [(true, .revertToSnapshot 0),
        (false, .revertToSnapshot 0), (true, .op (.setState 1 0 7)),
        (false, .op (.getState 1 0))]) := by
  let _ := Keccak.digests
  refine ⟨⟨_, _, .call (c := .op (.setBalance 1 5))
      (.new (.single 1 { balance := some 7, codeHash := emptyCode.bytes } [])) rfl, by decide⟩,
    ⟨_, _, .call (c := .op (.setStorage 1 none)) (.new .empty) rfl, by decide⟩,
    ⟨_, _, .call (c := .alCalcCopy) (.new .empty) rfl, by decide⟩,
    ⟨_, _, .call (c := .op (.setTransientState 1 0 5)) (.new .empty) rfl, by decide⟩,
    ⟨_, _, .call (c := .op (.createAccount 1)) (.new .empty) rfl, by decide⟩,
    ⟨_, _, .call (c := .op (.setStorage 1 (some (fun _ => none)))) (.new .empty) rfl, by decide⟩⟩

end Handle
