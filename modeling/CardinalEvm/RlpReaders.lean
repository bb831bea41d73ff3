import CardinalEvm.RlpRaw
import CardinalEvm.RlpTypes

/-!
# The two readers

The package reads RLP in two ways: with a stream, which keeps the sizes
of the lists it stands in, and by splitting slices. Their checks are
written down twice. Splitting a value into its parts and these into
theirs accepts the same byte strings as decoding into an empty interface,
and gives the same value (`splitItem_iff_decodeItem`), because both accept
exactly the encodings.
-/

namespace Rlp

/-! ## Splitting to the end -/

/-- The values in the content of a list, split off one after the other. -/
def splitElems (one : Bytes → Except Err (Item × Bytes)) : ℕ → Bytes → Except Err (List Item)
  | _, [] => return []
  | 0, _ :: _ => throw .outOfFuel
  | fuel + 1, x :: buf => do
    let (item, rest) ← one (x :: buf)
    let items ← splitElems one fuel rest
    return item :: items

/-- The first value of a slice, with what is in a list split by a given
function, and the bytes after it. -/
def splitFirst (elems : Bytes → Except Err (List Item)) (b : Bytes) :
    Except Err (Item × Bytes) := do
  let (k, _, _) ← split b
  if k = .list then
    let (content, rest) ← splitList b
    let items ← elems content
    return (.list items, rest)
  else
    let (content, rest) ← splitString b
    return (.string content, rest)

/-- The first value of a slice, split to the end. Every list in a list
takes a byte, which bounds how deep they are nested. -/
def splitValue : ℕ → Bytes → Except Err (Item × Bytes)
  | 0 => splitFirst fun _ => throw .outOfFuel
  | fuel + 1 => splitFirst fun content => splitElems (splitValue fuel) content.length content

/-- **A byte string split to the end**, with nothing left over. -/
def splitItem (b : Bytes) : Except Err Item := do
  let (item, rest) ← splitValue b.length b
  if rest ≠ [] then throw .moreThanOneValue
  return item

/-! ## It accepts the encodings -/

/-- A way to split off a value: what it returns is encoded in front of
what it leaves, and it splits off whatever is encoded in front. -/
def Splits (one : Bytes → Except Err (Item × Bytes)) (ok : Item → Prop) : Prop :=
  ∀ b item rest, b.length < 2 ^ 63 →
    (one b = .ok (item, rest) ↔ ok item ∧ b = item.encode ++ rest)

/-- A way to split the content of a list. -/
def SplitsAll (elems : Bytes → Except Err (List Item)) (ok : List Item → Prop) : Prop :=
  ∀ b items, b.length < 2 ^ 63 → (elems b = .ok items ↔ ok items ∧ b = Item.encodeAll items)

variable {b content rest : Bytes}

theorem splitList_eq_ok (hb : b.length < 2 ^ 63) :
    splitList b = .ok (content, rest) ↔ b = Rlp.list content ++ rest := by
  unfold splitList
  constructor
  · intro h
    obtain ⟨⟨k, content', rest'⟩, hsplit, h⟩ := exceptBind_eq_ok.mp h
    have hb := split_sound hb hsplit
    cases k with
    | list =>
      cases h
      exact hb
    | byte => cases h
    | string => cases h
  · rintro rfl
    rw [split_list content rest hb]
    rfl

theorem splitString_eq_ok (hb : b.length < 2 ^ 63) :
    splitString b = .ok (content, rest) ↔ b = Rlp.string content ++ rest := by
  unfold splitString
  constructor
  · intro h
    obtain ⟨⟨k, content', rest'⟩, hsplit, h⟩ := exceptBind_eq_ok.mp h
    have hb := split_sound hb hsplit
    cases k with
    | list => cases h
    | byte =>
      cases h
      exact hb
    | string =>
      cases h
      exact hb
  · rintro rfl
    obtain ⟨k, hk, hsplit⟩ := split_string content rest hb
    rw [hsplit]
    exact if_neg hk

/-- A value is split off if what is in a list is split. -/
theorem SplitsAll.first {elems : Bytes → Except Err (List Item)} {ok : List Item → Prop}
    (h : SplitsAll elems ok) :
    Splits (splitFirst elems) fun item => ∀ l, item = .list l → ok l := by
  intro b item rest hb
  unfold splitFirst
  constructor
  · intro hfirst
    obtain ⟨⟨k, content, rest'⟩, hsplit, hfirst⟩ := exceptBind_eq_ok.mp hfirst
    by_cases hk : k = .list
    · subst hk
      obtain ⟨⟨content, rest'⟩, hlist, hfirst⟩ := exceptBind_eq_ok.mp hfirst
      obtain ⟨items, hitems, hfirst⟩ := exceptBind_eq_ok.mp hfirst
      cases hfirst
      have hb' := (splitList_eq_ok hb).mp hlist
      have hcontent : content.length < 2 ^ 63 := by
        rw [hb', Rlp.list, List.length_append, List.length_append] at hb
        omega
      obtain ⟨hok, rfl⟩ := (h content items hcontent).mp hitems
      refine ⟨?_, ?_⟩
      · rintro l ⟨⟩
        exact hok
      · rw [Item.encode]
        exact hb'
    · simp only [if_neg hk] at hfirst
      obtain ⟨⟨content, rest'⟩, hstring, hfirst⟩ := exceptBind_eq_ok.mp hfirst
      cases hfirst
      refine ⟨?_, ?_⟩
      · rintro l ⟨⟩
      · rw [Item.encode]
        exact (splitString_eq_ok hb).mp hstring
  · rintro ⟨hok, rfl⟩
    cases item with
    | string content =>
      rw [Item.encode] at hb ⊢
      obtain ⟨k, hk, hsplit⟩ := split_string content rest hb
      rw [hsplit, (splitString_eq_ok hb).mpr rfl]
      exact if_neg hk
    | list items =>
      rw [Item.encode] at hb ⊢
      have hcontent : (Item.encodeAll items).length < 2 ^ 63 := by
        rw [Rlp.list, List.length_append, List.length_append] at hb
        omega
      have hitems := (h _ items hcontent).mpr ⟨hok items rfl, rfl⟩
      refine exceptBind_eq_ok.mpr ⟨_, split_list _ rest hb, Eq.trans (if_pos rfl) ?_⟩
      refine exceptBind_eq_ok.mpr ⟨_, (splitList_eq_ok hb).mpr rfl, ?_⟩
      exact exceptBind_eq_ok.mpr ⟨items, hitems, rfl⟩

theorem splitElems_nil (one : Bytes → Except Err (Item × Bytes)) (fuel : ℕ) (ok : Item → Prop)
    (items : List Item) :
    splitElems one fuel [] = .ok items ↔ (∀ x ∈ items, ok x) ∧ [] = Item.encodeAll items := by
  have hnil : splitElems one fuel [] = .ok [] := by
    cases fuel with
    | zero => rfl
    | succ fuel => rfl
  rw [hnil]
  constructor
  · intro h
    cases h
    exact ⟨fun x hx => absurd hx List.not_mem_nil, by rw [Item.encodeAll]⟩
  · rintro ⟨-, h⟩
    cases items with
    | nil => rfl
    | cons x items =>
      rw [Item.encodeAll] at h
      exact absurd (List.append_eq_nil_iff.mp h.symm).1 x.encode_ne_nil

theorem length_rest {item : Item} (h : b = item.encode ++ rest) :
    rest.length < b.length := by
  have hpos := List.length_pos_of_ne_nil item.encode_ne_nil
  rw [h, List.length_append]
  omega

/-- The content of a list is split if its values are. -/
theorem Splits.elems {one : Bytes → Except Err (Item × Bytes)} {ok : Item → Prop}
    (h : Splits one ok) :
    SplitsAll (fun content => splitElems one content.length content)
      fun items => ∀ x ∈ items, ok x := by
  -- by induction on the fuel, which is at least the number of bytes
  have hfuel : ∀ fuel b items, b.length < 2 ^ 63 → b.length ≤ fuel →
      (splitElems one fuel b = .ok items ↔ (∀ x ∈ items, ok x) ∧ b = Item.encodeAll items) := by
    intro fuel
    induction fuel with
    | zero =>
      intro b items _ hle
      obtain rfl := List.eq_nil_of_length_eq_zero (Nat.le_zero.mp hle)
      exact splitElems_nil one 0 ok items
    | succ fuel ih =>
      intro b items hb hle
      cases b with
      | nil => exact splitElems_nil one _ ok items
      | cons x buf =>
        rw [splitElems]
        constructor
        · intro hall
          obtain ⟨⟨item, rest⟩, hone, hall⟩ := exceptBind_eq_ok.mp hall
          obtain ⟨items', hitems, hall⟩ := exceptBind_eq_ok.mp hall
          cases hall
          obtain ⟨hok, heq⟩ := (h _ item rest hb).mp hone
          have hrest := length_rest heq
          obtain ⟨hoks, rfl⟩ := (ih rest items' (by omega) (by omega)).mp hitems
          refine ⟨fun y hy => ?_, ?_⟩
          · obtain rfl | hy := List.mem_cons.mp hy
            · exact hok
            · exact hoks y hy
          · rw [Item.encodeAll]
            exact heq
        · rintro ⟨hoks, heq⟩
          cases items with
          | nil =>
            rw [Item.encodeAll] at heq
            cases heq
          | cons item items =>
            rw [Item.encodeAll] at heq
            have hrest := length_rest heq
            have hone := (h _ item _ hb).mpr ⟨hoks item List.mem_cons_self, heq⟩
            have hitems := (ih (Item.encodeAll items) items (by omega) (by omega)).mpr
              ⟨fun y hy => hoks y (List.mem_cons_of_mem _ hy), rfl⟩
            exact exceptBind_eq_ok.mpr ⟨_, hone, exceptBind_eq_ok.mpr ⟨_, hitems, rfl⟩⟩
  intro b items hb
  exact hfuel b.length b items hb le_rfl

/-- **A value is split off** exactly if it is encoded in front, nested no
deeper than the fuel. -/
theorem splits_splitValue (fuel : ℕ) : Splits (splitValue fuel) fun item => item.depth ≤ fuel := by
  induction fuel with
  | zero =>
    have hnone : SplitsAll (fun _ => throw .outOfFuel) fun _ => False := by
      intro b items _
      refine iff_of_false ?_ fun h => h.1
      intro h
      cases h
    intro b item rest hb
    rw [splitValue, hnone.first b item rest hb]
    cases item with
    | string content => simp [Item.depth]
    | list items => simp [Item.depth]
  | succ fuel ih =>
    intro b item rest hb
    rw [splitValue, ih.elems.first b item rest hb]
    cases item with
    | string content => simp [Item.depth]
    | list items => simp [Item.depth, Item.depthAll_le_iff]

/-- **What is split to the end** is an encoding. -/
theorem splitItem_eq_ok (hb : b.length < 2 ^ 63) {item : Item} :
    splitItem b = .ok item ↔ item.encode = b := by
  constructor
  · intro h
    obtain ⟨⟨item', rest⟩, hvalue, h⟩ := exceptBind_eq_ok.mp h
    obtain ⟨-, heq⟩ := (splits_splitValue b.length b item' rest hb).mp hvalue
    by_cases hrest : rest = []
    · subst hrest
      cases h
      rw [heq, List.append_nil]
    · simp only [bind, Except.bind, if_pos hrest] at h
      cases h
  · intro h
    have hdepth : item.depth ≤ b.length := h ▸ item.depth_le
    have hvalue := (splits_splitValue b.length b item [] hb).mpr
      ⟨hdepth, by rw [h, List.append_nil]⟩
    exact exceptBind_eq_ok.mpr ⟨_, hvalue, rfl⟩

/-! ## Counting -/

/-- What `Split` leaves is what comes after the tag and the content. -/
theorem exists_readKind {k : Kind} (h : split b = .ok (k, content, rest)) :
    ∃ tag, readKind b = .ok tag ∧ b.drop (tag.tagsize + tag.contentsize).toNat = rest := by
  obtain ⟨tag, htag, h⟩ := exceptBind_eq_ok.mp h
  exact ⟨tag, htag, congrArg (·.2.2) (Except.ok.inj h)⟩

/-- The first of some values, split off. -/
theorem exists_split (item : Item) (rest : Bytes) (h : (item.encode ++ rest).length < 2 ^ 63) :
    ∃ k content, split (item.encode ++ rest) = .ok (k, content, rest) := by
  cases item with
  | string content =>
    rw [Item.encode] at h ⊢
    obtain ⟨k, -, hsplit⟩ := split_string content rest h
    exact ⟨k, content, hsplit⟩
  | list items =>
    rw [Item.encode] at h ⊢
    exact ⟨_, _, split_list _ rest h⟩

/-- **`CountValues` counts** the values that are encoded one after the
other. -/
theorem countValues_encodeAll (items : List Item) (h : (Item.encodeAll items).length < 2 ^ 63) :
    countValues (Item.encodeAll items) = .ok items.length := by
  have hfuel : ∀ fuel, (Item.encodeAll items).length ≤ fuel →
      countFrom fuel (Item.encodeAll items) = .ok items.length := by
    induction items with
    | nil =>
      intro fuel _
      rw [Item.encodeAll]
      cases fuel with
      | zero => rfl
      | succ fuel => rfl
    | cons item items ih =>
      intro fuel hle
      rw [Item.encodeAll] at h hle ⊢
      have hrest := length_rest (b := item.encode ++ Item.encodeAll items) rfl
      obtain ⟨k, content, hsplit⟩ := exists_split item (Item.encodeAll items) h
      obtain ⟨tag, htag, hdrop⟩ := exists_readKind hsplit
      obtain ⟨fuel, rfl⟩ : ∃ n, fuel = n + 1 := ⟨fuel - 1, by omega⟩
      have hcount := ih (by omega) fuel (by omega)
      cases hb : item.encode ++ Item.encodeAll items with
      | nil => exact absurd (List.append_eq_nil_iff.mp hb).1 item.encode_ne_nil
      | cons x buf =>
        rw [hb] at htag hdrop
        rw [countFrom]
        refine exceptBind_eq_ok.mpr ⟨tag, htag, exceptBind_eq_ok.mpr ⟨items.length, ?_, rfl⟩⟩
        rw [hdrop]
        exact hcount
  exact hfuel _ le_rfl

/-- **The two readers agree** on what a byte string is, and on how many
elements are in a list. -/
theorem splitItem_iff_decodeItem (b : Bytes) (hb : b.length < 2 ^ 63) :
    (∀ item, splitItem b = .ok item ↔ decodeItem b = .ok item)
      ∧ ∀ items, decodeItem b = .ok (.list items) →
        ∃ content, splitList b = .ok (content, []) ∧ countValues content = .ok items.length := by
  refine ⟨fun item => ?_, fun items hitems => ?_⟩
  · rw [splitItem_eq_ok hb, decodeItem_eq_ok hb]
  · have heq := (decodeItem_eq_ok hb).mp hitems
    rw [Item.encode] at heq
    refine ⟨Item.encodeAll items, (splitList_eq_ok hb).mpr ?_, countValues_encodeAll items ?_⟩
    · rw [heq, List.append_nil]
    · rw [← heq, Rlp.list, List.length_append] at hb
      omega

/-- A list of a string and an empty list. -/
theorem splitItem_iff_decodeItem_pair :
    let b : Bytes := [0xC3, 0x81, 0x80, 0xC0]
    splitItem b = .ok (.list [.string [0x80], .list []])
      ∧ decodeItem b = .ok (.list [.string [0x80], .list []]) := by
  intro b
  have hsplit : splitItem b = .ok (.list [.string [0x80], .list []]) := by rfl
  exact ⟨hsplit, ((splitItem_iff_decodeItem b (by decide)).1 _).mp hsplit⟩

end Rlp
