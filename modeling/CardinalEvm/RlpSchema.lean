import CardinalEvm.RlpTypes
import Mathlib.Logic.Equiv.List

/-!
# Schemas of structures

A structure of the model is encoded as the Go struct it stands for. Its
schema is put together from the schemas of its fields – a `Row` for the
list of the fields, and an equivalence between the structure and the
tuple of their values – so that what has to be said for a structure is
the names and the types of its fields, in the order of the source.

The decoder of a schema and its encoding are a codec again
(`Schema.codec`), and the encoding of a struct is a list with the
encodings of the fields (`Schema.bytes_struct`, `Schema.bytes_cons`).
-/

namespace Rlp

/-- **The fields of a struct**, with values in types of the model. -/
structure Row (β : Type) where
  fields : Fields
  wf : fields.Wf
  equiv : β ≃ fields.Vals

namespace Row

variable {α β : Type}

/-- No more fields. -/
def nil : Row Unit := ⟨.nil, trivial, Equiv.refl _⟩

/-- A field before others. -/
def cons (name : String) (S : Schema α) (R : Row β) : Row (α × β) where
  fields := .cons name S.type R.fields
  wf := ⟨S.wf, R.wf⟩
  equiv := Equiv.prodCongr S.equiv R.equiv

/-- The values are written as they are read. -/
def Ok (R : Row β) (b : β) : Prop := R.fields.Ok (R.equiv b)

/-- What the values are encoded as. -/
def bytes (R : Row β) (b : β) : Bytes := R.fields.encode (R.equiv b)

end Row

namespace Schema

variable {α β : Type}

/-! ## Types of fields -/

/-- `uint64`. -/
def uint64 : Schema UInt64 :=
  ⟨.uint 64, by simp [Ty.Wf], ⟨UInt64.toBitVec, UInt64.ofBitVec, fun _ => rfl, fun _ => rfl⟩⟩

/-- `uint8`. -/
def uint8 : Schema UInt8 :=
  ⟨.uint 8, by simp [Ty.Wf], ⟨UInt8.toBitVec, UInt8.ofBitVec, fun _ => rfl, fun _ => rfl⟩⟩

/-- `big.Int`. -/
def bigInt : Schema Int := ⟨.bigInt, trivial, Equiv.refl _⟩

/-- `uint256.Int`. -/
def uint256 : Schema Word := ⟨.uint256, trivial, Equiv.refl _⟩

/-- `[]byte`. -/
def slicedBytes : Schema Bytes := ⟨.bytes, trivial, Equiv.refl _⟩

/-- `[n]byte`. -/
def array (n : Nat) (h : 2 ≤ n ∧ n < 2 ^ 63) : Schema (BitVec (8 * n)) :=
  ⟨.array n, h, Equiv.refl _⟩

/-- `*[n]byte` with the tag `nil`. -/
def nilArray (n : Nat) (h : 2 ≤ n ∧ n < 2 ^ 63) : Schema (Option (BitVec (8 * n))) :=
  ⟨.nilPtr (.array n), ⟨n, rfl, h⟩, Equiv.refl _⟩

/-- A pointer. -/
def ptr (S : Schema α) : Schema (Option α) := ⟨.ptr S.type, S.wf, Equiv.optionCongr S.equiv⟩

/-- A slice of anything but bytes. -/
def slice (S : Schema α) (h : S.type.isByte = false := by decide) : Schema (List α) :=
  ⟨.slice S.type, ⟨h, S.wf⟩, Equiv.listEquivOfEquiv S.equiv⟩

/-- A struct with the given fields. -/
def struct (R : Row β) (e : α ≃ β) : Schema α := ⟨.struct R.fields, R.wf, e.trans R.equiv⟩

/-! ## Values that are written as they are read -/

@[simp] theorem ok_uint64 (v : UInt64) : uint64.Ok v := trivial

@[simp] theorem ok_uint8 (v : UInt8) : uint8.Ok v := trivial

@[simp] theorem ok_bigInt (v : Int) : bigInt.Ok v ↔ 0 ≤ v := Iff.rfl

@[simp] theorem ok_uint256 (v : Word) : uint256.Ok v := trivial

@[simp] theorem ok_slicedBytes (v : Bytes) : slicedBytes.Ok v := trivial

@[simp] theorem ok_ptr (S : Schema α) (v : Option α) :
    S.ptr.Ok v ↔ ∃ a, v = some a ∧ S.Ok a := by
  constructor
  · rintro ⟨x, hv, hx⟩
    obtain ⟨a, rfl, rfl⟩ := Option.map_eq_some_iff.mp hv
    exact ⟨a, rfl, hx⟩
  · rintro ⟨a, rfl, ha⟩
    exact ⟨S.equiv a, rfl, ha⟩

@[simp] theorem ok_slice (S : Schema α) (h : S.type.isByte = false) (l : List α) :
    (S.slice h).Ok l ↔ ∀ a ∈ l, S.Ok a :=
  List.forall_mem_map

@[simp] theorem ok_struct (R : Row β) (e : α ≃ β) (a : α) :
    (struct R e).Ok a ↔ R.Ok (e a) := Iff.rfl

@[simp] theorem ok_nil (b : Unit) : Row.nil.Ok b := trivial

@[simp] theorem ok_cons (name : String) (S : Schema α) (R : Row β) (a : α) (b : β) :
    (Row.cons name S R).Ok (a, b) ↔ S.Ok a ∧ R.Ok b := Iff.rfl

/-! ## The encoding -/

section Encoding

variable {S : Schema α} {a : α} {b : Bytes}

/-- What a value is encoded as. -/
def bytes (S : Schema α) (a : α) : Bytes := S.type.encode (S.equiv a)

theorem bytes_struct (R : Row β) (e : α ≃ β) (a : α) :
    (struct R e).bytes a = Rlp.list (R.bytes (e a)) := rfl

/-- The writer of the type. -/
def write (S : Schema α) (a : α) : EncM Unit := S.type.write (S.equiv a)

/-- The decoder of the type, on a stream. -/
def read (S : Schema α) : StreamM α := S.equiv.symm <$> S.type.decode

/-- **The codec of a schema.** -/
theorem codec (S : Schema α) : Codec S.read S.bytes S.Ok := by
  refine (S.type.codec S.wf).map S.equiv.symm (fun v hv => ?_) (fun a ha => ?_)
  · rw [Ok, bytes, S.equiv.apply_symm_apply]
    exact ⟨hv, rfl⟩
  · exact ⟨S.equiv a, ha, S.equiv.symm_apply_apply a⟩

/-- A value is written as its encoding. -/
theorem writes (ha : S.Ok a) : Writes (S.write a) (S.bytes a) := S.type.writes S.wf _ ha

/-- What `EncodeToBytes` returns is the encoding. -/
theorem encode_eq_ok (ha : S.Ok a) (hb : b.length < 2 ^ 63) :
    S.encode a = .ok b ↔ S.bytes a = b :=
  encodeToBytes_eq_ok (writes ha) hb

/-- A struct is read from its header on. -/
theorem peeks_struct (R : Row β) (e : α ≃ β) : Peeks (struct R e).read :=
  ((Peeks.kindAhead_bind _).wrapped.bind _).map _

end Encoding

end Schema

end Rlp
