import StackMachine.Proofs.Json.Leaves
import StackMachine.Proofs.Json.RoundTrip
import StackMachine.Value.Json

/-!
Values that are written as JSON and read.  A value comes back with its kind if all its floating parts are
finite, and what it writes is refused if one is not.  In single precision this hangs on the number itself,
since a numeral reaches it through double precision.
-/

set_option autoImplicit false

namespace StackMachine

open StackMachine (Json)

/-- The number in single precision is read from its own shortest digits. -/
def Json.ReadsBack (x : Float32) : Prop := (Json.ofSingle x).single? = some x

instance (x : Float32) : Decidable (Json.ReadsBack x) :=
  inferInstanceAs (Decidable (_ = _))

/-! ## Parts of values -/

theorem Complex.ofJson?_object (z : Complex) :
    Complex.ofJson? (.object [(some "re", .ofFloat z.re), (some "im", .ofFloat z.im)])
      = if z.re.isFinite ∧ z.im.isFinite then some z else none := by
  have hfields : Json.fields? ["re", "im"] (.object [(some "re", .ofFloat z.re), (some "im", .ofFloat z.im)])
      = some [some (.ofFloat z.re), some (.ofFloat z.im)] := rfl
  rw [Complex.ofJson?, hfields]
  simp only [Option.bind_eq_bind, Option.bind_some, Json.float?_ofFloat]
  cases z.re.isFinite <;> cases z.im.isFinite <;> rfl

theorem ByteString.ofJson?_toJson (s : ByteString) : ByteString.ofJson? s.toJson = some s := by
  have hoctet : ∀ b ∈ s.octets.toList,
      ((Json.ofInt b.toNat).natBelow? 256).map UInt8.ofNat = some b := fun b _ => by
    rw [Json.natBelow?_ofInt b.toNat_lt, Option.map_some, UInt8.ofNat_toNat]
  rw [ofJson?, toJson, Json.arrayOf?_map _ hoctet, Option.map_some, Array.toArray_toList]

namespace Value

/-- All floating parts of the value are numbers. -/
def isFinite : Value → Bool
  | real x | double x => x.isFinite
  | float x => x.isFinite
  | complex z => z.re.isFinite && z.im.isFinite
  | _ => true

/-! ## The tree of a value -/

theorem isWritable_content (v : Value) : v.content.IsWritable := by
  cases v with
  | null => trivial
  | int n | long n | byte n | uint n | ulong n | ref n => exact Json.isWritable_ofInt _
  | real x | double x => exact Json.isWritable_ofFloat x
  | float x => exact Json.isWritable_ofSingle x
  | complex z => exact ⟨rfl, Json.isWritable_ofFloat z.re, rfl, Json.isWritable_ofFloat z.im, trivial⟩
  | string s => exact Json.isWritable_map _ fun b => Json.isWritable_ofInt b.toNat

theorem isWritable_toJson (v : Value) : v.toJson.IsWritable := by
  have hmember : (Json.object [(some v.kind.name, v.content)]).IsWritable := ⟨rfl, v.isWritable_content, trivial⟩
  cases v with
  | null => rfl
  | _ => exact hmember

/-- The content of a value is read by the rule for its kind. -/
theorem ofMember?_content (v : Value) (hs : ∀ x, v = float x → x.isFinite = true → Json.ReadsBack x) :
    ofMember? v.kind.name v.content = if v.isFinite then some v else none := by
  cases v with
  | null => rfl
  | int n => exact congrArg (Option.map int) (Json.word?_ofInt n)
  | long n => exact congrArg (Option.map long) (Json.word?_ofInt n)
  | byte n =>
    change ((Json.ofInt n.toNat).natBelow? 256).map _ = some (byte n)
    rw [Json.natBelow?_ofInt n.toNat_lt, Option.map_some, UInt8.ofNat_toNat]
  | uint n =>
    change ((Json.ofInt n.toNat).natBelow? 0x100000000).map _ = some (uint n)
    rw [Json.natBelow?_ofInt n.toNat_lt, Option.map_some, UInt32.ofNat_toNat]
  | ulong n =>
    have hn : n.toNat < Word.cardinality := n.toNat_lt
    change ((Json.ofInt n.toNat).natBelow? Word.cardinality).map _ = some (ulong n)
    rw [Json.natBelow?_ofInt hn, Option.map_some, UInt64.ofNat_toNat]
  | ref n =>
    have hn : n.toNat < Word.cardinality := n.toNat_lt
    change ((Json.ofInt n.toNat).natBelow? Word.cardinality).map _ = some (ref n)
    rw [Json.natBelow?_ofInt hn, Option.map_some, UInt64.ofNat_toNat]
  | real x =>
    change (Json.ofFloat x).float?.map real = if x.isFinite then some (real x) else none
    rw [Json.float?_ofFloat, apply_ite (Option.map real)]
    rfl
  | double x =>
    change (Json.ofFloat x).float?.map double = if x.isFinite then some (double x) else none
    rw [Json.float?_ofFloat, apply_ite (Option.map double)]
    rfl
  | float x =>
    change (Json.ofSingle x).single?.map float = if x.isFinite then some (float x) else none
    cases hx : x.isFinite with
    | true => rw [hs x rfl hx, Option.map_some, if_pos rfl]
    | false =>
      rw [Json.ofSingle_of_not_isFinite hx]
      rfl
  | complex z =>
    change (Complex.ofJson? (complex z).content).map complex
      = if z.re.isFinite && z.im.isFinite then some (complex z) else none
    rw [content, Complex.ofJson?_object, apply_ite (Option.map complex)]
    simp only [Bool.and_eq_true]
    rfl
  | string s => exact congrArg (Option.map string) s.ofJson?_toJson

end Value

end StackMachine
