import StackMachine.Program.Json
import StackMachine.Proofs.Json.Leaves
import StackMachine.Proofs.Json.RoundTrip

/-!
Programs that are written and read.  A program comes back as it was if all its reals are finite, and what it
writes is refused if one is not; every program that was read has finite reals only.
-/

set_option autoImplicit false

namespace StackMachine.Program

open StackMachine (Json)

variable {p : Program}

/-- Every real constant of the program is a number. -/
def HasFiniteReals (p : Program) : Prop := ∀ x ∈ p.reals.items, x.isFinite = true

instance (p : Program) : Decidable p.HasFiniteReals :=
  inferInstanceAs (Decidable (∀ x ∈ p.reals.items, x.isFinite = true))

/-! ## The tree of a program -/

theorem isWritable_toJson (p : Program) : p.toJson.IsWritable :=
  ⟨rfl, Json.isWritable_map _ fun w => Json.isWritable_ofInt w.toInt, rfl,
    Json.isWritable_map _ fun n => Json.isWritable_ofInt n.toInt, rfl,
    Json.isWritable_map _ Json.isWritable_ofFloat, rfl, Json.isWritable_map _ fun _ => rfl, trivial⟩

/-- The fields of a written program, in order. -/
theorem fields?_toJson (p : Program) : p.toJson.fields? fieldNames = some [
    some (.array (p.code.toList.map fun w => Json.ofInt w.toInt)),
    some (.array (p.ints.items.toList.map fun n => Json.ofInt n.toInt)),
    some (.array (p.reals.items.toList.map Json.ofFloat)),
    some (.array (p.strings.items.toList.map Json.ofText))] := by
  rfl

/-- Everything but the reals is read back in any case. -/
theorem ofJson?_toJson (p : Program) : ofJson? p.toJson
    = (pool? Json.float? (.array (p.reals.items.toList.map Json.ofFloat))).map fun reals => { p with reals } := by
  have hcode := Json.arrayOf?_map p.code.toList fun w _ => Json.word?_ofInt w
  have hints := Json.arrayOf?_map p.ints.items.toList fun n _ => Json.word?_ofInt n
  have htext : ∀ text ∈ p.strings.items.toList, (Json.ofText text).text? = some text := fun _ _ => rfl
  have hstrings := Json.arrayOf?_map p.strings.items.toList htext
  rw [ofJson?, fields?_toJson]
  simp only [Option.bind_eq_bind, Option.bind_some, Json.orDefault, pool?, hcode, hints, hstrings,
    Option.map_some, Array.toArray_toList]
  cases (Json.array (p.reals.items.toList.map Json.ofFloat)).arrayOf? Json.float? <;> rfl

theorem pool?_reals (p : Program) : pool? Json.float? (.array (p.reals.items.toList.map Json.ofFloat))
    = if p.HasFiniteReals then some p.reals else none := by
  split
  · next h =>
    have hreal : ∀ x ∈ p.reals.items.toList, (Json.ofFloat x).float? = some x := fun x hx => by
      rw [Json.float?_ofFloat, if_pos (h x (Array.mem_toList_iff.1 hx))]
    rw [pool?, Json.arrayOf?_map p.reals.items.toList hreal, Option.map_some, Array.toArray_toList]
  · next h =>
    obtain ⟨x, hx, hfinite⟩ : ∃ x ∈ p.reals.items, ¬ x.isFinite = true := by
      simpa [HasFiniteReals] using h
    have hreal : (Json.ofFloat x).float? = none := by rw [Json.float?_ofFloat, if_neg hfinite]
    rw [pool?, Json.arrayOf?_map_eq_none (Array.mem_toList_iff.2 hx) hreal, Option.map_none]

/-- Only numbers are read as real constants. -/
theorem hasFiniteReals_of_ofJson? {v : Json} (h : ofJson? v = some p) : p.HasFiniteReals := by
  have hpool : ∀ {reals : Option Json} {pool : Pool Float},
      Json.orDefault .empty (pool? Json.float?) reals = some pool → ∀ x ∈ pool.items, x.isFinite = true := by
    intro reals pool hreals x hx
    cases reals with
    | none =>
      obtain rfl := Option.some.inj hreals
      exact absurd hx (Array.not_mem_empty x)
    | some v =>
      obtain ⟨items, hitems, rfl⟩ := Option.map_eq_some_iff.1 hreals
      obtain ⟨v', hv'⟩ := Json.exists_of_arrayOf? hitems x hx
      exact Json.isFinite_of_float? hv'
  obtain ⟨fields, -, h⟩ := Option.bind_eq_some_iff.1 h
  split at h
  · obtain ⟨code, -, h⟩ := Option.bind_eq_some_iff.1 h
    obtain ⟨ints, -, h⟩ := Option.bind_eq_some_iff.1 h
    obtain ⟨reals, hreals, h⟩ := Option.bind_eq_some_iff.1 h
    obtain ⟨strings, -, h⟩ := Option.bind_eq_some_iff.1 h
    obtain rfl := Option.some.inj h
    exact hpool hreals
  · cases h

/-! ## The text of a program -/

end StackMachine.Program
