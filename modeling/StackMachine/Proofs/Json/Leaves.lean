import Mathlib.Data.List.Forall2
import StackMachine.Proofs.Json.Lexing
import StackMachine.Proofs.Json.Numerals

/-!
Typed data that is written into a JSON tree and read out of it.  Words, natural numbers below a bound and finite
doubles come back, and so does an array if every item does; what is no finite number is refused.
-/

set_option autoImplicit false

namespace StackMachine.Json

/-! ## Numbers -/

theorem isWritable_ofInt (n : Int) : (ofInt n).IsWritable := by
  obtain ⟨numeral, value, hwritten, hread, -⟩ := ofInt_eq n
  rw [hwritten, IsWritable, hread]
  rfl

theorem isWritable_ofFloat (x : Float) : (ofFloat x).IsWritable := by
  cases hx : x.isFinite with
  | true =>
    obtain ⟨numeral, value, hwritten, hread, -⟩ := ofFloat_of_isFinite hx
    rw [hwritten, IsWritable, hread]
    rfl
  | false =>
    rw [ofFloat_of_not_isFinite hx]
    trivial

theorem isWritable_ofSingle (x : Float32) : (ofSingle x).IsWritable := by
  cases hx : x.isFinite with
  | true =>
    obtain ⟨numeral, value, hwritten, hread⟩ := ofSingle_of_isFinite hx
    rw [hwritten, IsWritable, hread]
    rfl
  | false =>
    rw [ofSingle_of_not_isFinite hx]
    trivial

/-- An integer is written as a numeral that reads as it. -/
theorem exists_numeral?_ofInt (n : Int) : ∃ value, (ofInt n).numeral? = some value ∧ value.int? = some n := by
  obtain ⟨numeral, value, hwritten, hread, hint⟩ := ofInt_eq n
  refine ⟨value, ?_, hint⟩
  rw [hwritten, numeral?, hread]

theorem word?_ofInt (w : Word) : (ofInt w.toInt).word? = some w := by
  obtain ⟨value, hread, hint⟩ := exists_numeral?_ofInt w.toInt
  rw [word?, Option.bind_eq_bind, Option.bind_eq_bind, hread, Option.bind_some, hint, Option.bind_some, ofInt?_toInt]

theorem natBelow?_ofInt {n bound : Nat} (h : n < bound) : (ofInt n).natBelow? bound = some n := by
  obtain ⟨value, hread, hint⟩ := exists_numeral?_ofInt n
  rw [natBelow?, Option.bind_eq_bind, hread, Option.bind_some, Option.bind_eq_bind, hint, Option.bind_some]
  exact if_pos h

theorem float?_ofFloat (x : Float) : (ofFloat x).float? = if x.isFinite then some x else none := by
  cases hx : x.isFinite with
  | true =>
    obtain ⟨numeral, value, hwritten, hread, hfloat⟩ := ofFloat_of_isFinite hx
    rw [float?, hwritten, numeral?, hread]
    exact hfloat
  | false =>
    rw [ofFloat_of_not_isFinite hx]
    rfl

theorem isFinite_of_float? {v : Json} {x : Float} (h : v.float? = some x) : x.isFinite = true := by
  obtain ⟨n, -, hn⟩ := Option.bind_eq_some_iff.1 h
  unfold Numeral.float? at hn
  dsimp only at hn
  split at hn
  · next hfinite =>
    obtain rfl := Option.some.inj hn
    exact hfinite
  · cases hn

/-! ## Arrays -/

/-- All items of a list are read if each of them is. -/
theorem mapM_eq_some_iff {α β : Type} {item? : α → Option β} {as : List α} {bs : List β} :
    as.mapM item? = some bs ↔ List.Forall₂ (fun a b => item? a = some b) as bs := by
  induction as generalizing bs with
  | nil => simp [eq_comm]
  | cons a as ih =>
    rw [List.mapM_cons, List.forall₂_cons_left_iff]
    constructor
    · intro h
      obtain ⟨b, hb, h⟩ := Option.bind_eq_some_iff.1 h
      obtain ⟨bs', hbs, h⟩ := Option.bind_eq_some_iff.1 h
      exact ⟨b, bs', hb, ih.1 hbs, (Option.some.inj h).symm⟩
    · rintro ⟨b, bs', hb, hbs, rfl⟩
      rw [hb, ih.2 hbs]
      rfl

theorem exists_mem_of_forall₂ {α β : Type} {r : α → β → Prop} {as : List α} {bs : List β}
    (h : List.Forall₂ r as bs) {a : α} (ha : a ∈ as) : ∃ b ∈ bs, r a b := by
  induction h with
  | nil => cases ha
  | cons hab _ ih =>
    rcases List.mem_cons.1 ha with rfl | ha
    · exact ⟨_, List.mem_cons_self, hab⟩
    · obtain ⟨b, hb, hr⟩ := ih ha
      exact ⟨b, List.mem_cons_of_mem _ hb, hr⟩

theorem mapM_eq_none_of_mem {α β : Type} {item? : α → Option β} {as : List α} {a : α} (ha : a ∈ as)
    (h : item? a = none) : as.mapM item? = none := by
  rw [Option.eq_none_iff_forall_ne_some]
  intro bs hbs
  obtain ⟨b, -, hb⟩ := exists_mem_of_forall₂ (mapM_eq_some_iff.1 hbs) ha
  cases h.symm.trans hb

section Arrays

variable {α : Type} {write : α → Json} {item? : Json → Option α}

theorem isWritable_map (items : List α) (h : ∀ a, (write a).IsWritable) :
    (Json.array (items.map write)).IsWritable := by
  rw [IsWritable, areWritable_iff, List.forall_mem_map]
  exact fun a _ => h a

theorem arrayOf?_map (items : List α) (h : ∀ a ∈ items, item? (write a) = some a) :
    (Json.array (items.map write)).arrayOf? item? = some items.toArray := by
  have hmap : (items.map write).mapM item? = some items :=
    mapM_eq_some_iff.2 (List.forall₂_map_left_iff.2 (List.forall₂_same.2 h))
  rw [arrayOf?, hmap, Option.map_some]

theorem arrayOf?_map_eq_none {items : List α} {a : α} (ha : a ∈ items) (h : item? (write a) = none) :
    (Json.array (items.map write)).arrayOf? item? = none := by
  rw [arrayOf?, mapM_eq_none_of_mem (List.mem_map_of_mem ha) h, Option.map_none]

/-- What an array is read to has been read from its items. -/
theorem exists_of_arrayOf? {v : Json} {as : Array α} (h : v.arrayOf? item? = some as) :
    ∀ a ∈ as, ∃ v, item? v = some a := by
  cases v with
  | array vs =>
    obtain ⟨list, hlist, rfl⟩ := Option.map_eq_some_iff.1 h
    intro a ha
    have hflip : List.Forall₂ (fun a v => item? v = some a) list vs := (mapM_eq_some_iff.1 hlist).flip
    obtain ⟨v, -, hv⟩ := exists_mem_of_forall₂ hflip (List.mem_toArray.1 ha)
    exact ⟨v, hv⟩
  | _ => cases h

end Arrays

end StackMachine.Json
