import StackMachine.Stack.Frame

/-!
What the operations on a stack do to its depth and to its slots.  A slot keeps its value as long as nothing
above or at it is taken away.
-/

set_option autoImplicit false

namespace StackMachine

/-- The height of a pile is no more than what its elements say. -/
theorem Pile.eq_of_topDown {α : Type} {p q : Pile α} (h : p.topDown = q.topDown) : p = q := by
  obtain ⟨items, height, hp⟩ := p
  obtain ⟨items', height', hq⟩ := q
  cases h
  cases hp.trans hq.symm
  rfl

theorem length_rotateLeft {α : Type} (items : List α) (k : Nat) :
    (items.rotateLeft k).length = items.length := by
  rw [List.rotateLeft]
  split
  · rfl
  · rw [List.length_append, List.length_drop, List.length_take]
    omega

namespace OperandStack

variable {s t : OperandStack} {n k : Nat} {v : Value}

@[simp]
theorem length_toList (s : OperandStack) : s.toList.length = s.depth := Pile.length_toList _

theorem get?_eq_getElem? (s : OperandStack) (slot : Nat) : s.get? slot = s.toList[slot]? :=
  Pile.get?_eq_getElem? _ _

theorem depth_eq_length (s : OperandStack) : s.depth = s.values.topDown.length := s.values.height_eq

/-! ## Depth -/

@[simp]
theorem depth_put (s : OperandStack) (v : Value) : (s.put v).depth = s.depth + 1 := rfl

@[simp]
theorem depth_drop (s : OperandStack) (n : Nat) : (s.drop n).depth = s.depth - n := rfl

@[simp]
theorem depth_truncate (s : OperandStack) (n : Nat) : (s.truncate n).depth = min s.depth n := by
  rw [truncate, depth_drop]
  omega

@[simp]
theorem toList_put (s : OperandStack) (v : Value) : (s.put v).toList = s.toList ++ [v] :=
  Pile.toList_push _ _

@[simp]
theorem toList_drop (s : OperandStack) (n : Nat) : (s.drop n).toList = s.toList.take (s.depth - n) :=
  Pile.toList_drop _ _

@[simp]
theorem toList_truncate (s : OperandStack) (n : Nat) : (s.truncate n).toList = s.toList.take n := by
  rw [truncate, toList_drop]
  by_cases h : n ≤ s.depth
  · rw [Nat.sub_sub_self h]
  · rw [List.take_of_length_le (by rw [length_toList]; omega),
      List.take_of_length_le (by rw [length_toList]; omega)]

/-- The values on top, from the top down, and those below them. -/
theorem topDown_of_toList {below top : List Value} (h : s.toList = below ++ top) :
    s.values.topDown = top.reverse ++ below.reverse := by
  rw [← List.reverse_append, ← h]
  exact (List.reverse_reverse _).symm

theorem toList_drop_of_toList {below top : List Value} (h : s.toList = below ++ top) :
    (s.drop top.length).toList = below := by
  rw [toList_drop, ← length_toList, h, List.length_append, Nat.add_sub_cancel, List.take_left]

/-! ## Slots that stay -/

/-- The slots below `bound` hold the same values. -/
def AgreeBelow (bound : Nat) (s t : OperandStack) : Prop :=
  ∀ slot < bound, t.get? slot = s.get? slot

theorem AgreeBelow.refl (bound : Nat) (s : OperandStack) : AgreeBelow bound s s := fun _ _ => rfl

theorem AgreeBelow.trans {u : OperandStack} (h : AgreeBelow n s t) (h' : AgreeBelow n t u) :
    AgreeBelow n s u :=
  fun slot hslot => (h' slot hslot).trans (h slot hslot)

theorem AgreeBelow.mono (h : AgreeBelow n s t) (hk : k ≤ n) : AgreeBelow k s t :=
  fun slot hslot => h slot (Nat.lt_of_lt_of_le hslot hk)

theorem agreeBelow_put (h : n ≤ s.depth) : AgreeBelow n s (s.put v) := by
  intro slot hslot
  rw [get?_eq_getElem?, get?_eq_getElem?, toList_put,
    List.getElem?_append_left (by rw [length_toList]; omega)]

theorem agreeBelow_drop (h : n + k ≤ s.depth) : AgreeBelow n s (s.drop k) := by
  intro slot hslot
  rw [get?_eq_getElem?, get?_eq_getElem?, toList_drop, List.getElem?_take_of_lt (by omega)]

theorem agreeBelow_pile (items : List Value) (h : n ≤ s.depth) :
    AgreeBelow n s { s with values := s.values.pile items } := by
  intro slot hslot
  rw [get?_eq_getElem?, get?_eq_getElem?, toList, Pile.toList_pile,
    List.getElem?_append_left (by rw [← toList, length_toList]; omega), ← toList]

theorem agreeBelow_set (slot : Nat) (h : n ≤ slot) :
    AgreeBelow n s { s with values := s.values.set slot v } := by
  intro i hi
  rw [get?_eq_getElem?, get?_eq_getElem?, toList, Pile.toList_set,
    List.getElem?_set_ne (by omega), ← toList]

theorem AgreeBelow.take_toList (h : AgreeBelow n s t) : t.toList.take n = s.toList.take n := by
  refine List.ext_getElem? fun slot => ?_
  by_cases hslot : slot < n
  · rw [List.getElem?_take_of_lt hslot, List.getElem?_take_of_lt hslot, ← get?_eq_getElem?,
      ← get?_eq_getElem?]
    exact h slot hslot
  · rw [List.getElem?_eq_none (by rw [List.length_take]; omega),
      List.getElem?_eq_none (by rw [List.length_take]; omega)]

/-! ## The top -/

/-- The value with `n` others above it, as a slot. -/
theorem exists_peek (h : n < s.depth) :
    ∃ v, s.peek n = .ok v ∧ s.get? (s.depth - 1 - n) = some v := by
  rw [depth_eq_length] at h
  refine ⟨s.values.topDown[n], by rw [peek, List.getElem?_eq_getElem h], ?_⟩
  rw [get?_eq_getElem?, toList, Pile.toList, depth_eq_length, List.getElem?_reverse (by omega),
    ← List.getElem?_eq_getElem h]
  congr 1
  omega

theorem peek_zero (h : 0 < s.depth) : ∃ v, s.peek 0 = .ok v ∧ s.get? (s.depth - 1) = some v :=
  exists_peek h

theorem peek_of_depth_eq_zero (h : s.depth = 0) : s.peek 0 = .error (.underflow 1 0) := by
  have hnil := h
  rw [depth_eq_length, List.length_eq_zero_iff] at hnil
  rw [peek, hnil, h]
  rfl

end OperandStack

end StackMachine
