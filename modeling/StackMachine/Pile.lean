/-!
Piles: lists with the last element put on first, which know their height.  A position counts from the
bottom, so it stays the same while other elements come and go above it.
-/

set_option autoImplicit false

namespace StackMachine

/-- Elements from the top down, with their number. -/
structure Pile (α : Type) where
  topDown : List α
  height : Nat
  height_eq : height = topDown.length

namespace Pile

variable {α : Type}

def empty : Pile α := ⟨[], 0, rfl⟩

/-- The pile of a list that is given from the bottom up. -/
def ofList (items : List α) : Pile α :=
  ⟨items.reverse, items.length, by simp⟩

/-- The elements from the bottom up. -/
def toList (p : Pile α) : List α := p.topDown.reverse

def push (p : Pile α) (a : α) : Pile α :=
  ⟨a :: p.topDown, p.height + 1, by simp [p.height_eq]⟩

/-- The pile without its top element, if it has one. -/
def tail (p : Pile α) : Pile α :=
  ⟨p.topDown.tail, p.height - 1, by simp [p.height_eq]⟩

/-- The pile without its top `n` elements. -/
def drop (p : Pile α) (n : Nat) : Pile α :=
  ⟨p.topDown.drop n, p.height - n, by simp [p.height_eq]⟩

/-- `items` put on the pile, the first of them at the top. -/
def pile (items : List α) (p : Pile α) : Pile α :=
  ⟨items ++ p.topDown, items.length + p.height, by simp [p.height_eq]⟩

/-- The element at a position from the bottom. -/
def get? (p : Pile α) (i : Nat) : Option α :=
  if i < p.height then p.topDown[p.height - 1 - i]? else none

/-- The pile with `a` at a position from the bottom. -/
def set (p : Pile α) (i : Nat) (a : α) : Pile α :=
  if i < p.height then
    ⟨p.topDown.set (p.height - 1 - i) a, p.height, by simp [p.height_eq]⟩
  else p

/-! ## The elements from the bottom up -/

@[simp]
theorem length_toList (p : Pile α) : p.toList.length = p.height := by
  simp [toList, p.height_eq]

@[simp]
theorem toList_empty : (empty : Pile α).toList = [] := rfl

@[simp]
theorem toList_ofList (items : List α) : (ofList items).toList = items := by
  simp [toList, ofList]

@[simp]
theorem toList_push (p : Pile α) (a : α) : (p.push a).toList = p.toList ++ [a] := by
  simp [toList, push]

@[simp]
theorem toList_tail (p : Pile α) : p.tail.toList = p.toList.dropLast := by
  simp [toList, tail]

@[simp]
theorem toList_drop (p : Pile α) (n : Nat) :
    (p.drop n).toList = p.toList.take (p.height - n) := by
  rw [toList, toList, drop, List.reverse_drop, p.height_eq]

@[simp]
theorem toList_pile (items : List α) (p : Pile α) :
    (p.pile items).toList = p.toList ++ items.reverse := by
  simp [toList, pile]

theorem get?_eq_getElem? (p : Pile α) (i : Nat) : p.get? i = p.toList[i]? := by
  unfold get? toList
  split
  · next h =>
    have hlt : i < p.topDown.length := p.height_eq ▸ h
    rw [List.getElem?_reverse hlt, p.height_eq]
  · next h =>
    have hle : p.topDown.length ≤ i := by have := p.height_eq; omega
    simp [hle]

theorem toList_set (p : Pile α) (i : Nat) (a : α) : (p.set i a).toList = p.toList.set i a := by
  unfold set toList
  split
  · next h =>
    have hlt : i < p.topDown.length := p.height_eq ▸ h
    refine List.ext_getElem (by simp) fun j hj _ => ?_
    have hj : j < p.topDown.length := by simpa using hj
    have heq : p.height - 1 - i = p.topDown.length - 1 - j ↔ i = j := by
      have := p.height_eq; omega
    simp only [List.getElem_reverse, List.getElem_set, List.length_set, heq]
  · next h =>
    have hle : p.topDown.length ≤ i := by have := p.height_eq; omega
    rw [List.set_eq_of_length_le (by simpa using hle)]

end Pile

end StackMachine
