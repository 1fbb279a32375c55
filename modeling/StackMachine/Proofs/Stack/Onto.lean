import StackMachine.Machine.Execute
import StackMachine.Proofs.Stack.Room

/-!
Stacks that lie on other values.  An operation that reaches no deeper than the stack on top does to that stack
what it does to it alone, and leaves the values below as they are.
-/

set_option autoImplicit false

namespace StackMachine

/-- The pile put on `below`, which is given from the top down. -/
def Pile.onto {α : Type} (p : Pile α) (below : List α) : Pile α :=
  ⟨p.topDown ++ below, p.height + below.length, by simp [p.height_eq]⟩

namespace OperandStack

variable {s t : OperandStack} {below : List Value} {n k : Nat} {v : Value}

/-- The stack put on `below`, which is given from the top down. -/
def onto (s : OperandStack) (below : List Value) : OperandStack := { s with values := s.values.onto below }

@[simp]
theorem depth_onto (s : OperandStack) (below : List Value) :
    (s.onto below).depth = s.depth + below.length := rfl

theorem eq_of_topDown (hvalues : s.values.topDown = t.values.topDown) (hlimit : s.limit = t.limit) : s = t := by
  obtain ⟨values, limit⟩ := s
  obtain ⟨values', limit'⟩ := t
  cases hlimit
  cases Pile.eq_of_topDown hvalues
  rfl

theorem eq_of_toList (hvalues : s.toList = t.toList) (hlimit : s.limit = t.limit) : s = t :=
  eq_of_topDown (List.reverse_inj.1 hvalues) hlimit

theorem put_onto (s : OperandStack) (below : List Value) (v : Value) :
    (s.onto below).put v = (s.put v).onto below := eq_of_topDown rfl rfl

theorem pile_onto (s : OperandStack) (below items : List Value) :
    { s.onto below with values := (s.onto below).values.pile items } =
      { s with values := s.values.pile items }.onto below :=
  eq_of_topDown (List.append_assoc ..).symm rfl

theorem drop_onto (h : n ≤ s.depth) : (s.onto below).drop n = (s.drop n).onto below := by
  rw [depth_eq_length] at h
  exact eq_of_topDown (List.drop_append_of_le_length h) rfl

theorem take_onto (h : n ≤ s.depth) :
    (s.onto below).values.topDown.take n = s.values.topDown.take n := by
  rw [depth_eq_length] at h
  exact List.take_append_of_le_length h

theorem peek_onto (h : n < s.depth) : (s.onto below).peek n = s.peek n := by
  obtain ⟨v, hv, -⟩ := exists_peek h
  rw [hv]
  rw [depth_eq_length] at h
  rw [peek, List.getElem?_eq_getElem h] at hv
  cases hv
  rw [peek, onto, Pile.onto]
  dsimp only
  rw [List.getElem?_append_left h, List.getElem?_eq_getElem h]

/-! ## Operations on the top -/

theorem reserve_of_limit (h : s.limit = 0) (n : Nat) : s.reserve n = .ok () :=
  reserve_eq_ok.2 fun hpos => absurd hpos (h ▸ Nat.lt_irrefl 0)

theorem push_onto (h : s.limit = 0) (below : List Value) (v : Value) :
    (s.onto below).push v = (s.push v).map (·.onto below) := by
  rw [push, push, reserve_of_limit h, reserve_of_limit (s := s.onto below) h, ok_bind, ok_bind, put_onto]
  rfl

theorem require_onto (below : List Value) (h : n ≤ s.depth) : (s.onto below).require n = .ok () ∧ s.require n = .ok () :=
  ⟨require_eq_ok.2 (Nat.le_trans h (Nat.le_add_right _ _)), require_eq_ok.2 h⟩

theorem discard_onto (h : n ≤ s.depth) : (s.onto below).discard n = (s.discard n).map (·.onto below) := by
  obtain ⟨honto, hs⟩ := require_onto below h
  rw [discard, discard, hs, honto, ok_bind, ok_bind, drop_onto h]
  rfl

theorem duplicate_onto (hlimit : s.limit = 0) (h : n ≤ s.depth) :
    (s.onto below).duplicate n = (s.duplicate n).map (·.onto below) := by
  obtain ⟨honto, hs⟩ := require_onto below h
  rw [duplicate, duplicate, hs, honto, ok_bind, ok_bind, reserve_of_limit hlimit,
    reserve_of_limit (s := s.onto below) hlimit, ok_bind, ok_bind, take_onto h, pile_onto]
  rfl

theorem rotate_onto (h : n ≤ s.depth) (k : Nat) :
    (s.onto below).rotate n k = (s.rotate n k).map (·.onto below) := by
  obtain ⟨honto, hs⟩ := require_onto below h
  have hdrop : (s.onto below).values.drop n = (s.values.drop n).onto below := congrArg values (drop_onto h)
  rw [rotate, rotate, hs, honto, ok_bind, ok_bind, take_onto h, hdrop]
  exact congrArg Except.ok (pile_onto (s.drop n) below _)

theorem alloc_onto (h : s.limit = 0) (n : Nat) :
    (s.onto below).alloc n = (s.alloc n).map (·.onto below) := by
  rw [alloc, alloc, reserve_of_limit h, reserve_of_limit (s := s.onto below) h, ok_bind, ok_bind, pile_onto]
  rfl

/-- A stack cut to its lowest values. -/
theorem topDown_truncate {top deep : List Value} (h : s.values.topDown = top ++ deep) :
    (s.truncate deep.length).values.topDown = deep := by
  have hdepth : s.depth - deep.length = top.length := by
    rw [depth_eq_length, h, List.length_append, Nat.add_sub_cancel]
  rw [truncate, hdepth]
  change s.values.topDown.drop top.length = deep
  rw [h, List.drop_left]

/-! ## Reading the top -/

theorem topDown_onto (s : OperandStack) (below : List Value) :
    (s.onto below).values.topDown = s.values.topDown ++ below := rfl

theorem exists_top (h : n ≤ s.depth) : ∃ top rest, s.values.topDown = top ++ rest ∧ top.length = n := by
  refine ⟨_, _, (List.take_append_drop n _).symm, ?_⟩
  rw [List.length_take, ← depth_eq_length, Nat.min_eq_left h]

theorem result_onto {op : Operator} (h : op.arity ≤ s.depth) : op.result (s.onto below) = op.result s := by
  obtain ⟨top, rest, htop, hlen⟩ := exists_top h
  cases op with
  | unary f =>
    match top, hlen with
    | [v], _ => simp only [Operator.result, topDown_onto, htop, List.cons_append]
  | binary f =>
    match top, hlen with
    | [w, v], _ => simp only [Operator.result, topDown_onto, htop, List.cons_append]
  | slice =>
    match top, hlen with
    | [u, w, v], _ => simp only [Operator.result, topDown_onto, htop, List.cons_append]

theorem evaluate_onto {c : Condition} (h : c.arity ≤ s.depth) : c.evaluate (s.onto below) = c.evaluate s := by
  have hpeek : 0 < s.depth → (s.onto below).peek 0 = s.peek 0 := peek_onto
  cases c with
  | zero | nonzero => rw [Condition.evaluate, Condition.evaluate, Condition.truth, Condition.truth, hpeek h]
  | null | notNull => rw [Condition.evaluate, Condition.evaluate, hpeek h]
  | relation r =>
    obtain ⟨top, rest, htop, hlen⟩ := exists_top h
    match top, hlen with
    | [w, v], _ => simp only [Condition.evaluate, Condition.related, topDown_onto, htop, List.cons_append]

/-! ## Slots -/

theorem toList_onto (s : OperandStack) (below : List Value) :
    (s.onto below).toList = below.reverse ++ s.toList := List.reverse_append

theorem get?_onto (s : OperandStack) (below : List Value) (k : Nat) :
    (s.onto below).get? (below.length + k) = s.get? k := by
  rw [get?_eq_getElem?, get?_eq_getElem?, toList_onto, List.getElem?_append_right (by simp),
    List.length_reverse, Nat.add_sub_cancel_left]

/-- A slot below the stack on top. -/
theorem get?_onto_below (s : OperandStack) (h : k < below.length) :
    (s.onto below).get? (below.length - 1 - k) = below[k]? := by
  rw [get?_eq_getElem?, toList_onto, List.getElem?_append_left (by rw [List.length_reverse]; omega),
    List.getElem?_reverse (by omega)]
  congr 1
  omega

theorem localSlot_onto (w : Word) (base bound : Nat) :
    localSlot base w (bound + base) = (localSlot 0 w bound).map (base + ·) := by
  rw [localSlot, localSlot]
  cases Word.index? w with
  | none => rw [Nat.add_sub_cancel]; rfl
  | some i =>
    dsimp only
    rw [Nat.add_sub_cancel, Nat.zero_add, Nat.sub_zero]
    by_cases h : i < bound
    · have h' : base + i < bound + base := by omega
      simp only [if_pos h, if_pos h']
      rfl
    · have h' : ¬ base + i < bound + base := by omega
      simp only [if_neg h, if_neg h']
      rfl

theorem getLocal_onto (s : OperandStack) (below : List Value) (w : Word) :
    (s.onto below).getLocal below.length w = s.getLocal 0 w := by
  rw [getLocal, getLocal, depth_onto, localSlot_onto]
  cases localSlot 0 w s.depth with
  | error cause => rfl
  | ok slot =>
    have hslot : (s.onto below).get? (below.length + slot) = s.get? slot := s.get?_onto below slot
    simp only [Except.map, ok_bind, hslot, Nat.add_sub_cancel, Nat.sub_zero]

theorem set_onto (s : OperandStack) (below : List Value) (k : Nat) (v : Value) :
    { s.onto below with values := (s.onto below).values.set (below.length + k) v } =
      { s with values := s.values.set k v }.onto below := by
  refine eq_of_toList ?_ rfl
  rw [toList_onto]
  change ((s.onto below).values.set _ v).toList = below.reverse ++ (s.values.set k v).toList
  rw [Pile.toList_set, Pile.toList_set, ← toList, ← toList, toList_onto, List.set_append_right _ _ (by simp),
    List.length_reverse, Nat.add_sub_cancel_left]

theorem setLocal_onto (h : 0 < s.depth) (w : Word) :
    (s.onto below).setLocal below.length w = (s.setLocal 0 w).map (·.onto below) := by
  obtain ⟨v, hv, -⟩ := peek_zero h
  have hpop : s.pop = .ok (v, s.drop 1) := pop_eq_ok.2 ⟨hv, rfl⟩
  have honto : (s.onto below).pop = .ok (v, (s.drop 1).onto below) :=
    pop_eq_ok.2 ⟨(peek_onto h).trans hv, drop_onto h⟩
  rw [setLocal, setLocal, hpop, honto, ok_bind, ok_bind]
  dsimp only
  rw [depth_onto, localSlot_onto]
  cases localSlot 0 w (s.drop 1).depth with
  | error cause => rfl
  | ok slot => exact congrArg Except.ok (set_onto (s.drop 1) below slot v)

end OperandStack

end StackMachine
