import StackMachine.Proofs.Stack.Room
import StackMachine.Proofs.Word.Exact

/-!
Frames by exact integers.  A slot has a number, which may be any integer, and there is no value below slot zero or above
the top.  The number of a local or of an argument gives its slot by a sum without a bound, and it is read or written just
where that slot is; every other number is refused.
-/

set_option autoImplicit false

namespace StackMachine.OperandStack

variable {s t : OperandStack} {fp bound : Nat} {n count : Word} {v : Value} {k : Int}

/-! ## Slots by integers -/

/-- The value in a slot whose number may be any integer; below slot 0 there is none. -/
def slot? (s : OperandStack) (number : Int) : Option Value := number.toNat?.bind s.get?

theorem slot?_natCast (s : OperandStack) (i : Nat) : s.slot? i = s.get? i := rfl

theorem slot?_of_nonneg (h : 0 ≤ k) : s.slot? k = s.get? k.toNat := by
  obtain ⟨i, rfl⟩ := Int.eq_ofNat_of_zero_le h
  rfl

theorem slot?_of_neg (h : k < 0) : s.slot? k = none := by
  cases k with
  | ofNat i => exact absurd h (Int.not_lt.2 (Int.natCast_nonneg i))
  | negSucc i => rfl

theorem lt_of_slot? (h : s.slot? k = some v) : k < s.depth := by
  cases k with
  | ofNat i =>
    have hi : s.toList[i]? = some v := (s.get?_eq_getElem? i).symm.trans h
    have hlt := (List.getElem?_eq_some_iff.1 hi).1
    rw [length_toList] at hlt
    exact Int.ofNat_lt.2 hlt
  | negSucc i => cases h

theorem exists_slot? (h0 : 0 ≤ k) (h : k < s.depth) : ∃ v, s.slot? k = some v := by
  have hlt : k.toNat < s.toList.length := by
    rw [length_toList]
    omega
  refine ⟨s.toList[k.toNat], ?_⟩
  rw [slot?_of_nonneg h0, get?_eq_getElem?, List.getElem?_eq_getElem hlt]

/-! ## Locals -/

theorem localSlot_of_inside (h0 : 0 ≤ n.toInt) (h : fp + n.toInt < bound) :
    localSlot fp n bound = .ok (fp + n.toInt).toNat := by
  have hindex : Word.index? n = some n.toInt.toNat := Word.index?_eq_some.2 (Int.toNat_of_nonneg h0).symm
  rw [localSlot_eq_ok]
  exact ⟨n.toInt.toNat, hindex, by omega, by omega⟩

theorem localSlot_of_outside (h : ¬ (0 ≤ n.toInt ∧ fp + n.toInt < bound)) :
    localSlot fp n bound = .error (.localOffset n (bound - fp)) := by
  rw [localSlot]
  cases hindex : Word.index? n with
  | none => rfl
  | some i =>
    rw [Word.index?_eq_some] at hindex
    exact if_neg (by omega)

theorem getLocal_of_slot {slot : Nat} (h : localSlot fp n s.depth = .ok slot) :
    ∃ v, s.get? slot = some v ∧ s.getLocal fp n = .ok v := by
  obtain ⟨i, -, hlt, rfl⟩ := localSlot_eq_ok.1 h
  obtain ⟨v, hv⟩ : ∃ v, s.slot? ((fp + i : Nat) : Int) = some v := exists_slot? (by omega) (by omega)
  rw [slot?_natCast] at hv
  refine ⟨v, hv, ?_⟩
  rw [getLocal, h, ok_bind, hv]
  rfl

theorem getLocal_of_inside (h0 : 0 ≤ n.toInt) (h : fp + n.toInt < s.depth) :
    ∃ v, s.slot? (fp + n.toInt) = some v ∧ s.getLocal fp n = .ok v := by
  obtain ⟨v, hv, hget⟩ := getLocal_of_slot (localSlot_of_inside h0 h)
  rw [← slot?_of_nonneg (by omega)] at hv
  exact ⟨v, hv, hget⟩

theorem getLocal_of_outside (h : ¬ (0 ≤ n.toInt ∧ fp + n.toInt < s.depth)) :
    s.getLocal fp n = .error (.localOffset n (s.depth - fp)) := by
  rw [getLocal, localSlot_of_outside h]
  rfl

theorem setLocal_of_empty (h : s.depth = 0) : s.setLocal fp n = .error (.underflow 1 0) := by
  rw [depth_eq_length, List.length_eq_zero_iff] at h
  rw [setLocal, pop, h]
  rfl

theorem pop_of_pos (h : 0 < s.depth) :
    ∃ v, s.slot? ((s.depth : Int) - 1) = some v ∧ s.pop = .ok (v, s.drop 1) := by
  obtain ⟨v, hpeek, hslot⟩ := peek_zero h
  have htop : ((s.depth : Int) - 1).toNat = s.depth - 1 := by omega
  refine ⟨v, ?_, pop_eq_ok.2 ⟨hpeek, rfl⟩⟩
  rw [slot?_of_nonneg (by omega), htop]
  exact hslot

theorem setLocal_of_pop (hpop : s.pop = .ok (v, t)) :
    s.setLocal fp n = (localSlot fp n t.depth).map fun slot => { t with values := t.values.set slot v } := by
  rw [setLocal, hpop, ok_bind]
  dsimp only
  cases localSlot fp n t.depth <;> rfl

theorem setLocal_of_outside (hpos : 0 < s.depth) (h : ¬ (0 ≤ n.toInt ∧ fp + n.toInt < (s.depth : Int) - 1)) :
    s.setLocal fp n = .error (.localOffset n (s.depth - 1 - fp)) := by
  obtain ⟨v, -, hpop⟩ := pop_of_pos hpos
  rw [setLocal_of_pop hpop, depth_drop, localSlot_of_outside (by omega)]
  rfl

theorem setLocal_of_inside (h0 : 0 ≤ n.toInt) (h : fp + n.toInt < (s.depth : Int) - 1) :
    ∃ v, s.slot? ((s.depth : Int) - 1) = some v
      ∧ s.setLocal fp n = .ok { s.drop 1 with values := (s.drop 1).values.set (fp + n.toInt).toNat v } := by
  obtain ⟨v, htop, hpop⟩ := pop_of_pos (s := s) (by omega)
  refine ⟨v, htop, ?_⟩
  rw [setLocal_of_pop hpop, depth_drop, localSlot_of_inside h0 (by omega)]
  rfl

/-! ## Arguments -/

theorem argCount_eq_ok_iff_slot? : s.argCount fp = .ok count ↔ s.slot? (fp - 2) = some (.int count) := by
  rw [argCount_eq_ok]
  by_cases hfp : 2 ≤ fp
  · have hslot : ((fp : Int) - 2).toNat = fp - 2 := by omega
    rw [slot?_of_nonneg (by omega), hslot]
    exact and_iff_right hfp
  · rw [slot?_of_neg (by omega)]
    simp [hfp]

theorem getArg_of_noCount (h : ∀ count, s.slot? (fp - 2) ≠ some (.int count)) :
    s.getArg fp n = .error (.noArgumentCount fp) := by
  have hcount : s.argCount fp = .error (.noArgumentCount fp) := by
    cases hargs : s.argCount fp with
    | ok count => exact absurd (argCount_eq_ok_iff_slot?.1 hargs) (h count)
    | error cause =>
      unfold argCount at hargs
      split at hargs
      · cases hargs
      · exact hargs.symm
  rw [getArg, hcount]
  rfl

theorem outside_iff_toInt : (n < 0 ∨ count < n) ↔ n.toInt < 0 ∨ count.toInt < n.toInt := by
  rw [Int64.lt_iff_toInt_lt, Int64.lt_iff_toInt_lt, Int64.toInt_zero]

section Counted

variable (hcount : s.slot? (fp - 2) = some (.int count))
include hcount

theorem getArg_of_outside (h : n.toInt < 0 ∨ count.toInt < n.toInt) :
    s.getArg fp n = .error (.argumentOffset n count) := by
  rw [getArg, argCount_eq_ok_iff_slot?.2 hcount, ok_bind, if_pos (outside_iff_toInt.2 h)]
  rfl

theorem getArg_of_counted (h0 : 0 ≤ n.toInt) (hn : n.toInt ≤ count.toInt) :
    s.getArg fp n = match s.slot? (fp - 2 - n.toInt) with
      | some v => .ok v
      | none => .error (.argumentBelowStack n) := by
  have hfp : 2 ≤ fp := (argCount_eq_ok.1 (argCount_eq_ok_iff_slot?.2 hcount)).1
  have hslot : (if n.toInt.toNat ≤ fp - 2 then s.get? (fp - 2 - n.toInt.toNat) else none)
      = s.slot? (fp - 2 - n.toInt) := by
    split
    · next hle =>
      have hnum : (fp - 2 - n.toInt).toNat = fp - 2 - n.toInt.toNat := by omega
      rw [slot?_of_nonneg (by omega), hnum]
    · next hgt => rw [slot?_of_neg (by omega)]
  have hrange : ¬ (n < 0 ∨ count < n) := by
    rw [outside_iff_toInt]
    omega
  rw [getArg, argCount_eq_ok_iff_slot?.2 hcount, ok_bind, if_neg hrange]
  dsimp only
  rw [hslot]
  cases s.slot? (fp - 2 - n.toInt) <;> rfl

theorem getArg_of_inside (h0 : 0 ≤ n.toInt) (hn : n.toInt ≤ count.toInt) (hfp : n.toInt ≤ fp - 2) :
    ∃ v, s.slot? (fp - 2 - n.toInt) = some v ∧ s.getArg fp n = .ok v := by
  -- The count lies above the argument, so the stack reaches up to it.
  have hdepth : fp - 2 < (s.depth : Int) := lt_of_slot? hcount
  obtain ⟨v, hv⟩ : ∃ v, s.slot? (fp - 2 - n.toInt) = some v := exists_slot? (by omega) (by omega)
  refine ⟨v, hv, ?_⟩
  rw [getArg_of_counted hcount h0 hn, hv]

theorem getArg_of_below (h0 : 0 ≤ n.toInt) (hn : n.toInt ≤ count.toInt) (hfp : fp - 2 < n.toInt) :
    s.getArg fp n = .error (.argumentBelowStack n) := by
  rw [getArg_of_counted hcount h0 hn, slot?_of_neg (by omega)]

end Counted

/-! ## What is read and what is written -/

/-- Local `n` of the frame at `fp` is in slot `fp + n`. -/
structure ReadsLocal (s : OperandStack) (fp : Nat) (n : Word) : Prop where
  succeeds_iff : (∃ v, s.getLocal fp n = .ok v) ↔ 0 ≤ n.toInt ∧ fp + n.toInt < s.depth
  slot : ∀ v, s.getLocal fp n = .ok v → s.slot? (fp + n.toInt) = some v
  refused : ∀ cause, s.getLocal fp n = .error cause → cause.kind = .outOfRangeFrameOffset

theorem readsLocal (s : OperandStack) (fp : Nat) (n : Word) : s.ReadsLocal fp n := by
  by_cases h : 0 ≤ n.toInt ∧ fp + n.toInt < s.depth
  · obtain ⟨v, hslot, hget⟩ := getLocal_of_inside h.1 h.2
    constructor
    case succeeds_iff => simp [hget, h]
    case slot => simp [hget, hslot]
    case refused => simp [hget]
  · have hget := getLocal_of_outside h
    constructor
    case succeeds_iff => simp [hget, h]
    case slot => simp [hget]
    case refused => simp [hget, Cause.kind]

/-- `t` is `s` without its top value, which is in slot `k` instead of the value there. -/
structure TopMoved (s t : OperandStack) (k : Int) (v : Value) : Prop where
  top : s.slot? ((s.depth : Int) - 1) = some v
  limit_eq : t.limit = s.limit
  toList_eq : t.toList = s.toList.dropLast.set k.toNat v
  moved : t.slot? k = some v
  others : ∀ i, i ≠ k → i < (s.depth : Int) - 1 → t.slot? i = s.slot? i

theorem topMoved_set (h0 : 0 ≤ k) (hk : k < (s.depth : Int) - 1) (htop : s.slot? ((s.depth : Int) - 1) = some v) :
    TopMoved s { s.drop 1 with values := (s.drop 1).values.set k.toNat v } k v := by
  generalize ht : ({ s.drop 1 with values := (s.drop 1).values.set k.toNat v } : OperandStack) = t
  have htoList : t.toList = s.toList.dropLast.set k.toNat v := by
    rw [← ht, toList, Pile.toList_set, ← toList, toList_drop, List.dropLast_eq_take, length_toList]
  have hslots : ∀ i, 0 ≤ i → t.slot? i = (s.toList.dropLast.set k.toNat v)[i.toNat]? := by
    intro i hi
    rw [slot?_of_nonneg hi, get?_eq_getElem?, htoList]
  constructor
  case top => exact htop
  case limit_eq => rw [← ht]; rfl
  case toList_eq => exact htoList
  case moved =>
    rw [hslots k h0, List.getElem?_set_self]
    rw [List.length_dropLast, length_toList]
    omega
  case others =>
    intro i hne hi
    by_cases hneg : i < 0
    · rw [slot?_of_neg hneg, slot?_of_neg hneg]
    · rw [hslots i (by omega), List.getElem?_set_ne (by omega), List.dropLast_eq_take, length_toList,
        List.getElem?_take_of_lt (by omega), slot?_of_nonneg (by omega), get?_eq_getElem?]

/-- The top value is moved to local `n` of the frame at `fp`, which is in slot `fp + n` below it. -/
structure WritesLocal (s : OperandStack) (fp : Nat) (n : Word) : Prop where
  underflow_iff : (∃ cause, s.setLocal fp n = .error cause ∧ cause.kind = .stackUnderflow) ↔ s.depth = 0
  succeeds_iff : (∃ t, s.setLocal fp n = .ok t) ↔ 0 ≤ n.toInt ∧ fp + n.toInt < (s.depth : Int) - 1
  written : ∀ t, s.setLocal fp n = .ok t → ∃ v, TopMoved s t (fp + n.toInt) v ∧ t.getLocal fp n = .ok v
  refused : s.depth ≠ 0 → ∀ cause, s.setLocal fp n = .error cause → cause.kind = .outOfRangeFrameOffset

theorem getLocal_of_moved (h0 : 0 ≤ n.toInt) (h : TopMoved s t (fp + n.toInt) v) : t.getLocal fp n = .ok v := by
  obtain ⟨w, hw, hget⟩ := getLocal_of_inside h0 (lt_of_slot? h.moved)
  have hvw : v = w := Option.some.inj (h.moved.symm.trans hw)
  rw [hget, hvw]

theorem writesLocal (s : OperandStack) (fp : Nat) (n : Word) : s.WritesLocal fp n := by
  by_cases hempty : s.depth = 0
  · have hset : s.setLocal fp n = .error (.underflow 1 0) := setLocal_of_empty hempty
    constructor
    case underflow_iff => simp [hset, hempty, Cause.kind]
    case succeeds_iff =>
      simp [hset, hempty]
      omega
    case written => simp [hset]
    case refused => exact fun hne => absurd hempty hne
  by_cases h : 0 ≤ n.toInt ∧ fp + n.toInt < (s.depth : Int) - 1
  · obtain ⟨v, htop, hset⟩ := setLocal_of_inside h.1 h.2
    have hmoved := topMoved_set (by omega) h.2 htop
    constructor
    case underflow_iff => simp [hset, hempty]
    case succeeds_iff => simp [hset, h]
    case written =>
      intro t ht
      rw [hset] at ht
      cases ht
      exact ⟨v, hmoved, getLocal_of_moved h.1 hmoved⟩
    case refused => simp [hset]
  · have hset := setLocal_of_outside (Nat.pos_of_ne_zero hempty) h
    constructor
    case underflow_iff => simp [hset, hempty, Cause.kind]
    case succeeds_iff => simp [hset, h]
    case written => simp [hset]
    case refused => simp [hset, Cause.kind]

/-- Argument `n` of the frame at `fp` is in slot `fp - 2 - n`, where slot `fp - 2` says that there are `count`. -/
structure ReadsCounted (s : OperandStack) (fp : Nat) (n count : Word) : Prop where
  outside_iff : (∃ cause, s.getArg fp n = .error cause ∧ cause.kind = .outOfRangeFrameOffset)
    ↔ n.toInt < 0 ∨ count.toInt < n.toInt
  succeeds_iff : (∃ v, s.getArg fp n = .ok v) ↔ 0 ≤ n.toInt ∧ n.toInt ≤ count.toInt ∧ n.toInt ≤ fp - 2
  slot : ∀ v, s.getArg fp n = .ok v → s.slot? (fp - 2 - n.toInt) = some v
  below : 0 ≤ n.toInt → n.toInt ≤ count.toInt → fp - 2 < n.toInt →
    ∃ cause, s.getArg fp n = .error cause ∧ cause.kind = .invalidReference

theorem readsCounted (hcount : s.slot? (fp - 2) = some (.int count)) : s.ReadsCounted fp n count := by
  by_cases hout : n.toInt < 0 ∨ count.toInt < n.toInt
  · have hget := getArg_of_outside hcount hout
    constructor
    case outside_iff => simp [hget, hout, Cause.kind]
    case succeeds_iff =>
      simp [hget]
      omega
    case slot => simp [hget]
    case below => omega
  have h0 : 0 ≤ n.toInt := by omega
  have hn : n.toInt ≤ count.toInt := by omega
  by_cases hfp : n.toInt ≤ fp - 2
  · obtain ⟨v, hslot, hget⟩ := getArg_of_inside hcount h0 hn hfp
    constructor
    case outside_iff => simp [hget, hout]
    case succeeds_iff => simp [hget, h0, hn, hfp]
    case slot => simp [hget, hslot]
    case below => omega
  · have hget := getArg_of_below hcount h0 hn (Int.not_le.1 hfp)
    constructor
    case outside_iff => simp [hget, hout, Cause.kind]
    case succeeds_iff => simp [hget, hfp]
    case slot => simp [hget]
    case below => simp [hget, Cause.kind]

/-- An argument is read only where slot `fp - 2` holds their number. -/
structure ReadsArgument (s : OperandStack) (fp : Nat) (n : Word) : Prop where
  uncounted : (∀ count, s.slot? (fp - 2) ≠ some (.int count)) →
    ∃ cause, s.getArg fp n = .error cause ∧ cause.kind = .invalidReference
  counted : ∀ count, s.slot? (fp - 2) = some (.int count) → s.ReadsCounted fp n count

theorem readsArgument (s : OperandStack) (fp : Nat) (n : Word) : s.ReadsArgument fp n where
  uncounted h := ⟨_, getArg_of_noCount h, rfl⟩
  counted _ hcount := readsCounted hcount

end StackMachine.OperandStack
