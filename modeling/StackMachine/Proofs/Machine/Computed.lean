import StackMachine.Proofs.Machine.Effect

/-!
The stacks that instructions compute.  Each of them leaves the slots alone that lie deeper than it reaches,
keeps the limit and stays within it.
-/

set_option autoImplicit false

namespace StackMachine.Machine

variable {m : Machine} {i : Instruction} {s : OperandStack}

/-- The ways in which an instruction computes a new stack. -/
inductive Computes (m : Machine) (i : Instruction) : OperandStack → Prop
  | same : Computes m i m.stack
  | pushed (v : Value) (hroom : m.stack.reserve 1 = .ok ()) : Computes m i (m.stack.put v)
  | dropped (hi : i.reach = 1) (hdepth : 1 ≤ m.stack.depth) : Computes m i (m.stack.drop 1)
  | piled (items : List Value) (hroom : m.stack.reserve items.length = .ok ()) :
    Computes m i { m.stack with values := m.stack.values.pile items }
  | rearranged (items : List Value) (hi : i.reach = items.length)
    (hdepth : items.length ≤ m.stack.depth) :
    Computes m i { m.stack with values := (m.stack.values.drop items.length).pile items }
  | replaced (v : Value) (hi : 0 < i.reach) (hdepth : i.reach ≤ m.stack.depth) :
    Computes m i ((m.stack.drop i.reach).put v)
  | stored (v : Value) (n : Nat) (hi : i.reach = 1) (hslot : m.fp + n + 1 < m.stack.depth) :
    Computes m i { m.stack.drop 1 with values := (m.stack.drop 1).values.set (m.fp + n) v }

theorem result_arity_le {op : Operator} {v : Value} (h : op.result m.stack = .ok v) :
    op.arity ≤ m.stack.depth := by
  rw [OperandStack.depth_eq_length]
  unfold Operator.result at h
  split at h
  · next hv => rw [hv]; exact Nat.le_add_left _ _
  · next hv => rw [hv]; exact Nat.le_add_left _ _
  · next hv => rw [hv]; exact Nat.le_add_left _ _
  · cases h

theorem computes_push {r : Except Cause Value}
    (h : (do m.stack.push (← r)) = .ok s) : m.Computes i s := by
  obtain ⟨v, -, hpush⟩ := bind_eq_ok.1 h
  obtain ⟨hroom, rfl⟩ := OperandStack.push_eq_ok.1 hpush
  exact .pushed v hroom

theorem computes (h : m.computed? i = some (.ok s)) : m.Computes i s := by
  cases i with
  | skip => cases h; exact .same
  | push v =>
    obtain ⟨hroom, rfl⟩ := OperandStack.push_eq_ok.1 (Option.some.inj h)
    exact .pushed v hroom
  | constant | pushArg | pushLocal => exact computes_push (Option.some.inj h)
  | drop =>
    obtain ⟨hdepth, rfl⟩ := OperandStack.discard_eq_ok.1 (Option.some.inj h)
    exact .dropped rfl hdepth
  | duplicate n =>
    obtain ⟨hdepth, hroom, rfl⟩ := OperandStack.duplicate_eq_ok.1 (Option.some.inj h)
    refine .piled _ ?_
    rw [List.length_take, ← OperandStack.depth_eq_length, Nat.min_eq_left hdepth]
    exact hroom
  | rotate n k =>
    obtain ⟨hdepth, rfl⟩ := OperandStack.rotate_eq_ok.1 (Option.some.inj h)
    have hlen : ((m.stack.values.topDown.take n).reverse.rotateLeft k).reverse.length = n := by
      rw [List.length_reverse, length_rotateLeft, List.length_reverse, List.length_take,
        ← OperandStack.depth_eq_length, Nat.min_eq_left hdepth]
    have hc := Computes.rearranged (m := m) (i := .rotate n k) _ hlen.symm (hlen.symm ▸ hdepth)
    rw [hlen] at hc
    exact hc
  | operate op =>
    obtain ⟨v, hv, hput⟩ := bind_eq_ok.1 (Option.some.inj h)
    cases hput
    have hpos : 0 < op.arity := by cases op <;> exact Nat.succ_pos _
    exact .replaced v hpos (result_arity_le hv)
  | alloc n =>
    have halloc := Option.some.inj h
    cases hn : Word.index? n with
    | none => simp [hn] at halloc
    | some slots =>
      rw [hn] at halloc
      obtain ⟨hroom, rfl⟩ := OperandStack.alloc_eq_ok.1 halloc
      exact .piled _ (by rw [List.length_replicate]; exact hroom)
  | popLocal n =>
    obtain ⟨v, slot, -, hslot, rfl⟩ := OperandStack.setLocal_eq_ok.1 (Option.some.inj h)
    obtain ⟨k, -, hlt, rfl⟩ := OperandStack.localSlot_eq_ok.1 hslot
    exact .stored v k rfl (by omega)
  | _ => cases h

/-- An instruction does not touch what lies deeper than it reaches and below its frame. -/
theorem Computes.agreeBelow {bound : Nat} (h : m.Computes i s) (hfp : bound ≤ m.fp)
    (hreach : bound + i.reach ≤ m.stack.depth) :
    OperandStack.AgreeBelow bound m.stack s ∧ bound ≤ s.depth := by
  cases h with
  | same => exact ⟨.refl _ _, by omega⟩
  | pushed v => exact ⟨OperandStack.agreeBelow_put (by omega), by rw [OperandStack.depth_put]; omega⟩
  | dropped hi =>
    rw [hi] at hreach
    exact ⟨OperandStack.agreeBelow_drop hreach, by rw [OperandStack.depth_drop]; omega⟩
  | piled items =>
    refine ⟨OperandStack.agreeBelow_pile items (by omega), ?_⟩
    exact Nat.le_trans (show bound ≤ m.stack.depth by omega) (Nat.le_add_left _ _)
  | rearranged items hi =>
    rw [hi] at hreach
    have hd : bound ≤ (m.stack.drop items.length).depth := by
      rw [OperandStack.depth_drop]; omega
    exact ⟨(OperandStack.agreeBelow_drop hreach).trans (OperandStack.agreeBelow_pile items hd),
      Nat.le_trans hd (Nat.le_add_left _ _)⟩
  | replaced v =>
    have hd : bound ≤ (m.stack.drop i.reach).depth := by rw [OperandStack.depth_drop]; omega
    exact ⟨(OperandStack.agreeBelow_drop hreach).trans (OperandStack.agreeBelow_put hd),
      Nat.le_trans hd (Nat.le_succ _)⟩
  | stored v n hi =>
    rw [hi] at hreach
    have hd : bound ≤ (m.stack.drop 1).depth := by rw [OperandStack.depth_drop]; omega
    refine ⟨(OperandStack.agreeBelow_drop hreach).trans
      (OperandStack.agreeBelow_set (m.fp + n) (by omega)), ?_⟩
    rw [← OperandStack.length_toList, OperandStack.toList, Pile.toList_set, List.length_set,
      ← OperandStack.toList, OperandStack.length_toList]
    exact hd

theorem Computes.limit_eq (h : m.Computes i s) : s.limit = m.stack.limit := by
  cases h <;> rfl

theorem Computes.fits (h : m.Computes i s) (fits : m.stack.Fits) : s.Fits := by
  cases h with
  | same => exact fits
  | pushed v hroom => exact OperandStack.fits_of_reserve hroom rfl (Nat.le_refl _)
  | dropped => exact fits.of_le rfl (Nat.sub_le _ _)
  | piled items hroom =>
    exact OperandStack.fits_of_reserve hroom rfl (Nat.le_of_eq (Nat.add_comm _ _))
  | rearranged items _ hdepth =>
    refine fits.of_le rfl ?_
    show items.length + (m.stack.depth - items.length) ≤ m.stack.depth
    omega
  | replaced v hi hdepth =>
    refine fits.of_le rfl ?_
    rw [OperandStack.depth_put, OperandStack.depth_drop]
    omega
  | stored v n =>
    refine fits.of_le rfl ?_
    rw [← OperandStack.length_toList, OperandStack.toList, Pile.toList_set, List.length_set,
      ← OperandStack.toList, OperandStack.length_toList]
    exact Nat.sub_le _ _

/-! ## The stack that a frame leaves -/

theorem cut_limit (m : Machine) (base : Nat) (result : Option Value) :
    (m.cut base result).limit = m.stack.limit := by
  cases result <;> rfl

theorem toList_cut (m : Machine) (base : Nat) (result : Option Value) :
    (m.cut base result).toList = m.stack.toList.take base ++ result.toList := by
  cases result with
  | none => rw [cut, OperandStack.toList_truncate, Option.toList_none, List.append_nil]
  | some v => rw [cut, OperandStack.toList_put, OperandStack.toList_truncate, Option.toList_some]

theorem depth_cut (m : Machine) (base : Nat) (result : Option Value) :
    (m.cut base result).depth = min m.stack.depth base + result.toList.length := by
  cases result with
  | none => rw [cut, OperandStack.depth_truncate]; rfl
  | some v => rw [cut, OperandStack.depth_put, OperandStack.depth_truncate]; rfl

/-- Leaving a frame makes the stack no deeper: a result takes the place of what the frame held. -/
theorem depth_cut_le {withResult : Bool} {result : Option Value} {exit : FrameExit}
    (hr : m.frameResult withResult = .ok result) (he : m.frameExit = .ok exit) :
    (m.cut exit.base result).depth ≤ m.stack.depth := by
  have hbase := frameExit_base_le he
  rw [depth_cut]
  cases withResult with
  | false =>
    cases hr
    exact Nat.min_le_left _ _
  | true =>
    obtain ⟨hlt, v, -, rfl⟩ := frameResult_true_eq_ok.1 hr
    rw [Option.toList_some, List.length_singleton]
    omega

theorem agreeBelow_cut {base : Nat} (h : base ≤ m.stack.depth) (result : Option Value) :
    OperandStack.AgreeBelow base m.stack (m.cut base result) := by
  have ht : OperandStack.AgreeBelow base m.stack (m.stack.truncate base) :=
    OperandStack.agreeBelow_drop (by omega)
  cases result with
  | none => exact ht
  | some v => exact ht.trans (OperandStack.agreeBelow_put (by rw [OperandStack.depth_truncate]; omega))

end StackMachine.Machine
