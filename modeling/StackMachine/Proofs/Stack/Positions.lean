import StackMachine.Proofs.Stack.Addressing
import StackMachine.Proofs.Word.Position

/-!
Frames by the words of the machine.  A slot is found with positions alone, whose sums and differences may wrap around.
A step is either a test, which has an answer for all operands, or it is bare, and then the tests before it see to it that
it is exact.  So what is found is what exact integers say.
-/

set_option autoImplicit false

namespace StackMachine.OperandStack

variable {s : OperandStack} {fp : Position} {n : Word}

/-! ## Steps with positions -/

/-- The number of values as the machine counts it. -/
def size (s : OperandStack) : Position := UInt64.ofNat s.depth

def at? (s : OperandStack) (i : Position) : Option Value := s.get? i.toNat

/-- What comes of steps with positions: a result or a fault, and neither if a step goes wrong that nothing guards. -/
abbrev Addressed (α : Type) := ExceptT Cause Option α

/-- A step that nothing guards. -/
def bare {α : Type} (x : Option α) : Addressed α := ExceptT.lift x

theorem bare_bind {α β : Type} (a : α) (next : α → Addressed β) : (bare (some a) >>= next) = next a := rfl

theorem monadLift_bind {α β : Type} (a : α) (next : α → Addressed β) :
    ((liftM (Except.ok a : Except Cause α) : Addressed α) >>= next) = next a := rfl

def countAt (s : OperandStack) (fp : Position) : Except Cause Word :=
  match (Position.minus? fp 2).bind s.at? with
  | some (.int count) => .ok count
  | _ => .error (.noArgumentCount fp.toNat)

def getArgAt (s : OperandStack) (fp : Position) (n : Word) : Addressed Value := do
  let count ← s.countAt fp
  if n < 0 ∨ count < n then throw (.argumentOffset n count)
  else do
    let base ← bare (Position.minus? fp 2)
    let offset ← bare (Position.ofWord? n)
    match (Position.minus? base offset).bind s.at? with
    | some v => return v
    | none => throw (.argumentBelowStack n)

def localAt (fp : Position) (n : Word) (bound : Position) : Except Cause Position :=
  match (Position.ofWord? n).bind (Position.plus? fp) with
  | some slot => if slot < bound then .ok slot else .error (.localOffset n (Position.monus bound fp).toNat)
  | none => .error (.localOffset n (Position.monus bound fp).toNat)

-- The slot is below the bound, so the stack is read and written there without another test.
def getLocalAt (s : OperandStack) (fp : Position) (n : Word) : Addressed Value := do
  let slot ← localAt fp n s.size
  bare (s.at? slot)

def setLocalAt (s : OperandStack) (fp : Position) (n : Word) : Addressed OperandStack :=
  if s.size = 0 then throw (.underflow 1 0)
  else do
    let bound ← bare (Position.minus? s.size 1)
    let slot ← localAt fp n bound
    let (v, rest) ← s.pop
    let _ ← bare (rest.at? slot)
    return { rest with values := rest.values.set slot.toNat v }

/-! ## Nothing wraps around -/

theorem toNat_size (h : s.depth < Word.cardinality) : s.size.toNat = s.depth := Position.toNat_ofNat h

theorem countAt_eq (s : OperandStack) (fp : Position) : s.countAt fp = s.argCount fp.toNat := by
  have hslot : (Position.minus? fp 2).bind s.at? = if 2 ≤ fp.toNat then s.get? (fp.toNat - 2) else none :=
    Position.minus?_bind fp 2 s.get?
  rw [countAt, hslot]
  rfl

theorem localAt_eq (fp : Position) (n : Word) (bound : Position) :
    (localAt fp n bound).map UInt64.toNat = localSlot fp.toNat n bound.toNat := by
  have hbound := Position.toNat_lt_cardinality bound
  unfold localAt localSlot
  rw [Position.toNat_monus]
  cases hn : Position.ofWord? n with
  | none =>
    rw [Position.ofWord?_eq_none, ← Word.index?_eq_none] at hn
    rw [hn]
    rfl
  | some i =>
    rw [Position.ofWord?_eq_some, ← Word.index?_eq_some] at hn
    rw [hn, Option.bind_some]
    dsimp only
    cases hsum : Position.plus? fp i with
    | none =>
      rw [Position.plus?_eq_none] at hsum
      rw [if_neg (by omega)]
      rfl
    | some slot =>
      rw [Position.plus?_eq_some] at hsum
      rw [← hsum]
      dsimp only
      by_cases hlt : slot < bound
      · rw [if_pos hlt, if_pos (UInt64.lt_iff_toNat_lt.1 hlt)]
        rfl
      · rw [if_neg hlt, if_neg (mt UInt64.lt_iff_toNat_lt.2 hlt)]
        rfl

theorem getLocalAt_eq (hdepth : s.depth < Word.cardinality) :
    (s.getLocalAt fp n).run = some (s.getLocal fp.toNat n) := by
  have hslot := localAt_eq fp n s.size
  rw [toNat_size hdepth] at hslot
  unfold getLocalAt
  cases hat : localAt fp n s.size with
  | error cause =>
    rw [hat] at hslot
    rw [getLocal, ← hslot]
    rfl
  | ok slot =>
    rw [hat] at hslot
    obtain ⟨v, hv, hget⟩ := getLocal_of_slot hslot.symm
    have hread : s.at? slot = some v := hv
    rw [hget]
    change (bare (s.at? slot)).run = _
    rw [hread]
    rfl

theorem setLocalAt_eq (hdepth : s.depth < Word.cardinality) :
    (s.setLocalAt fp n).run = some (s.setLocal fp.toNat n) := by
  have hsize := toNat_size hdepth
  unfold setLocalAt
  by_cases hempty : s.depth = 0
  · have hzero : s.size = 0 := UInt64.toNat_inj.1 (hsize.trans hempty)
    rw [if_pos hzero, setLocal_of_empty hempty]
    rfl
  have hne : s.size ≠ 0 := fun hzero => hempty (hsize.symm.trans (congrArg UInt64.toNat hzero))
  cases hbound : Position.minus? s.size 1 with
  | none =>
    have hlt : s.size.toNat < 1 := Position.minus?_eq_none.1 hbound
    omega
  | some bound =>
    have hnext : s.size.toNat = 1 + bound.toNat := Position.minus?_eq_some.1 hbound
    have hrest : bound.toNat = (s.drop 1).depth := by
      rw [depth_drop]
      omega
    obtain ⟨v, -, hpop⟩ := pop_of_pos (Nat.pos_of_ne_zero hempty)
    have hslot := localAt_eq fp n bound
    rw [hrest] at hslot
    rw [if_neg hne, setLocal_of_pop hpop, ← hslot, bare_bind]
    cases hat : localAt fp n bound with
    | error cause => rfl
    | ok slot =>
      rw [hat] at hslot
      obtain ⟨w, hw, -⟩ := getLocal_of_slot hslot.symm
      have hread : (s.drop 1).at? slot = some w := hw
      rw [hpop, monadLift_bind, monadLift_bind]
      dsimp only
      rw [hread]
      rfl

theorem getArgAt_eq (s : OperandStack) (fp : Position) (n : Word) :
    (s.getArgAt fp n).run = some (s.getArg fp.toNat n) := by
  unfold getArgAt getArg
  rw [countAt_eq]
  cases hcount : s.argCount fp.toNat with
  | error cause => rfl
  | ok count =>
    rw [monadLift_bind, ok_bind]
    by_cases hout : n < 0 ∨ count < n
    · rw [if_pos hout, if_pos hout]
      rfl
    rw [if_neg hout, if_neg hout]
    rw [outside_iff_toInt] at hout
    have hfp : 2 ≤ fp.toNat := (argCount_eq_ok.1 hcount).1
    cases hbase : Position.minus? fp 2 with
    | none =>
      have hlt : fp.toNat < 2 := Position.minus?_eq_none.1 hbase
      omega
    | some base =>
      cases hoffset : Position.ofWord? n with
      | none =>
        rw [Position.ofWord?_eq_none] at hoffset
        omega
      | some offset =>
        have hbase' : fp.toNat - 2 = base.toNat := Nat.sub_eq_of_eq_add' (Position.minus?_eq_some.1 hbase)
        have hn : n.toInt.toNat = offset.toNat := by
          rw [Position.ofWord?_eq_some.1 hoffset, Int.toNat_natCast]
        have hslot : (Position.minus? base offset).bind s.at?
            = if n.toInt.toNat ≤ fp.toNat - 2 then s.get? (fp.toNat - 2 - n.toInt.toNat) else none := by
          rw [hbase', hn]
          exact Position.minus?_bind base offset s.get?
        rw [bare_bind, bare_bind, ← hslot]
        cases (Position.minus? base offset).bind s.at? <;> rfl

/-! ## Frames -/

/-- Locals and arguments are in the slots that exact integers give, whatever the frame pointer and the number.  Positions
find them there, as far as the depth itself is one: no sum, difference or cast wraps around. -/
theorem frames_addressed_exactly (s : OperandStack) (fp : Position) (n : Word) :
    s.ReadsLocal fp.toNat n ∧ s.WritesLocal fp.toNat n ∧ s.ReadsArgument fp.toNat n
      ∧ (s.getArgAt fp n).run = some (s.getArg fp.toNat n)
      ∧ (s.depth < Word.cardinality →
        (s.getLocalAt fp n).run = some (s.getLocal fp.toNat n)
          ∧ (s.setLocalAt fp n).run = some (s.setLocal fp.toNat n)) := by
  refine ⟨s.readsLocal fp.toNat n, s.writesLocal fp.toNat n, s.readsArgument fp.toNat n, s.getArgAt_eq fp n, ?_⟩
  intro hdepth
  exact ⟨getLocalAt_eq hdepth, setLocalAt_eq hdepth⟩

/-- Local 1 of the frame at the greatest position is not the value in slot 0, to which the sum wraps around. -/
theorem frames_addressed_exactly_greatest :
    ∃ s fp, s = (empty 0).put (.int 7) ∧ fp = (0xFFFFFFFFFFFFFFFF : Position) ∧ s.depth < Word.cardinality
      ∧ s.at? (fp + Int64.toUInt64 1) = some (.int 7)
      ∧ (s.getLocalAt fp 1).run = some (s.getLocal fp.toNat 1)
      ∧ ∀ v, s.getLocal fp.toNat 1 ≠ .ok v := by
  have hdepth : ((empty 0).put (.int 7)).depth < Word.cardinality := by decide
  obtain ⟨hlocal, -, -, -, hwords⟩ := frames_addressed_exactly ((empty 0).put (.int 7)) 0xFFFFFFFFFFFFFFFF 1
  refine ⟨_, _, rfl, rfl, hdepth, rfl, (hwords hdepth).1, ?_⟩
  intro v hv
  have hin := (hlocal.succeeds_iff.1 ⟨v, hv⟩).2
  exact absurd hin (by decide)

end StackMachine.OperandStack
