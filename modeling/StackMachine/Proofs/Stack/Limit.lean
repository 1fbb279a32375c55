import Mathlib.Data.List.Induction
import StackMachine.Proofs.Stack.Room

/-!
Stacks that are changed in place, by any operations one after the other.  An operation that fails leaves the
values as they were, and the depth stays within the limit: nothing is put on a full stack, but for a value that
takes the place of no other.
-/

set_option autoImplicit false

namespace StackMachine.OperandStack

variable {s t : OperandStack} {n k limit : Nat} {v : Value}

/-! ## Operations in place -/

/-- Writes `items` over as many values on top, the first of them over the deepest. -/
def overwrite (s : OperandStack) (items : List Value) : Except Cause OperandStack := do
  s.require items.length
  return { s with values := (s.values.drop items.length).pile items.reverse }

theorem rotate_eq_overwrite {items : List Value} (h : s.top n = .ok items) :
    s.rotate n k = s.overwrite (items.rotateLeft k) := by
  unfold top at h
  rw [check_bind_eq_ok] at h
  obtain ⟨hn, hitems⟩ := h
  cases hitems
  have hlength : ((s.values.topDown.take n).reverse.rotateLeft k).length = n := by
    rw [require_eq_ok, depth_eq_length] at hn
    simp [length_rotateLeft, hn]
  unfold rotate overwrite
  rw [hlength]

/-- The operations that change a stack. -/
inductive Operation where
  | push (v : Value)
  | pop
  | discard (n : Nat)
  | replace (n : Nat) (v : Value)
  | duplicate (n : Nat)
  | truncate (depth : Nat)
  | alloc (n : Nat)
  | setLocal (fp : Nat) (n : Word)
  | overwrite (items : List Value)

namespace Operation

/-- The stack that the operation makes of another one. -/
def apply : Operation → OperandStack → Except Cause OperandStack
  | push v, s => s.push v
  | pop, s => return (← s.pop).2
  | discard n, s => s.discard n
  | replace n v, s => s.replace n v
  | duplicate n, s => s.duplicate n
  | truncate depth, s => return s.truncate depth
  | alloc n, s => s.alloc n
  | setLocal fp n, s => s.setLocal fp n
  | overwrite items, s => s.overwrite items

/-- Asks something of the stack at hand without changing it. -/
def ask {α : Type} (question : OperandStack → Except Cause α) : EStateM Cause OperandStack α :=
  fun s => match question s with
    | .ok a => .ok a s
    | .error cause => .error cause s

def popInPlace : EStateM Cause OperandStack Value := do
  let (v, rest) ← ask (·.pop)
  set rest
  return v

def discardInPlace (n : Nat) : EStateM Cause OperandStack Unit := do
  ask (·.require n)
  modify (·.drop n)

/-- The operation on the stack at hand.  What it has changed before it fails stays changed. -/
def inPlace : Operation → EStateM Cause OperandStack Unit
  | push v => do
    ask (·.reserve 1)
    modify (·.put v)
  | pop => do
    let _ ← popInPlace
  | discard n => discardInPlace n
  | replace n v => do
    discardInPlace n
    modify (·.put v)
  | duplicate n => do
    ask (·.require n)
    ask (·.reserve n)
    modify fun s => { s with values := s.values.pile (s.values.topDown.take n) }
  | truncate depth => modify (·.truncate depth)
  | alloc n => do
    ask (·.reserve n)
    modify fun s => { s with values := s.values.pile (List.replicate n .null) }
  | setLocal fp n => do
    ask (·.require 1)
    let slot ← ask fun s => localSlot fp n (s.depth - 1)
    let v ← popInPlace
    modify fun s => { s with values := s.values.set slot v }
  | overwrite items => do
    ask (·.require items.length)
    modify fun s => { s with values := (s.values.drop items.length).pile items.reverse }

/-- What becomes of the stack at hand, given what the operation makes of it. -/
def outcome (s : OperandStack) : Except Cause OperandStack → EStateM.Result Cause OperandStack Unit
  | .ok t => .ok () t
  | .error cause => .error cause s

theorem ask_bind {α β : Type} (question : OperandStack → Except Cause α)
    (next : α → EStateM Cause OperandStack β) (s : OperandStack) :
    (ask question >>= next) s = match question s with
      | .ok a => next a s
      | .error cause => .error cause s := by
  change EStateM.bind (ask question) next s = _
  unfold EStateM.bind ask
  cases question s <;> rfl

theorem popInPlace_eq (s : OperandStack) :
    popInPlace s = match s.pop with
      | .ok (v, rest) => .ok v rest
      | .error cause => .error cause s := by
  unfold popInPlace
  rw [ask_bind]
  cases s.pop <;> rfl

/-- One check and then one change. -/
theorem ask_modify (check : OperandStack → Except Cause Unit) (change : OperandStack → OperandStack)
    (s : OperandStack) :
    (ask check >>= fun _ => modify change) s = outcome s (check s >>= fun _ => return change s) := by
  rw [ask_bind]
  cases check s <;> rfl

theorem discardInPlace_eq (n : Nat) (s : OperandStack) : discardInPlace n s = outcome s (s.discard n) :=
  ask_modify _ _ s

theorem replaceInPlace_eq (n : Nat) (v : Value) (s : OperandStack) :
    (replace n v).inPlace s = outcome s (s.replace n v) := by
  change EStateM.bind (discardInPlace n) _ s = _
  unfold EStateM.bind
  rw [discardInPlace_eq]
  unfold OperandStack.discard OperandStack.replace
  cases s.require n <;> rfl

theorem duplicateInPlace_eq (n : Nat) (s : OperandStack) :
    (duplicate n).inPlace s = outcome s (s.duplicate n) := by
  change (ask (·.require n) >>= fun _ => ask (·.reserve n) >>= fun _ => _) s = _
  rw [ask_bind]
  unfold OperandStack.duplicate
  cases s.require n with
  | error cause => rfl
  | ok _ => exact ask_modify _ _ s

/-- The slot is found out before the value is taken away. -/
theorem setLocalInPlace_eq (fp : Nat) (n : Word) (s : OperandStack) :
    (setLocal fp n).inPlace s = outcome s (s.setLocal fp n) := by
  change (ask (·.require 1) >>= fun _ => ask _ >>= fun slot => popInPlace >>= fun v => _) s = _
  rw [ask_bind]
  unfold OperandStack.setLocal
  rcases hv : s.values.topDown with _ | ⟨v, rest⟩
  · have hdepth : s.depth = 0 := by rw [depth_eq_length, hv]; rfl
    have hrequire : s.require 1 = .error (.underflow 1 0) := by
      unfold require
      simp [hdepth]
    have hpop : s.pop = .error (.underflow 1 0) := by
      unfold OperandStack.pop
      rw [hv]
    rw [hrequire, hpop]
    rfl
  · have hdepth : 1 ≤ s.depth := by rw [depth_eq_length, hv]; simp
    have hpop : s.pop = .ok (v, { s with values := s.values.tail }) := by
      unfold OperandStack.pop
      rw [hv]
    rw [require_eq_ok.2 hdepth, hpop]
    dsimp only
    rw [ask_bind]
    change _ = outcome s (localSlot fp n (s.depth - 1) >>= _)
    cases localSlot fp n (s.depth - 1) with
    | error cause => rfl
    | ok slot =>
      change EStateM.bind popInPlace _ s = _
      unfold EStateM.bind
      rw [popInPlace_eq, hpop]
      rfl

theorem dropTopInPlace_eq (s : OperandStack) : pop.inPlace s = outcome s (pop.apply s) := by
  change EStateM.bind popInPlace _ s = outcome s (s.pop >>= _)
  unfold EStateM.bind
  rw [popInPlace_eq]
  cases s.pop <;> rfl

/-- An operation in place makes of the stack at hand what it makes of any stack, or leaves it as it was. -/
theorem inPlace_eq (op : Operation) (s : OperandStack) : op.inPlace s = outcome s (op.apply s) := by
  cases op with
  | push v => exact ask_modify _ _ s
  | pop => exact dropTopInPlace_eq s
  | discard n => exact discardInPlace_eq n s
  | replace n v => exact replaceInPlace_eq n v s
  | duplicate n => exact duplicateInPlace_eq n s
  | truncate depth => rfl
  | alloc n => exact ask_modify _ _ s
  | setLocal fp n => exact setLocalInPlace_eq fp n s
  | overwrite items => exact ask_modify _ _ s

end Operation

/-! ## The limit -/

/-- How an operation changes the depth: it shrinks the stack, has asked for room, or puts a value in the place of
none. -/
inductive Resizes (op : Operation) (s t : OperandStack) : Prop
  | shrinks (hlimit : t.limit = s.limit) (hdepth : t.depth ≤ s.depth)
  | reserved (n : Nat) (hlimit : t.limit = s.limit) (hroom : s.reserve n = .ok ())
    (hdepth : t.depth ≤ s.depth + n)
  | overfills (v : Value) (hop : op = .replace 0 v) (hlimit : t.limit = s.limit)
    (hdepth : t.depth = s.depth + 1)

theorem depth_pile (s : OperandStack) (items : List Value) :
    ({ s with values := s.values.pile items } : OperandStack).depth = items.length + s.depth := rfl

theorem resizes {op : Operation} (h : op.apply s = .ok t) : Resizes op s t := by
  cases op with
  | push v =>
    obtain ⟨hroom, rfl⟩ := push_eq_ok.1 h
    exact .reserved 1 rfl hroom (Nat.le_refl _)
  | pop =>
    obtain ⟨⟨v, rest⟩, hpop, hrest⟩ := bind_eq_ok.1 h
    cases hrest
    obtain ⟨-, rfl⟩ := pop_eq_ok.1 hpop
    exact .shrinks rfl (Nat.sub_le _ _)
  | discard n =>
    obtain ⟨-, rfl⟩ := discard_eq_ok.1 h
    exact .shrinks rfl (Nat.sub_le _ _)
  | replace n v =>
    obtain ⟨hn, hput⟩ := check_bind_eq_ok.1 h
    cases hput
    rw [require_eq_ok] at hn
    by_cases hzero : n = 0
    · subst hzero
      exact .overfills v rfl rfl rfl
    · refine .shrinks rfl ?_
      rw [depth_put, depth_drop]
      omega
  | duplicate n =>
    obtain ⟨-, hroom, rfl⟩ := duplicate_eq_ok.1 h
    refine .reserved n rfl hroom ?_
    rw [depth_pile, List.length_take]
    omega
  | truncate depth =>
    cases h
    exact .shrinks rfl (Nat.sub_le _ _)
  | alloc n =>
    obtain ⟨hroom, rfl⟩ := alloc_eq_ok.1 h
    refine .reserved n rfl hroom ?_
    rw [depth_pile, List.length_replicate]
    omega
  | setLocal fp n =>
    obtain ⟨v, slot, -, -, rfl⟩ := setLocal_eq_ok.1 h
    refine .shrinks rfl ?_
    rw [depth_eq_length, ← List.length_reverse, ← Pile.toList, Pile.toList_set, List.length_set,
      Pile.length_toList]
    exact Nat.sub_le _ _
  | overwrite items =>
    obtain ⟨hn, hput⟩ := check_bind_eq_ok.1 h
    cases hput
    rw [require_eq_ok] at hn
    refine .shrinks rfl ?_
    change items.reverse.length + (s.depth - items.length) ≤ s.depth
    rw [List.length_reverse]
    omega

theorem Resizes.limit_eq {op : Operation} (h : Resizes op s t) : t.limit = s.limit := by
  cases h <;> assumption

/-- Nothing but a value in the place of none gets a stack over its limit. -/
theorem Resizes.fits {op : Operation} (h : Resizes op s t) (fits : s.Fits)
    (hop : ∀ v, op = .replace 0 v → s.depth ≠ s.limit) : t.Fits := by
  cases h with
  | shrinks hlimit hdepth => exact fits.of_le hlimit hdepth
  | reserved n hlimit hroom hdepth => exact fits_of_reserve hroom hlimit hdepth
  | overfills v hv hlimit hdepth =>
    have hne := hop v hv
    unfold Fits at fits ⊢
    rw [hlimit, hdepth]
    omega

/-! ## Any operations -/

/-- The stack that is left when an operation in place is over. -/
def left {α : Type} : EStateM.Result Cause OperandStack α → OperandStack
  | .ok _ s => s
  | .error _ s => s

/-- A new stack after some operations in place. -/
def after (limit : Nat) (ops : List Operation) : OperandStack :=
  ops.foldl (fun s op => left (op.inPlace s)) (empty limit)

theorem after_concat (limit : Nat) (ops : List Operation) (op : Operation) :
    after limit (ops ++ [op]) = left (op.inPlace (after limit ops)) := by
  unfold after
  rw [List.foldl_append]
  rfl

theorem left_inPlace (op : Operation) (s : OperandStack) :
    left (op.inPlace s) = s ∨ ∃ t, op.apply s = .ok t ∧ left (op.inPlace s) = t := by
  rw [Operation.inPlace_eq]
  cases op.apply s with
  | error cause => exact .inl rfl
  | ok t => exact .inr ⟨t, rfl, rfl⟩

theorem limit_after (limit : Nat) (ops : List Operation) : (after limit ops).limit = limit := by
  induction ops using List.reverseRecOn with
  | nil => rfl
  | append_singleton ops op ih =>
    rw [after_concat]
    rcases left_inPlace op (after limit ops) with h | ⟨t, happly, h⟩
    · rw [h, ih]
    · rw [h, (resizes happly).limit_eq, ih]

/-- At some time a value is put on the full stack in the place of none. -/
def Overfills (limit : Nat) (ops : List Operation) : Prop :=
  ∃ before v later, ops = before ++ .replace 0 v :: later ∧ (after limit before).depth = limit

theorem fits_after (ops : List Operation) (h : ¬ Overfills limit ops) : (after limit ops).Fits := by
  induction ops using List.reverseRecOn with
  | nil => exact fun _ => Nat.zero_le _
  | append_singleton ops op ih =>
    have hbefore : ¬ Overfills limit ops := by
      rintro ⟨before, v, later, rfl, hdepth⟩
      exact h ⟨before, v, later ++ [op], by simp, hdepth⟩
    have fits := ih hbefore
    rw [after_concat]
    rcases left_inPlace op (after limit ops) with hleft | ⟨t, happly, hleft⟩
    · rw [hleft]
      exact fits
    · rw [hleft]
      refine (resizes happly).fits fits fun v hv hdepth => ?_
      rw [limit_after] at hdepth
      exact h ⟨ops, v, [], by rw [hv], hdepth⟩

/-- A stack is full until a value takes the place of none, and then it is over its limit. -/
theorem exists_over_of_overfills {ops : List Operation} (h : Overfills limit ops) :
    ∃ before, before <+: ops ∧ (after limit before).depth = limit + 1 := by
  obtain ⟨before, v, later, rfl, hdepth⟩ := h
  refine ⟨before ++ [.replace 0 v], ⟨later, by simp⟩, ?_⟩
  have happly : (Operation.replace 0 v).apply (after limit before) = .ok ((after limit before).put v) :=
    check_bind_eq_ok.2 ⟨require_eq_ok.2 (Nat.zero_le _), rfl⟩
  rw [after_concat, Operation.inPlace_eq, happly]
  exact congrArg (· + 1) hdepth

/-- An operation that fails leaves the stack as it was, and no operations get a stack over its limit, as far as
depths are counted, unless they overfill it. -/
theorem limit_holds_unless_overfilled (hlimit : 0 < limit) (ops : List Operation) :
    (∀ (op : Operation) (cause : Cause) (t : OperandStack),
        op.inPlace (after limit ops) = .error cause t → t = after limit ops)
      ∧ (¬ Overfills limit ops → (after limit ops).depth ≤ limit ∨ largestDepth ≤ limit)
      ∧ (Overfills limit ops → ∃ before, before <+: ops ∧ (after limit before).depth = limit + 1) := by
  refine ⟨?_, ?_, exists_over_of_overfills⟩
  · intro op cause t h
    rw [Operation.inPlace_eq] at h
    unfold Operation.outcome at h
    split at h
    · cases h
    · cases h
      rfl
  · intro hops
    have fits := fits_after ops hops
    unfold Fits at fits
    rw [limit_after] at fits
    omega

/-- A stack for two values, which is refused a third one. -/
theorem limit_holds_unless_overfilled_two :
    ∃ ops, ops = [Operation.push .null, .duplicate 1, .push .null, .replace 1 .null] ∧ ¬ Overfills 2 ops
      ∧ (after 2 ops).depth = 2
      ∧ ((after 2 ops).depth ≤ 2 ∨ largestDepth ≤ 2) := by
  have hops : ¬ Overfills 2 [.push .null, .duplicate 1, .push .null, .replace 1 .null] := by
    rintro ⟨before, v, later, h, -⟩
    have hmem : Operation.replace 0 v ∈ before ++ .replace 0 v :: later := by simp
    rw [← h] at hmem
    simp at hmem
  exact ⟨_, rfl, hops, rfl, (limit_holds_unless_overfilled (by decide) _).2.1 hops⟩

/-- A stack for one value has two after one of them took the place of none. -/
theorem full_stack_overfilled :
    ∃ ops, ops = [Operation.push .null, .replace 0 .null] ∧ (after 1 (ops.take 1)).depth = 1
      ∧ (after 1 ops).depth = 2 :=
  ⟨_, rfl, rfl, rfl⟩

end StackMachine.OperandStack
