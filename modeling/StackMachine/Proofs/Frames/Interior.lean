import StackMachine.Proofs.Frames.Activation
import StackMachine.Proofs.Stack.Onto

/-!
What lies above the frame of a callee: the frames of the calls that it waits for, one on the other, and the
values of the current frame on top.  Of all these slots only the links tell where on the stack the callee is.
-/

set_option autoImplicit false

namespace StackMachine

/-- A frame that waits for a frame it has called: its values from the top down, how many of them are the
arguments, and the address to go on at. -/
structure Suspended where
  values : List Value
  count : Nat
  count_le : count ≤ values.length
  ret : Nat

namespace Suspended

/-- How many slots the frames take, with the two words that each call puts on its frame. -/
def height : List Suspended → Nat
  | [] => 0
  | f :: frames => height frames + f.values.length + 2

/-- The slots of the frames from the top down, if the lowest frame begins at `base`. -/
def words (base : Nat) : List Suspended → List Value
  | [] => []
  | f :: frames =>
    .int (Int64.ofNat (base + height frames)) :: .int (Int64.ofNat f.count) ::
      (f.values ++ words base frames)

theorem length_words (base : Nat) (frames : List Suspended) : (words base frames).length = height frames := by
  induction frames with
  | nil => rfl
  | cons f frames ih =>
    rw [words, height, List.length_cons, List.length_cons, List.length_append, ih]
    omega

/-! ### The links -/

theorem length_reverse_words (base : Nat) (frames : List Suspended) :
    (words base frames).reverse.length = height frames := List.length_reverse.trans (length_words base frames)

theorem reverse_words_cons (base : Nat) (f : Suspended) (frames : List Suspended) :
    (words base (f :: frames)).reverse =
      (words base frames).reverse ++ (f.values.reverse ++ [.int (Int64.ofNat f.count)]) ++
        [.int (Int64.ofNat (base + height frames))] := by
  rw [words, List.reverse_cons, List.reverse_cons, List.reverse_append]
  simp only [List.append_assoc]

theorem height_le_of_suffix {inner frames : List Suspended} (h : inner <:+ frames) :
    height inner ≤ height frames := by
  induction frames with
  | nil => exact List.suffix_nil.1 h ▸ Nat.le_refl _
  | cons f frames ih =>
    rcases List.suffix_cons_iff.1 h with rfl | h
    · exact Nat.le_refl _
    · have hle := ih h
      rw [height]
      omega

/-- The link of a frame is its highest slot. -/
theorem link_eq (base : Nat) {f : Suspended} {inner frames : List Suspended} (h : f :: inner <:+ frames)
    {i : Nat} (hi : i + 1 = height (f :: inner)) :
    (words base frames).reverse[i]? = some (.int (Int64.ofNat (base + height inner))) := by
  have hheight : i = height inner + (f.values.length + 1) := Nat.succ.inj hi
  induction frames with
  | nil => exact absurd (List.suffix_nil.1 h) (List.cons_ne_nil _ _)
  | cons g frames ih =>
    rw [reverse_words_cons]
    rcases List.suffix_cons_iff.1 h with heq | h
    · cases heq
      have hlen : ((words base inner).reverse ++
          (f.values.reverse ++ [Value.int (Int64.ofNat f.count)])).length = i := by
        simp [length_words, hheight]
      rw [← hlen, List.getElem?_concat_length]
    · have hle := height_le_of_suffix h
      rw [← hi] at hle
      rw [List.append_assoc, List.getElem?_append_left ((length_reverse_words base frames).symm ▸ hle)]
      exact ih h

/-- Of the slots of the same frames on two places of the stack, only the links differ. -/
theorem words_eq_or_link (base base' : Nat) (frames : List Suspended) (i : Nat) :
    (words base' frames).reverse[i]? = (words base frames).reverse[i]? ∨
      ∃ f inner, f :: inner <:+ frames ∧ i + 1 = height (f :: inner) := by
  induction frames with
  | nil => exact .inl rfl
  | cons f frames ih =>
    have hlen : ∀ base, ((words base frames).reverse ++
        (f.values.reverse ++ [Value.int (Int64.ofNat f.count)])).length =
          height frames + (f.values.length + 1) := by
      intro base
      simp [length_words]
    rcases Nat.lt_trichotomy i (height frames + (f.values.length + 1)) with hlt | heq | hgt
    · have hcut : ∀ base, (words base (f :: frames)).reverse[i]? =
          ((words base frames).reverse ++ (f.values.reverse ++ [Value.int (Int64.ofNat f.count)]))[i]? := by
        intro base
        rw [reverse_words_cons, List.getElem?_append_left ((hlen base).symm ▸ hlt)]
      rw [hcut base, hcut base']
      rcases Nat.lt_or_ge i (height frames) with hinner | hown
      · rw [List.getElem?_append_left ((length_reverse_words base' frames).symm ▸ hinner),
          List.getElem?_append_left ((length_reverse_words base frames).symm ▸ hinner)]
        rcases ih with hsame | ⟨g, inner, hsuffix, hi⟩
        · exact .inl hsame
        · exact .inr ⟨g, inner, hsuffix.trans (List.suffix_cons _ _), hi⟩
      · refine .inl ?_
        have hown : ∀ base, (words base frames).reverse.length ≤ i := fun base =>
          (length_reverse_words base frames).symm ▸ hown
        rw [List.getElem?_append_right (hown base'), List.getElem?_append_right (hown base), length_reverse_words,
          length_reverse_words]
    · exact .inr ⟨f, frames, List.suffix_rfl, by rw [heq]; rfl⟩
    · have hnone : ∀ base, (words base (f :: frames)).reverse[i]? = none := by
        intro base
        exact List.getElem?_eq_none ((length_reverse_words base (f :: frames)).symm ▸ hgt)
      exact .inl ((hnone base').trans (hnone base).symm)

/-! ### All slots -/

/-- All that lies below the current frame. -/
def stacked (low : List Value) (frames : List Suspended) : List Value := words low.length frames ++ low

theorem length_stacked (low : List Value) (frames : List Suspended) :
    (stacked low frames).length = low.length + height frames := by
  rw [stacked, List.length_append, length_words, Nat.add_comm]

end Suspended

/-- The words that a call has put on the stack of its caller, whose frame is at `caller`: the link, the number of
arguments and the arguments themselves lie on `deep`. -/
structure CallWords (below : List Value) (caller : Nat) (args deep : List Value) : Prop where
  eq : below = .int (Int64.ofNat caller) :: .int (Int64.ofNat args.length) :: (args ++ deep)
  caller_le : caller ≤ deep.length

open Suspended

theorem callWords_stacked (low : List Value) (f : Suspended) (frames : List Suspended) :
    CallWords (stacked low (f :: frames)) (stacked low frames).length (f.values.take f.count)
      (f.values.drop f.count ++ stacked low frames) := by
  constructor
  · have hcount : (f.values.take f.count).length = f.count := by
      rw [List.length_take, Nat.min_eq_left f.count_le]
    rw [hcount, length_stacked, stacked, words, ← List.append_assoc, List.take_append_drop, stacked]
    simp only [List.cons_append, List.append_assoc]
  · rw [List.length_append]
    exact Nat.le_add_left _ _

section CallWords

variable {below args deep : List Value} {caller : Nat}

theorem CallWords.length_eq (h : CallWords below caller args deep) :
    below.length = deep.length + args.length + 2 := by
  rw [h.eq, List.length_cons, List.length_cons, List.length_append]
  omega

/-- Argument `n` of a frame that was called with `args`. -/
def argument (args : List Value) (n : Word) : Except Cause Value :=
  if n < 0 ∨ Int64.ofNat args.length < n then .error (.argumentOffset n (Int64.ofNat args.length))
  else .ok ((.int (Int64.ofNat args.length) :: args).getD n.toInt.toNat .null)

/-- A frame finds its arguments below it, with their number on top of them. -/
theorem getArg_of_slots {s : OperandStack} {fp : Nat} (hfp : args.length + 2 ≤ fp)
    (hbound : args.length < 2 ^ 63)
    (hslots : ∀ i ≤ args.length, s.get? (fp - 2 - i) = (Value.int (Int64.ofNat args.length) :: args)[i]?)
    (n : Word) : s.getArg fp n = argument args n := by
  have hcount : s.argCount fp = .ok (Int64.ofNat args.length) :=
    OperandStack.argCount_eq_ok.2 ⟨by omega, hslots 0 (Nat.zero_le _)⟩
  rw [OperandStack.getArg, hcount, ok_bind, argument]
  by_cases hrange : n < 0 ∨ Int64.ofNat args.length < n
  · rw [if_pos hrange, if_pos hrange]
    rfl
  · have hn : n.toInt.toNat ≤ args.length := by
      rw [Int64.lt_iff_toInt_lt, Int64.lt_iff_toInt_lt, Word.toInt_ofNat hbound] at hrange
      omega
    have hlt : n.toInt.toNat < (Value.int (Int64.ofNat args.length) :: args).length := by
      rw [List.length_cons]
      omega
    rw [if_neg hrange, if_neg hrange]
    dsimp only
    rw [if_pos (by omega), hslots _ hn, List.getElem?_eq_getElem hlt, List.getD_eq_getElem?_getD,
      List.getElem?_eq_getElem hlt]
    rfl

/-- A frame finds its arguments whatever lies below them. -/
theorem CallWords.getArg_eq (h : CallWords below caller args deep) (hbound : below.length < 2 ^ 63)
    (s : OperandStack) (n : Word) : (s.onto below).getArg below.length n = argument args n := by
  have hlen := h.length_eq
  refine getArg_of_slots (by omega) (by omega) (fun i hi => ?_) n
  rw [show below.length - 2 - i = below.length - 1 - (i + 1) by omega, s.get?_onto_below (by omega), h.eq,
    List.getElem?_cons_succ, ← List.cons_append, List.getElem?_append_left (by rw [List.length_cons]; omega)]

variable {s : OperandStack} {m : Machine}

/-- A frame leads back to its caller whatever lies below its arguments. -/
theorem CallWords.frameExit_eq (h : CallWords below caller args deep) (hs : m.stack = s.onto below)
    (hfp : m.fp = below.length) (hbound : below.length < 2 ^ 63) {ret : Nat} {returns : List Nat}
    (hret : m.returns.topDown = ret :: returns) :
    m.frameExit = .ok ⟨deep.length, some (caller, ret)⟩ := by
  have hlen := h.length_eq
  have hle := h.caller_le
  have hlink : m.stack.get? (m.fp - 1) = some (.int (Int64.ofNat caller)) := by
    rw [hs, hfp]
    refine (s.get?_onto_below (k := 0) (by omega)).trans ?_
    rw [h.eq]
    rfl
  have hcount : m.stack.get? (m.fp - 2) = some (.int (Int64.ofNat args.length)) := by
    rw [hs, hfp]
    refine (s.get?_onto_below (k := 1) (by omega)).trans ?_
    rw [h.eq]
    rfl
  rw [Machine.frameExit_of_words hlink hcount (by omega) (by omega) hret, hfp, hlen]
  congr 2
  omega

end CallWords

end StackMachine
