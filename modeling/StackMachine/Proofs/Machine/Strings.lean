import StackMachine.Proofs.Machine.Output
import StackMachine.Proofs.Machine.Signatures
import StackMachine.Proofs.Word.Exact

/-!
Strings as sequences of octets.  Parts of strings and single octets lie where the indices say, whatever
characters the octets spell, and the string instructions compute nothing else.
-/

set_option autoImplicit false

namespace StackMachine

namespace ByteString

variable {s t u v : ByteString} {a b c d i : Word}

/-! ## Parts and octets -/

theorem slice_eq_ok :
    s.slice a b = .ok u ↔
      ∃ i j : Nat, a.toInt = i ∧ b.toInt = j ∧ i ≤ j ∧ j ≤ s.length ∧ u = ⟨s.octets.extract i j⟩ := by
  unfold slice slice?
  cases ha : Word.index? a with
  | none =>
    rw [Word.index?_eq_none] at ha
    simp
    omega
  | some i =>
    cases hb : Word.index? b with
    | none =>
      rw [Word.index?_eq_none] at hb
      simp
      omega
    | some j =>
      rw [Word.index?_eq_some] at ha hb
      by_cases h : i ≤ j ∧ j ≤ s.length
      · simp only [h, and_self, if_true, Except.ok.injEq, ha, hb, Int.natCast_inj]
        constructor
        · rintro rfl
          exact ⟨i, j, rfl, rfl, h.1, h.2, rfl⟩
        · rintro ⟨_, _, rfl, rfl, -, -, rfl⟩
          rfl
      · simp [h, ha, hb]
        omega

theorem octetAt_eq_ok {octet : UInt8} :
    s.octetAt i = .ok octet ↔ ∃ n : Nat, i.toInt = n ∧ s.octets[n]? = some octet := by
  unfold octetAt octet?
  cases hi : Word.index? i with
  | none =>
    rw [Word.index?_eq_none] at hi
    simp
    omega
  | some n =>
    rw [Word.index?_eq_some] at hi
    simp only [hi, Int.natCast_inj, exists_eq_left']
    cases s.octets[n]? <;> simp

theorem slice_eq_error {e : ValueError} (h : s.slice a b = .error e) : e = .sliceOutOfRange a b s.length := by
  unfold slice at h
  split at h
  · cases h
  · cases h
    rfl

theorem octetAt_eq_error {e : ValueError} (h : s.octetAt i = .error e) : e = .indexOutOfRange i s.length := by
  unfold octetAt at h
  split at h
  · cases h
  · cases h
    rfl

theorem exists_slice :
    (∃ u, s.slice a b = .ok u) ↔ 0 ≤ a.toInt ∧ a.toInt ≤ b.toInt ∧ b.toInt ≤ s.length := by
  simp only [slice_eq_ok]
  constructor
  · rintro ⟨_, i, j, ha, hb, hij, hj, -⟩
    omega
  · rintro ⟨ha, hab, hb⟩
    exact ⟨_, a.toInt.toNat, b.toInt.toNat, by omega, by omega, by omega, by omega, rfl⟩

theorem exists_octetAt : (∃ octet, s.octetAt i = .ok octet) ↔ 0 ≤ i.toInt ∧ i.toInt < s.length := by
  simp only [octetAt_eq_ok]
  constructor
  · rintro ⟨_, n, hi, hn⟩
    obtain ⟨hlt, -⟩ := Array.getElem?_eq_some_iff.1 hn
    exact ⟨by omega, by rw [hi]; exact Int.ofNat_lt.2 hlt⟩
  · rintro ⟨hpos, hlt⟩
    have hn : i.toInt.toNat < s.octets.size := by
      change i.toInt < s.octets.size at hlt
      omega
    exact ⟨_, i.toInt.toNat, by omega, Array.getElem?_eq_getElem hn⟩

theorem length_slice (h : s.slice a b = .ok u) : (u.length : Int) = b.toInt - a.toInt := by
  obtain ⟨i, j, ha, hb, hij, hj, rfl⟩ := slice_eq_ok.1 h
  unfold length at hj ⊢
  rw [ha, hb, Array.size_extract]
  omega

/-! ## Strings put together and taken apart -/

theorem toOption_octetAt (s : ByteString) (i : Word) : (s.octetAt i).toOption = s.octet? i := by
  unfold octetAt
  cases s.octet? i <;> rfl

theorem octet?_append_left (t : ByteString) (h : i.toInt < s.length) : (s ++ t).octet? i = s.octet? i := by
  unfold octet?
  cases hi : Word.index? i with
  | none => rfl
  | some n =>
    rw [Word.index?_eq_some] at hi
    have hn : n < s.octets.size := by
      change i.toInt < s.octets.size at h
      omega
    exact Array.getElem?_append_left hn

theorem octet?_append_right {j : Word} (h : s.length ≤ i.toInt) (hj : j.toInt = i.toInt - s.length) :
    (s ++ t).octet? i = t.octet? j := by
  have hi : Word.index? i = some i.toInt.toNat := Word.index?_eq_some.2 (by omega)
  have hj : Word.index? j = some (i.toInt.toNat - s.octets.size) := by
    unfold length at h hj
    exact Word.index?_eq_some.2 (by omega)
  have hn : s.octets.size ≤ i.toInt.toNat := by
    unfold length at h
    omega
  unfold octet?
  rw [hi, hj]
  exact Array.getElem?_append_right hn

/-- A part of a part is a part, and counts from where the first part starts. -/
theorem slice_slice (h : s.slice a b = .ok u) (hv : u.slice c d = .ok v) : s.slice (a + c) (a + d) = .ok v := by
  have hlength := length_slice h
  obtain ⟨hc, hcd, hd⟩ := exists_slice.1 ⟨v, hv⟩
  obtain ⟨i, j, ha, hb, hij, hj, rfl⟩ := slice_eq_ok.1 h
  obtain ⟨k, l, hk, hl, hkl, hlj, rfl⟩ := slice_eq_ok.1 hv
  have hac : (a + c).toInt = a.toInt + c.toInt := Word.toInt_add_of_le (z := b) (by omega) hc (by omega)
  have had : (a + d).toInt = a.toInt + d.toInt := Word.toInt_add_of_le (z := b) (by omega) (by omega) (by omega)
  refine slice_eq_ok.2 ⟨i + k, i + l, by omega, by omega, by omega, by omega, ?_⟩
  rw [Array.extract_extract, Nat.min_eq_left (by omega)]

/-- A string is cut in two at any octet. -/
theorem slice_append_slice {k n : Word} (hn : n.toInt = s.length) (hk : 0 ≤ k.toInt) (hkn : k.toInt ≤ n.toInt) :
    ∃ u v, s.slice 0 k = .ok u ∧ s.slice k n = .ok v ∧ u ++ v = s := by
  have hzero : (0 : Word).toInt = (0 : Nat) := rfl
  refine ⟨_, _, slice_eq_ok.2 ⟨0, k.toInt.toNat, hzero, by omega, by omega, by omega, rfl⟩,
    slice_eq_ok.2 ⟨k.toInt.toNat, s.length, by omega, hn, by omega, Nat.le_refl _, rfl⟩, ?_⟩
  have hjoin : s.octets.extract 0 k.toInt.toNat ++ s.octets.extract k.toInt.toNat s.length = s.octets := by
    rw [Array.extract_append_extract]
    have hle : max k.toInt.toNat s.length = s.octets.size := by
      unfold length at hn ⊢
      omega
    rw [Nat.min_eq_left (Nat.zero_le _), hle, Array.extract_size]
  exact congrArg ByteString.mk hjoin

/-- The laws of strings as sequences of octets, for a string and one that is put behind it. -/
structure SequenceLaws (s t : ByteString) : Prop where
  slice_defined : ∀ a b : Word, (∃ u, s.slice a b = .ok u) ↔
    0 ≤ a.toInt ∧ a.toInt ≤ b.toInt ∧ b.toInt ≤ s.length
  slice_refused : ∀ a b e, s.slice a b = .error e → e = .sliceOutOfRange a b s.length
  octet_defined : ∀ i : Word, (∃ octet, s.octetAt i = .ok octet) ↔ 0 ≤ i.toInt ∧ i.toInt < s.length
  octet_refused : ∀ i e, s.octetAt i = .error e → e = .indexOutOfRange i s.length
  length_concat : (s ++ t).length = s.length + t.length
  octet_first : ∀ i : Word, i.toInt < s.length → ((s ++ t).octetAt i).toOption = (s.octetAt i).toOption
  octet_second : ∀ i : Word, (s.length : Int) ≤ i.toInt →
    ((s ++ t).octetAt i).toOption = (t.octetAt (Int64.ofInt (i.toInt - s.length))).toOption
  slice_slice_defined : ∀ a b u, s.slice a b = .ok u → ∀ c d, (∃ v, u.slice c d = .ok v) ↔
    0 ≤ c.toInt ∧ c.toInt ≤ d.toInt ∧ d.toInt ≤ b.toInt - a.toInt
  slice_slice : ∀ a b u, s.slice a b = .ok u → ∀ c d v, u.slice c d = .ok v →
    s.slice (a + c) (a + d) = .ok v
  /-- The cut may lie between any two octets, also of one character. -/
  cut : ∀ k n : Word, n.toInt = (s.length : Int) → 0 ≤ k.toInt → k.toInt ≤ n.toInt →
    ∃ u v, s.slice 0 k = .ok u ∧ s.slice k n = .ok v ∧ u ++ v = s

theorem sequenceLaws (s t : ByteString) : s.SequenceLaws t where
  slice_defined _ _ := exists_slice
  slice_refused _ _ _ := slice_eq_error
  octet_defined _ := exists_octetAt
  octet_refused _ _ := octetAt_eq_error
  length_concat := length_append s t
  octet_first i h := by rw [toOption_octetAt, toOption_octetAt, octet?_append_left t h]
  octet_second i h := by
    have hlt := i.toInt_lt
    rw [toOption_octetAt, toOption_octetAt, octet?_append_right h]
    exact Int64.toInt_ofInt_of_le (by omega) (by omega)
  slice_slice_defined a b u h c d := by rw [exists_slice, length_slice h]
  slice_slice _ _ _ h _ _ _ hv := slice_slice h hv
  cut _ _ hn hk hkn := slice_append_slice hn hk hkn

end ByteString

namespace Machine

variable {m : Machine} {d : Decoded} {below operands : List Value} {s t : ByteString}

/-! ## The instructions -/

/-- What a step does that computes a value from operands which lie above `below`: it puts the value in their
place, or it raises the fault and leaves the stack. -/
structure Gives (m : Machine) (below : List Value) (result : Except Cause Value) : Prop where
  value : ∀ v, result = .ok v → m.step.reports = [] ∧ m.step.machine.stack.toList = below ++ [v]
  fault : ∀ cause, result = .error cause → m.step.machine.stack = m.stack ∧
    ∃ report, m.step.reports = [report] ∧ report.kind = cause.kind ∧ report.message = cause.message

theorem gives_of_operate (op : Operator) (hn : m.next? = some d) (hi : d.instruction = .operate op)
    (hs : m.stack.toList = below ++ operands) (hlength : operands.length = op.arity) :
    m.Gives below (op.result m.stack) := by
  have hcomputed : (m.fetch d).computed? d.instruction =
      some do return (m.stack.drop op.arity).put (← op.result m.stack) := by
    rw [hi]
    rfl
  constructor
  case value =>
    intro v hv
    rw [hv] at hcomputed
    obtain ⟨hreports, hm⟩ := (step_of_computed hn hcomputed).2 _ rfl
    refine ⟨hreports, ?_⟩
    rw [hm, OperandStack.toList_put, ← hlength, OperandStack.toList_drop_of_toList hs]
  case fault =>
    intro cause hcause
    rw [hcause] at hcomputed
    obtain ⟨hm, hreports⟩ := step_of_fault hn (execute_computed hcomputed)
    refine ⟨?_, _, hreports, rfl, rfl⟩
    rw [hm, raise_machine]
    rfl

/-- What the string instructions compute from strings on top of the stack. -/
structure ComputesStrings (m : Machine) (d : Decoded) (below : List Value) (s t : ByteString) : Prop where
  concatenate : d.op = .scat → m.stack.toList = below ++ [.string s, .string t] →
    m.Gives below (.ok (.string (s ++ t)))
  measure : d.op = .slen → m.stack.toList = below ++ [.string s] →
    m.Gives below (.ok (.int (Int64.ofNat s.length)))
  octet : ∀ i, d.op = .sbyte → m.stack.toList = below ++ [.string s, .int i] →
    m.Gives below do return .byte (← orCause (s.octetAt i))
  slice : ∀ a b, d.op = .sslice → m.stack.toList = below ++ [.string s, .int a, .int b] →
    m.Gives below do return .string (← orCause (s.slice a b))

theorem computesStrings (hn : m.next? = some d) : m.ComputesStrings d below s t := by
  constructor
  case concatenate =>
    intro hop hs
    have h := gives_of_operate (.binary .concatenate) hn (by rw [Decoded.instruction, hop]; rfl) hs rfl
    rw [Operator.result_binary hs] at h
    exact h
  case measure =>
    intro hop hs
    have h := gives_of_operate (.unary .length) hn (by rw [Decoded.instruction, hop]; rfl) hs rfl
    rw [Operator.result_unary hs] at h
    exact h
  case octet =>
    intro i hop hs
    have h := gives_of_operate (.binary .octet) hn (by rw [Decoded.instruction, hop]; rfl) hs rfl
    rw [Operator.result_binary hs] at h
    exact h
  case slice =>
    intro a b hop hs
    have h := gives_of_operate .slice hn (by rw [Decoded.instruction, hop]; rfl) hs rfl
    rw [Operator.result_slice hs] at h
    exact h

/-- Strings obey the laws of sequences, and the string instructions compute with them as such. -/
theorem strings_are_sequences (s t : ByteString) :
    s.SequenceLaws t ∧ ∀ m d below, next? m = some d → m.ComputesStrings d below s t :=
  ⟨s.sequenceLaws t, fun _ _ _ hn => computesStrings hn⟩

/-- A character of two octets is cut in two. -/
theorem strings_are_sequences_cut :
    ∃ (m : Machine) (d : Decoded) (s : ByteString), s.toText = "é" ∧ m.next? = some d ∧ d.op = .sslice
      ∧ m.stack.toList = [] ++ [.string s, .int 0, .int 1] ∧ m.Gives [] (.ok (.string ⟨#[0xC3]⟩))
      ∧ ∃ u v, s.slice 0 1 = .ok u ∧ s.slice 1 2 = .ok v ∧ u ++ v = s := by
  let s : ByteString := ⟨#[0xC3, 0xA9]⟩
  let m := { Machine.start ⟨#[Opcode.sslice.word], .empty, .empty, .empty⟩ .unlimited with
    stack := ⟨.ofList [.string s, .int 0, .int 1], 0⟩ }
  have hn : m.next? = some ⟨.sslice, _, _, _⟩ :=
    next?_eq_some rfl rfl rfl (decode_of_le (Opcode.ofWord?_word .sslice) (by decide))
  obtain ⟨hlaws, hsteps⟩ := strings_are_sequences s .empty
  have hpart : s.slice 0 1 = .ok ⟨#[0xC3]⟩ := rfl
  have hgives := (hsteps m _ [] hn).slice 0 1 rfl rfl
  rw [hpart] at hgives
  exact ⟨m, _, s, by decide, hn, rfl, rfl, hgives, hlaws.cut 1 2 (by decide) (by decide) (by decide)⟩

end Machine

end StackMachine
