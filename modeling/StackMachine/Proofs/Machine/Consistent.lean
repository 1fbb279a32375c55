import StackMachine.Proofs.Machine.Decoding
import StackMachine.Proofs.Machine.Reachable

/-!
Machines that execute a consistent program.  Whatever the program does to its stack and its frames, the
machine stays at boundaries of the listing, and nothing it finds in the code makes it fault.
-/

set_option autoImplicit false

namespace StackMachine

/-! ## Taking an instruction from a line -/

theorem Opcode.targets_instruction (op : Opcode) (a b : Word) :
    (op.instruction a b).targets = [a, b].take op.targetCount := by
  cases op <;> rfl

theorem Opcode.targetCount_le (op : Opcode) : op.targetCount ≤ op.arity := by
  cases op <;> exact of_decide_eq_true rfl

theorem Opcode.pool?_of_instruction {op : Opcode} {a b index : Word} {pool : Program.PoolName}
    (h : op.instruction a b = .constant pool index) :
    op.pool? = some pool ∧ index = a ∧ op.arity = 1 := by
  cases op with
  | iconst | rconst | sconst => cases h; exact ⟨rfl, rfl, rfl⟩
  | _ => cases h

variable {p : Program} {address : Nat} {word : Word}

/-- At a boundary of a consistent program an instruction can be taken from the code; it is that of a line of
the listing and ends at a boundary. -/
theorem Program.IsConsistent.exists_decode (hc : p.IsConsistent) (hb : p.IsBoundary address)
    (hword : p.code[address]? = some word) :
    ∃ d, decode p.code address word = .ok d ∧ p.IsBoundary d.next ∧ ∃ line ∈ Listing.ofCode p.code,
      line.address = address ∧ line.op = some d.op ∧ line.operands = d.operands.map some := by
  obtain ⟨hlt, -⟩ := Array.getElem?_eq_some_iff.1 hword
  rcases hb with hend | ⟨line, hmem, rfl⟩
  · omega
  · obtain ⟨op, hop⟩ := Option.isSome_iff_exists.1 (hc.known line hmem)
    have hline := Listing.lineAt?_of_mem hmem
    have hfits : line.FitsIn p.code := (Listing.none_notMem_operands hline).1 fun hnone => by
      cases hc.complete line hmem none hnone
    obtain ⟨d, hd, hdop, hoperands, hnext⟩ := decode_of_fits hline hop hfits
    cases hword.symm.trans (Listing.word_of_lineAt? hline)
    refine ⟨d, hd, ?_, line, hmem, rfl, hop.trans (congrArg some hdop.symm), hoperands⟩
    rcases Listing.next_of_mem hmem with hend | hline
    · exact .inl (by rw [Line.FitsIn] at hfits; omega)
    · rw [hnext]
      exact .inr hline

namespace Machine

variable {m : Machine} {d : Decoded}

theorem jumpTarget_eq_ok {target : Word} {ip : Nat} :
    m.jumpTarget target = .ok ip ↔ Word.index? target = some ip ∧ ip < m.program.code.size := by
  rw [jumpTarget]
  cases Word.index? target with
  | none => simp
  | some i =>
    by_cases hi : i < m.program.code.size
    · simp only [if_pos hi, Except.ok.injEq, Option.some.injEq]
      exact ⟨fun h => ⟨h, h ▸ hi⟩, And.left⟩
    · simp only [if_neg hi, reduceCtorEq, Option.some.injEq, false_iff]
      rintro ⟨rfl, h⟩
      exact hi h

theorem constant_ne_error {pool : Program.PoolName} {index : Word} {i : Nat} {cause : Cause}
    (hindex : Word.index? index = some i) (hi : i < m.program.poolSize pool) :
    m.constant pool index ≠ .error cause := by
  unfold constant Pool.get?
  rw [hindex]
  cases pool with
  | integer | real | string =>
    have hget := Array.getElem?_eq_getElem (show i < Array.size _ from hi)
    dsimp only
    rw [hget]
    nofun

/-- What an instruction of a consistent program finds in the code is in order. -/
structure InOrder (m : Machine) (d : Decoded) : Prop where
  next : m.program.IsBoundary d.next
  target : ∀ target ∈ d.instruction.targets, ∃ ip, m.jumpTarget target = .ok ip ∧ m.program.IsBoundary ip
  constant : ∀ pool index, d.instruction = .constant pool index →
    ∀ cause, m.constant pool index ≠ .error cause

theorem inOrder_of_next? (hc : m.program.IsConsistent) (hb : m.program.IsBoundary m.ip)
    (hn : m.next? = some d) :
    m.InOrder d ∧ ∃ line ∈ Listing.ofCode m.program.code, line.address = m.ip ∧ line.op = some d.op := by
  obtain ⟨-, -, word, hword, hd⟩ := decode_of_next? hn
  obtain ⟨d', hd', hnext, line, hmem, haddress, hop, hoperands⟩ := hc.exists_decode hb hword
  rw [hd] at hd'
  cases hd'
  refine ⟨⟨hnext, ?_, ?_⟩, line, hmem, haddress, hop⟩
  · intro target htarget
    have htake : line.targets = (d.instruction.targets).map some := by
      rw [Line.targets, hop, Decoded.instruction, Opcode.targets_instruction, List.map_take]
      dsimp only
      rw [hoperands, Decoded.operands, List.map_take, List.take_take, Nat.min_eq_left d.op.targetCount_le]
    obtain ⟨line', hmem', hindex⟩ := hc.targets line hmem (some target)
      (htake ▸ List.mem_map_of_mem htarget)
    obtain ⟨hlt, -⟩ := Listing.lineAt?_lt (Listing.lineAt?_of_mem hmem')
    exact ⟨line'.address, jumpTarget_eq_ok.2 ⟨hindex, hlt⟩, .inr ⟨line', hmem', rfl⟩⟩
  · intro pool index hi cause
    obtain ⟨hpool, rfl, harity⟩ := Opcode.pool?_of_instruction hi
    have hconstant : line.constant? = some (pool, some d.first) := by
      rw [Line.constant?, hop, hoperands, Decoded.operands, harity]
      simp [hpool]
    obtain ⟨i, hlt, hindex⟩ := hc.constants line hmem pool _ hconstant
    exact constant_ne_error hindex hlt

/-! ## Steps and runs -/

/-- The addresses that a machine goes on at are boundaries. -/
structure AtBoundaries (m : Machine) : Prop where
  ip : m.program.IsBoundary m.ip
  returns : ∀ address ∈ m.returns.topDown, m.program.IsBoundary address

theorem Executes.atBoundaries {start : Nat} {i : Instruction} {e : Execution} (h : m.Executes start i e)
    (hb : m.AtBoundaries)
    (ht : ∀ target ∈ i.targets, ∀ ip, m.jumpTarget target = .ok ip → m.program.IsBoundary ip) :
    e.machine.AtBoundaries := by
  cases h with
  | went h =>
    rcases destination?_eq_ok h with rfl | ⟨target, hmem, hip⟩
    · exact ⟨hb.ip, hb.returns⟩
    · exact ⟨ht target hmem _ hip, hb.returns⟩
  | called hi h =>
    subst hi
    obtain ⟨hip, -⟩ := checkCall_eq_ok h
    refine ⟨ht _ (List.mem_singleton_self _) _ hip, fun address hmem => ?_⟩
    rcases List.mem_cons.1 hmem with rfl | hmem
    · exact hb.ip
    · exact hb.returns address hmem
  | resumed _ _ he =>
    obtain ⟨-, rest, hrest⟩ := frameExit_resume he
    refine ⟨hb.returns _ (hrest ▸ List.mem_cons_self), fun address hmem => ?_⟩
    exact hb.returns address (List.mem_of_mem_tail hmem)
  | _ => exact ⟨hb.ip, hb.returns⟩

theorem AtBoundaries.step (hb : m.AtBoundaries) (fits : m.stack.Fits) (hc : m.program.IsConsistent) :
    m.step.machine.AtBoundaries := by
  cases lands fits with
  | stays executed count sink state h => rw [h]; exact ⟨hb.ip, hb.returns⟩
  | @executes d e hn he _ count sink state h =>
    obtain ⟨hin, -⟩ := inOrder_of_next? hc hb.ip hn
    have hb' : (m.fetch d).AtBoundaries := ⟨hin.next, hb.returns⟩
    have hafter := he.atBoundaries hb' fun target hmem ip hip => by
      obtain ⟨ip', hip', hboundary⟩ := hin.target target hmem
      cases hip'.symm.trans hip
      exact hboundary
    rw [h]
    exact ⟨hafter.ip, hafter.returns⟩

/-- A machine at a boundary of a consistent program raises no fault that lies in the code. -/
theorem Raises.notMem_structuralKinds {m₁ : Machine} {cause : Cause} (h : m.Raises m₁ cause)
    (hc : m.program.IsConsistent) (hb : m.AtBoundaries) : cause.kind ∉ structuralKinds := by
  cases h with
  | exhausted => exact of_decide_eq_true rfl
  | undecoded hip hd =>
    obtain ⟨d, hd', -⟩ := hc.exists_decode hb.ip hip
    rw [hd] at hd'
    cases hd'
  | refused hn h =>
    obtain ⟨hin, -⟩ := inOrder_of_next? hc hb.ip hn
    cases h.refusal with
    | operands h => exact fun hmem => kind_of_operands h (List.mem_append_left _ hmem)
    | room h => rw [OperandStack.reserve_eq_error h]; exact of_decide_eq_true rfl
    | calls _ _ h => rw [h]; exact of_decide_eq_true rfl
    | constant hi h => exact absurd h (hin.constant _ _ hi _)
    | target hi h =>
      obtain ⟨ip, hip, -⟩ := hin.target _ hi
      cases hip.symm.trans h

section Reachable

variable {program : Program} {config : Config} {sink : Sink}

theorem Reachable.atBoundaries (hc : program.IsConsistent) (h : Reachable program config sink m) :
    m.AtBoundaries := by
  induction h with
  | configured => exact ⟨program.isBoundary_zero, nofun⟩
  | @load m args h ih =>
    rcases load_cases m args with ⟨e, he⟩ | ⟨-, -, -, stack, -, he⟩ <;> rw [he]
    · exact ih
    · exact ⟨ih.ip, ih.returns⟩
  | step h ih => exact ih.step h.fits (h.program_eq ▸ hc)
  | @finish m h ih =>
    obtain ⟨sink, he⟩ := finish_machine m
    rw [he]
    exact ⟨ih.ip, ih.returns⟩

/-- A consistent program never goes wrong in its code: the machine only goes on at the lines of the listing
and at the end, and executes what they show, whatever becomes of its stack. -/
theorem consistent_program_stays_on_lines (hc : program.IsConsistent)
    (h : Reachable program config sink m) :
    program.IsBoundary m.ip ∧ (∀ address ∈ m.returns.toList, program.IsBoundary address)
      ∧ (∀ d, m.next? = some d →
        ∃ line ∈ Listing.ofCode program.code, line.address = m.ip ∧ line.op = some d.op)
      ∧ ∀ report ∈ m.step.reports, report.kind ∉ structuralKinds := by
  have hp := h.program_eq
  have hb := h.atBoundaries hc
  subst hp
  refine ⟨hb.ip, fun address hmem => hb.returns address (List.mem_reverse.1 hmem), ?_, ?_⟩
  · intro d hn
    exact (inOrder_of_next? hc hb.ip hn).2
  · intro report hreport
    obtain ⟨m₁, cause, before, hraise, -, rfl⟩ := exists_raises h.fits hreport
    exact hraise.notMem_structuralKinds hc hb

/-- Two steps into a program that calls its last instruction. -/
theorem consistent_program_stays_on_lines_call :
    ∃ program m, program.IsConsistent ∧ Reachable program .default .unlimited m
      ∧ program.IsBoundary m.ip ∧ (∀ address ∈ m.returns.toList, program.IsBoundary address)
      ∧ (∀ d, m.next? = some d →
        ∃ line ∈ Listing.ofCode program.code, line.address = m.ip ∧ line.op = some d.op)
      ∧ ∀ report ∈ m.step.reports, report.kind ∉ structuralKinds := by
  let code : Array Word := #[Opcode.iconst.word, 0, Opcode.call.word, 5, 1, Opcode.clear.word]
  have hlines : Listing.ofCode code =
      [⟨0, Opcode.iconst.word, some .iconst, [some 0]⟩,
        ⟨2, Opcode.call.word, some .call, [some 5, some 1]⟩,
        ⟨5, Opcode.clear.word, some .clear, []⟩] := by
    have h₀ : Listing.lineAt? code 0 = some ⟨0, Opcode.iconst.word, some .iconst, [some 0]⟩ := by
      simp [Listing.lineAt?, code, Opcode.arity]
    have h₂ : Listing.lineAt? code 2 = some ⟨2, Opcode.call.word, some .call, [some 5, some 1]⟩ := by
      simp [Listing.lineAt?, code, Opcode.arity, List.range_succ]
    have h₅ : Listing.lineAt? code 5 = some ⟨5, Opcode.clear.word, some .clear, []⟩ := by
      simp [Listing.lineAt?, code, Opcode.arity]
    rw [Listing.ofCode, Listing.linesFrom_of_some h₀]
    refine congrArg (List.cons _) ?_
    refine (Listing.linesFrom_of_some h₂).trans (congrArg (List.cons _) ?_)
    refine (Listing.linesFrom_of_some h₅).trans (congrArg (List.cons _) ?_)
    exact Listing.linesFrom_of_none (Listing.lineAt?_eq_none.2 (Nat.le_refl _))
  let program : Program := ⟨code, ⟨#[7]⟩, .empty, .empty⟩
  have hc : program.IsConsistent := by
    constructor
    case known =>
      rw [hlines]
      simp [Line.isKnown]
    case complete =>
      rw [hlines]
      simp
    case targets =>
      rw [hlines]
      intro line hmem target htarget
      simp only [List.mem_cons, List.not_mem_nil, or_false] at hmem
      rcases hmem with rfl | rfl | rfl
      · cases htarget
      · obtain rfl := List.mem_singleton.1 htarget
        exact ⟨_, List.mem_cons_of_mem _ (List.mem_cons_of_mem _ (List.mem_singleton_self _)), rfl⟩
      · cases htarget
    case constants =>
      rw [hlines]
      intro line hmem pool index h
      simp only [List.mem_cons, List.not_mem_nil, or_false] at hmem
      rcases hmem with rfl | rfl | rfl
      · cases h
        exact ⟨0, Nat.zero_lt_one, rfl⟩
      · cases h
      · cases h
  exact ⟨program, _, hc, .step (.step .configured),
    consistent_program_stays_on_lines hc (.step (.step .configured))⟩

end Reachable

end Machine

end StackMachine
