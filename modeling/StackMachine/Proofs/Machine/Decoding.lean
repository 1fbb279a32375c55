import StackMachine.Proofs.Machine.Faults
import StackMachine.Proofs.Program.Partition

/-!
What a machine takes from the code.  It is what the listing shows at the address of the machine: a line without an
operation or without all its operands is a fault, and any other line is executed.
-/

set_option autoImplicit false

namespace StackMachine

/-! ## Taking an instruction from a line -/

/-- The operand words of an instruction. -/
def Decoded.operands (d : Decoded) : List Word := [d.first, d.second].take d.op.arity

variable {code : Array Word} {address : Nat} {line : Line} {op : Opcode}

theorem Decoded.map_some_operands
    (h : ∀ i < op.arity, code[address + 1 + i]? = some (code.getD (address + 1 + i) 0)) (next : Nat) :
    (List.range op.arity).map (fun i => code[address + 1 + i]?) =
      (Decoded.operands
        { op
          first := if 0 < op.arity then code.getD (address + 1) 0 else 0
          second := if 1 < op.arity then code.getD (address + 2) 0 else 0
          next }).map some := by
  rw [Decoded.operands]
  have harity := op.arity_le
  generalize op.arity = n at h harity ⊢
  obtain rfl | rfl | rfl : n = 0 ∨ n = 1 ∨ n = 2 := by omega
  · rfl
  · exact congrArg (fun first => [first]) (h 0 Nat.zero_lt_one)
  · exact congr (congrArg (fun first second => [first, second]) (h 0 Nat.zero_lt_two))
      (h 1 Nat.one_lt_two)

theorem decode_of_unknown (h : Listing.lineAt? code address = some line) (hop : line.op = none) :
    decode code address line.word = .error (.unknownOpcode line.word) := by
  rw [decode, Listing.ofWord?_of_lineAt? h, hop]

theorem decode_of_not_fits (h : Listing.lineAt? code address = some line) (hop : line.op = some op)
    (hfits : ¬ line.FitsIn code) : decode code address line.word = .error (.truncated op code.size) := by
  rw [Line.FitsIn, Listing.next_of_lineAt? h hop] at hfits
  rw [decode, Listing.ofWord?_of_lineAt? h, hop]
  exact if_neg hfits

/-- A line that lacks no operand is taken from the code as it is shown. -/
theorem decode_of_fits (h : Listing.lineAt? code address = some line) (hop : line.op = some op)
    (hfits : line.FitsIn code) :
    ∃ d, decode code address line.word = .ok d ∧ d.op = op ∧ line.operands = d.operands.map some
      ∧ d.next = line.next := by
  have hnext := Listing.next_of_lineAt? h hop
  rw [Line.FitsIn, hnext] at hfits
  obtain ⟨word, -, -, hoperands⟩ := Listing.operands_of_lineAt? h hop
  have hofWord : Opcode.ofWord? line.word = some op := (Listing.ofWord?_of_lineAt? h).trans hop
  refine ⟨_, Machine.decode_of_le hofWord hfits, rfl, ?_, hnext.symm⟩
  rw [hoperands]
  refine Decoded.map_some_operands (fun i hi => ?_) _
  have hlt : address + 1 + i < code.size := by omega
  rw [Array.getD_eq_getD_getElem?, Array.getElem?_eq_getElem hlt]
  rfl

namespace Machine

variable {m : Machine} {start : Nat} {i : Instruction} {d : Decoded}

/-! ## What an instruction may do -/

/-- The addresses that an instruction can jump to: its targets, and the last return address. -/
def JumpsTo (m : Machine) (i : Instruction) (ip : Nat) : Prop :=
  (∃ target ∈ i.targets, m.jumpTarget target = .ok ip)
    ∨ (∃ withResult, i = .leave withResult) ∧ m.returns.topDown.head? = some ip

theorem destination?_eq_ok {i : Instruction} {ip : Nat} (h : m.destination? i = some (.ok ip)) :
    ip = m.ip ∨ ∃ target ∈ i.targets, m.jumpTarget target = .ok ip := by
  cases i with
  | jump target => exact .inr ⟨target, List.mem_singleton_self _, Option.some.inj h⟩
  | branch c target =>
    obtain ⟨ip', hip', h⟩ := bind_eq_ok.1 (Option.some.inj h)
    obtain ⟨holds, -, h⟩ := bind_eq_ok.1 h
    cases holds with
    | true => cases h; exact .inr ⟨target, List.mem_singleton_self _, hip'⟩
    | false => cases h; exact .inl rfl
  | choose c target otherwise =>
    obtain ⟨ip', hip', h⟩ := bind_eq_ok.1 (Option.some.inj h)
    obtain ⟨other, hother, h⟩ := bind_eq_ok.1 h
    obtain ⟨holds, -, h⟩ := bind_eq_ok.1 h
    cases holds with
    | true => cases h; exact .inr ⟨target, List.mem_cons_self, hip'⟩
    | false => cases h; exact .inr ⟨otherwise, List.mem_cons_of_mem _ (List.mem_singleton_self _), hother⟩
  | _ => cases h

/-- What holds after any instruction, even if the stack was not within its limit before. -/
structure IsOrderly (m : Machine) (i : Instruction) (e : Execution) : Prop where
  quiet : e.notices.filterMap Notice.report? = []
  fault : ∀ cause, e.trap = some (.fault cause) → cause.kind ∉ beforeDecoding
  ip : e.machine.ip = m.ip ∨ m.JumpsTo i e.machine.ip

theorem Executes.isOrderly {e : Execution} (h : m.Executes start i e) : m.IsOrderly i e := by
  refine ⟨h.reports_notices, fun cause hc => ?_, ?_⟩
  · cases h with
    | refused h =>
      cases hc
      exact h.refusal.kind_notMem
    | _ => cases hc
  · cases h with
    | went h => exact (destination?_eq_ok h).imp id .inl
    | called hi h =>
      obtain ⟨hip, -⟩ := checkCall_eq_ok h
      exact .inr (.inl ⟨_, hi ▸ List.mem_singleton_self _, hip⟩)
    | resumed hi _ he =>
      obtain ⟨-, rest, hrest⟩ := frameExit_resume he
      exact .inr (.inr ⟨⟨_, hi⟩, by rw [hrest]; rfl⟩)
    | _ => exact .inl rfl

theorem ip_unwind {exit : FrameExit} (he : m.frameExit = .ok exit) (start : Nat) (withResult : Bool) :
    (m.unwind start exit).1.ip = m.ip ∨ m.JumpsTo (.leave withResult) (m.unwind start exit).1.ip := by
  obtain ⟨base, _ | ⟨fp, ip⟩⟩ := exit
  · exact .inl rfl
  · obtain ⟨-, rest, hrest⟩ := frameExit_resume he
    exact .inr (.inr ⟨⟨_, rfl⟩, by rw [hrest]; rfl⟩)

theorem reports_unwind (m : Machine) (start : Nat) (exit : FrameExit) :
    (m.unwind start exit).2.report? = none := by
  obtain ⟨base, _ | ⟨fp, ip⟩⟩ := exit <;> rfl

/-- Without a limit that holds, the result of a frame may find no room when the frame is left already. -/
theorem isOrderly_leave (m : Machine) (start : Nat) (withResult : Bool) :
    m.IsOrderly (.leave withResult) (m.execute start (.leave withResult)) := by
  have hrefused : ∀ cause, m.Refuses (.leave withResult) cause →
      m.IsOrderly (.leave withResult) (.fault m cause) := fun cause h =>
    have he : m.Executes start (.leave withResult) (.fault m cause) := .refused h
    he.isOrderly
  rw [execute, leave]
  cases hr : m.frameResult withResult with
  | error cause => exact hrefused cause (.returning rfl hr)
  | ok result =>
    cases he : m.frameExit with
    | error cause => exact hrefused cause (.leaving rfl he)
    | ok exit =>
      have hip := ip_unwind he start withResult
      have hquiet : [(m.unwind start exit).2, .left result].filterMap Notice.report? = [] := by
        rw [List.filterMap_cons_none (reports_unwind m start exit)]
        rfl
      have hdone : ∀ cause, (none : Option Trap) = some (.fault cause) → cause.kind ∉ beforeDecoding :=
        fun _ hc => by cases hc
      cases result with
      | none => exact ⟨hquiet, hdone, hip⟩
      | some v =>
        dsimp only
        cases hpush : (m.unwind start exit).1.stack.push v with
        | ok stack => exact ⟨hquiet, hdone, hip⟩
        | error cause =>
          refine ⟨hquiet, fun cause' hc => ?_, hip⟩
          cases hc
          rw [OperandStack.reserve_eq_error (OperandStack.push_eq_error.1 hpush)]
          exact of_decide_eq_true rfl

theorem execute_isOrderly (m : Machine) (start : Nat) (i : Instruction) :
    m.IsOrderly i (m.execute start i) := by
  by_cases h : ∃ withResult, i = .leave withResult
  · obtain ⟨withResult, rfl⟩ := h
    exact isOrderly_leave m start withResult
  · exact (executes_unless_leave start fun withResult hi => h ⟨withResult, hi⟩).isOrderly

/-! ## The step at a line -/

/-- A step that executes an instruction raises no fault of those that come before. -/
theorem kind_of_next? (hn : m.next? = some d) {report : Report} (h : report ∈ m.step.reports) :
    report.kind ∉ beforeDecoding := by
  obtain ⟨hquiet, hfault, -⟩ := execute_isOrderly (m.fetch d) m.ip d.instruction
  rw [step_of_next? hn] at h
  generalize (m.fetch d).execute m.ip d.instruction = e at hquiet hfault h
  have hnotices : (m.announce d.op ++ e.notices).filterMap Notice.report? = [] := by
    rw [List.filterMap_append, reports_announce, hquiet]
    rfl
  rw [settle] at h
  split at h
  · rw [Reply.reports, hnotices] at h
    cases h
  · next cause hc =>
    rw [reports_raise hnotices] at h
    obtain rfl := List.mem_singleton.1 h
    exact hfault cause hc
  · rw [Reply.reports, hnotices] at h
    cases h

theorem ip_of_next? (hn : m.next? = some d) :
    m.step.machine.ip = d.next ∨ (m.fetch d).JumpsTo d.instruction m.step.machine.ip := by
  obtain ⟨count, sink, state, hm⟩ :=
    settle_machine m.ip (m.announce d.op) ((m.fetch d).execute m.ip d.instruction)
  rw [step_of_next? hn, hm]
  exact (execute_isOrderly (m.fetch d) m.ip d.instruction).ip

/-- The step executes `d`, which is what the line shows, and goes on behind the line unless it jumps. -/
structure Follows (m : Machine) (line : Line) (d : Decoded) : Prop where
  op : Opcode.ofName? line.name = some d.op
  operands : line.operands = d.operands.map some
  next : d.next = line.next
  step : m.step = settle m.ip (m.announce d.op) ((m.fetch d).execute m.ip d.instruction)
  ip : m.step.machine.ip = line.next ∨ (m.fetch d).JumpsTo d.instruction m.step.machine.ip

theorem next?_of_line {op : Opcode} (hr : m.state = .running) (hb : m.isBudgetExhausted = false)
    {line : Line} (h : Listing.lineAt? m.program.code m.ip = some line) (hop : line.op = some op)
    (hfits : line.FitsIn m.program.code) :
    ∃ d, m.next? = some d ∧ d.op = op ∧ line.operands = d.operands.map some ∧ d.next = line.next := by
  obtain ⟨d, hd, hline⟩ := decode_of_fits h hop hfits
  exact ⟨d, next?_eq_some hr (Listing.word_of_lineAt? h) hb hd, hline⟩

/-- A word that cannot be taken from the code is the fault of the step. -/
theorem reports_of_decode_error {word : Word} {cause : Cause} (hr : m.state = .running)
    (hip : m.program.code[m.ip]? = some word) (hb : m.isBudgetExhausted = false)
    (hd : decode m.program.code m.ip word = .error cause) :
    ∃ report, m.step.reports = [report] ∧ report.kind = cause.kind := by
  rw [step_of_decode_error hr hip hb hd, reports_raise rfl]
  exact ⟨_, rfl, rfl⟩

/-- A step raises the faults of decoding exactly where the listing shows none of the operations or misses an operand
of one, and otherwise executes the line. -/
theorem step_follows_listing (hr : m.state = .running) (hip : m.ip < m.program.code.size)
    (hb : m.isBudgetExhausted = false) :
    ∃ line, Listing.lineAt? m.program.code m.ip = some line
      ∧ ((∃ report ∈ m.step.reports, report.kind = .unknownOpcode) ↔ line.isKnown = false)
      ∧ ((∃ report ∈ m.step.reports, report.kind = .truncatedInstruction) ↔
        line.isKnown = true ∧ none ∈ line.operands)
      ∧ (line.isKnown = true → none ∉ line.operands → ∃ d, m.Follows line d) := by
  cases hline : Listing.lineAt? m.program.code m.ip with
  | none => exact absurd (Listing.lineAt?_eq_none.1 hline) (Nat.not_le.2 hip)
  | some line =>
    have hword := Listing.word_of_lineAt? hline
    have hpresent := Listing.none_notMem_operands hline
    refine ⟨line, rfl, ?_⟩
    cases hop : line.op with
    | none =>
      obtain ⟨report, hreports, hkind⟩ := reports_of_decode_error hr hword hb (decode_of_unknown hline hop)
      have hknown : line.isKnown = false := by rw [Line.isKnown, hop]; rfl
      simp [hreports, hkind, hknown, Cause.kind]
    | some op =>
      have hknown : line.isKnown = true := by rw [Line.isKnown, hop]; rfl
      by_cases hfits : line.FitsIn m.program.code
      · obtain ⟨d, hn, rfl, hoperands, hnext⟩ := next?_of_line hr hb hline hop hfits
        have hquiet : ∀ kind ∈ beforeDecoding, ¬ ∃ report ∈ m.step.reports, report.kind = kind :=
          fun kind hkind ⟨report, hreport, heq⟩ => kind_of_next? hn hreport (heq ▸ hkind)
        have hname : Opcode.ofName? line.name = some d.op := by
          rw [Line.name, hop]
          exact d.op.ofName?_name
        refine ⟨?_, ?_, fun _ _ => ⟨d, hname, hoperands, hnext, step_of_next? hn, hnext ▸ ip_of_next? hn⟩⟩
        · simp [hquiet .unknownOpcode (by decide), hknown]
        · simp [hquiet .truncatedInstruction (by decide), hpresent.2 hfits]
      · obtain ⟨report, hreports, hkind⟩ :=
          reports_of_decode_error hr hword hb (decode_of_not_fits hline hop hfits)
        have hmissing : none ∈ line.operands := by
          by_contra h
          exact hfits (hpresent.1 h)
        simp [hreports, hkind, hknown, hmissing, Cause.kind]

/-- A call whose second operand lies behind the end of the code. -/
theorem step_follows_listing_truncated :
    ∃ m : Machine, m.state = .running ∧ m.ip < m.program.code.size ∧ m.isBudgetExhausted = false
      ∧ ∃ line, Listing.lineAt? m.program.code m.ip = some line ∧ line.operands = [some 4, none]
        ∧ ∃ report ∈ m.step.reports, report.kind = .truncatedInstruction := by
  let m := Machine.start ⟨#[Opcode.call.word, 4], .empty, .empty, .empty⟩ .unlimited
  have hip : m.ip < m.program.code.size := Nat.zero_lt_two
  obtain ⟨line, hline, -, htruncated, -⟩ := step_follows_listing (m := m) rfl hip rfl
  have hshown : Listing.lineAt? m.program.code m.ip
      = some ⟨0, Opcode.call.word, some .call, [some 4, none]⟩ := by
    simp [m, Machine.start, Listing.lineAt?, Opcode.arity, List.range_succ]
  cases hshown.symm.trans hline
  exact ⟨m, rfl, hip, rfl, _, hline, rfl, htruncated.2 ⟨rfl, by decide⟩⟩

end Machine

end StackMachine
