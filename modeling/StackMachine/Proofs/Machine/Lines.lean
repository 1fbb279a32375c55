import StackMachine.Proofs.Machine.Messages
import StackMachine.Proofs.Machine.Reports

/-!
The lines of the output.  A shown value is one line, a dump is six lines and so is a report, and what is written of
them has no other line feeds than the text: a printed value has none, and one that is printed with a line feed ends
in its only one.
-/

set_option autoImplicit false

namespace StackMachine

open Text

/-! ## What a report shows -/

theorem Line.oneLine_display (line : Line) : OneLine line.display := by
  have hname : OneLine line.name := by
    rw [name]
    split
    · exact Opcode.oneLine_name _
    · decide
  have hoperand : ∀ operand, OneLine (operandText operand) := fun operand => by
    cases operand with
    | none => exact OneLine.alignLeft (by decide) 8
    | some w => exact OneLine.alignLeft (oneLine_decimal w) 8
  have hoperands : OneLine (" ".intercalate (line.operands.map operandText)) := by
    refine oneLine_intercalate (by decide) fun text htext => ?_
    obtain ⟨operand, -, rfl⟩ := List.mem_map.1 htext
    exact hoperand operand
  rw [display]
  simp only [oneLine_append, oneLine_hex, oneLine_wordHex, hname.alignRight 13, hoperands, and_true]
  decide

theorem Reporter.oneLine_instructionText (code : Array Word) (ip : Nat) : OneLine (instructionText code ip) := by
  rw [instructionText]
  split
  · exact Line.oneLine_display _
  · exact (OneLine.append (by decide) (oneLine_hex 4 ip)).append (oneLine_of_all (by decide))

theorem OperandStack.oneLine_display (s : OperandStack) : OneLine s.display := by
  have hvalues : OneLine (", ".intercalate (s.toList.map Value.display)) := by
    refine oneLine_intercalate (by decide) fun text htext => ?_
    obtain ⟨v, -, rfl⟩ := List.mem_map.1 htext
    exact v.oneLine_display
  exact (OneLine.append (by decide) hvalues).append (by decide)

theorem Report.isLines_display {report : Report} (hmessage : OneLine report.message)
    (hinstruction : OneLine report.instruction) (hstack : OneLine report.stack) : IsLines 6 report.display := by
  have htitle : OneLine (report.kind.name ++ " (" ++ report.count.repr ++ ") report:") := by
    simp only [oneLine_append, FaultKind.oneLine_name, oneLine_repr, true_and, and_true]
    decide
  have hheader : OneLine Listing.header := oneLine_of_all (by decide)
  have hlabel : OneLine "Stack:" := by decide
  have hrow : OneLine ("\t" ++ report.stack) := OneLine.append (by decide) hstack
  refine ⟨[report.kind.name ++ " (" ++ report.count.repr ++ ") report:", report.message, Listing.header,
    report.instruction, "Stack:", "\t" ++ report.stack], rfl, ?_, ?_⟩
  · simp only [List.forall_mem_cons]
    exact ⟨htitle, hmessage, hheader, hinstruction, hlabel, hrow, List.forall_mem_nil _⟩
  · have htitleEnd : ") report:\n" = ") report:" ++ "\n" := rfl
    have hlabelEnd : "Stack:\n" = "Stack:" ++ "\n" := rfl
    rw [display, htitleEnd, hlabelEnd]
    simp only [List.map_cons, List.map_nil, String.join_cons, String.join_nil, String.append_empty, String.append_assoc]

namespace Machine

variable {m : Machine}

theorem isLines_of_reports {report : Report} (fits : m.stack.Fits) (h : report ∈ m.step.reports) :
    IsLines 6 report.display := by
  obtain ⟨m₁, cause, before, hraises, -, rfl⟩ := exists_raises fits h
  exact Report.isLines_display hraises.oneLine_message (Reporter.oneLine_instructionText _ _)
    m₁.stack.oneLine_display

/-! ## Dumps -/

/-- What a dump shows of the top of the stack. -/
def topText (m : Machine) : String :=
  match m.stack.peek 0 with
  | .ok v => v.display
  | .error _ => "-"

theorem oneLine_topText (m : Machine) : OneLine m.topText := by
  rw [topText]
  split
  · exact Value.oneLine_display _
  · decide

theorem dump_eq (m : Machine) : m.dump = "State: " ++ m.state.name ++ "\nIP: 0x" ++ hex 4 m.ip ++ "\nFP: "
    ++ m.fp.repr ++ "\nDepth: " ++ m.stack.depth.repr ++ "\nTOS: " ++ m.topText ++ "\nStack: "
    ++ m.stack.display := rfl

/-- A dump is six lines with line feeds between them. -/
theorem exists_lines_dump (m : Machine) :
    ∃ lines : List String, lines.length = 6 ∧ (∀ line ∈ lines, OneLine line)
      ∧ m.dump = "\n".intercalate lines := by
  refine ⟨["State: " ++ m.state.name, "IP: 0x" ++ hex 4 m.ip, "FP: " ++ m.fp.repr,
    "Depth: " ++ m.stack.depth.repr, "TOS: " ++ m.topText, "Stack: " ++ m.stack.display], rfl, ?_, ?_⟩
  · simp only [List.forall_mem_cons, oneLine_append, RunState.oneLine_name, oneLine_hex, oneLine_repr,
      m.oneLine_topText, m.stack.oneLine_display, and_true]
    exact ⟨by decide, by decide, by decide, by decide, by decide, by decide, List.forall_mem_nil _⟩
  · have hip : "\nIP: 0x" = "\n" ++ "IP: 0x" := rfl
    have hfp : "\nFP: " = "\n" ++ "FP: " := rfl
    have hdepth : "\nDepth: " = "\n" ++ "Depth: " := rfl
    have htos : "\nTOS: " = "\n" ++ "TOS: " := rfl
    have hstack : "\nStack: " = "\n" ++ "Stack: " := rfl
    rw [dump_eq, hip, hfp, hdepth, htos, hstack]
    simp only [String.intercalate_cons_cons, String.intercalate_singleton, String.append_assoc]

end Machine

/-! ## Writing -/

/-- Asked to write the octets, the sink takes all of them, or the beginning of them if it fails. -/
structure Sink.Takes (s : Sink) (octets : ByteString) (answer : Sink × Option Failure) : Prop where
  begun : ∃ n, answer.1.written = s.written ++ octets.take n
  whole : answer.2 = none → answer.1.written = s.written ++ octets

theorem ByteString.take_take (s : ByteString) (n k : Nat) : (s.take n).take k = s.take (min k n) := by
  simp [take]

theorem Sink.takes_write (s : Sink) (text : String) : s.Takes (.ofString text) (s.write text) := by
  obtain ⟨n, hfit⟩ : ∃ n, s.fit (.ofString text) = (ByteString.ofString text).take n := by
    rw [fit]
    split
    · exact ⟨_, (ByteString.take_of_length_le (Nat.le_refl _)).symm⟩
    · exact ⟨_, rfl⟩
  rw [write, hfit]
  split
  · next outage _ => exact ⟨⟨min outage.taken n, by rw [written_accept, ByteString.take_take]⟩, fun h => by cases h⟩
  · refine ⟨⟨n, written_accept _ _⟩, fun h => ?_⟩
    split at h
    · next hlength =>
      rw [ByteString.length_take] at hlength
      rw [written_accept, ByteString.take_of_length_le (by omega)]
    · cases h

namespace Machine

variable {m : Machine} {d : Decoded} {text : String} {report : Report}

theorem takes_deliver (sink : Sink) (report : Report) :
    sink.Takes (.ofString report.display) (deliver sink report) := by
  have htakes := sink.takes_write report.display
  rw [deliver]
  split
  · next s hwrite =>
    rw [hwrite] at htakes
    exact ⟨htakes.begun, fun _ => htakes.whole rfl⟩
  · next s failure hwrite =>
    rw [hwrite] at htakes
    exact htakes

/-- The next step writes the octets, or the beginning of them if the output fails. -/
structure Outputs (m : Machine) (octets : ByteString) : Prop where
  begun : ∃ n, m.step.machine.sink.written = m.sink.written ++ octets.take n
  whole : (∀ failure, m.step.result ≠ .error (.output failure)) →
    m.step.machine.sink.written = m.sink.written ++ octets

theorem outputs_of_takes {octets : ByteString} {answer : Sink × Option Sink.Failure}
    (h : m.sink.Takes octets answer) (hwritten : m.step.machine.sink.written = answer.1.written)
    (hfailed : ∀ failure, answer.2 = some failure → m.step.result = .error (.output failure)) :
    m.Outputs octets := by
  refine ⟨?_, fun hthrough => ?_⟩
  · rw [hwritten]
    exact h.begun
  · rw [hwritten]
    refine h.whole (Option.eq_none_iff_forall_ne_some.2 fun failure hfailure => ?_)
    exact hthrough failure (hfailed failure hfailure)

theorem outputs_of_reports (fits : m.stack.Fits) (h : report ∈ m.step.reports) :
    m.Outputs (.ofString report.display) := by
  obtain ⟨m₁, cause, before, hraises, hstep, rfl⟩ := exists_raises fits h
  obtain ⟨executed, ip, rfl⟩ := hraises.machine_eq
  refine outputs_of_takes (takes_deliver m.sink _) ?_ fun failure hfailure => ?_
  · rw [hstep, raise_machine]
    rfl
  · change ({ m with executed, ip }.delivery m.ip cause).2 = some failure at hfailure
    rw [hstep, raise_result, hfailure]

theorem outputs_of_written? (hn : m.next? = some d)
    (h : (m.fetch d).written? d.instruction = some (.ok text)) : m.Outputs (.ofString text) := by
  have hstep := step_of_next? hn
  rw [execute_written h, orFault, output] at hstep
  refine outputs_of_takes (m.sink.takes_write text) ?_ fun failure hfailure => ?_
  · rw [hstep]
    change _ = ((m.fetch d).sink.write text).1.written
    rcases (m.fetch d).sink.write text with ⟨sink, _ | failure⟩ <;> rfl
  · rw [hstep]
    change ((m.fetch d).sink.write text).2 = some failure at hfailure
    rcases hwrite : (m.fetch d).sink.write text with ⟨sink, _ | failure'⟩ <;> rw [hwrite] at hfailure <;>
      cases hfailure
    rfl

theorem reports_of_written? (hn : m.next? = some d) {cause : Cause}
    (h : (m.fetch d).written? d.instruction = some (.error cause)) : ∃ report, report ∈ m.step.reports := by
  have hfault : (m.fetch d).execute m.ip d.instruction = .fault (m.fetch d) cause := execute_written h
  rw [(step_of_fault hn hfault).2]
  exact ⟨_, List.mem_singleton_self _⟩

/-! ## All that is written -/

/-- What the next step writes keeps to its lines: a report is six of them, a printed value has no line feed, and
one that is printed with a line feed ends in its only one. -/
structure KeepsLines (m : Machine) : Prop where
  reported : ∀ report ∈ m.step.reports, IsLines 6 report.display
    ∧ (ByteString.ofString report.display).IsLines 6 ∧ m.Outputs (.ofString report.display)
  printed : ∀ d v, m.next? = some d → d.op = .printVal → m.stack.peek 0 = .ok v →
    (ByteString.ofString v.display).Unbroken ∧ m.Outputs (.ofString v.display)
  printedLine : ∀ d v, m.next? = some d → d.op = .printlnVal → m.stack.peek 0 = .ok v →
    (ByteString.ofString v.display).Unbroken ∧ m.Outputs (.ofString v.display ++ .lineFeed)
  unprinted : ∀ d, m.next? = some d → d.op = .printVal ∨ d.op = .printlnVal → m.stack.depth = 0 →
    ∃ report, report ∈ m.step.reports

theorem keepsLines (fits : m.stack.Fits) : m.KeepsLines := by
  have hwritten : ∀ {d : Decoded}, d.op = .printVal → (m.fetch d).written? d.instruction
      = some (do return (← m.stack.peek 0).display) := fun {d} hop => by
    rw [Decoded.instruction, hop]
    rfl
  have hwrittenLine : ∀ {d : Decoded}, d.op = .printlnVal → (m.fetch d).written? d.instruction
      = some (do return (← m.stack.peek 0).display ++ "\n") := fun {d} hop => by
    rw [Decoded.instruction, hop]
    rfl
  constructor
  case reported =>
    intro report h
    have hlines := isLines_of_reports fits h
    exact ⟨hlines, ByteString.isLines_ofString hlines, outputs_of_reports fits h⟩
  case printed =>
    intro d v hn hop hv
    have htext := hwritten hop
    rw [hv] at htext
    exact ⟨ByteString.unbroken_ofString v.oneLine_display, outputs_of_written? hn htext⟩
  case printedLine =>
    intro d v hn hop hv
    have htext := hwrittenLine hop
    rw [hv] at htext
    have houtputs := outputs_of_written? hn htext
    rw [ByteString.ofString_append] at houtputs
    exact ⟨ByteString.unbroken_ofString v.oneLine_display, houtputs⟩
  case unprinted =>
    intro d hn hop hdepth
    have hempty := OperandStack.peek_of_depth_eq_zero hdepth
    rcases hop with hop | hop
    · have htext := hwritten hop
      rw [hempty] at htext
      exact reports_of_written? hn htext
    · have htext := hwrittenLine hop
      rw [hempty] at htext
      exact reports_of_written? hn htext

/-- No value that is shown breaks the lines of a dump, of a report or of what is printed. -/
theorem output_keeps_lines (program : Program) (config : Config) (sink : Sink) :
    (∀ v : Value, OneLine v.display)
      ∧ (∀ m : Machine, ∃ lines : List String, lines.length = 6 ∧ (∀ line ∈ lines, OneLine line)
        ∧ m.dump = "\n".intercalate lines)
      ∧ ∀ m, Reachable program config sink m → m.KeepsLines :=
  ⟨Value.oneLine_display, exists_lines_dump, fun _ h => keepsLines h.fits⟩

/-- A string with a line feed, and what is written of it. -/
theorem output_keeps_lines_quoted :
    ∃ (program : Program) (m : Machine), Reachable program .default .unlimited m
      ∧ m.stack.peek 0 = .ok (.ofText "a\nb") ∧ m.Outputs (.ofString "\"a\\nb\"" ++ .lineFeed) := by
  let program : Program := ⟨#[Opcode.sconst.word, 0, Opcode.printlnVal.word], .empty, .empty, ⟨#["a\nb"]⟩⟩
  let m₀ := (Machine.start program .unlimited).withConfig .default
  let m₁ := { m₀.fetch ⟨.sconst, 0, 0, 2⟩ with stack := m₀.stack.put (.ofText "a\nb") }
  have hn₀ : m₀.next? = some ⟨.sconst, 0, 0, 2⟩ :=
    next?_eq_some rfl rfl rfl (decode_of_le (Opcode.ofWord?_word .sconst) (by decide))
  have hm : m₀.step.machine = m₁ := by
    rw [step_of_next? hn₀]
    rfl
  have hn₁ : m₁.next? = some ⟨.printlnVal, 0, 0, 3⟩ :=
    next?_eq_some rfl rfl rfl (decode_of_le (Opcode.ofWord?_word .printlnVal) (by decide))
  have hreach : Reachable program .default .unlimited m₁ := hm ▸ .step .configured
  have hkeeps := (output_keeps_lines program .default .unlimited).2.2 m₁ hreach
  have hdisplay : (Value.ofText "a\nb").display = "\"a\\nb\"" := by decide +kernel
  have houtputs := (hkeeps.printedLine _ _ hn₁ rfl rfl).2
  rw [hdisplay] at houtputs
  exact ⟨program, m₁, hreach, rfl, houtputs⟩

end Machine

end StackMachine
