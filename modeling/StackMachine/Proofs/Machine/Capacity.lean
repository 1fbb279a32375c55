import StackMachine.Proofs.Machine.Limits
import StackMachine.Proofs.Machine.Output
import StackMachine.Proofs.Program.Table

/-!
Machines whose sink takes only so much.  Such a machine does step by step what it does with a sink that takes
everything, until a text does not fit any more; of that text the sink takes what fits, and the machine stops
before the instruction has changed anything.
-/

set_option autoImplicit false

namespace StackMachine

/-- The machine with another sink. -/
def Machine.withSink (m : Machine) (sink : Sink) : Machine := { m with sink }

/-- The machine whose sink has room for `c` octets in all. -/
def Machine.capped (m : Machine) (c : Nat) : Machine := m.withSink (m.sink.capped c)

/-- What an instruction comes to, with another sink for the machine. -/
def Execution.withSink (e : Execution) (sink : Sink) : Execution :=
  { e with machine := e.machine.withSink sink }

namespace Machine

variable {m m₁ : Machine} {c : Nat} {start : Nat} {cause : Cause} {before : List Notice}

/-! ## One instruction -/

theorem orFault_withSink {α : Type} (sink : Sink) (r : Except Cause α) {next next' : α → Execution}
    (h : ∀ a, next' a = (next a).withSink sink) :
    (m.withSink sink).orFault r next' = (m.orFault r next).withSink sink := by
  cases r with
  | ok a => exact h a
  | error cause => rfl

/-- An instruction that writes nothing does the same whatever the sink. -/
theorem execute_withSink (fits : m.stack.Fits) (sink : Sink) (start : Nat) {i : Instruction}
    (h : m.written? i = none) :
    (m.withSink sink).execute start i = (m.execute start i).withSink sink := by
  cases i with
  | halt => rfl
  | lineFeed | print => cases h
  | leave withResult =>
    cases hr : m.frameResult withResult with
    | error cause =>
      have hr' : (m.withSink sink).frameResult withResult = .error cause := hr
      rw [execute, leave, hr', execute, leave, hr]
      rfl
    | ok result =>
      have hr' : (m.withSink sink).frameResult withResult = .ok result := hr
      cases he : m.frameExit with
      | error cause =>
        have he' : (m.withSink sink).frameExit = .error cause := he
        rw [execute, leave, hr', he', execute, leave, hr, he]
        rfl
      | ok exit =>
        have he' : (m.withSink sink).frameExit = .ok exit := he
        rw [execute_leave (m := m.withSink sink) fits start hr' he', execute_leave fits start hr he]
        obtain ⟨base, _ | ⟨fp, ip⟩⟩ := exit <;> rfl
  | call target argc =>
    have hcheck : (m.withSink sink).checkCall target argc = m.checkCall target argc := rfl
    rw [execute, call, hcheck, execute, call]
    cases m.checkCall target argc <;> rfl
  | jump | branch | choose =>
    rw [execute_destination rfl, execute_destination rfl]
    exact orFault_withSink sink _ fun _ => rfl
  | _ =>
    rw [execute_computed rfl, execute_computed rfl]
    exact orFault_withSink sink _ fun _ => rfl

/-! ## One step -/

/-- The step `r'` of a machine whose sink gets full where `r` is the step that needs more room. -/
structure OverCapacity (c : Nat) (m : Machine) (r r' : Reply RunState) : Prop where
  size_lt : c < r.machine.sink.size
  result_eq : r'.result = .error (.output .full)
  written_eq : r'.machine.sink.written = r.machine.sink.written.take c
  state_eq : r'.machine.state = .faulted
  stack_eq : r'.machine.stack = m.stack
  fp_eq : r'.machine.fp = m.fp
  returns_eq : r'.machine.returns = m.returns

/-- What a sink with room for `c` octets makes of the step `r` of a machine. -/
inductive Caps (c : Nat) (m : Machine) (r : Reply RunState) : Reply RunState → Prop
  | same (hsize : r.machine.sink.size ≤ c) : Caps c m r ⟨r.machine.capped c, r.notices, r.result⟩
  | full {r' : Reply RunState} (h : OverCapacity c m r r') : Caps c m r r'

theorem raise_extends (h : m.sink.IsFree) : m.sink.Extends (m.raise start cause before).machine.sink := by
  rw [raise_machine]
  exact deliver_extends h _

theorem caps_raise (h : m₁.sink.IsFree) (hs : m₁.sink.size ≤ c)
    (hm : m₁.stack = m.stack ∧ m₁.fp = m.fp ∧ m₁.returns = m.returns) :
    Caps c m (m₁.raise start cause before) ((m₁.capped c).raise start cause before) := by
  have hsink : (m₁.raise start cause before).machine.sink = (m₁.delivery start cause).1 := by
    rw [raise_machine]
  rcases Nat.lt_or_ge c (m₁.raise start cause before).machine.sink.size with hlt | hle
  · obtain ⟨full, hfull, hwritten⟩ := deliver_capped_of_lt h hs (hsink ▸ hlt)
    have hcapped : (m₁.capped c).delivery start cause = (full, some .full) := hfull
    obtain ⟨hstack, hfp, hreturns⟩ := hm
    refine .full ⟨hlt, ?_, ?_, ?_, ?_, ?_, ?_⟩ <;> rw [raise_eq, hcapped]
    · rw [hsink]
      exact hwritten
    · exact hstack
    · exact hfp
    · exact hreturns
  · have hdelivery : m₁.delivery start cause = ((m₁.delivery start cause).1, none) := by
      rw [delivery, deliver_eq h.toNeverFails]
    have hcapped : (m₁.capped c).delivery start cause = ((m₁.delivery start cause).1.capped c, none) :=
      deliver_capped_of_le h.toNeverFails (hsink ▸ hle)
    have hraise : (m₁.capped c).raise start cause before =
        ⟨(m₁.raise start cause before).machine.capped c, (m₁.raise start cause before).notices,
          (m₁.raise start cause before).result⟩ := by
      rw [raise_eq, raise_eq, hcapped, hdelivery]
      change (if (m₁.reportOf start cause).isFatal = true then _ else _) = _
      cases (m₁.reportOf start cause).isFatal <;> rfl
    rw [hraise]
    exact .same hle

theorem Executes.extends {i : Instruction} {e : Execution} (h : m.Executes start i e)
    (hfree : m.sink.IsFree) : m.sink.Extends e.machine.sink := by
  cases h with
  | unwritten _ hw =>
    rw [hfree.write_eq] at hw
    cases hw
  | written _ hw =>
    rw [hfree.write_eq] at hw
    cases hw
    exact hfree.accept _
  | _ => exact hfree.extends_self

theorem settle_extends {e : Execution} (h : e.machine.sink.IsFree) :
    e.machine.sink.Extends (settle start before e).machine.sink := by
  rw [settle]
  split
  · exact h.extends_self
  · exact raise_extends h
  · exact h.extends_self

theorem step_extends (fits : m.stack.Fits) (h : m.sink.IsFree) : m.sink.Extends m.step.machine.sink := by
  have hsteps := steps m
  generalize m.step = r at hsteps
  cases hsteps with
  | stopped | ended => exact h.extends_self
  | exhausted => exact raise_extends h
  | undecoded => exact raise_extends (m := { m with executed := m.executed + 1 }) h
  | @performed d =>
    have he := (executes (m := m.fetch d) fits m.ip d.instruction).extends h
    exact he.trans (settle_extends he.free)

theorem caps_same {r r' : Reply RunState} (h : r.machine.sink.size ≤ c)
    (hr : r' = ⟨r.machine.capped c, r.notices, r.result⟩) : Caps c m r r' := hr ▸ .same h

theorem output_eq (h : m.sink.NeverFails) (text : String) (stack : OperandStack) :
    m.output text stack = .done { m with sink := (m.sink.write text).1, stack } := by
  rw [output, h.write_eq]

theorem caps_output (h : m₁.sink.IsFree) (hs : m₁.sink.size ≤ c)
    (hm : m₁.stack = m.stack ∧ m₁.fp = m.fp ∧ m₁.returns = m.returns) (start : Nat) (text : String)
    (stack : OperandStack) :
    Caps c m (settle start before (m₁.output text stack))
      (settle start before ((m₁.capped c).output text stack)) := by
  rw [output_eq h.toNeverFails]
  rcases Nat.lt_or_ge c (m₁.sink.write text).1.size with hlt | hle
  · obtain ⟨full, hwrite, hwritten⟩ := Sink.write_capped_of_lt h hs hlt
    have hfull : (m₁.capped c).output text stack =
        ⟨{ m₁.capped c with sink := full }, [], some (.output .full)⟩ := by
      have hsink : (m₁.capped c).sink.write text = (full, some .full) := hwrite
      rw [output, hsink]
    obtain ⟨hstack, hfp, hreturns⟩ := hm
    rw [hfull]
    exact .full ⟨hlt, rfl, hwritten, rfl, hstack, hfp, hreturns⟩
  · have hsame : (m₁.capped c).output text stack =
        .done { m₁.capped c with sink := (m₁.sink.write text).1.capped c, stack } := by
      have hsink : (m₁.capped c).sink.write text = ((m₁.sink.write text).1.capped c, none) :=
        Sink.write_capped_of_le h.toNeverFails hle
      rw [output, hsink]
    rw [hsame]
    exact caps_same hle rfl

theorem caps_execute (fits : m₁.stack.Fits) (h : m₁.sink.IsFree) (hs : m₁.sink.size ≤ c)
    (hm : m₁.stack = m.stack ∧ m₁.fp = m.fp ∧ m₁.returns = m.returns) (start : Nat) (i : Instruction) :
    Caps c m (settle start before (m₁.execute start i))
      (settle start before ((m₁.capped c).execute start i)) := by
  cases hw : m₁.written? i with
  | none =>
    have he := executes fits start i
    rw [show (m₁.capped c).execute start i = (m₁.execute start i).withSink (m₁.sink.capped c) from
      execute_withSink fits _ start hw]
    generalize m₁.execute start i = e at he
    cases he with
    | refused => exact caps_raise h hs hm
    | unwritten h | written h => cases hw.symm.trans h
    | _ => exact caps_same hs rfl
  | some r =>
    have hw' : (m₁.capped c).written? i = some r := by
      rw [← hw]
      cases i <;> rfl
    rw [execute_written hw, execute_written hw']
    cases r with
    | error cause => exact caps_raise h hs hm
    | ok text => exact caps_output h hs hm start text _

/-- A step of a machine whose sink has room for `c` octets in all is the step without this bound, unless the
sink gets full. -/
theorem step_capped (fits : m.stack.Fits) (h : m.sink.IsFree) (hs : m.sink.size ≤ c) :
    Caps c m m.step (m.capped c).step := by
  have hsteps := steps m
  generalize m.step = r at hsteps
  cases hsteps with
  | stopped hr =>
    have hr' : (m.capped c).state ≠ .running := hr
    rw [step_of_stopped hr']
    exact caps_same hs rfl
  | ended hr hip =>
    have hr' : (m.capped c).state = .running := hr
    have hip' : (m.capped c).program.code[(m.capped c).ip]? = none := hip
    rw [step_of_end hr' hip']
    exact caps_same hs rfl
  | exhausted hr hip hb =>
    have hr' : (m.capped c).state = .running := hr
    have hip' : (m.capped c).program.code[(m.capped c).ip]? = _ := hip
    rw [step_of_exhausted hr' hip' hb]
    exact caps_raise h hs ⟨rfl, rfl, rfl⟩
  | undecoded hr hip hb hd =>
    have hr' : (m.capped c).state = .running := hr
    have hip' : (m.capped c).program.code[(m.capped c).ip]? = _ := hip
    have h' : { m with executed := m.executed + 1 }.sink.IsFree := h
    rw [step_of_decode_error hr' hip' hb hd]
    exact caps_raise h' hs ⟨rfl, rfl, rfl⟩
  | @performed d hn =>
    have hn' : (m.capped c).next? = some d := hn
    have fits' : (m.fetch d).stack.Fits := fits
    rw [step_of_next? hn']
    exact caps_execute (m := m) fits' h hs ⟨rfl, rfl, rfl⟩ m.ip d.instruction

theorem step_capped_of_le (fits : m.stack.Fits) (h : m.sink.IsFree) (hle : m.step.machine.sink.size ≤ c) :
    (m.capped c).step = ⟨m.step.machine.capped c, m.step.notices, m.step.result⟩ := by
  have hcaps := step_capped fits h (Nat.le_trans ((step_extends fits h).size_le h) hle)
  generalize (m.capped c).step = r' at hcaps
  cases hcaps with
  | same => rfl
  | full hover => exact absurd hover.size_lt (Nat.not_lt.2 hle)

theorem step_capped_of_lt (fits : m.stack.Fits) (h : m.sink.IsFree) (hs : m.sink.size ≤ c)
    (hlt : c < m.step.machine.sink.size) : OverCapacity c m m.step (m.capped c).step := by
  have hcaps := step_capped fits h hs
  generalize (m.capped c).step = r' at hcaps
  cases hcaps with
  | same hle => exact absurd hlt (Nat.not_lt.2 hle)
  | full hover => exact hover

/-! ## Runs -/

theorem after_extends (fits : m.stack.Fits) (h : m.sink.IsFree) (n : Nat) :
    m.sink.Extends (m.after n).sink := by
  induction n with
  | zero => exact h.extends_self
  | succ n ih =>
    rw [after_succ]
    exact ih.trans (step_extends (after_sameSettings fits n).2 ih.free)

theorem after_add (m : Machine) (k n : Nat) : m.after (k + n) = (m.after k).after n := by
  induction n with
  | zero => rfl
  | succ n ih => rw [← Nat.add_assoc, after_succ, after_succ, ih]

theorem size_after_le (fits : m.stack.Fits) (h : m.sink.IsFree) {k n : Nat} (hk : k ≤ n) :
    (m.after k).sink.size ≤ (m.after n).sink.size := by
  obtain ⟨j, rfl⟩ := Nat.exists_eq_add_of_le hk
  have hfree := (after_extends fits h k).free
  rw [after_add]
  exact (after_extends (after_sameSettings fits k).2 hfree j).size_le hfree

/-- As long as the output fits, the two machines do the same. -/
theorem after_capped (fits : m.stack.Fits) (h : m.sink.IsFree) {n : Nat} (hsize : (m.after n).sink.size ≤ c) :
    (m.capped c).after n = (m.after n).capped c := by
  induction n with
  | zero => rfl
  | succ n ih =>
    have hle := size_after_le fits h (Nat.le_succ n)
    rw [after_succ, ih (Nat.le_trans hle hsize)]
    rw [after_succ] at hsize ⊢
    rw [step_capped_of_le (after_sameSettings fits n).2 (after_extends fits h n).free hsize]

/-- Output that does not fit in the end has stopped fitting at some step. -/
theorem exists_last_fit (hzero : m.sink.size ≤ c) {n : Nat} (hn : c < (m.after n).sink.size) :
    ∃ k < n, (m.after k).sink.size ≤ c ∧ c < (m.after (k + 1)).sink.size := by
  induction n with
  | zero => exact absurd hn (Nat.not_lt.2 hzero)
  | succ n ih =>
    rcases Nat.lt_or_ge c (m.after n).sink.size with hlt | hle
    · obtain ⟨k, hk, hfit⟩ := ih hlt
      exact ⟨k, Nat.lt_succ_of_lt hk, hfit⟩
    · exact ⟨n, Nat.lt_succ_self n, hle, hn⟩

theorem after_of_stopped (hr : m.state ≠ .running) (n : Nat) : m.after n = m := by
  induction n with
  | zero => rfl
  | succ n ih => rw [after_succ, ih, step_of_stopped hr]

/-- Two machines are the same to an observer after `n` steps, and each of the steps had the same result. -/
def Agree (m m' : Machine) (n : Nat) : Prop :=
  (m'.after n).observation = (m.after n).observation
    ∧ ∀ j < n, (m'.after j).step.result = (m.after j).step.result

/-- The sink of `full`, which has room for `c` octets, gets full in the step after `k` steps, where `free` goes
on writing: what fits is written, the step fails without any other effect, and no later step does anything. -/
structure GetsFull (c : Nat) (free full : Machine) (k : Nat) : Prop where
  fits : ∀ j ≤ k, (free.after j).sink.written.length ≤ c
  exceeds : c < (free.after (k + 1)).sink.written.length
  agree : ∀ j ≤ k, Agree free full j
  result_eq : (full.after k).step.result = .error (.output .full)
  written_eq : (full.after (k + 1)).sink.written = (free.after (k + 1)).sink.written.take c
  state_eq : (full.after (k + 1)).state = .faulted
  stack_eq : (full.after (k + 1)).stack = (full.after k).stack
  fp_eq : (full.after (k + 1)).fp = (full.after k).fp
  returns_eq : (full.after (k + 1)).returns = (full.after k).returns
  stopped : ∀ j > k, full.after j = full.after (k + 1)
    ∧ (full.after j).step = ⟨full.after j, [], .error (.notRunning .faulted)⟩

theorem agree_capped (fits : m.stack.Fits) (h : m.sink.IsFree) {n : Nat}
    (hsize : (m.after n).sink.size ≤ c) : Agree m (m.capped c) n := by
  constructor
  · rw [after_capped fits h hsize]
    rfl
  · intro j hj
    have hle : (m.after (j + 1)).sink.size ≤ c := Nat.le_trans (size_after_le fits h hj) hsize
    have hle' := Nat.le_trans (size_after_le fits h (Nat.le_succ j)) hle
    rw [after_succ] at hle
    rw [after_capped fits h hle',
      step_capped_of_le (after_sameSettings fits j).2 (after_extends fits h j).free hle]

theorem getsFull_capped (fits : m.stack.Fits) (h : m.sink.IsFree) {k : Nat}
    (hfit : (m.after k).sink.size ≤ c) (hlt : c < (m.after (k + 1)).sink.size) :
    GetsFull c m (m.capped c) k := by
  have hfree := fun j => (after_extends fits h j).free
  have hsize := fun j (hj : j ≤ k) => Nat.le_trans (size_after_le fits h hj) hfit
  have hlt' := hlt
  rw [after_succ] at hlt'
  have hover := step_capped_of_lt (after_sameSettings fits k).2 (hfree k) hfit hlt'
  have hcapped := after_capped fits h hfit
  have hstep : (m.capped c).after (k + 1) = ((m.after k).capped c).step.machine := by
    rw [after_succ, hcapped]
  constructor
  case fits => exact fun j hj => (hfree j).size_eq ▸ hsize j hj
  case exceeds => exact (hfree (k + 1)).size_eq ▸ hlt
  case agree => exact fun j hj => agree_capped fits h (hsize j hj)
  case result_eq =>
    rw [hcapped]
    exact hover.result_eq
  case written_eq =>
    rw [hstep, after_succ]
    exact hover.written_eq
  case state_eq =>
    rw [hstep]
    exact hover.state_eq
  case stack_eq =>
    rw [hstep, hcapped]
    exact hover.stack_eq
  case fp_eq =>
    rw [hstep, hcapped]
    exact hover.fp_eq
  case returns_eq =>
    rw [hstep, hcapped]
    exact hover.returns_eq
  case stopped =>
    intro j hj
    have hstate : ((m.capped c).after (k + 1)).state = .faulted := by
      rw [hstep]
      exact hover.state_eq
    have hr : ((m.capped c).after (k + 1)).state ≠ .running := by
      rw [hstate]
      nofun
    obtain ⟨i, rfl⟩ := Nat.exists_eq_add_of_le (Nat.succ_le_of_lt hj)
    rw [after_add, after_of_stopped hr, step_of_stopped hr, hstate]
    exact ⟨rfl, rfl⟩

/-! ## The start of a run -/

theorem load_capped (m : Machine) (c : Nat) (args : List Value) :
    (m.capped c).load args = ⟨(m.load args).machine.capped c, (m.load args).notices, (m.load args).result⟩ := by
  by_cases hnew : (0 < m.executed || !m.stack.isEmpty) = true
  · have hnew' : (0 < (m.capped c).executed || !(m.capped c).stack.isEmpty) = true := hnew
    rw [load, load, if_pos hnew, if_pos hnew']
  · have hnew' : ¬ (0 < (m.capped c).executed || !(m.capped c).stack.isEmpty) = true := hnew
    have hroom : (m.capped c).stack.reserve (args.length + 2) = m.stack.reserve (args.length + 2) := rfl
    rw [load, load, if_neg hnew, if_neg hnew', hroom]
    cases m.stack.reserve (args.length + 2) <;> rfl

/-- A full sink truncates the output and nothing else: with room for `c` octets a machine does what it does with
a sink that takes everything, as long as the output fits, and after that it stops with its first `c` octets
written. -/
theorem full_sink_truncates (program : Program) (args : List Value) (config : Config) (c n : Nat) :
    let free := launch program .unlimited args config
    let full := launch program (Sink.unlimited.capped c) args config
    full.result = free.result
      ∧ ((free.machine.after n).sink.written.length ≤ c → Agree free.machine full.machine n)
      ∧ (c < (free.machine.after n).sink.written.length →
        ∃ k < n, GetsFull c free.machine full.machine k) := by
  intro free full
  have hfull : full = ⟨free.machine.capped c, free.notices, free.result⟩ :=
    load_capped ((Machine.start program .unlimited).withConfig config) c args
  have hfits : free.machine.stack.Fits := launch_fits program .unlimited args config
  have hsink : free.machine.sink = .unlimited := load_sink _ args
  have hfree : free.machine.sink.IsFree := hsink ▸ Sink.isFree_unlimited
  have hsize := (after_extends hfits hfree n).free.size_eq
  rw [hfull, ← hsize]
  refine ⟨rfl, agree_capped hfits hfree, fun hlt => ?_⟩
  have hzero : free.machine.sink.size ≤ c := by
    rw [hsink]
    exact Nat.zero_le c
  obtain ⟨k, hk, hfit, hover⟩ := exists_last_fit hzero hlt
  exact ⟨k, hk, getsFull_capped hfits hfree hfit hover⟩

/-- With room for three octets, the five of a quoted text and its line feed are cut behind the second letter, and
the text is still on the stack. -/
theorem full_sink_truncates_within_text :
    let program : Program := ⟨#[Opcode.sconst.word, 0, Opcode.printlnVal.word], .empty, .empty, ⟨#["ab"]⟩⟩
    let free := launch program .unlimited [] .default
    let full := launch program (Sink.unlimited.capped 3) [] .default
    full.result = .ok ()
      ∧ (free.machine.after 2).sink.written = .ofString "\"ab\"\n"
      ∧ (full.machine.after 2).sink.written = .ofString "\"ab"
      ∧ (full.machine.after 2).stack.toList = [.int 0, .int haltLink, .ofText "ab"]
      ∧ GetsFull 3 free.machine full.machine 1 := by
  intro program free full
  let d₀ : Decoded := ⟨.sconst, 0, 0, 2⟩
  let d₁ : Decoded := ⟨.printlnVal, 0, 0, 3⟩
  let m₁ := { free.machine.fetch d₀ with stack := free.machine.stack.put (.ofText "ab") }
  have hn₀ : free.machine.next? = some d₀ :=
    next?_eq_some rfl rfl rfl (decode_of_le (Opcode.ofWord?_word .sconst) (by decide))
  have hn₁ : m₁.next? = some d₁ :=
    next?_eq_some rfl rfl rfl (decode_of_le (Opcode.ofWord?_word .printlnVal) (by decide))
  have hafter₁ : free.machine.after 1 = m₁ := by
    rw [after_succ]
    exact congrArg Reply.machine (step_of_next? hn₀)
  have hdisplay : (Value.ofText "ab").display = "\"ab\"" := by decide +kernel
  have hwritten : (free.machine.after 2).sink.written = .ofString "\"ab\"\n" := by
    rw [after_succ, hafter₁, step_of_next? hn₁]
    change ByteString.empty ++ .ofString ((Value.ofText "ab").display ++ "\n") = _
    rw [hdisplay]
    decide +kernel
  obtain ⟨hresult, -, hexceeds⟩ := full_sink_truncates program [] .default 3 2
  have hlt : 3 < (free.machine.after 2).sink.written.length := by
    rw [hwritten]
    decide +kernel
  obtain ⟨k, hk, hfull⟩ := hexceeds hlt
  obtain rfl | rfl : k = 0 ∨ k = 1 := by omega
  · have hexceeds := hfull.exceeds
    rw [hafter₁] at hexceeds
    exact absurd hexceeds (by decide)
  refine ⟨hresult, hwritten, ?_, ?_, hfull⟩
  · rw [hfull.written_eq, hwritten]
    decide +kernel
  · obtain ⟨hobserved, -⟩ := hfull.agree 1 (Nat.le_refl 1)
    rw [hafter₁] at hobserved
    obtain ⟨-, -, hstack, -⟩ := Observation.mk.inj hobserved
    rw [hfull.stack_eq, hstack]
    rfl

end Machine

end StackMachine
