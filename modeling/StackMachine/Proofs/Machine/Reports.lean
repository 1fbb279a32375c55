import StackMachine.Proofs.Machine.Atomicity
import StackMachine.Proofs.Machine.Record
import StackMachine.Proofs.Program.Table

/-!
Fault reports.  A step raises one fault at most and reports it, the report tells the truth about the step, and
over a whole run the reports are numbered from one on.  As long as the output gets through, the last report says
whether the machine has stopped for a fault, and no other report is fatal.
-/

set_option autoImplicit false

namespace StackMachine.Machine

variable {m m₁ : Machine} {cause : Cause} {report : Report}

/-! ## One step -/

theorem Raises.machine_eq (h : m.Raises m₁ cause) : ∃ executed ip, m₁ = { m with executed, ip } := by
  cases h with
  | exhausted => exact ⟨m.executed, m.ip, rfl⟩
  | undecoded => exact ⟨m.executed + 1, m.ip, rfl⟩
  | refused => exact ⟨m.executed + 1, _, rfl⟩

/-- Only an instruction that is in the code is reported, be it a word that is no operation. -/
theorem exists_line_of_reports (h : report ∈ m.step.reports) :
    m.state = .running ∧ ∃ line, Listing.lineAt? m.program.code m.ip = some line := by
  have hline : ∀ {word : Word}, m.program.code[m.ip]? = some word →
      ∃ line, Listing.lineAt? m.program.code m.ip = some line := by
    intro word hword
    rw [Listing.lineAt?, hword]
    exact ⟨_, rfl⟩
  have hsteps := steps m
  generalize m.step = r at h hsteps
  cases hsteps with
  | stopped | ended => cases h
  | exhausted hr hip => exact ⟨hr, hline hip⟩
  | undecoded hr hip => exact ⟨hr, hline hip⟩
  | performed hn =>
    obtain ⟨word, hword, -⟩ := (decodes_of_next? hn).code
    exact ⟨(decodes_of_next? hn).running, hline hword⟩

theorem reports_eq_singleton (fits : m.stack.Fits) (h : report ∈ m.step.reports) :
    m.step.reports = [report] := by
  obtain ⟨hr, -⟩ := exists_line_of_reports h
  have hends := ends fits hr
  generalize m.step = r at h hends
  cases hends with
  | faulted _ hb =>
    rw [reports_raise hb] at h ⊢
    rw [List.mem_singleton.1 h]
  | unwritten =>
    rw [Reply.reports, List.filterMap_append, reports_announce] at h
    cases h
  | went hr =>
    rw [hr] at h
    cases h

/-- The report of the next step: it is the only one, it shows the instruction at the address of the machine and
the stack, which stays as it is, and all that is written is its text.  Only a fault of the kind that can be
survived leaves the machine running. -/
structure Describes (report : Report) (m : Machine) : Prop where
  only : m.step.reports = [report]
  ip_eq : report.ip = m.ip
  ip_lt : m.ip < m.program.code.size
  instruction : ∃ line, Listing.lineAt? m.program.code m.ip = some line ∧ report.instruction = line.display
  stack_eq : report.stack = m.stack.display
  kept : m.step.machine.stack = m.stack
  written : m.step.machine.sink.written = m.sink.written ++ ByteString.ofString report.display
  count_eq : report.count = m.reporter.count + 1 ∧ m.step.machine.reporter.count = report.count
  resumed : report.outcome = .resume → report.kind = .typeMismatch
    ∧ m.reporter.fatalTypeMismatch = false ∧ m.step.machine.state = .running ∧ m.step.result = .ok .running
  aborted : report.outcome = .abort →
    m.step.machine.state = .faulted ∧ m.step.result = .error (.fatal report)

theorem describes_of_reports (fits : m.stack.Fits) (hsink : m.sink.NeverFails)
    (h : report ∈ m.step.reports) : Describes report m := by
  obtain ⟨hr, line, hline⟩ := exists_line_of_reports h
  have honly := reports_eq_singleton fits h
  obtain ⟨m₁, cause, before, hraise, hstep, rfl⟩ := exists_raises fits h
  obtain ⟨executed, ip, rfl⟩ := hraise.machine_eq
  have hstops := stopsAt_of_neverFails (m := { m with executed, ip }) hsink m.ip cause
  have hdelivery : ({ m with executed, ip }.delivery m.ip cause).2 = none := by
    rw [delivery, deliver_eq hsink]
  have hmachine := congrArg Reply.machine hstep
  rw [raise_machine, hstops] at hmachine
  constructor
  case only => exact honly
  case ip_eq => rfl
  case ip_lt => exact (Listing.lineAt?_lt hline).1
  case instruction =>
    refine ⟨line, hline, ?_⟩
    change Reporter.instructionText m.program.code m.ip = line.display
    rw [Reporter.instructionText, hline]
  case stack_eq => rfl
  case kept => rw [hmachine]
  case written =>
    rw [hmachine]
    exact written_delivery (m := { m with executed, ip }) hsink m.ip cause
  case count_eq =>
    rw [hmachine]
    exact ⟨rfl, rfl⟩
  case resumed =>
    intro houtcome
    have hfatal : ({ m with executed, ip }.reportOf m.ip cause).isFatal = false := by
      rw [Report.isFatal, houtcome]
      rfl
    rw [hmachine, hstep, raise_result, hdelivery, hfatal]
    rw [isFatal_reportOf, Bool.not_eq_false', Bool.and_eq_true, Bool.not_eq_true'] at hfatal
    exact ⟨kind_of_isRecoverable hfatal.1, hfatal.2, hr, congrArg Except.ok hr⟩
  case aborted =>
    intro houtcome
    have hfatal : ({ m with executed, ip }.reportOf m.ip cause).isFatal = true := by
      rw [Report.isFatal, houtcome]
      rfl
    rw [hmachine, hstep, raise_result, hdelivery, hfatal]
    exact ⟨rfl, rfl⟩

theorem Executes.neverFails {start : Nat} {i : Instruction} {e : Execution} (h : m.Executes start i e)
    (hsink : m.sink.NeverFails) : e.machine.sink.NeverFails ∧ ∀ failure, e.trap ≠ some (.output failure) := by
  cases h with
  | unwritten _ hw =>
    rw [hsink.write_eq] at hw
    cases hw
  | written _ hw =>
    rw [hsink.write_eq] at hw
    cases hw
    exact ⟨hsink.accept _, nofun⟩
  | _ => exact ⟨hsink, nofun⟩

theorem Executes.goes_on {start : Nat} {i : Instruction} {e : Execution} (h : m.Executes start i e)
    (hr : m.state = .running) : e.machine.reporter = m.reporter ∧ e.machine.state ≠ .faulted := by
  cases h with
  | halted | finished => exact ⟨rfl, nofun⟩
  | _ =>
    refine ⟨rfl, ?_⟩
    intro hfaulted
    cases hr.symm.trans hfaulted

/-- A step that reports nothing counts nothing, and is no reason to stop for a fault. -/
theorem step_of_no_reports (fits : m.stack.Fits) (hsink : m.sink.NeverFails) (h : m.step.reports = []) :
    m.step.machine.reporter = m.reporter ∧ m.step.machine.sink.NeverFails
      ∧ (m.step.machine.state = .faulted ↔ m.state = .faulted)
      ∧ ∀ report, m.step.result ≠ .error (.fatal report) := by
  have hsteps := steps m
  generalize m.step = r at h hsteps
  cases hsteps with
  | stopped => exact ⟨rfl, hsink, Iff.rfl, by simp⟩
  | ended hr => exact ⟨rfl, hsink, by simp [hr], by simp⟩
  | exhausted | undecoded =>
    rw [reports_raise rfl] at h
    cases h
  | @performed d hn =>
    have hr := (decodes_of_next? hn).running
    have he := executes (m := m.fetch d) fits m.ip d.instruction
    generalize (m.fetch d).execute m.ip d.instruction = e at h he
    obtain ⟨hsink', hwritten⟩ := he.neverFails hsink
    obtain ⟨hreporter, hstate⟩ := he.goes_on hr
    rw [settle] at h ⊢
    cases ht : e.trap with
    | none => exact ⟨hreporter, hsink', by simp [hr, hstate], by simp⟩
    | some trap =>
      cases trap with
      | output failure => exact absurd ht (hwritten failure)
      | fault cause =>
        simp only [ht] at h
        rw [reports_raise] at h
        · cases h
        · rw [List.filterMap_append, reports_announce, he.reports_notices]
          rfl

theorem step_neverFails (fits : m.stack.Fits) (hsink : m.sink.NeverFails) :
    m.step.machine.sink.NeverFails := by
  rcases hreports : m.step.reports with _ | ⟨report, rest⟩
  · exact (step_of_no_reports fits hsink hreports).2.1
  · have hmem : report ∈ m.step.reports := by simp [hreports]
    obtain ⟨m₁, cause, before, hraise, hstep, -⟩ := exists_raises fits hmem
    obtain ⟨executed, ip, rfl⟩ := hraise.machine_eq
    rw [hstep, raise_machine]
    exact neverFails_delivery (m := { m with executed, ip }) hsink m.ip cause

theorem result_eq_fatal_iff (fits : m.stack.Fits) (hsink : m.sink.NeverFails) :
    m.step.result = .error (.fatal report) ↔ report ∈ m.step.reports ∧ report.outcome = .abort := by
  constructor
  · intro h
    rcases hreports : m.step.reports with _ | ⟨other, rest⟩
    · exact absurd h ((step_of_no_reports fits hsink hreports).2.2.2 report)
    · have hmem : other ∈ m.step.reports := by simp [hreports]
      have hd := describes_of_reports fits hsink hmem
      rw [← hreports]
      cases ho : other.outcome with
      | resume =>
        rw [(hd.resumed ho).2.2.2] at h
        cases h
      | abort =>
        rw [(hd.aborted ho).2] at h
        cases h
        exact ⟨hmem, ho⟩
  · rintro ⟨hmem, ho⟩
    exact ((describes_of_reports fits hsink hmem).aborted ho).2

theorem exists_report_of_trap (fits : m.stack.Fits) {d : Decoded} (hn : m.next? = some d)
    (ht : ((m.fetch d).execute m.ip d.instruction).trap = some (.fault cause)) :
    ∃ report ∈ m.step.reports, report.kind = cause.kind ∧ report.message = cause.fault.message := by
  have he := executes (m := m.fetch d) fits m.ip d.instruction
  rw [step_of_next? hn, settle, ht]
  generalize (m.fetch d).execute m.ip d.instruction = e at he
  refine ⟨e.machine.reportOf m.ip cause, ?_, rfl, rfl⟩
  dsimp only
  rw [reports_raise]
  · exact List.mem_singleton_self _
  · rw [List.filterMap_append, reports_announce, he.reports_notices]
    rfl

theorem exists_report_of_next?_eq_none (hr : m.state = .running) (hip : m.ip < m.program.code.size)
    (hn : m.next? = none) : ∃ report, report ∈ m.step.reports := by
  have hsteps := steps m
  generalize m.step = r at hsteps
  cases hsteps with
  | stopped hstopped => exact absurd hr hstopped
  | ended _ hend =>
    rw [Array.getElem?_eq_none_iff] at hend
    omega
  | exhausted | undecoded =>
    rw [reports_raise rfl]
    exact ⟨_, List.mem_singleton_self _⟩
  | performed hn' =>
    rw [hn] at hn'
    cases hn'

/-! ## Runs -/

/-- The faults that a machine has reported so far: numbered, counted, all survived but perhaps the last one, and
that one is fatal just if the machine has stopped for it. -/
structure Counts (m : Machine) (reports : List Report) : Prop where
  count_eq : m.reporter.count = reports.length
  numbered : ∀ k report, reports[k]? = some report → report.count = k + 1
  survived : ∀ report ∈ reports.dropLast, report.outcome = .resume
  faulted : m.state = .faulted ↔ ∃ report, reports.getLast? = some report ∧ report.outcome = .abort
  policy : ∀ report ∈ reports, report.outcome = .resume →
    report.kind = .typeMismatch ∧ m.reporter.fatalTypeMismatch = false

/-- Every fault of a machine that has not stopped for one was survived. -/
theorem Counts.resumed {reports : List Report} (h : m.Counts reports) (hr : m.state = .running) :
    ∀ report ∈ reports, report.outcome = .resume := by
  intro report hmem
  rcases List.eq_nil_or_concat reports with rfl | ⟨init, last, rfl⟩
  · cases hmem
  · have hlast : last.outcome ≠ .abort := by
      intro habort
      have hfaulted := h.faulted.2 ⟨last, by simp, habort⟩
      cases hr.symm.trans hfaulted
    have hsurvived := h.survived
    simp only [List.concat_eq_append, List.dropLast_concat] at hsurvived hmem
    rcases List.mem_append.1 hmem with hinit | hend
    · exact hsurvived report hinit
    · rw [List.mem_singleton.1 hend]
      cases ho : last.outcome with
      | resume => rfl
      | abort => exact absurd ho hlast

theorem Counts.step {reports : List Report} (h : m.Counts reports) (fits : m.stack.Fits)
    (hsink : m.sink.NeverFails) : m.step.machine.Counts (reports ++ m.step.reports) := by
  have hpolicy := (step_sameSettings fits).policy_eq
  rcases hreports : m.step.reports with _ | ⟨report, rest⟩
  · obtain ⟨hreporter, -, hstate, -⟩ := step_of_no_reports fits hsink hreports
    rw [List.append_nil]
    constructor
    case count_eq => rw [hreporter]; exact h.count_eq
    case numbered => exact h.numbered
    case survived => exact h.survived
    case faulted => rw [hstate]; exact h.faulted
    case policy => rw [hpolicy]; exact h.policy
  · have hmem : report ∈ m.step.reports := by simp [hreports]
    obtain ⟨hr, -⟩ := exists_line_of_reports hmem
    -- The machine was running, so all faults before this one were survived.
    have hresumed := h.resumed hr
    have hd := describes_of_reports fits hsink hmem
    rw [← hreports, hd.only]
    constructor
    case count_eq => rw [hd.count_eq.2, hd.count_eq.1, h.count_eq, List.length_append, List.length_singleton]
    case numbered =>
      intro k r hk
      rcases Nat.lt_or_ge k reports.length with hlt | hge
      · rw [List.getElem?_append_left hlt] at hk
        exact h.numbered k r hk
      · rw [List.getElem?_append_right hge] at hk
        obtain ⟨hzero, rfl⟩ : k - reports.length = 0 ∧ report = r := by
          simpa [List.getElem?_singleton] using hk
        rw [hd.count_eq.1, h.count_eq]
        omega
    case survived =>
      rw [List.dropLast_concat]
      exact hresumed
    case faulted =>
      simp only [List.getLast?_append, List.getLast?_singleton, Option.some_or, Option.some.injEq,
        exists_eq_left']
      cases ho : report.outcome with
      | resume => simp [(hd.resumed ho).2.2.1]
      | abort => simp [(hd.aborted ho).1]
    case policy =>
      intro r hmem hresume
      rw [hpolicy]
      rcases List.mem_append.1 hmem with hmem | hmem
      · exact h.policy r hmem hresume
      · rw [List.mem_singleton.1 hmem] at hresume ⊢
        exact ⟨(hd.resumed hresume).1, (hd.resumed hresume).2.1⟩

theorem Counts.load {reports : List Report} (h : m.Counts reports) (args : List Value) :
    (m.load args).machine.Counts (reports ++ (m.load args).reports) := by
  rcases load_cases m args with ⟨e, he⟩ | ⟨-, -, -, stack, -, he⟩ <;> rw [he]
  all_goals
    change Counts _ (reports ++ [])
    rw [List.append_nil]
    exact ⟨h.count_eq, h.numbered, h.survived, h.faulted, h.policy⟩

theorem Counts.length_le {reports : List Report} (h : m.Counts reports)
    (hstrict : m.reporter.fatalTypeMismatch = true) : reports.length ≤ 1 := by
  have hnone : reports.dropLast = [] := by
    refine List.eq_nil_iff_forall_not_mem.2 fun report hmem => ?_
    have hpolicy := (h.policy report (List.dropLast_subset _ hmem) (h.survived report hmem)).2
    rw [hstrict] at hpolicy
    cases hpolicy
  have hlength := congrArg List.length hnone
  rw [List.length_dropLast, List.length_nil] at hlength
  omega

section Recorded

variable {program : Program} {config : Config} {sink : Sink} {args : List Value} {notices : List Notice}

theorem Recorded.neverFails (hs : sink.NeverFails) (h : Recorded program config sink args notices m) :
    m.sink.NeverFails := by
  induction h with
  | configured => exact hs
  | loaded _ _ ih | refused _ _ ih =>
    rw [load_sink]
    exact ih
  | step h ih => exact step_neverFails h.reachable.fits ih
  | @finish _ _ m _ ih =>
    have hflush := ih.flush
    rw [ih.flush_eq] at hflush
    rw [Machine.finish, ih.flush_eq]
    exact hflush

theorem Recorded.counts (hs : sink.NeverFails) (h : Recorded program config sink args notices m) :
    m.Counts (notices.filterMap Notice.report?) := by
  induction h with
  | configured => exact ⟨rfl, nofun, nofun, by simp [withConfig, Machine.start], nofun⟩
  | loaded _ _ ih | refused _ _ ih =>
    rw [List.filterMap_append]
    exact ih.load _
  | step h ih =>
    rw [List.filterMap_append]
    exact ih.step h.reachable.fits (h.neverFails hs)
  | @finish _ _ m _ ih =>
    obtain ⟨sink, he⟩ := finish_machine m
    rw [he]
    exact ⟨ih.count_eq, ih.numbered, ih.survived, ih.faulted, ih.policy⟩

/-- What a host can rely on when it reads the faults that a machine has reported so far and those of its next
step. -/
structure TellsFaults (m : Machine) (reports : List Report) : Prop extends m.Counts reports where
  /-- Under the strict policy a machine stops for its first fault. -/
  strict : m.config.fatalTypeMismatch = true → reports.length ≤ 1
  /-- No fault is kept from the host, whether an instruction raises it or the code gives none. -/
  complete : (∀ d cause, m.next? = some d →
      ((m.fetch d).execute m.ip d.instruction).trap = some (.fault cause) →
        ∃ report ∈ m.step.reports, report.kind = cause.kind ∧ report.message = cause.fault.message)
    ∧ (m.state = .running → m.ip < m.program.code.size → m.next? = none → ∃ report, report ∈ m.step.reports)
  describes : ∀ report ∈ m.step.reports, Describes report m
  fatal : ∀ report, m.step.result = .error (.fatal report) ↔
    report ∈ m.step.reports ∧ report.outcome = .abort
  quiet : m.step.reports = [] → (m.step.machine.state = .faulted ↔ m.state = .faulted)

/-- Where the output never fails, the reports of a machine tell its faults, whatever a host has asked of it. -/
theorem reports_tell_faults (hs : sink.NeverFails) (h : Recorded program config sink args notices m) :
    m.TellsFaults (notices.filterMap Notice.report?) := by
  have fits := h.reachable.fits
  have hsink := h.neverFails hs
  have hsettings := h.reachable.sameSettings
  refine { h.counts hs with
    strict := fun hstrict => (h.counts hs).length_le ?_
    complete := ⟨fun d cause hn ht => exists_report_of_trap fits hn ht,
      fun hr hip hn => exists_report_of_next?_eq_none hr hip hn⟩
    describes := fun report hmem => describes_of_reports fits hsink hmem
    fatal := fun report => result_eq_fatal_iff fits hsink
    quiet := fun hreports => (step_of_no_reports fits hsink hreports).2.2.1 }
  rw [hsettings.config_eq] at hstrict
  rw [hsettings.policy_eq]
  exact hstrict

end Recorded

/-- A program that negates the null value survives that, and it is its first fault. -/
theorem reports_tell_faults_survived :
    ∃ notices m, Recorded ⟨#[Opcode.nullRef.word, Opcode.neg.word], .empty, .empty, .empty⟩ .default .unlimited
        [] notices m
      ∧ (∃ report, notices.filterMap Notice.report? = [report] ∧ report.outcome = .resume)
      ∧ m.TellsFaults (notices.filterMap Notice.report?) := by
  let program : Program := ⟨#[Opcode.nullRef.word, Opcode.neg.word], .empty, .empty, .empty⟩
  let d₀ : Decoded := ⟨.nullRef, 0, 0, 1⟩
  let d₁ : Decoded := ⟨.neg, 0, 0, 2⟩
  let m₀ := (Machine.start program .unlimited).withConfig .default
  let m₁ := { m₀.fetch d₀ with stack := m₀.stack.put .null }
  have hn₀ : m₀.next? = some d₀ :=
    next?_eq_some rfl rfl rfl (decode_of_le (Opcode.ofWord?_word .nullRef) (by decide))
  have hn₁ : m₁.next? = some d₁ :=
    next?_eq_some rfl rfl rfl (decode_of_le (Opcode.ofWord?_word .neg) (by decide))
  have hm : m₀.step.machine = m₁ := by
    rw [step_of_next? hn₀]
    rfl
  have hquiet : m₀.step.reports = [] := by
    rw [step_of_next? hn₀]
    rfl
  have hfault : (m₁.fetch d₁).execute m₁.ip d₁.instruction
      = .fault (m₁.fetch d₁) (.value (.unsupported "negate" .null)) := rfl
  have hfirst : Recorded program .default .unlimited [] ([] ++ m₀.step.notices) m₁ := hm ▸ .step .configured
  have hreports : ([] ++ m₀.step.notices ++ m₁.step.notices).filterMap Notice.report?
      = [(m₁.fetch d₁).reportOf m₁.ip (.value (.unsupported "negate" .null))] := by
    rw [List.nil_append, List.filterMap_append]
    exact congrArg₂ _ hquiet (step_of_fault hn₁ hfault).2
  exact ⟨_, _, hfirst.step, ⟨_, hreports, rfl⟩, reports_tell_faults Sink.neverFails_unlimited hfirst.step⟩

end StackMachine.Machine
