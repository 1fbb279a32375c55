import StackMachine.Proofs.Machine.Events
import StackMachine.Proofs.Machine.Limits

/-!
Tracing.  A machine that traces writes one line into the log for each step that it tells a debugger of, and is
otherwise the same as one that does not.
-/

set_option autoImplicit false

namespace StackMachine

/-- An instruction that a machine takes, with the line of the listing, and the frame and the depth of the stack
before it. -/
structure Taken where
  ip : Nat
  op : Opcode
  line : Line
  fp : Nat
  depth : Nat

namespace Taken

def event (t : Taken) : Event := .step t.ip t.op

def entry (t : Taken) : LogEntry :=
  ⟨.trace, "bpl_vm::exec", t.line.display, [("fp", t.fp.repr), ("depth", t.depth.repr)]⟩

end Taken

/-- The lines of a trace in the log. -/
def traceOf (notices : List Notice) : List LogEntry :=
  (notices.filterMap Notice.toLog?).filter fun entry => entry.level = .trace

/-- The notice is made for the trace only. -/
def Notice.isTraced : Notice → Bool
  | traced .. => true
  | _ => false

/-- What is let known besides the trace. -/
def untraced (notices : List Notice) : List Notice := notices.filter fun notice => !notice.isTraced

theorem traceOf_append (notices notices' : List Notice) :
    traceOf (notices ++ notices') = traceOf notices ++ traceOf notices' := by
  rw [traceOf, List.filterMap_append, List.filter_append]
  rfl

theorem untraced_append (notices notices' : List Notice) :
    untraced (notices ++ notices') = untraced notices ++ untraced notices' := List.filter_append ..

theorem traceOf_reported (kind : FaultKind) (ip : Nat) (report : Report) :
    traceOf [.faulted kind ip, .reported report] = [] := by
  cases h : report.isFatal <;> simp [traceOf, Notice.toLog?, h]

namespace Machine

variable {m : Machine} {start : Nat} {cause : Cause} {before before' : List Notice}

/-! ## The lines of a step -/

/-- The instruction that the next step takes. -/
def taken? (m : Machine) : Option Taken := do
  let d ← m.next?
  let line ← Listing.lineAt? m.program.code m.ip
  return ⟨m.ip, d.op, line, m.fp, m.stack.depth⟩

theorem exists_taken {d : Decoded} (hn : m.next? = some d) :
    ∃ line, Listing.lineAt? m.program.code m.ip = some line
      ∧ m.taken? = some ⟨m.ip, d.op, line, m.fp, m.stack.depth⟩ := by
  obtain ⟨word, hword, -⟩ := (decodes_of_next? hn).code
  obtain ⟨line, hline⟩ : ∃ line, Listing.lineAt? m.program.code m.ip = some line := by
    rw [Listing.lineAt?, hword]
    exact ⟨_, rfl⟩
  refine ⟨line, hline, ?_⟩
  rw [taken?, hn, hline]
  rfl

/-- The steps that some notices tell of and the lines of their trace are those of `taken`. -/
structure Shows (notices : List Notice) (trace : Bool) (taken : List Taken) : Prop where
  steps : (eventsOf notices).filter Event.isStep = taken.map Taken.event
  lines : traceOf notices = if trace then taken.map Taken.entry else []

theorem Shows.append {notices notices' : List Notice} {trace : Bool} {taken taken' : List Taken}
    (h : Shows notices trace taken) (h' : Shows notices' trace taken') :
    Shows (notices ++ notices') trace (taken ++ taken') where
  steps := by rw [eventsOf_append, List.filter_append, h.steps, h'.steps, List.map_append]
  lines := by
    rw [traceOf_append, h.lines, h'.lines]
    split
    · exact List.map_append.symm
    · rfl

theorem shows_announce {d : Decoded} (hn : m.next? = some d) :
    Shows (m.announce d.op) m.config.trace m.taken?.toList := by
  obtain ⟨line, hline, htaken⟩ := exists_taken hn
  constructor
  · rw [eventsOf_announce, htaken]
    rfl
  · rw [announce, htaken]
    split
    · rw [hline]
      rfl
    · rfl

theorem shows_reported (kind : FaultKind) (ip : Nat) (report : Report) (trace : Bool) :
    Shows [.faulted kind ip, .reported report] trace [] := by
  refine ⟨rfl, ?_⟩
  rw [traceOf_reported]
  split <;> rfl

theorem shows_raise {trace : Bool} {taken : List Taken} (h : Shows before trace taken) :
    Shows (m.raise start cause before).notices trace taken := by
  rw [raise_notices]
  have happend := h.append (shows_reported cause.kind start (m.reportOf start cause) trace)
  rw [List.append_nil] at happend
  exact happend

theorem Executes.shows {i : Instruction} {e : Execution} (h : m.Executes start i e) (trace : Bool) :
    Shows e.notices trace [] := by
  cases h <;> exact ⟨rfl, by cases trace <;> rfl⟩

/-- A step tells of the instruction that it takes, and of no other. -/
theorem shows_step (fits : m.stack.Fits) : Shows m.step.notices m.config.trace m.taken?.toList := by
  have h := steps m
  have hnone : (∀ d, m.next? ≠ some d) → m.taken?.toList = [] := fun hn => by
    rw [taken?, Option.eq_none_iff_forall_ne_some.2 hn]
    rfl
  have hempty : Shows [] m.config.trace [] := ⟨rfl, by split <;> rfl⟩
  generalize m.step = r at h
  cases h with
  | stopped hr =>
    rw [hnone fun d hn => hr (decodes_of_next? hn).running]
    exact hempty
  | ended hr hip =>
    rw [hnone fun d hn => by
      obtain ⟨word, hword, -⟩ := (decodes_of_next? hn).code
      cases hip.symm.trans hword]
    exact ⟨rfl, by split <;> rfl⟩
  | exhausted hr hip hb =>
    rw [hnone fun d hn => by cases hb.symm.trans (decodes_of_next? hn).within]
    exact shows_raise hempty
  | undecoded hr hip hb hd =>
    rw [hnone fun d hn => by
      obtain ⟨-, -, word, hword, hok⟩ := decode_of_next? hn
      cases hip.symm.trans hword
      cases hd.symm.trans hok]
    exact shows_raise hempty
  | @performed d hn =>
    have he := executes (m := m.fetch d) fits m.ip d.instruction
    have hshows := (shows_announce hn).append (he.shows m.config.trace)
    rw [List.append_nil] at hshows
    rw [settle]
    split
    · exact hshows
    · exact shows_raise hshows
    · exact hshows

/-! ## Without the trace -/

/-- The machine with the trace on or off. -/
def tracing (m : Machine) (trace : Bool) : Machine := { m with config := { m.config with trace } }

/-- The same reply of a machine with the trace on or off. -/
structure SameReply {α : Type} (trace : Bool) (r r' : Reply α) : Prop where
  machine_eq : r'.machine = r.machine.tracing trace
  result_eq : r'.result = r.result
  notices_eq : untraced r'.notices = untraced r.notices

variable {trace : Bool}

theorem under_eq_tracing (h : m.SameLimits m.config) (trace : Bool) :
    m.under { m.config with trace } = m.tracing trace := by
  have hstack : m.stack.withLimit m.config.maxStackDepth = m.stack := by
    rw [← h.stack]
    rfl
  have hreporter : { m.reporter with fatalTypeMismatch := m.config.fatalTypeMismatch } = m.reporter := by
    rw [← h.policy]
  rw [under, hstack, hreporter]
  rfl

theorem untraced_announce (m : Machine) (op : Opcode) : untraced (m.announce op) = [.stepped m.ip op] := by
  rw [announce]
  split
  · split <;> rfl
  · rfl

theorem sameReply_raise (h : untraced before' = untraced before) :
    SameReply trace (m.raise start cause before) ((m.tracing trace).raise start cause before') := by
  have hdelivery : (m.tracing trace).delivery start cause = m.delivery start cause := rfl
  have hreport : (m.tracing trace).reportOf start cause = m.reportOf start cause := rfl
  constructor
  case machine_eq =>
    rw [raise_machine, raise_machine, hdelivery, stopsAt, stopsAt, hdelivery, hreport]
    rfl
  case result_eq =>
    rw [raise_result, raise_result, hdelivery, hreport]
    rfl
  case notices_eq =>
    rw [raise_notices, raise_notices, untraced_append, untraced_append, h, hreport]

theorem sameReply_settle {e : Execution} (h : untraced before' = untraced before) :
    SameReply trace (settle start before e)
      (settle start before' { e with machine := e.machine.tracing trace }) := by
  have hnotices : untraced (before' ++ e.notices) = untraced (before ++ e.notices) := by
    rw [untraced_append, untraced_append, h]
  rw [settle, settle]
  dsimp only
  split
  · exact ⟨rfl, rfl, hnotices⟩
  · exact sameReply_raise hnotices
  · exact ⟨rfl, rfl, hnotices⟩

/-- An instruction does the same whether it is traced or not. -/
theorem execute_tracing (fits : m.stack.Fits) (h : m.SameLimits m.config) (trace : Bool) (start : Nat)
    (i : Instruction) : (m.tracing trace).execute start i
      = { m.execute start i with machine := (m.execute start i).machine.tracing trace } := by
  have hunder := under_eq_tracing h trace
  have hlimits : m.SameLimits { m.config with trace } := ⟨h.stack, h.calls, h.budget, h.policy⟩
  have hsame : (m.under { m.config with trace }).execute start i
      = (m.execute start i).under { m.config with trace } := by
    rcases execute_under hlimits.looser (hunder ▸ fits) start i with hsame | ⟨cause, hover, -⟩
    · exact hsame
    · exact absurd hlimits hover.not_same
  have hsettings := (executes fits start i).sameSettings
  rw [← hunder, hsame, Execution.under, ← under_eq_tracing, hsettings.config_eq]
  rw [hsettings.config_eq]
  exact hsettings.sameLimits h

theorem sameReply_step (fits : m.stack.Fits) (h : m.SameLimits m.config) (trace : Bool) :
    SameReply trace m.step (m.tracing trace).step := by
  have hsteps := steps m
  generalize hstep : m.step = r at hsteps
  cases hsteps with
  | stopped hr =>
    rw [step_of_stopped (m := m.tracing trace) hr]
    exact ⟨rfl, rfl, rfl⟩
  | ended hr hip =>
    rw [step_of_end (m := m.tracing trace) hr hip]
    exact ⟨rfl, rfl, rfl⟩
  | exhausted hr hip hb =>
    rw [step_of_exhausted (m := m.tracing trace) hr hip hb]
    exact sameReply_raise rfl
  | undecoded hr hip hb hd =>
    rw [step_of_decode_error (m := m.tracing trace) hr hip hb hd]
    exact sameReply_raise (m := { m with executed := m.executed + 1 }) rfl
  | @performed d hn =>
    have hfetch : (m.fetch d).SameLimits (m.fetch d).config := ⟨h.stack, h.calls, h.budget, h.policy⟩
    have hexecute := execute_tracing (m := m.fetch d) fits hfetch trace m.ip d.instruction
    rw [step_of_next? (m := m.tracing trace) hn]
    change SameReply trace _ (settle m.ip _ (((m.fetch d).tracing trace).execute m.ip d.instruction))
    rw [hexecute]
    refine sameReply_settle ?_
    rw [untraced_announce, untraced_announce]
    rfl

theorem sameReply_load (m : Machine) (args : List Value) (trace : Bool) :
    SameReply trace (m.load args) ((m.tracing trace).load args) := by
  have hexecuted : (m.tracing trace).executed = m.executed := rfl
  have hstack : (m.tracing trace).stack = m.stack := rfl
  rw [load, load, hexecuted, hstack]
  split
  · exact ⟨rfl, rfl, rfl⟩
  · cases m.stack.reserve (args.length + 2) <;> exact ⟨rfl, rfl, rfl⟩

theorem finish_tracing (m : Machine) (trace : Bool) :
    (m.tracing trace).finish = (m.finish.1.tracing trace, m.finish.2) := by
  have hsink : (m.tracing trace).sink = m.sink := rfl
  rw [finish, finish, hsink]
  rcases m.sink.flush with ⟨sink, _ | failure⟩ <;> rfl

end Machine

end StackMachine
