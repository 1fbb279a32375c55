import StackMachine.Machine.Watch
import StackMachine.Proofs.Machine.Faults

/-!
What a debugger is told.  The events of a step account for what the step changes: the calls that are active, the
faults that have been counted and the instructions that have been executed.  These accounts add up over a run.
-/

set_option autoImplicit false

namespace StackMachine

namespace Event

def isStep : Event → Bool
  | step .. => true
  | _ => false

def isEnter : Event → Bool
  | enter .. => true
  | _ => false

def isExit : Event → Bool
  | exit .. => true
  | _ => false

def isFault : Event → Bool
  | fault .. => true
  | _ => false

/-- A fault of a word that is no instruction. -/
def isUndecoded : Event → Bool
  | fault kind _ => kind ∈ [.unknownOpcode, .truncatedInstruction]
  | _ => false

end Event

/-- The events among some notices. -/
def eventsOf (notices : List Notice) : List Event := notices.filterMap Notice.toEvent?

/-- Every fault of an instruction comes right after the step to the same address. -/
def Announced (events : List Event) : Prop :=
  ∀ before after kind ip, events = before ++ .fault kind ip :: after → kind ∉ Machine.beforeDecoding →
    ∃ earlier op, before = earlier ++ [.step ip op]

theorem announced_of_no_fault {events : List Event} (h : ∀ event ∈ events, event.isFault = false) :
    Announced events := by
  rintro before after kind ip rfl -
  cases h (.fault kind ip) (by simp)

theorem announced_step_fault (ip : Nat) (op : Opcode) (kind : FaultKind) :
    Announced [.step ip op, .fault kind ip] := by
  rintro before after kind' ip' heq -
  rcases before with _ | ⟨first, _ | ⟨second, rest⟩⟩
  · cases heq
  · cases heq
    exact ⟨[], op, rfl⟩
  · have hlength := congrArg List.length heq
    simp only [List.length_append, List.length_cons, List.length_nil] at hlength
    omega

/-- A fault that is raised without an instruction. -/
theorem announced_fault {kind : FaultKind} (h : kind ∈ Machine.beforeDecoding) (ip : Nat) :
    Announced [.fault kind ip] := by
  rintro before after kind' ip' heq hkind
  rcases List.singleton_eq_append_iff.1 heq with ⟨-, hcons⟩ | ⟨-, hcons⟩
  · cases hcons
    exact absurd h hkind
  · cases hcons

theorem Announced.append {events events' : List Event} (h : Announced events) (h' : Announced events') :
    Announced (events ++ events') := by
  intro before after kind ip heq hkind
  rcases List.append_eq_append_iff.1 heq with ⟨before', rfl, hrest⟩ | ⟨after', hevents, hrest⟩
  · obtain ⟨earlier, op, rfl⟩ := h' before' after kind ip hrest hkind
    exact ⟨events ++ earlier, op, (List.append_assoc ..).symm⟩
  · cases after' with
    | nil =>
      obtain ⟨earlier, op, hnil⟩ := h' [] after kind ip hrest.symm hkind
      simp at hnil
    | cons event after' =>
      obtain ⟨rfl, -⟩ := List.cons.inj hrest
      exact h before after' kind ip hevents hkind

namespace Machine

variable {m m' m'' : Machine} {start : Nat} {cause : Cause} {events events' : List Event}

/-- What the events on the way from one machine to another say about both. -/
structure Accounts (m m' : Machine) (events : List Event) : Prop where
  /-- A machine that has stopped stays so, and nothing is told any more. -/
  stopped : m.state ≠ .running → events = [] ∧ m'.state ≠ .running
  calls : m'.state = .running →
    m'.callDepth + events.countP Event.isExit = m.callDepth + events.countP Event.isEnter
  faults : m'.reporter.count = m.reporter.count + events.countP Event.isFault
  executed : m'.executed = m.executed + events.countP Event.isStep + events.countP Event.isUndecoded
  /-- A word that is no instruction is the last that is told of. -/
  undecoded : (m'.state = .running → ∀ event ∈ events, event.isUndecoded = false)
    ∧ ∀ event ∈ events.dropLast, event.isUndecoded = false
  announced : Announced events

/-- Nothing is told where nothing changes that is counted. -/
theorem accounts_silent (hstate : m.state ≠ .running → m'.state ≠ .running)
    (hcalls : m'.state = .running → m'.callDepth = m.callDepth) (hfaults : m'.reporter.count = m.reporter.count)
    (hexecuted : m'.executed = m.executed) : m.Accounts m' [] where
  stopped h := ⟨rfl, hstate h⟩
  calls := hcalls
  faults := hfaults
  executed := hexecuted
  undecoded := ⟨fun _ => nofun, nofun⟩
  announced := announced_of_no_fault nofun

theorem Accounts.refl (m : Machine) : m.Accounts m [] := accounts_silent id (fun _ => rfl) rfl rfl

theorem Accounts.trans (h : m.Accounts m' events) (h' : m'.Accounts m'' events') :
    m.Accounts m'' (events ++ events') := by
  have hrunning : m''.state = .running → m'.state = .running := fun hr =>
    Decidable.not_not.1 fun hstopped => (h'.stopped hstopped).2 hr
  constructor
  case stopped =>
    intro hr
    obtain ⟨rfl, hr'⟩ := h.stopped hr
    exact h'.stopped hr'
  case calls =>
    intro hr
    have hcalls := h.calls (hrunning hr)
    have hcalls' := h'.calls hr
    rw [List.countP_append, List.countP_append]
    omega
  case faults =>
    rw [h'.faults, h.faults, List.countP_append, Nat.add_assoc]
  case executed =>
    rw [h'.executed, h.executed, List.countP_append, List.countP_append]
    omega
  case undecoded =>
    refine ⟨fun hr => List.forall_mem_append.2 ⟨h.undecoded.1 (hrunning hr), h'.undecoded.1 hr⟩, ?_⟩
    by_cases hr : m'.state = .running
    · cases events' with
      | nil =>
        rw [List.append_nil]
        exact h.undecoded.2
      | cons event events' =>
        rw [List.dropLast_append_of_ne_nil (List.cons_ne_nil _ _)]
        exact List.forall_mem_append.2 ⟨h.undecoded.1 hr, h'.undecoded.2⟩
    · rw [(h'.stopped hr).1, List.append_nil]
      exact h.undecoded.2
  case announced => exact h.announced.append h'.announced

/-! ## One step -/

theorem eventsOf_append (notices notices' : List Notice) :
    eventsOf (notices ++ notices') = eventsOf notices ++ eventsOf notices' := List.filterMap_append

theorem eventsOf_announce (m : Machine) (op : Opcode) : eventsOf (m.announce op) = [.step m.ip op] := by
  rw [announce]
  split
  · split <;> rfl
  · rfl

theorem eventsOf_raise {before : List Notice} :
    eventsOf (m.raise start cause before).notices = eventsOf before ++ [.fault cause.kind start] := by
  rw [raise_notices, eventsOf_append]
  rfl

/-- A fault that cannot be survived stops the machine. -/
theorem stopsAt_of_not_recoverable (h : cause.kind.isRecoverable = false) : m.stopsAt start cause = true := by
  rw [stopsAt, isFatal_reportOf, h]
  exact Bool.or_true _

/-- Raising a fault before any instruction is decoded. -/
theorem accounts_raise (hr : m.state = .running) (hkind : cause.kind ∈ beforeDecoding) {executed : Nat}
    (hexecuted : executed = m.executed + [Event.fault cause.kind start].countP Event.isUndecoded) :
    m.Accounts ({ m with executed }.raise start cause []).machine
      (eventsOf ({ m with executed }.raise start cause []).notices) := by
  have hfatal : ∀ kind ∈ beforeDecoding, kind.isRecoverable = false := of_decide_eq_true rfl
  have hstops : { m with executed }.stopsAt start cause = true := stopsAt_of_not_recoverable (hfatal _ hkind)
  rw [eventsOf_raise, raise_machine, hstops]
  constructor
  case stopped => exact absurd hr
  case calls => exact nofun
  case faults => rfl
  case executed => exact hexecuted
  case undecoded => exact ⟨nofun, nofun⟩
  case announced => exact announced_fault hkind start

/-- An instruction that has been taken, with what it tells of frames. -/
theorem accounts_taken {op : Opcode} (hr : m.state = .running) (hfaults : events.countP Event.isFault = 0)
    (hsteps : events.countP Event.isStep = 0) (hcount : m'.reporter.count = m.reporter.count)
    (hexecuted : m'.executed = m.executed + 1)
    (hcalls : m'.state = .running →
      m'.callDepth + events.countP Event.isExit = m.callDepth + events.countP Event.isEnter) :
    m.Accounts m' (.step m.ip op :: events) := by
  have hnofault : ∀ event ∈ Event.step m.ip op :: events, event.isFault = false :=
    List.forall_mem_cons.2 ⟨rfl, by simpa using hfaults⟩
  have hundecoded : ∀ event ∈ Event.step m.ip op :: events, event.isUndecoded = false := by
    intro event hmem
    cases event with
    | fault kind ip => cases hnofault _ hmem
    | _ => rfl
  have hnone : (Event.step m.ip op :: events).countP Event.isUndecoded = 0 := by
    simpa using hundecoded
  constructor
  case stopped => exact absurd hr
  case calls => exact hcalls
  case faults =>
    rw [hcount, List.countP_cons, hfaults]
    rfl
  case executed =>
    rw [hexecuted, hnone, List.countP_cons, hsteps]
    rfl
  case undecoded => exact ⟨fun _ => hundecoded, fun event hmem => hundecoded event (List.dropLast_subset _ hmem)⟩
  case announced => exact announced_of_no_fault hnofault

/-- An instruction that has been taken and is refused. -/
theorem accounts_refused {d : Decoded} (hr : m.state = .running) (hkind : cause.kind ∉ beforeDecoding) :
    m.Accounts ((m.fetch d).raise m.ip cause (m.announce d.op ++ [])).machine
      (eventsOf ((m.fetch d).raise m.ip cause (m.announce d.op ++ [])).notices) := by
  have hsub : ∀ kind ∈ [FaultKind.unknownOpcode, .truncatedInstruction], kind ∈ beforeDecoding :=
    of_decide_eq_true rfl
  have hundecoded : ∀ event ∈ [Event.step m.ip d.op, .fault cause.kind m.ip], event.isUndecoded = false :=
    List.forall_mem_cons.2 ⟨rfl, List.forall_mem_singleton.2 (decide_eq_false fun hmem => hkind (hsub _ hmem))⟩
  have hnone : [Event.step m.ip d.op, .fault cause.kind m.ip].countP Event.isUndecoded = 0 := by
    rw [List.countP_eq_zero]
    exact fun event hmem => ne_true_of_eq_false (hundecoded event hmem)
  rw [eventsOf_raise, raise_machine, List.append_nil, eventsOf_announce]
  constructor
  case stopped => exact absurd hr
  case calls => exact fun _ => rfl
  case faults => rfl
  case executed =>
    rw [List.singleton_append, hnone]
    rfl
  case undecoded => exact ⟨fun _ => hundecoded, fun event hmem => hundecoded event (List.dropLast_subset _ hmem)⟩
  case announced => exact announced_step_fault m.ip d.op cause.kind

/-- An instruction that has been taken, whatever comes of it. -/
theorem Executes.accounts {d : Decoded} {e : Execution} (hn : m.next? = some d)
    (h : (m.fetch d).Executes m.ip d.instruction e) :
    m.Accounts (settle m.ip (m.announce d.op) e).machine
      (eventsOf (settle m.ip (m.announce d.op) e).notices) := by
  have hr := (decodes_of_next? hn).running
  cases h with
  | refused h => exact accounts_refused hr h.refusal.kind_notMem
  | unwritten =>
    change m.Accounts _ (eventsOf (m.announce d.op ++ []))
    rw [eventsOf_append, eventsOf_announce]
    exact accounts_taken hr rfl rfl rfl rfl nofun
  | written | computed | went =>
    change m.Accounts _ (eventsOf (m.announce d.op ++ []))
    rw [eventsOf_append, eventsOf_announce]
    exact accounts_taken hr rfl rfl rfl rfl fun _ => rfl
  | halted =>
    change m.Accounts _ (eventsOf (m.announce d.op ++ [_]))
    rw [eventsOf_append, eventsOf_announce]
    exact accounts_taken hr rfl rfl rfl rfl nofun
  | called =>
    change m.Accounts _ (eventsOf (m.announce d.op ++ [_]))
    rw [eventsOf_append, eventsOf_announce]
    exact accounts_taken hr rfl rfl rfl rfl fun _ => rfl
  | resumed hi hresult he =>
    change m.Accounts _ (eventsOf (m.announce d.op ++ [_, _]))
    rw [eventsOf_append, eventsOf_announce]
    refine accounts_taken hr rfl rfl rfl rfl fun _ => ?_
    obtain ⟨-, rest, hrest⟩ := frameExit_resume he
    have hheight : m.returns.height = rest.length + 1 :=
      m.returns.height_eq.trans (congrArg List.length hrest)
    change m.returns.height - 1 + 1 = m.returns.height
    omega
  | finished =>
    change m.Accounts _ (eventsOf (m.announce d.op ++ [_, _]))
    rw [eventsOf_append, eventsOf_announce]
    exact accounts_taken hr rfl rfl rfl rfl nofun

/-- The events of a step account for what it changes. -/
theorem accounts_step (fits : m.stack.Fits) : m.Accounts m.step.machine (eventsOf m.step.notices) := by
  have h := steps m
  generalize m.step = r at h
  cases h with
  | stopped => exact .refl m
  | ended hr => exact accounts_silent (absurd hr) nofun rfl rfl
  | exhausted hr => exact accounts_raise hr (of_decide_eq_true rfl) rfl
  | undecoded hr _ _ hd =>
    rcases decode_eq_error hd with ⟨-, rfl⟩ | ⟨op, -, -, rfl⟩ <;>
      exact accounts_raise hr (of_decide_eq_true rfl) rfl
  | performed hn => exact (executes (m := m.fetch _) fits _ _).accounts hn

end Machine

end StackMachine
