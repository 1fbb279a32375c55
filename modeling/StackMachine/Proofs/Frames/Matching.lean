/-!
Calls and returns in order.  A history of them is balanced when every return resumes at the address behind
the latest call that has not returned yet; the calls that are pending are those left over.
-/

set_option autoImplicit false

namespace StackMachine

/-- What a step does to the active calls: there is one more, to be resumed at an address, or the latest one
is resumed at an address. -/
inductive Transfer where
  | call (continuation : Nat)
  | resume (address : Nat)
  deriving DecidableEq

namespace Transfer

variable {past later : List Transfer} {address : Nat} {pending : List Nat}

/-- Every call is matched by a return that resumes behind it, and between them all calls are matched too. -/
inductive Balanced : List Transfer → Prop
  | nil : Balanced []
  | matched {inner rest : List Transfer} (address : Nat) (hinner : Balanced inner)
    (hrest : Balanced rest) : Balanced (.call address :: (inner ++ .resume address :: rest))

/-- The addresses behind the calls that no return matches, the earliest call first. -/
inductive Pending : List Transfer → List Nat → Prop
  | none {past : List Transfer} (h : Balanced past) : Pending past []
  | call {past later : List Transfer} {pending : List Nat} (address : Nat) (h : Pending past pending)
    (hlater : Balanced later) : Pending (past ++ .call address :: later) (pending ++ [address])

/-! ## One more transfer -/

theorem Balanced.append (h : Balanced past) (h' : Balanced later) : Balanced (past ++ later) := by
  induction h with
  | nil => exact h'
  | @matched inner rest address hinner _ _ ih =>
    rw [List.cons_append, List.append_assoc, List.cons_append]
    exact .matched address hinner ih

theorem Pending.append (h : Pending past pending) (h' : Balanced later) : Pending (past ++ later) pending := by
  cases h with
  | none h => exact .none (h.append h')
  | call address h hlater =>
    rw [List.append_assoc, List.cons_append]
    exact .call address h (hlater.append h')

theorem Pending.push (h : Pending past pending) (address : Nat) :
    Pending (past ++ [.call address]) (pending ++ [address]) := .call address h .nil

/-- A return that resumes behind the latest pending call matches it. -/
theorem Pending.pop (h : Pending past (pending ++ [address])) :
    Pending (past ++ [.resume address]) pending := by
  generalize hall : pending ++ [address] = all at h
  cases h with
  | none => simp at hall
  | @call past later pending' address' h hlater =>
    obtain ⟨rfl, hlast⟩ := List.append_inj' hall rfl
    cases hlast
    rw [List.append_assoc, List.cons_append]
    exact h.append (.matched address hlater .nil)

/-! ## The pending calls are determined -/

/-- The pending calls after a history, the latest first, when those in `pending` were there before. -/
def unmatched (pending : List Nat) : List Transfer → List Nat
  | [] => pending
  | .call address :: later => unmatched (address :: pending) later
  | .resume _ :: later => unmatched pending.tail later

theorem Balanced.unmatched_append (h : Balanced past) (pending : List Nat) (later : List Transfer) :
    unmatched pending (past ++ later) = unmatched pending later := by
  induction h generalizing pending later with
  | nil => rfl
  | @matched inner rest address _ _ ihinner ihrest =>
    rw [List.cons_append, unmatched, List.append_assoc, ihinner, List.cons_append, unmatched]
    exact ihrest pending later

theorem unmatched_append (pending : List Nat) (past later : List Transfer) :
    unmatched pending (past ++ later) = unmatched (unmatched pending past) later := by
  induction past generalizing pending with
  | nil => rfl
  | cons transfer past ih => cases transfer <;> exact ih _

theorem Pending.unmatched_eq (h : Pending past pending) : unmatched [] past = pending.reverse := by
  induction h with
  | @none past h =>
    have heq := h.unmatched_append [] []
    rw [List.append_nil] at heq
    exact heq
  | @call past later pending address _ hlater ih =>
    have heq := hlater.unmatched_append (address :: pending.reverse) []
    rw [List.append_nil] at heq
    rw [unmatched_append, ih, unmatched, heq, List.reverse_append]
    rfl

theorem Pending.unique {pending' : List Nat} (h : Pending past pending) (h' : Pending past pending') :
    pending' = pending := by
  rw [← List.reverse_inj, ← h.unmatched_eq, ← h'.unmatched_eq]

end Transfer

end StackMachine
