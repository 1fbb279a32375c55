import StackMachine.Machine.Step

/-!
Output.  A sink that never fails takes each text as a whole; of a text that does not fit any more, a sink with
a capacity takes what fits and then fails.
-/

set_option autoImplicit false

namespace StackMachine

/-! ## Octets -/

namespace ByteString

variable {s t : ByteString} {n : Nat}

theorem length_append (s t : ByteString) : (s ++ t).length = s.length + t.length := Array.size_append

theorem length_take (s : ByteString) (n : Nat) : (s.take n).length = min n s.length := by
  simp [take, length]

theorem append_empty (s : ByteString) : s ++ empty = s := congrArg ByteString.mk Array.append_empty

theorem append_assoc (s t u : ByteString) : s ++ t ++ u = s ++ (t ++ u) :=
  congrArg ByteString.mk Array.append_assoc

theorem take_of_length_le (h : s.length ≤ n) : s.take n = s := by
  rw [take, Array.take_eq_extract, Array.extract_eq_self_of_le h]

theorem take_append_of_length_le (h : s.length ≤ n) (t : ByteString) :
    (s ++ t).take n = s ++ t.take (n - s.length) := by
  have hs : s.octets.extract 0 n = s.octets := Array.extract_eq_self_of_le h
  change ByteString.mk ((s.octets ++ t.octets).take n) = ⟨s.octets ++ t.octets.take (n - s.octets.size)⟩
  rw [Array.take_eq_extract, Array.take_eq_extract, Array.extract_append, hs, Nat.zero_sub]

end ByteString

/-! ## Sinks -/

namespace Sink

variable {s t u : Sink} {text : String} {c : Nat}

/-- The sink takes everything and delivers it. -/
structure NeverFails (s : Sink) : Prop where
  capacity_eq : s.capacity = none
  flushes_eq : s.flushes = true
  outage_eq : ∀ requests, s.outage? requests = none

theorem NeverFails.write_eq (h : s.NeverFails) (text : String) :
    s.write text = (s.accept (.ofString text), none) := by
  simp [write, fit, room, h.outage_eq, h.capacity_eq]

theorem NeverFails.flush_eq (h : s.NeverFails) :
    s.flush = ({ s with requests := s.requests + 1 }, none) := by
  simp [flush, h.outage_eq, h.flushes_eq]

theorem NeverFails.accept (h : s.NeverFails) (piece : ByteString) : (s.accept piece).NeverFails :=
  ⟨h.capacity_eq, h.flushes_eq, h.outage_eq⟩

theorem NeverFails.flush (h : s.NeverFails) : s.flush.1.NeverFails := by
  rw [h.flush_eq]
  exact ⟨h.capacity_eq, h.flushes_eq, h.outage_eq⟩

theorem neverFails_unlimited : unlimited.NeverFails := ⟨rfl, rfl, fun _ => rfl⟩

theorem written_accept (s : Sink) (piece : ByteString) : (s.accept piece).written = s.written ++ piece := rfl

theorem written_flush (s : Sink) : s.flush.1.written = s.written := rfl

/-- The sink never fails and knows how much it has taken. -/
structure IsFree (s : Sink) : Prop extends s.NeverFails where
  size_eq : s.size = s.written.length

theorem isFree_unlimited : unlimited.IsFree := ⟨neverFails_unlimited, rfl⟩

/-- `t` is free, and has taken all that `s` has and maybe more. -/
structure Extends (s t : Sink) : Prop where
  free : t.IsFree
  written : ∃ more, t.written = s.written ++ more

theorem IsFree.extends_self (h : s.IsFree) : s.Extends s := ⟨h, .empty, (ByteString.append_empty _).symm⟩

theorem Extends.trans (h : s.Extends t) (h' : t.Extends u) : s.Extends u := by
  obtain ⟨more, hmore⟩ := h.written
  obtain ⟨more', hmore'⟩ := h'.written
  exact ⟨h'.free, more ++ more', by rw [hmore', hmore, ByteString.append_assoc]⟩

theorem Extends.size_le (hs : s.IsFree) (h : s.Extends t) : s.size ≤ t.size := by
  obtain ⟨more, hmore⟩ := h.written
  rw [hs.size_eq, h.free.size_eq, hmore, ByteString.length_append]
  exact Nat.le_add_right _ _

theorem IsFree.accept (h : s.IsFree) (piece : ByteString) : s.Extends (s.accept piece) := by
  refine ⟨⟨h.toNeverFails.accept piece, ?_⟩, piece, rfl⟩
  rw [written_accept, ByteString.length_append, ← h.size_eq]
  rfl

theorem IsFree.flush (h : s.IsFree) : s.Extends s.flush.1 :=
  ⟨⟨h.toNeverFails.flush, h.size_eq⟩, .empty, (ByteString.append_empty _).symm⟩

/-! ## A capacity -/

/-- The sink with room for `c` octets in all. -/
def capped (s : Sink) (c : Nat) : Sink := { s with capacity := some c }

theorem flush_capped (h : s.NeverFails) : (s.capped c).flush = (s.flush.1.capped c, none) := by
  simp [flush, capped, h.outage_eq, h.flushes_eq]

/-- A text that fits is taken whatever the room. -/
theorem write_capped_of_le (h : s.NeverFails) (hle : (s.write text).1.size ≤ c) :
    (s.capped c).write text = ((s.write text).1.capped c, none) := by
  rw [h.write_eq] at hle ⊢
  change s.size + (ByteString.ofString text).length ≤ c at hle
  have hfit : (s.capped c).fit (.ofString text) = .ofString text :=
    ByteString.take_of_length_le (show _ ≤ c - s.size by omega)
  have houtage : (s.capped c).outage? (s.capped c).requests = none := h.outage_eq _
  rw [write, hfit, houtage]
  simp only [if_true]
  rfl

/-- Of a text that does not fit, the part that fits is taken. -/
theorem write_capped_of_lt (h : s.IsFree) (hs : s.size ≤ c) (hlt : c < (s.write text).1.size) :
    ∃ sink, (s.capped c).write text = (sink, some .full)
      ∧ sink.written = (s.write text).1.written.take c := by
  rw [h.write_eq] at hlt ⊢
  change c < s.size + (ByteString.ofString text).length at hlt
  have hfit : (s.capped c).fit (.ofString text) = (ByteString.ofString text).take (c - s.size) := rfl
  have houtage : (s.capped c).outage? (s.capped c).requests = none := h.outage_eq _
  have hlen : ((ByteString.ofString text).take (c - s.size)).length ≠ (ByteString.ofString text).length := by
    rw [ByteString.length_take]
    omega
  refine ⟨_, by rw [write, hfit, houtage]; exact congrArg (Prod.mk _) (if_neg hlen), ?_⟩
  rw [h.size_eq] at hs ⊢
  rw [written_accept, written_accept, ByteString.take_append_of_length_le hs]
  rfl

end Sink

namespace Machine

variable {sink : Sink} {c : Nat}

/-! ## Reports -/

theorem deliver_eq (h : sink.NeverFails) (report : Report) :
    deliver sink report = ((sink.write report.display).1.flush.1, none) := by
  rw [deliver, h.write_eq]
  dsimp only
  rw [(h.accept _).flush_eq]

theorem deliver_extends (h : sink.IsFree) (report : Report) : sink.Extends (deliver sink report).1 := by
  have haccept := h.accept (.ofString report.display)
  rw [deliver_eq h.toNeverFails, h.write_eq]
  exact haccept.trans haccept.free.flush

theorem deliver_capped_of_le {report : Report} (h : sink.NeverFails)
    (hle : (deliver sink report).1.size ≤ c) :
    deliver (sink.capped c) report = ((deliver sink report).1.capped c, none) := by
  rw [deliver_eq h, h.write_eq] at hle
  have hwrite : (sink.write report.display).1.size ≤ c := by
    rw [h.write_eq]
    exact hle
  rw [deliver, Sink.write_capped_of_le h hwrite, deliver_eq h, h.write_eq]
  exact Sink.flush_capped (h.accept _)

theorem deliver_capped_of_lt {report : Report} (h : sink.IsFree) (hs : sink.size ≤ c)
    (hlt : c < (deliver sink report).1.size) :
    ∃ full, deliver (sink.capped c) report = (full, some .full)
      ∧ full.written = (deliver sink report).1.written.take c := by
  rw [deliver_eq h.toNeverFails] at hlt ⊢
  obtain ⟨full, hwrite, hwritten⟩ := Sink.write_capped_of_lt h hs hlt
  exact ⟨full, by rw [deliver, hwrite], hwritten⟩

end Machine

end StackMachine
