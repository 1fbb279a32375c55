import Mathlib.Data.List.Induction
import StackMachine.Program.Builder
import StackMachine.Proofs.Program.Layout

/-!
The listing of an assembled program.  As long as every operation is emitted with the operands that it takes
and only operands are patched, the listing of the program is the sequence of the emitted instructions: where
they were emitted, with their operands as the last patch left them.
-/

set_option autoImplicit false

namespace StackMachine.Builder

open Listing

/-! ## Sequences of calls -/

/-- One call of a builder. -/
inductive Call where
  | emit (op : Opcode) (operands : List Word)
  | emitOp (op : Opcode)
  | emitAll (ops : List Opcode)
  | pushInt (n : Int64)
  | pushReal (x : Float)
  | pushString (text : String)
  | addInt (n : Int64)
  | addReal (x : Float)
  | addString (text : String)
  | patch (address word : Word)

def Call.apply (b : Builder) : Call → Builder
  | .emit op operands => b.emit op operands
  | .emitOp op => b.emit op []
  | .emitAll ops => b.emitAll ops
  | .pushInt n => b.pushInt n
  | .pushReal x => b.pushReal x
  | .pushString text => b.pushString text
  | .addInt n => b.addInt n
  | .addReal x => b.addReal x
  | .addString text => b.addString text
  | .patch address word => b.patch address word

/-- A new builder after the calls. -/
def assemble (calls : List Call) : Builder := calls.foldl Call.apply empty

/-- The word that a call writes into a slot by patching it. -/
def Call.patchOf? (slot : Nat) : Call → Option Word
  | .patch address word => if Word.index? address = some slot then some word else none
  | _ => none

/-- A word in a slot after the calls: that of the last patch, if there is one. -/
def patchedBy (calls : List Call) (slot : Nat) (word : Word) : Word :=
  (calls.filterMap (Call.patchOf? slot)).getLast?.getD word

/-! ## Emitted instructions -/

/-- An instruction that is emitted, between the builder just before and the calls after the one that emits
it. -/
structure Emission where
  before : Builder
  op : Opcode
  operands : List Word
  later : List Call

namespace Emission

/-- Where the instruction begins. -/
def address (e : Emission) : Nat := e.before.program.code.size

/-- The slot is one of the operands. -/
def Holds (e : Emission) (slot : Nat) : Prop :=
  e.address < slot ∧ slot ≤ e.address + e.operands.length

instance (e : Emission) (slot : Nat) : Decidable (e.Holds slot) :=
  inferInstanceAs (Decidable (_ ∧ _))

/-- How the listing shows the instruction in the end. -/
def line (e : Emission) : Line where
  address := e.address
  word := e.op.word
  op := some e.op
  operands := e.operands.mapIdx fun i word => some (patchedBy e.later (e.address + 1 + i) word)

/-- The emission with more calls after it. -/
def followedBy (more : List Call) (e : Emission) : Emission := { e with later := e.later ++ more }

@[simp]
theorem address_followedBy (more : List Call) (e : Emission) :
    (e.followedBy more).address = e.address := rfl

@[simp]
theorem operands_followedBy (more : List Call) (e : Emission) :
    (e.followedBy more).operands = e.operands := rfl

@[simp]
theorem later_followedBy (more : List Call) (e : Emission) :
    (e.followedBy more).later = e.later ++ more := rfl

end Emission

/-- What is emitted for operations without operands, one after the other. -/
def emissionsOfAll (later : List Call) (b : Builder) : List Opcode → List Emission
  | [] => []
  | op :: ops => ⟨b, op, [], later⟩ :: emissionsOfAll later (b.emit op []) ops

/-- What one call emits. -/
def Call.emissions (later : List Call) (b : Builder) : Call → List Emission
  | .emit op operands => [⟨b, op, operands, later⟩]
  | .emitOp op => [⟨b, op, [], later⟩]
  | .emitAll ops => emissionsOfAll later b ops
  | .pushInt n =>
    match shortInt? n with
    | some op => [⟨b, op, [], later⟩]
    | none => [⟨b.addInt n, .iconst, [b.nextInt], later⟩]
  | .pushReal x => [⟨b.addReal x, .rconst, [b.nextReal], later⟩]
  | .pushString text => [⟨b.addString text, .sconst, [b.nextString], later⟩]
  | .addInt _ | .addReal _ | .addString _ | .patch _ _ => []

def emittedFrom (b : Builder) : List Call → List Emission
  | [] => []
  | call :: later => call.emissions later b ++ emittedFrom (call.apply b) later

/-- What the calls emit, in order. -/
def emitted (calls : List Call) : List Emission := emittedFrom empty calls

/-! ## Proper calls -/

/-- The call emits every operation with the operands that it takes, and if it patches a word of the code
then an operand of an instruction that the earlier calls emitted. -/
structure Call.IsProperAfter (earlier : List Call) (call : Call) : Prop where
  arity : ∀ e ∈ call.emissions [] (assemble earlier), e.operands.length = e.op.arity
  slot : ∀ slot < (assemble earlier).program.code.size, (call.patchOf? slot).isSome →
    ∃ e ∈ emitted earlier, e.Holds slot

/-- Every call is proper after the calls before it. -/
def AreProper (calls : List Call) : Prop :=
  ∀ (i : Nat) (h : i < calls.length), calls[i].IsProperAfter (calls.take i)

instance (earlier : List Call) (call : Call) : Decidable (call.IsProperAfter earlier) :=
  decidable_of_iff (_ ∧ _) ⟨fun ⟨h₁, h₂⟩ => ⟨h₁, h₂⟩, fun ⟨h₁, h₂⟩ => ⟨h₁, h₂⟩⟩

instance (calls : List Call) : Decidable (AreProper calls) :=
  inferInstanceAs (Decidable (∀ (i : Nat) (h : i < calls.length), calls[i].IsProperAfter (calls.take i)))

variable {b : Builder} {lines : List Line} {calls : List Call} {call : Call} {e : Emission}

theorem assemble_concat (calls : List Call) (call : Call) :
    assemble (calls ++ [call]) = call.apply (assemble calls) := by
  rw [assemble, assemble, List.foldl_append, List.foldl_cons, List.foldl_nil]

theorem areProper_concat : AreProper (calls ++ [call]) ↔ AreProper calls ∧ call.IsProperAfter calls := by
  constructor
  · intro h
    refine ⟨fun i hi => ?_, ?_⟩
    · have := h i (by simp; omega)
      rwa [List.getElem_append_left hi, List.take_append_of_le_length (Nat.le_of_lt hi)] at this
    · have := h calls.length (by simp)
      rwa [List.getElem_concat_length rfl, List.take_left] at this
  · rintro ⟨h, hcall⟩ i hi
    rcases Nat.lt_or_ge i calls.length with hlt | hge
    · rw [List.getElem_append_left hlt, List.take_append_of_le_length (Nat.le_of_lt hlt)]
      exact h i hlt
    · obtain rfl : i = calls.length := by
        rw [List.length_append, List.length_singleton] at hi
        omega
      rwa [List.getElem_concat_length rfl, List.take_left]

/-! ## Emissions of longer sequences -/

theorem emissionsOfAll_append (later more : List Call) (ops : List Opcode) (b : Builder) :
    emissionsOfAll (later ++ more) b ops
      = (emissionsOfAll later b ops).map (Emission.followedBy more) := by
  induction ops generalizing b with
  | nil => rfl
  | cons op ops ih => rw [emissionsOfAll, ih, emissionsOfAll, List.map_cons, Emission.followedBy]

theorem Call.emissions_append (later more : List Call) (b : Builder) (call : Call) :
    call.emissions (later ++ more) b = (call.emissions later b).map (Emission.followedBy more) := by
  cases call with
  | emitAll ops => exact emissionsOfAll_append later more ops b
  | pushInt n =>
    rw [emissions, emissions]
    cases shortInt? n <;> rfl
  | _ => rfl

theorem emittedFrom_concat (b : Builder) (calls : List Call) (call : Call) :
    emittedFrom b (calls ++ [call]) = (emittedFrom b calls).map (Emission.followedBy [call])
      ++ call.emissions [] (calls.foldl Call.apply b) := by
  induction calls generalizing b with
  | nil => exact List.append_nil _
  | cons first calls ih =>
    rw [List.cons_append, emittedFrom, ih, Call.emissions_append, emittedFrom, List.map_append,
      List.append_assoc, List.foldl_cons]

theorem patchedBy_concat (calls : List Call) (call : Call) (slot : Nat) (word : Word) :
    patchedBy (calls ++ [call]) slot word = (call.patchOf? slot).getD (patchedBy calls slot word) := by
  rw [patchedBy, List.filterMap_append, List.getLast?_append]
  cases h : call.patchOf? slot <;> simp [h, patchedBy]

theorem Emission.next_line (e : Emission) : e.line.next = e.address + 1 + e.operands.length := by
  rw [Line.next, line, List.length_mapIdx]

theorem Emission.holds_line {slot : Nat} : e.line.Holds slot ↔ e.Holds slot := by
  have haddress : e.line.address = e.address := rfl
  rw [Line.Holds, next_line, Holds, haddress]
  omega

/-- An instruction with nothing after it is listed as it was emitted. -/
theorem Emission.line_of_later_nil (h : e.later = []) :
    e.line = ⟨e.address, e.op.word, some e.op, e.operands.map some⟩ := by
  rw [line, h]
  exact congrArg (Line.mk e.address e.op.word (some e.op))
    (List.ext_getElem (by simp) fun i _ _ => by simp [patchedBy])

/-! ## Listed builders -/

/-- The builder has seen no error, and its code is listed with every operand. -/
structure Listed (b : Builder) (lines : List Line) : Prop where
  error : b.error = none
  listing : ofCode b.program.code = lines
  fits : ∀ line ∈ lines, line.FitsIn b.program.code

theorem Listed.empty : Listed empty [] where
  error := rfl
  listing := linesFrom_of_none rfl
  fits := fun _ h => nomatch h

/-- What is listed depends on the code only. -/
theorem Listed.of_code_eq {b' : Builder} (h : Listed b lines) (herror : b'.error = b.error)
    (hcode : b'.program.code = b.program.code) : Listed b' lines where
  error := herror.trans h.error
  listing := hcode ▸ h.listing
  fits := fun line hline => hcode ▸ h.fits line hline

theorem code_emit (b : Builder) (op : Opcode) (operands : List Word) :
    (b.emit op operands).program.code = b.program.code ++ (op.word :: operands).toArray := by
  simp [Builder.emit]

theorem error_emit (b : Builder) {op : Opcode} {operands : List Word} (harity : operands.length = op.arity) :
    (b.emit op operands).error = b.error :=
  if_pos harity

theorem Listed.emit {op : Opcode} {operands : List Word} (h : Listed b lines)
    (harity : operands.length = op.arity) :
    Listed (b.emit op operands) (lines ++ [(Emission.mk b op operands []).line]) := by
  obtain ⟨herror, hlisting, hfits⟩ := h
  subst hlisting
  refine ⟨(b.error_emit harity).trans herror, ?_, fun line hline => ?_⟩
  · rw [code_emit, ofCode, linesFrom_append (Nat.zero_le _) hfits, linesFrom_emitted _ harity,
      Emission.line_of_later_nil rfl]
    rfl
  · rw [Line.FitsIn, code_emit, Array.size_append]
    rcases List.mem_append.1 hline with hold | hnew
    · have hold' : line.next ≤ b.program.code.size := hfits line hold
      omega
    · obtain rfl := List.mem_singleton.1 hnew
      rw [Emission.next_line]
      exact Nat.le_of_eq (Nat.add_right_comm _ _ _)

theorem Listed.emitAll {ops : List Opcode} (h : Listed b lines)
    (harity : ∀ e ∈ emissionsOfAll [] b ops, e.operands.length = e.op.arity) :
    Listed (b.emitAll ops) (lines ++ (emissionsOfAll [] b ops).map Emission.line) := by
  induction ops generalizing b lines with
  | nil => exact (List.append_nil lines).symm ▸ h
  | cons op ops ih =>
    have hfirst := h.emit (harity ⟨b, op, [], []⟩ List.mem_cons_self)
    have hrest := ih hfirst fun e he => harity e (List.mem_cons_of_mem _ he)
    rwa [List.append_assoc] at hrest

theorem Listed.patch {address word : Word} {slot : Nat} (h : Listed b lines)
    (hindex : Word.index? address = some slot)
    (hslot : slot < b.program.code.size → ∃ line ∈ lines, line.Holds slot) :
    Listed (b.patch address word) (lines.map (Line.patched slot word)) := by
  obtain ⟨herror, hlisting, hfits⟩ := h
  subst hlisting
  have hpatch : b.patch address word
      = { b with program := { b.program with code := b.program.code.setIfInBounds slot word } } := by
    rw [Builder.patch, hindex]
  rw [hpatch]
  refine ⟨herror, ?_, fun line hline => ?_⟩
  · rcases Nat.lt_or_ge slot b.program.code.size with hlt | hge
    · obtain ⟨line, hmem, hholds⟩ := hslot hlt
      exact linesFrom_setIfInBounds word hlt fun line' => address_ne_of_holds hmem hholds
    · dsimp only
      rw [Array.setIfInBounds_eq_of_size_le hge]
      refine (List.map_id _).symm.trans (List.map_congr_left fun line hline => ?_)
      exact (Line.patched_of_next_le (Nat.le_trans (hfits line hline) hge)).symm
  · obtain ⟨line, hmem, rfl⟩ := List.mem_map.1 hline
    rw [Line.FitsIn, Line.next_patched, Array.size_setIfInBounds]
    exact hfits line hmem

/-- What the listing gains by a call. -/
theorem Listed.apply (h : Listed b lines)
    (harity : ∀ e ∈ call.emissions [] b, e.operands.length = e.op.arity)
    (hpatch : ∀ slot, call.patchOf? slot = none) :
    Listed (call.apply b) (lines ++ (call.emissions [] b).map Emission.line) := by
  cases call with
  | emit op operands => exact h.emit (harity _ List.mem_cons_self)
  | emitOp op => exact h.emit (harity _ List.mem_cons_self)
  | emitAll ops => exact h.emitAll harity
  | pushInt n =>
    rw [Call.emissions] at harity ⊢
    rw [Call.apply, pushInt]
    cases hshort : shortInt? n with
    | some op =>
      rw [hshort] at harity
      exact h.emit (harity _ List.mem_cons_self)
    | none => exact (h.of_code_eq rfl rfl : Listed (b.addInt n) lines).emit rfl
  | pushReal x => exact (h.of_code_eq rfl rfl : Listed (b.addReal x) lines).emit rfl
  | pushString text => exact (h.of_code_eq rfl rfl : Listed (b.addString text) lines).emit rfl
  | addInt n => exact (List.append_nil lines).symm ▸ h.of_code_eq rfl rfl
  | addReal x => exact (List.append_nil lines).symm ▸ h.of_code_eq rfl rfl
  | addString text => exact (List.append_nil lines).symm ▸ h.of_code_eq rfl rfl
  | patch address word =>
    have hnone : Word.index? address = none := by
      refine Option.eq_none_iff_forall_ne_some.2 fun slot hslot => ?_
      have := hpatch slot
      rw [Call.patchOf?, if_pos hslot] at this
      cases this
    rw [Call.apply, Builder.patch, hnone]
    exact (List.append_nil lines).symm ▸ h

/-! ## Assembled programs -/

/-- A call patches a certain slot, or it patches none. -/
theorem Call.patches_or_not (call : Call) :
    (∃ address word slot, call = .patch address word ∧ Word.index? address = some slot)
      ∨ ∀ slot, call.patchOf? slot = none := by
  cases call with
  | patch address word =>
    cases hindex : Word.index? address with
    | none => exact .inr fun slot => by rw [patchOf?, hindex, if_neg nofun]
    | some slot => exact .inl ⟨address, word, slot, rfl, hindex⟩
  | _ => exact .inr fun _ => rfl

theorem Emission.line_followedBy_of_none (hpatch : ∀ slot, call.patchOf? slot = none) :
    (e.followedBy [call]).line = e.line := by
  simp only [line, address_followedBy, operands_followedBy, later_followedBy, patchedBy_concat, hpatch,
    Option.getD_none]
  rfl

theorem Emission.line_followedBy_patch {address word : Word} {slot : Nat}
    (hindex : Word.index? address = some slot) :
    (e.followedBy [.patch address word]).line = e.line.patched slot word := by
  refine congrArg (Line.mk e.address e.op.word (some e.op)) (List.ext_getElem (by simp [line])
    fun i hi hi' => ?_)
  simp only [line, address_followedBy, operands_followedBy, later_followedBy, List.getElem_mapIdx,
    patchedBy_concat, Call.patchOf?, hindex, Option.some.injEq]
  by_cases hslot : e.address + 1 + i = slot
  · rw [if_pos hslot, if_pos hslot.symm, Option.getD_some]
  · rw [if_neg hslot, if_neg (Ne.symm hslot), Option.getD_none]

theorem listed_assemble (h : AreProper calls) :
    Listed (assemble calls) ((emitted calls).map Emission.line) := by
  -- by the last call, because a call sees the code of the earlier ones and they see its patches
  induction calls using List.reverseRecOn with
  | nil => exact Listed.empty
  | append_singleton calls call ih =>
    obtain ⟨hcalls, hcall⟩ := areProper_concat.1 h
    have hlisted := ih hcalls
    rw [assemble_concat, emitted, emittedFrom_concat, List.map_append, List.map_map]
    rcases call.patches_or_not with ⟨address, word, slot, rfl, hindex⟩ | hpatch
    · have hlines : (emitted calls).map (Emission.line ∘ Emission.followedBy [.patch address word])
          = ((emitted calls).map Emission.line).map (Line.patched slot word) := by
        rw [List.map_map]
        exact List.map_congr_left fun e _ => Emission.line_followedBy_patch hindex
      rw [← emitted, hlines]
      refine (List.append_nil _).symm ▸ hlisted.patch hindex fun hlt => ?_
      obtain ⟨e, he, hholds⟩ := hcall.slot slot hlt (by rw [Call.patchOf?, if_pos hindex]; rfl)
      exact ⟨e.line, List.mem_map_of_mem he, Emission.holds_line.2 hholds⟩
    · have hlines : (emitted calls).map (Emission.line ∘ Emission.followedBy [call])
          = (emitted calls).map Emission.line :=
        List.map_congr_left fun e _ => Emission.line_followedBy_of_none hpatch
      rw [← emitted, hlines]
      exact hlisted.apply hcall.arity hpatch

/-- The listing of an assembled program is what was emitted, in order: where the next word was to go just
before, under the name of the operation, with every operand as the last patch left it. -/
theorem listing_of_assembled (calls : List Call) (h : AreProper calls) :
    ∃ p, (assemble calls).build.1 = .ok p ∧ ofCode p.code = (emitted calls).map Emission.line
      ∧ ∀ e ∈ emitted calls, e.before.here = Int64.ofNat e.line.address ∧ e.line.name = e.op.name
        ∧ e.line.operands = e.operands.mapIdx fun i word =>
            some (patchedBy e.later (e.line.address + 1 + i) word) := by
  obtain ⟨herror, hlisting, -⟩ := listed_assemble h
  exact ⟨(assemble calls).program, by rw [build, herror], hlisting, fun e _ => ⟨rfl, rfl, rfl⟩⟩

/-- A loop over a forward jump: its target is patched twice, a patch before the start and one behind the end
change nothing, and a constant has an index of its own. -/
def loopCalls : List Call :=
  [.pushInt 3, .patch 40 7, .emit .if0 [0, 0], .pushInt 1000, .emitAll [.iadd, .printVal], .patch (-1) 5,
    .emit .br [1], .patch 2 9, .patch 3 4, .addString "unused", .patch 2 8, .emitOp .halt]

theorem listing_of_loop : AreProper loopCalls ∧ ∃ p, (assemble loopCalls).build.1 = .ok p
    ∧ (ofCode p.code).map (fun line => (line.address, line.name, line.operands))
      = [(0, "iconst_3", []), (1, "if_0", [some 8, some 4]), (4, "iconst", [some 0]), (6, "iadd", []),
        (7, "print_val", []), (8, "br", [some 1]), (10, "halt", [])] := by
  have hproper : AreProper loopCalls := by decide +kernel
  obtain ⟨p, hbuild, hlisting, -⟩ := listing_of_assembled loopCalls hproper
  refine ⟨hproper, p, hbuild, ?_⟩
  rw [hlisting]
  decide +kernel

end StackMachine.Builder
