import StackMachine.Proofs.Program.Assembly

/-!
Builders that are built more than once.  A build that is refused forgets the error but not the code, so the next
one hands out the instruction with a wrong number of operands; a program is free of these just if no build was
refused since the last program.
-/

set_option autoImplicit false

namespace StackMachine.Builder

variable {emissions more : List Emission} {address : Nat}

/-! ## The words of emissions -/

/-- What a call makes of a word in a slot. -/
def Call.overwrite (call : Call) (slot : Nat) (word : Word) : Word := (call.patchOf? slot).getD word

namespace Emission

/-- The words of the instruction, as the last patch left them. -/
def words (e : Emission) : List Word :=
  (e.op.word :: e.operands).mapIdx fun i word => patchedBy e.later (e.address + i) word

/-- The instruction was not emitted with the operands that its operation takes. -/
def IsWrong (e : Emission) : Prop := e.operands.length ≠ e.op.arity

instance (e : Emission) : Decidable e.IsWrong := inferInstanceAs (Decidable (_ ≠ _))

@[simp]
theorem length_words (e : Emission) : e.words.length = e.operands.length + 1 := by
  simp [words]

theorem words_followedBy (e : Emission) (call : Call) :
    (e.followedBy [call]).words = e.words.mapIdx fun i word => call.overwrite (e.address + i) word := by
  have hop : (e.followedBy [call]).op = e.op := rfl
  simp only [words, List.mapIdx_mapIdx, address_followedBy, operands_followedBy, later_followedBy, hop,
    patchedBy_concat]
  rfl

end Emission

theorem mapIdx_self {α : Type} (l : List α) : (l.mapIdx fun _ a => a) = l :=
  List.ext_getElem (by simp) fun i hi hi' => by simp

theorem words_new (b : Builder) (op : Opcode) (operands : List Word) :
    (Emission.mk b op operands []).words = op.word :: operands :=
  mapIdx_self _

/-- The emissions lie one behind the other from an address on. -/
def Contiguous : Nat → List Emission → Prop
  | _, [] => True
  | address, e :: emissions => e.address = address ∧ Contiguous (address + e.words.length) emissions

theorem Contiguous.append (h : Contiguous address emissions)
    (hmore : Contiguous (address + (emissions.flatMap Emission.words).length) more) :
    Contiguous address (emissions ++ more) := by
  induction emissions generalizing address with
  | nil => exact hmore
  | cons e emissions ih =>
    obtain ⟨haddress, hrest⟩ := h
    refine ⟨haddress, ih hrest ?_⟩
    rwa [List.flatMap_cons, List.length_append, ← Nat.add_assoc] at hmore

theorem Contiguous.followedBy (h : Contiguous address emissions) (later : List Call) :
    Contiguous address (emissions.map (Emission.followedBy later)) := by
  induction emissions generalizing address with
  | nil => trivial
  | cons e emissions ih =>
    obtain ⟨haddress, hrest⟩ := h
    refine ⟨haddress, ?_⟩
    have hlength : (e.followedBy later).words.length = e.words.length := by
      rw [Emission.length_words, Emission.length_words, Emission.operands_followedBy]
    rw [hlength]
    exact ih hrest

theorem flatMap_words_followedBy (h : Contiguous address emissions) (call : Call) :
    (emissions.map (Emission.followedBy [call])).flatMap Emission.words =
      (emissions.flatMap Emission.words).mapIdx fun i word => call.overwrite (address + i) word := by
  induction emissions generalizing address with
  | nil => rfl
  | cons e emissions ih =>
    obtain ⟨rfl, hrest⟩ := h
    have hshift : ∀ i, e.address + e.words.length + i = e.address + (i + e.words.length) := fun i => by omega
    rw [List.map_cons, List.flatMap_cons, List.flatMap_cons, List.mapIdx_append, ih hrest, e.words_followedBy]
    simp only [hshift]

/-! ## One call -/

/-- From `b` to `b'` words were overwritten and then instructions emitted, of which `b'` remembers a wrong one. -/
structure Emits (b b' : Builder) (overwrite : Nat → Word → Word) (emissions : List Emission) : Prop where
  code : b'.program.code.toList = b.program.code.toList.mapIdx overwrite ++ emissions.flatMap Emission.words
  contiguous : Contiguous b.program.code.size emissions
  error : b'.error.isSome ↔ b.error.isSome ∨ ∃ e ∈ emissions, e.IsWrong

variable {b b' b₁ : Builder} {overwrite : Nat → Word → Word}

theorem Emits.of_eq (h : b₁.Emits b' overwrite emissions) (hcode : b₁.program.code = b.program.code)
    (herror : b₁.error = b.error) : b.Emits b' overwrite emissions :=
  ⟨hcode ▸ h.code, hcode ▸ h.contiguous, herror ▸ h.error⟩

theorem emits_nothing (hcode : b'.program.code.toList = b.program.code.toList.mapIdx overwrite)
    (herror : b'.error = b.error) : b.Emits b' overwrite [] :=
  ⟨hcode.trans (List.append_nil _).symm, trivial, by simp [herror]⟩

/-- Instructions that are emitted after others. -/
theorem Emits.append (h : b.Emits b₁ (fun _ word => word) emissions)
    (hmore : b₁.Emits b' (fun _ word => word) more) :
    b.Emits b' (fun _ word => word) (emissions ++ more) := by
  have hcode := h.code
  rw [mapIdx_self] at hcode
  constructor
  case code => rw [hmore.code, mapIdx_self, hcode, mapIdx_self, List.flatMap_append, List.append_assoc]
  case contiguous =>
    refine h.contiguous.append ?_
    rw [← Array.length_toList, ← List.length_append, ← hcode, Array.length_toList]
    exact hmore.contiguous
  case error =>
    rw [hmore.error, h.error, or_assoc]
    simp only [List.mem_append, or_and_right, exists_or]

theorem emits_emit (b : Builder) (op : Opcode) (operands : List Word) :
    b.Emits (b.emit op operands) (fun _ word => word) [⟨b, op, operands, []⟩] := by
  constructor
  case code => rw [code_emit, Array.toList_append, mapIdx_self, List.flatMap_singleton, words_new]
  case contiguous => exact ⟨rfl, trivial⟩
  case error =>
    simp only [List.mem_singleton, exists_eq_left, Emission.IsWrong, emit]
    split
    · next harity => simp [harity]
    · next harity => simp [harity]

theorem emits_emitAll (b : Builder) (ops : List Opcode) :
    b.Emits (b.emitAll ops) (fun _ word => word) (emissionsOfAll [] b ops) := by
  induction ops generalizing b with
  | nil => exact emits_nothing (mapIdx_self _).symm rfl
  | cons op ops ih => exact (b.emits_emit op []).append (ih (b.emit op []))

theorem mapIdx_patch (slot : Nat) (word : Word) (words : List Word) :
    (words.mapIdx fun i old => if i = slot then word else old) = words.set slot word := by
  refine List.ext_getElem (by simp) fun i hi hi' => ?_
  rw [List.getElem_mapIdx, List.getElem_set]
  simp only [eq_comm]

theorem emits_patch (b : Builder) (address word : Word) :
    b.Emits (b.patch address word) (Call.patch address word).overwrite [] := by
  unfold patch
  cases hindex : Word.index? address with
  | none =>
    have hnone : (Call.patch address word).overwrite = fun _ old => old := by
      funext i old
      simp [Call.overwrite, Call.patchOf?, hindex]
    exact emits_nothing (by rw [hnone, mapIdx_self]) rfl
  | some slot =>
    have hslot : (Call.patch address word).overwrite = fun i old => if i = slot then word else old := by
      funext i old
      simp only [Call.overwrite, Call.patchOf?, hindex, Option.some.injEq, eq_comm]
      split <;> rfl
    exact emits_nothing (by rw [hslot, mapIdx_patch]; exact Array.toList_setIfInBounds) rfl

/-- A call overwrites the word that it patches, and then emits its instructions. -/
theorem emits_apply (b : Builder) (call : Call) :
    b.Emits (call.apply b) call.overwrite (call.emissions [] b) := by
  cases call with
  | emit op operands => exact b.emits_emit op operands
  | emitOp op => exact b.emits_emit op []
  | emitAll ops => exact b.emits_emitAll ops
  | pushInt n =>
    rw [Call.apply, pushInt, Call.emissions]
    cases shortInt? n with
    | some op => exact b.emits_emit op []
    | none => exact ((b.addInt n).emits_emit .iconst [b.nextInt]).of_eq rfl rfl
  | pushReal x => exact ((b.addReal x).emits_emit .rconst [b.nextReal]).of_eq rfl rfl
  | pushString text => exact ((b.addString text).emits_emit .sconst [b.nextString]).of_eq rfl rfl
  | addInt | addReal | addString => exact emits_nothing (mapIdx_self _).symm rfl
  | patch address word => exact b.emits_patch address word

/-! ## Sessions -/

/-- One use of a builder: a call, or a build. -/
inductive Use where
  | call (call : Call)
  | build

/-- A builder in use: what was emitted since it last handed out a program, and how many builds it refused since
then. -/
structure Session where
  builder : Builder
  emitted : List Emission
  refused : Nat

namespace Session

def new : Session := ⟨empty, [], 0⟩

def apply (s : Session) : Use → Session
  | .call call =>
    { s with
      builder := call.apply s.builder
      emitted := s.emitted.map (Emission.followedBy [call]) ++ call.emissions [] s.builder }
  | .build =>
    match s.builder.build with
    | (.ok _, builder) => ⟨builder, [], 0⟩
    | (.error _, builder) => { s with builder, refused := s.refused + 1 }

/-- The session of a new builder after some uses. -/
def after (uses : List Use) : Session := uses.foldl apply new

/-- The code is what was emitted, and a wrong emission is remembered by the builder until it refuses a build. -/
structure Spells (s : Session) : Prop where
  code : s.builder.program.code.toList = s.emitted.flatMap Emission.words
  contiguous : Contiguous 0 s.emitted
  wrong : (∃ e ∈ s.emitted, e.IsWrong) ↔ s.builder.error.isSome ∨ 0 < s.refused

variable {s : Session}

theorem spells_new : new.Spells := ⟨rfl, trivial, by simp [new, empty]⟩

theorem Spells.call (h : s.Spells) (call : Call) : (s.apply (.call call)).Spells := by
  have hemits := s.builder.emits_apply call
  have hkept := flatMap_words_followedBy h.contiguous call
  simp only [Nat.zero_add] at hkept
  constructor
  case code => rw [apply, hemits.code, h.code, List.flatMap_append, hkept]
  case contiguous =>
    refine (h.contiguous.followedBy [call]).append ?_
    rw [Nat.zero_add, hkept, List.length_mapIdx, ← h.code, Array.length_toList]
    exact hemits.contiguous
  case wrong =>
    have hwrong : (∃ e ∈ s.emitted.map (Emission.followedBy [call]), e.IsWrong) ↔ ∃ e ∈ s.emitted, e.IsWrong := by
      simp only [List.mem_map, exists_exists_and_eq_and]
      rfl
    simp only [apply, List.mem_append, or_and_right, exists_or, hemits.error]
    rw [hwrong, h.wrong, or_right_comm]

theorem Spells.build (h : s.Spells) : (s.apply .build).Spells := by
  obtain ⟨⟨program, error⟩, emitted, refused⟩ := s
  cases error with
  | none => exact spells_new
  | some error =>
    have hwrong := h.wrong
    exact ⟨h.code, h.contiguous, by simpa [apply, Builder.build] using hwrong⟩

theorem spells_after (uses : List Use) : (after uses).Spells := by
  rw [after]
  generalize hs : new = s
  have h : s.Spells := hs ▸ spells_new
  clear hs
  induction uses generalizing s with
  | nil => exact h
  | cons first uses ih =>
    cases first with
    | call call => exact ih _ (h.call call)
    | build => exact ih _ h.build

/-- A program that is handed out is made of the instructions that were emitted since the last one, and some of
them are wrong just if a build was refused since then. -/
theorem built_programs (uses : List Use) {p : Program} (h : (after uses).builder.build.1 = .ok p) :
    p.code.toList = (after uses).emitted.flatMap Emission.words
      ∧ ((∃ e ∈ (after uses).emitted, e.IsWrong) ↔ 0 < (after uses).refused) := by
  obtain ⟨hcode, -, hwrong⟩ := spells_after uses
  cases herror : (after uses).builder.error with
  | some error =>
    rw [Builder.build, herror] at h
    cases h
  | none =>
    rw [Builder.build, herror] at h
    cases h
    refine ⟨hcode, hwrong.trans ?_⟩
    simp [herror]

/-- The second program of a builder. -/
theorem built_programs_second :
    ∃ uses p, uses = [Use.call (.emit .br [0]), .build, .call (.pushInt 7), .call (.emitOp .halt)]
      ∧ (after uses).builder.build.1 = .ok p ∧ p.code = #[Opcode.iconst.word, 0, Opcode.halt.word]
      ∧ p.code.toList = (after uses).emitted.flatMap Emission.words
      ∧ ((∃ e ∈ (after uses).emitted, e.IsWrong) ↔ 0 < (after uses).refused) :=
  ⟨_, _, rfl, rfl, rfl, built_programs _ rfl⟩

/-- A builder that has refused to build hands out the instruction without its operand when it is asked again. -/
theorem wrong_program_after_refusal :
    ∃ uses p, uses = [Use.call (.emit .br []), .build] ∧ (after uses).builder.build.1 = .ok p
      ∧ p.code = #[Opcode.br.word] ∧ ∃ e ∈ (after uses).emitted, e.op = .br ∧ e.operands = [] ∧ e.IsWrong :=
  ⟨_, _, rfl, rfl, rfl, _, List.mem_cons_self, rfl, rfl, by decide⟩

end Session

end StackMachine.Builder
