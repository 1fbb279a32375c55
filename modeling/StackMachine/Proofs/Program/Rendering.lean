import Mathlib
import StackMachine.Proofs.Program.Partition
import StackMachine.Proofs.Text.Layout

/-!
Rendered listings.  The columns of a line can be read from its text, they tell the line, and the lines tell the
code.
-/

set_option autoImplicit false

namespace StackMachine

open Text

/-! ## What the columns hold -/

theorem Word.mem_decimal {w : Word} {c : Char} (h : c ∈ (decimal w).toList) : c.isDigit = true ∨ c = '-' := by
  have hdigit : ∀ n : Nat, c ∈ n.repr.toList → c.isDigit = true := fun n hc => by
    rw [Nat.toList_repr] at hc
    exact Nat.isDigit_of_mem_toDigits (by decide) (by decide) hc
  rw [decimal, Int.repr_eq_if] at h
  split at h
  · exact .inl (hdigit _ h)
  · rw [String.toList_append] at h
    rcases List.mem_append.1 h with h | h
    · exact .inr (List.mem_singleton.1 h)
    · exact .inl (hdigit _ h)

theorem Word.decimal_inj {w w' : Word} : decimal w = decimal w' ↔ w = w' := by
  rw [decimal, decimal, Int.repr_inj, Int64.toInt_inj]

theorem Word.hex_inj {width : Nat} {w w' : Word} : hex width w = hex width w' ↔ w = w' := by
  rw [hex, hex, Text.hex_inj, UInt64.toNat_inj]
  cases w
  cases w'
  exact ⟨congrArg Int64.ofUInt64, congrArg Int64.toUInt64⟩

namespace Line

variable {line line' : Line}

/-- The first column: the address and the word. -/
def place (line : Line) : String := "0x" ++ Text.hex 4 line.address ++ "." ++ Word.hex 2 line.word

/-- What the column of an operand holds. -/
def mark : Option Word → String
  | some w => Word.decimal w
  | none => "?"

theorem operandText_eq (operand : Option Word) : operandText operand = alignLeft 8 (mark operand) := by
  cases operand <;> rfl

theorem isField_mark (operand : Option Word) : IsField (mark operand).toList := by
  cases operand with
  | none => decide
  | some w =>
    refine ⟨fun hempty => ?_, fun hblank => ?_⟩
    · have hrepr : w.toInt.repr = "" := String.toList_eq_nil_iff.1 hempty
      rw [Int.repr_eq_if] at hrepr
      split at hrepr
      · exact Nat.repr_ne_empty hrepr
      · simp at hrepr
    · rcases Word.mem_decimal hblank with h | h <;> cases h

theorem mark_inj {operand operand' : Option Word} : mark operand = mark operand' ↔ operand = operand' := by
  have hother : ∀ w : Word, Word.decimal w ≠ "?" := fun w h => by
    have hmem : '?' ∈ (Word.decimal w).toList := by
      rw [h]
      decide
    rcases Word.mem_decimal hmem with h | h <;> cases h
  cases operand with
  | none =>
    cases operand' with
    | none => exact ⟨fun _ => rfl, fun _ => rfl⟩
    | some w' => exact ⟨fun h => absurd h.symm (hother w'), nofun⟩
  | some w =>
    cases operand' with
    | none => exact ⟨fun h => absurd h (hother w), nofun⟩
    | some w' => exact Word.decimal_inj.trans Option.some_inj.symm

theorem isField_name (line : Line) : IsField line.name.toList := by
  have hnames : ∀ op ∈ Opcode.all, IsField op.name.toList := by decide +kernel
  rw [name]
  split
  · next op _ => exact hnames op op.mem_all
  · decide

theorem toList_place (line : Line) : line.place.toList
    = ('0' :: 'x' :: (Text.hex 4 line.address).toList) ++ '.' :: (Word.hex 2 line.word).toList := by
  simp [place]

theorem notMem_hex {c : Char} (hc : isHexDigit c = false) (width n : Nat) :
    c ∉ (Text.hex width n).toList := fun h => by
  rw [isHexDigit_of_mem_hex h] at hc
  cases hc

theorem isField_place (line : Line) : IsField line.place.toList := by
  rw [toList_place]
  refine ⟨nofun, ?_⟩
  simp [notMem_hex (c := ' ') rfl, Word.hex]

theorem place_inj (h : line.place = line'.place) : line.address = line'.address ∧ line.word = line'.word := by
  have hlist := congrArg String.toList h
  rw [toList_place, toList_place] at hlist
  have hpoint : ∀ line : Line, '.' ∉ '0' :: 'x' :: (Text.hex 4 line.address).toList := fun line => by
    simp [notMem_hex (c := '.') rfl]
  obtain ⟨haddress, -, hword⟩ :=
    (List.append_cons_inj_of_notMem (hpoint line) (notMem_hex rfl 2 line.word.toUInt64.toNat)).1 hlist
  have hdigits := (List.cons.inj (List.cons.inj haddress).2).2
  exact ⟨Text.hex_inj.1 (String.toList_injective hdigits), Word.hex_inj.1 (String.toList_injective hword)⟩

/-! ## From the text to the line -/

/-- The fields of a rendered line: the address with the word, the name and the operands, between strokes. -/
theorem fields_display (line : Line) : fields line.display.toList
    = line.place.toList :: ['|'] :: line.name.toList :: ['|']
      :: line.operands.map fun operand => (mark operand).toList := by
  have hoperand : ∀ operand : Option Word,
      fields (operandText operand).toList = [(mark operand).toList] := fun operand => by
    rw [operandText_eq, fields_alignLeft, (isField_mark operand).fields_eq]
  have hdisplay : line.display.toList = line.place.toList ++ ' ' :: (['|'] ++ ' ' ::
      ((alignRight 13 line.name).toList ++ ' ' :: (['|'] ++ ' ' ::
        (" ".intercalate (line.operands.map operandText)).toList))) := by
    simp [display, place]
  have hstroke : IsField ['|'] := by decide
  rw [hdisplay, fields_append_blank, fields_append_blank, fields_append_blank, fields_append_blank,
    fields_alignRight, fields_intercalate, line.isField_place.fields_eq, line.isField_name.fields_eq,
    hstroke.fields_eq, List.flatMap_map]
  simp only [hoperand, List.map_eq_flatMap, List.cons_append, List.nil_append]

end Line

namespace Listing

theorem display_inj {code code' : Array Word} {address address' : Nat} {line line' : Line}
    (hline : lineAt? code address = some line) (hline' : lineAt? code' address' = some line')
    (h : line.display = line'.display) : line = line' := by
  have hfields := congrArg (fun text => fields text.toList) h
  simp only [Line.fields_display] at hfields
  obtain ⟨hplace, hrest⟩ := List.cons.inj hfields
  have hmarks := (List.cons.inj (List.cons.inj (List.cons.inj hrest).2).2).2
  obtain ⟨haddress, hword⟩ := Line.place_inj (String.toList_injective hplace)
  have hop : line.op = line'.op := by
    rw [← ofWord?_of_lineAt? hline, ← ofWord?_of_lineAt? hline', hword]
  have hoperands : line.operands = line'.operands :=
    List.map_injective_iff.2 (fun operand operand' h => Line.mark_inj.1 (String.toList_injective h)) hmarks
  cases line
  cases line'
  cases haddress
  cases hword
  cases hop
  cases hoperands
  rfl

/-- Codes whose listings are rendered alike are equal. -/
theorem rendered_listing_injective :
    Function.Injective fun code : Array Word => (ofCode code).map Line.display := by
  intro code code' h
  have hlines : ofCode code = ofCode code' := by
    have hlength : (ofCode code).length = (ofCode code').length := by
      simpa using congrArg List.length h
    refine List.ext_getElem hlength fun i hi hi' => ?_
    have hdisplay : (ofCode code)[i].display = (ofCode code')[i].display := by
      have := List.getElem_of_eq h (by simpa using hi)
      simpa using this
    exact display_inj (lineAt?_of_mem (List.getElem_mem hi)) (lineAt?_of_mem (List.getElem_mem hi')) hdisplay
  have hwords := flatMap_words_linesFrom code 0
  rw [← ofCode, hlines, ofCode, flatMap_words_linesFrom code' 0] at hwords
  exact Array.toList_inj.1 hwords.symm

end Listing

end StackMachine
