import StackMachine.Text.Hex
import StackMachine.Text.Layout

/-!
Fixed-width text reads back.  Hexadecimal digits stand for the number they were made from whatever zeros fill them
up, and text in columns is the same sequence of fields whatever blanks fill them up.
-/

set_option autoImplicit false

namespace StackMachine.Text

/-! ## Runs of characters -/

section

variable {p : Char → Bool} {run run' rest rest' : List Char}

/-- A run of characters of one class ends where one of another class follows, or none. -/
theorem span_run (hrun : ∀ c ∈ run, p c = true) (hrest : ∀ c ∈ rest.head?, p c = false) :
    (run ++ rest).takeWhile p = run ∧ (run ++ rest).dropWhile p = rest := by
  have hstop : rest.takeWhile p = [] ∧ rest.dropWhile p = rest := by
    cases rest with
    | nil => exact ⟨rfl, rfl⟩
    | cons c rest => simp [hrest c (by simp)]
  rw [List.takeWhile_append_of_pos hrun, List.dropWhile_append_of_pos hrun, hstop.1, hstop.2, List.append_nil]
  exact ⟨rfl, rfl⟩

theorem run_append_inj (hrun : ∀ c ∈ run, p c = true) (hrest : ∀ c ∈ rest.head?, p c = false)
    (hrun' : ∀ c ∈ run', p c = true) (hrest' : ∀ c ∈ rest'.head?, p c = false)
    (h : run ++ rest = run' ++ rest') : run = run' ∧ rest = rest' := by
  obtain ⟨htake, hdrop⟩ := span_run hrun hrest
  obtain ⟨htake', hdrop'⟩ := span_run hrun' hrest'
  rw [h, htake'] at htake
  rw [h, hdrop'] at hdrop
  exact ⟨htake.symm, hdrop.symm⟩

end

/-! ## Hexadecimal -/

/-- The digits of a number all have a property that the sixteen digits have. -/
theorem forall_mem_toDigits {P : Char → Prop} (h : ∀ d < 16, P (Nat.digitChar d)) (n : Nat) :
    ∀ c ∈ Nat.toDigits 16 n, P c := by
  induction n using Nat.strongRecOn with
  | _ n ih =>
    intro c hc
    rw [Nat.toDigits_eq_if (by decide)] at hc
    split at hc
    · next hlt =>
      obtain rfl := List.mem_singleton.1 hc
      exact h n hlt
    · next hge =>
      rcases List.mem_append.1 hc with hc | hc
      · exact ih (n / 16) (by omega) c hc
      · obtain rfl := List.mem_singleton.1 hc
        exact h (n % 16) (Nat.mod_lt n (by decide))

theorem toList_hex (width n : Nat) : ∃ zeros, (hex width n).toList
    = List.replicate zeros '0' ++ (Nat.toDigits 16 n).map Char.toUpper :=
  ⟨_, String.toList_ofList⟩

theorem isHexDigit_of_mem_hex {width n : Nat} {c : Char} (h : c ∈ (hex width n).toList) :
    isHexDigit c = true := by
  obtain ⟨zeros, hzeros⟩ := toList_hex width n
  rw [hzeros] at h
  rcases List.mem_append.1 h with h | h
  · rw [List.eq_of_mem_replicate h]
    rfl
  · obtain ⟨digit, hdigit, rfl⟩ := List.mem_map.1 h
    exact forall_mem_toDigits (P := fun digit => isHexDigit digit.toUpper = true) (by decide) n digit hdigit

theorem hexValue_concat (digits : List Char) (c : Char) :
    hexValue (digits ++ [c]) = hexValue digits * 16 + hexValue [c] := by
  simp [hexValue]

theorem hexValue_zeros_append (zeros : Nat) (digits : List Char) :
    hexValue (List.replicate zeros '0' ++ digits) = hexValue digits := by
  induction zeros with
  | zero => rfl
  | succ zeros ih => exact ih

/-- Digits read back, also when they are written otherwise, as long as each of them does. -/
theorem hexValue_map_toDigits (form : Char → Char) (hform : ∀ d < 16, hexValue [form (Nat.digitChar d)] = d)
    (n : Nat) : hexValue ((Nat.toDigits 16 n).map form) = n := by
  induction n using Nat.strongRecOn with
  | _ n ih =>
    rw [Nat.toDigits_eq_if (by decide)]
    split
    · next hlt => exact hform n hlt
    · next hge =>
      rw [List.map_append, List.map_singleton, hexValue_concat, ih (n / 16) (by omega),
        hform (n % 16) (Nat.mod_lt n (by decide))]
      omega

/-- Hexadecimal digits read back as the number, zeros in front or not. -/
theorem hexValue_hex (width n : Nat) : hexValue (hex width n).toList = n := by
  obtain ⟨zeros, hzeros⟩ := toList_hex width n
  rw [hzeros, hexValue_zeros_append, hexValue_map_toDigits Char.toUpper (by decide)]

theorem hex_inj {width m n : Nat} : hex width m = hex width n ↔ m = n := by
  refine ⟨fun h => ?_, fun h => h ▸ rfl⟩
  rw [← hexValue_hex width m, h, hexValue_hex]

/-! ## Columns -/

/-- The fields of a text: its longest pieces without blanks. -/
def fields (text : List Char) : List (List Char) := (text.splitOnP (· == ' ')).filter (· ≠ [])

variable {text before behind : List Char}

theorem fields_append_blank (before behind : List Char) :
    fields (before ++ ' ' :: behind) = fields before ++ fields behind := by
  rw [fields, List.splitOnP_append_cons before behind rfl, List.filter_append]
  rfl

theorem fields_blank_cons (text : List Char) : fields (' ' :: text) = fields text :=
  fields_append_blank [] text

/-- A text that is one field. -/
def IsField (text : List Char) : Prop := text ≠ [] ∧ ' ' ∉ text

instance (text : List Char) : Decidable (IsField text) := inferInstanceAs (Decidable (_ ∧ _))

theorem IsField.fields_eq {text : List Char} (h : IsField text) : fields text = [text] := by
  have hsplit : text.splitOnP (· == ' ') = [text] :=
    List.splitOnP_eq_singleton fun c hc => by
      have hne : c ≠ ' ' := fun hblank => h.2 (hblank ▸ hc)
      simpa using hne
  rw [fields, hsplit, List.filter_cons_of_pos (by simpa using h.1), List.filter_nil]

theorem fields_blanks_append (count : Nat) (text : List Char) :
    fields (List.replicate count ' ' ++ text) = fields text := by
  induction count with
  | zero => rfl
  | succ count ih => rw [List.replicate_succ, List.cons_append, fields_blank_cons, ih]

theorem fields_append_blanks (text : List Char) (count : Nat) :
    fields (text ++ List.replicate count ' ') = fields text := by
  cases count with
  | zero => rw [List.replicate_zero, List.append_nil]
  | succ count =>
    have hblanks : fields (List.replicate count ' ') = [] := by
      rw [← List.append_nil (List.replicate count ' '), fields_blanks_append]
      rfl
    rw [List.replicate_succ, fields_append_blank, hblanks, List.append_nil]

theorem fields_alignRight (width : Nat) (text : String) :
    fields (alignRight width text).toList = fields text.toList := by
  rw [alignRight, String.toList_append, String.toList_ofList, fields_blanks_append]

theorem fields_alignLeft (width : Nat) (text : String) :
    fields (alignLeft width text).toList = fields text.toList := by
  rw [alignLeft, String.toList_append, String.toList_ofList, fields_append_blanks]

/-- Columns with a blank between them have the fields of all columns. -/
theorem fields_intercalate (columns : List String) :
    fields (" ".intercalate columns).toList = columns.flatMap fun column => fields column.toList := by
  rw [String.toList_intercalate]
  induction columns with
  | nil => rfl
  | cons column columns ih =>
    cases columns with
    | nil => simp
    | cons next columns =>
      have hblank : " ".toList = [' '] := rfl
      rw [List.map_cons, List.map_cons, List.intercalate_cons_cons, hblank, List.append_assoc,
        List.singleton_append, fields_append_blank, List.flatMap_cons, ← ih, hblank]
      rfl

end StackMachine.Text
