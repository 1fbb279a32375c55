import StackMachine.ByteString
import StackMachine.Proofs.Text.Layout

/-!
Text without line breaks, and text in lines.  Numbers, columns and what is put together from texts of one line are
one line too.  In UTF-8 only a line feed has the octet of a line feed, so the octets are in the same lines.
-/

set_option autoImplicit false

namespace StackMachine.Text

/-! ## One line -/

/-- The character breaks no line. -/
def isInline (c : Char) : Bool := c ≠ '\n' && c ≠ '\r'

/-- The text has neither a line feed nor a carriage return. -/
def OneLine (text : String) : Prop := ∀ c ∈ text.toList, c ≠ '\n' ∧ c ≠ '\r'

-- The quantifier over a list is decided by name, since one over all characters may be decided by trying them all.
instance (text : String) : Decidable (OneLine text) := List.decidableBAll _ text.toList

variable {a b text : String} {c : Char} {n : Nat}

theorem oneLine_empty : OneLine "" := by decide

@[simp]
theorem oneLine_append : OneLine (a ++ b) ↔ OneLine a ∧ OneLine b := by
  unfold OneLine
  rw [String.toList_append]
  exact List.forall_mem_append

theorem OneLine.append (ha : OneLine a) (hb : OneLine b) : OneLine (a ++ b) := oneLine_append.2 ⟨ha, hb⟩

theorem oneLine_ofList {cs : List Char} : OneLine (String.ofList cs) ↔ ∀ c ∈ cs, c ≠ '\n' ∧ c ≠ '\r' := by
  unfold OneLine
  rw [String.toList_ofList]

/-- A literal is the text of its characters, so they are checked without decoding it. -/
theorem oneLine_of_all {cs : List Char} (h : cs.all isInline = true) : OneLine (String.ofList cs) := by
  rw [oneLine_ofList]
  intro c hc
  simpa [isInline] using List.all_eq_true.1 h c hc

theorem oneLine_blanks (n : Nat) : OneLine (String.ofList (List.replicate n ' ')) := by
  rw [oneLine_ofList]
  intro c hc
  rw [List.eq_of_mem_replicate hc]
  decide

theorem OneLine.alignRight (h : OneLine text) (width : Nat) : OneLine (alignRight width text) :=
  (oneLine_blanks _).append h

theorem OneLine.alignLeft (h : OneLine text) (width : Nat) : OneLine (alignLeft width text) :=
  h.append (oneLine_blanks _)

theorem oneLine_intercalate {separator : String} {parts : List String} (hs : OneLine separator)
    (h : ∀ part ∈ parts, OneLine part) : OneLine (separator.intercalate parts) := by
  induction parts with
  | nil => exact oneLine_empty
  | cons part parts ih =>
    have hpart := h part List.mem_cons_self
    have hparts := ih fun other hother => h other (List.mem_cons_of_mem part hother)
    cases parts with
    | nil => simpa using hpart
    | cons next parts =>
      rw [String.intercalate_cons_cons]
      exact (hpart.append hs).append hparts

/-! ## Plain text -/

/-- The characters that numbers, addresses and complex numbers are written with. -/
def isPlain (c : Char) : Bool := c.isAlphanum || c ∈ ['-', '+', '.', '*', '(', ')']

def Plain (text : String) : Prop := ∀ c ∈ text.toList, isPlain c = true

instance (text : String) : Decidable (Plain text) := List.decidableBAll _ text.toList

theorem Plain.append (ha : Plain a) (hb : Plain b) : Plain (a ++ b) := by
  unfold Plain
  rw [String.toList_append]
  exact List.forall_mem_append.2 ⟨ha, hb⟩

theorem plain_ofList {cs : List Char} : Plain (String.ofList cs) ↔ ∀ c ∈ cs, isPlain c = true := by
  unfold Plain
  rw [String.toList_ofList]

theorem Plain.oneLine (h : Plain text) : OneLine text := by
  intro c hc
  have hplain := h c hc
  constructor <;> rintro rfl <;> exact absurd hplain (by decide)

theorem isPlain_of_isDigit (h : c.isDigit = true) : isPlain c = true := by
  unfold isPlain Char.isAlphanum
  rw [h]
  simp

theorem isPlain_of_mem_toDigits (h : c ∈ Nat.toDigits 10 n) : isPlain c = true :=
  isPlain_of_isDigit (Nat.isDigit_of_mem_toDigits (by decide) (by decide) h)

theorem plain_repr (n : Nat) : Plain n.repr := by
  intro c hc
  rw [Nat.toList_repr] at hc
  exact isPlain_of_mem_toDigits hc

theorem plain_decimal (w : Word) : Plain (Word.decimal w) := by
  unfold Word.decimal
  rw [Int.repr_eq_if]
  split
  · exact plain_repr _
  · exact Plain.append (by decide) (plain_repr _)

@[simp]
theorem oneLine_repr (n : Nat) : OneLine n.repr := (plain_repr n).oneLine

@[simp]
theorem oneLine_decimal (w : Word) : OneLine (Word.decimal w) := (plain_decimal w).oneLine

theorem plain_hex (width n : Nat) : Plain (hex width n) := by
  intro c hc
  obtain ⟨zeros, hzeros⟩ := toList_hex width n
  rw [hzeros] at hc
  rcases List.mem_append.1 hc with hc | hc
  · rw [List.eq_of_mem_replicate hc]
    decide
  · obtain ⟨digit, hdigit, rfl⟩ := List.mem_map.1 hc
    exact forall_mem_toDigits (P := fun digit => isPlain digit.toUpper = true) (by decide) n digit hdigit

@[simp]
theorem oneLine_hex (width n : Nat) : OneLine (hex width n) := (plain_hex width n).oneLine

@[simp]
theorem oneLine_wordHex (width : Nat) (w : Word) : OneLine (Word.hex width w) := oneLine_hex _ _

/-! ## Several lines -/

/-- The text consists of `n` lines, each ended by a line feed. -/
def IsLines (n : Nat) (text : String) : Prop :=
  ∃ lines : List String, lines.length = n ∧ (∀ line ∈ lines, OneLine line)
    ∧ text = String.join (lines.map (· ++ "\n"))

end StackMachine.Text

namespace StackMachine.ByteString

open Text

/-! ## Octets -/

/-- No octet is a line feed. -/
def Unbroken (s : ByteString) : Prop := 0x0A ∉ s.octets

def lineFeed : ByteString := ⟨#[0x0A]⟩

/-- The octets form `n` lines, each ended by a line feed. -/
def IsLines (n : Nat) (s : ByteString) : Prop :=
  ∃ lines : List ByteString, lines.length = n ∧ (∀ line ∈ lines, line.Unbroken)
    ∧ s = lines.foldr (fun line rest => line ++ lineFeed ++ rest) empty

theorem ofString_lineFeed : ofString "\n" = lineFeed := rfl

theorem eq_lineFeed_of_mem_utf8EncodeChar {c : Char} (h : 0x0A ∈ String.utf8EncodeChar c) : c = '\n' := by
  have hvalue : ∀ n < 256, (0x0A : UInt8) = UInt8.ofNat n → n = 0x0A := fun n hn h => by
    have hn' := congrArg UInt8.toNat h
    rw [UInt8.toNat_ofNat_of_lt' hn] at hn'
    exact hn'.symm
  unfold String.utf8EncodeChar at h
  simp only at h
  -- Every octet of a character that has several is 0x80 or more.
  split at h
  · have hc := hvalue c.val.toNat (by omega) (List.mem_singleton.1 h)
    exact Char.ext (UInt32.toNat_inj.1 hc)
  · split at h
    · simp only [List.mem_cons, List.not_mem_nil, or_false] at h
      rcases h with h | h <;> have := hvalue _ (by omega) h <;> omega
    · split at h
      · simp only [List.mem_cons, List.not_mem_nil, or_false] at h
        rcases h with h | h | h <;> have := hvalue _ (by omega) h <;> omega
      · simp only [List.mem_cons, List.not_mem_nil, or_false] at h
        rcases h with h | h | h | h <;> have := hvalue _ (by omega) h <;> omega

theorem ofString_append (a b : String) : ofString (a ++ b) = ofString a ++ ofString b := by
  change ByteString.mk (a ++ b).toByteArray.data = ⟨a.toByteArray.data ++ b.toByteArray.data⟩
  rw [String.toByteArray_append, ByteArray.data_append]

theorem unbroken_ofString {text : String} (h : OneLine text) : (ofString text).Unbroken := by
  intro hmem
  have hoctets : (ofString text).octets.toList = text.toList.flatMap String.utf8EncodeChar := by
    rw [← String.ofList_toList (s := text)]
    change (String.ofList text.toList).toByteArray.data.toList = _
    rw [String.toByteArray_ofList, String.toList_ofList]
    exact List.toList_data_toByteArray
  rw [← Array.mem_toList_iff, hoctets, List.mem_flatMap] at hmem
  obtain ⟨c, hc, hoctet⟩ := hmem
  exact (h c hc).1 (eq_lineFeed_of_mem_utf8EncodeChar hoctet)

theorem isLines_ofString {n : Nat} {text : String} (h : Text.IsLines n text) : (ofString text).IsLines n := by
  obtain ⟨lines, hlength, hlines, rfl⟩ := h
  refine ⟨lines.map ofString, by rw [List.length_map, hlength], ?_, ?_⟩
  · intro octets hoctets
    obtain ⟨line, hline, rfl⟩ := List.mem_map.1 hoctets
    exact unbroken_ofString (hlines line hline)
  · clear hlength hlines
    induction lines with
    | nil => rfl
    | cons line lines ih =>
      rw [List.map_cons, String.join_cons, ofString_append, ofString_append, ofString_lineFeed, ih]
      rfl

end StackMachine.ByteString
