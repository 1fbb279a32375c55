import StackMachine.Proofs.Text.Quoted
import StackMachine.Value.Display

/-!
Values as text.  A shown value is a quotation, an octet between quotes, or a word of plain characters; so it is
one line, and it tells where it ends when a comma or a bracket follows.
-/

set_option autoImplicit false

namespace StackMachine

open Text

/-! ## Numbers -/

namespace Text

/-- A word of plain characters. -/
structure PlainWord (text : String) : Prop where
  plain : Plain text
  ne_empty : text ≠ ""

variable {a b : String}

theorem PlainWord.append (ha : PlainWord a) (hb : Plain b) : PlainWord (a ++ b) :=
  ⟨ha.plain.append hb, fun h => ha.ne_empty (String.append_eq_empty_iff.1 h).1⟩

theorem Plain.append_word (ha : Plain a) (hb : PlainWord b) : PlainWord (a ++ b) :=
  ⟨ha.append hb.plain, fun h => hb.ne_empty (String.append_eq_empty_iff.1 h).2⟩

theorem plainWord_repr (n : Nat) : PlainWord n.repr := ⟨plain_repr n, Nat.repr_ne_empty⟩

theorem plainWord_decimal (w : Word) : PlainWord (Word.decimal w) := by
  refine ⟨plain_decimal w, ?_⟩
  unfold Word.decimal
  rw [Int.repr_eq_if]
  split
  · exact Nat.repr_ne_empty
  · simp

end Text

theorem Decimal.isPlain_of_mem_positional {d : Decimal} {c : Char} (h : c ∈ d.positional) : isPlain c = true := by
  have hdigits : ∀ c ∈ d.digits, isPlain c = true := fun _ => isPlain_of_mem_toDigits
  have hzeros : ∀ {n : Nat} {c : Char}, c ∈ List.replicate n '0' → isPlain c = true := fun h => by
    rw [List.eq_of_mem_replicate h]
    decide
  unfold positional at h
  simp only at h
  split at h
  · rcases List.mem_append.1 h with h | h
    · exact hdigits c h
    · exact hzeros h
  · split at h
    · rcases List.mem_append.1 h with h | h
      · exact hdigits c (List.mem_of_mem_take h)
      · rcases List.mem_cons.1 h with rfl | h
        · decide
        · exact hdigits c (List.mem_of_mem_drop h)
    · simp only [List.mem_cons, List.mem_append] at h
      rcases h with rfl | rfl | h | h
      · decide
      · decide
      · exact hzeros h
      · exact hdigits c h

theorem Decimal.positional_ne_nil (d : Decimal) : d.positional ≠ [] := by
  have hdigits : d.digits ≠ [] := Nat.toDigits_ne_nil
  unfold positional
  simp only
  split
  · simp [hdigits]
  · split <;> simp

theorem plain_signText (sign : Float.Model.UnpackedFloat.Sign) : Plain (signText sign) := by
  cases sign <;> decide

theorem plainWord_floatText (format : Float.Model.Format) (bound : Nat) (x : Float.Model.UnpackedFloat) :
    PlainWord (floatText format bound x) := by
  cases x with
  | notANumber =>
    have hname : PlainWord "NaN" := ⟨by decide, by decide⟩
    exact hname
  | infinity sign => exact (plain_signText sign).append_word ⟨by decide, by decide⟩
  | zero sign => exact (plain_signText sign).append_word ⟨by decide, by decide⟩
  | finite sign mantissa exponent =>
    have hdigits : PlainWord (String.ofList (Decimal.shortest format .up mantissa exponent).positional) := by
      refine ⟨plain_ofList.2 fun _ => Decimal.isPlain_of_mem_positional, fun h => ?_⟩
      have hlist := congrArg String.toList h
      rw [String.toList_ofList] at hlist
      exact Decimal.positional_ne_nil _ hlist
    refine ((plain_signText sign).append_word hdigits).append ?_
    split <;> decide

theorem plainWord_realText (x : Float) : PlainWord (realText x) := plainWord_floatText _ _ _

theorem plainWord_singleText (x : Float32) : PlainWord (singleText x) := plainWord_floatText _ _ _

theorem plainWord_complex (z : Complex) : PlainWord z.display := by
  have hopen : PlainWord "(" := ⟨by decide, by decide⟩
  unfold Complex.display
  refine (((hopen.append (plainWord_realText _).plain).append ?_).append (plainWord_realText _).plain).append ?_
  · split <;> decide
  · decide

theorem plainWord_addressText (handle : UInt64) : PlainWord (addressText handle) := by
  have hopen : PlainWord "*(0x" := ⟨by decide, by decide⟩
  exact (hopen.append (plain_hex _ _)).append (by decide)

/-! ## Octets -/

/-- An octet is shown as one character or by two digits. -/
theorem toList_octetText (b : UInt8) :
    (∃ c, c ≠ '\n' ∧ c ≠ '\r' ∧ (octetText b).toList = ['\'', c, '\''])
      ∨ (octetText b).toList = '\'' :: '\\' :: 'x' :: ((hex 2 b.toNat).toList ++ ['\'']) := by
  have hgraphic : ∀ n < 0x7F, 0x20 ≤ n → Char.ofNat n ≠ '\n' ∧ Char.ofNat n ≠ '\r' := by decide
  unfold octetText
  split
  · next hb =>
    simp only [Bool.and_eq_true, decide_eq_true_eq, UInt8.le_iff_toNat_le] at hb
    obtain ⟨hfeed, hreturn⟩ := hgraphic b.toNat (Nat.lt_succ_of_le hb.2) hb.1
    exact .inl ⟨Char.ofNat b.toNat, hfeed, hreturn, by simp⟩
  · exact .inr (by simp)

theorem octetText_append_inj {a b : UInt8} {r r' : List Char}
    (h : (octetText a).toList ++ r = (octetText b).toList ++ r') : octetText a = octetText b ∧ r = r' := by
  have htext : (octetText a).toList = (octetText b).toList → r = r' → octetText a = octetText b ∧ r = r' :=
    fun htext hr => ⟨String.toList_inj.1 htext, hr⟩
  rcases toList_octetText a with ⟨c, -, -, ha⟩ | ha <;> rcases toList_octetText b with ⟨d, -, -, hb⟩ | hb <;>
    rw [ha, hb] at h htext
  · obtain ⟨rfl, rfl⟩ : c = d ∧ r = r' := by simpa using h
    exact htext rfl rfl
  · -- A backslash between quotes is not taken for the beginning of an escape.
    simp at h
  · simp at h
  · have hdigits : ∀ n, ∀ c ∈ (hex 2 n).toList, isPlain c = true := fun n => plain_hex 2 n
    have hquote : ∀ tail : List Char, ∀ c ∈ ('\'' :: tail).head?, isPlain c = false := fun tail c hc => by
      obtain rfl := Option.some.inj hc
      decide
    simp only [List.cons_append, List.append_assoc, List.cons.injEq, true_and, List.nil_append] at h
    obtain ⟨hhex, hrest⟩ := run_append_inj (hdigits _) (hquote r) (hdigits _) (hquote r') h
    rw [hhex] at htext
    exact htext rfl (List.cons.inj hrest).2

theorem oneLine_octetText (b : UInt8) : OneLine (octetText b) := by
  intro c hc
  rcases toList_octetText b with ⟨d, hfeed, hreturn, hb⟩ | hb <;> rw [hb] at hc
  · simp only [List.mem_cons, List.not_mem_nil, or_false] at hc
    rcases hc with rfl | rfl | rfl
    · decide
    · exact ⟨hfeed, hreturn⟩
    · decide
  · simp only [List.mem_cons, List.mem_append, List.not_mem_nil, or_false] at hc
    rcases hc with rfl | rfl | rfl | hc | rfl
    · decide
    · decide
    · decide
    · exact (plain_hex 2 b.toNat).oneLine c hc
    · decide

namespace Value

variable {v w : Value} {r r' : List Char}

/-- The forms in which values are shown. -/
inductive Form : Value → Prop
  | string (s : ByteString) : Form (.string s)
  | octet (b : UInt8) : Form (.byte b)
  | plain {v : Value} (h : PlainWord v.display) : Form v

theorem form (v : Value) : v.Form := by
  cases v with
  | null => exact .plain ⟨by decide, by decide⟩
  | int n | long n => exact .plain (plainWord_decimal n)
  | uint n | ulong n => exact .plain (plainWord_repr n.toNat)
  | real x | double x => exact .plain (plainWord_realText x)
  | float x => exact .plain (plainWord_singleText x)
  | complex z => exact .plain (plainWord_complex z)
  | ref handle => exact .plain (plainWord_addressText handle)
  | byte b => exact .octet b
  | string s => exact .string s

/-- A shown value is one line. -/
theorem oneLine_display (v : Value) : OneLine v.display := by
  cases v.form with
  | string s => exact oneLine_quoted s.toText
  | octet b => exact oneLine_octetText b
  | plain h => exact h.plain.oneLine

/-- What begins the text of a value tells its form. -/
theorem head?_display (v : Value) (r : List Char) :
    (∃ s, v = .string s ∧ (v.display.toList ++ r).head? = some '"')
      ∨ (∃ b, v = .byte b ∧ (v.display.toList ++ r).head? = some '\'')
      ∨ PlainWord v.display ∧ ∃ c, isPlain c = true ∧ (v.display.toList ++ r).head? = some c := by
  cases v.form with
  | string s =>
    refine .inl ⟨s, rfl, ?_⟩
    change ((quoted s.toText).toList ++ r).head? = _
    rw [toList_quoted]
    rfl
  | octet b =>
    refine .inr (.inl ⟨b, rfl, ?_⟩)
    change ((octetText b).toList ++ r).head? = _
    rcases toList_octetText b with ⟨c, -, -, hb⟩ | hb <;> rw [hb] <;> rfl
  | plain h =>
    refine .inr (.inr ⟨h, ?_⟩)
    rcases hlist : v.display.toList with _ | ⟨c, cs⟩
    · exact absurd (String.toList_eq_nil_iff.1 hlist) h.ne_empty
    · exact ⟨c, h.plain c (by rw [hlist]; exact List.mem_cons_self), rfl⟩

/-- Two values that begin the same text are shown alike, and the same follows them, as long as no plain character
does. -/
theorem display_append_inj (hr : ∀ c ∈ r.head?, isPlain c = false) (hr' : ∀ c ∈ r'.head?, isPlain c = false)
    (h : v.display.toList ++ r = w.display.toList ++ r') : v.display = w.display ∧ r = r' := by
  have hhead := congrArg List.head? h
  rcases head?_display v r with ⟨s, rfl, hv⟩ | ⟨b, rfl, hv⟩ | ⟨hplain, c, hc, hv⟩ <;>
    rcases head?_display w r' with ⟨s', rfl, hw⟩ | ⟨b', rfl, hw⟩ | ⟨hplain', c', hc', hw⟩ <;>
    rw [hv, hw, Option.some.injEq] at hhead
  · obtain ⟨htext, hrest⟩ := quoted_append_inj h
    exact ⟨congrArg quoted htext, hrest⟩
  · cases hhead
  · subst hhead; cases hc'
  · cases hhead
  · exact octetText_append_inj h
  · subst hhead; cases hc'
  · subst hhead; cases hc
  · subst hhead; cases hc
  · obtain ⟨htext, hrest⟩ := run_append_inj hplain.plain hr hplain'.plain hr' h
    exact ⟨String.toList_inj.1 htext, hrest⟩

/-- Strings that are shown alike have the same text. -/
theorem toText_of_display_eq {a b : ByteString} (h : (string a).display = (string b).display) :
    a.toText = b.toText :=
  (quoted_append_inj (r := []) (congrArg (·.toList ++ []) h)).1

end Value

end StackMachine
