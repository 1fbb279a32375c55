import Mathlib.Tactic.SplitIfs
import StackMachine.Json.Lexer
import StackMachine.Json.Writer

/-!
Strings that are written and read.  A character between the quotes is written as one escape or as itself, no
part of which ends the string, and undoing the escapes gives the characters back.
-/

set_option autoImplicit false

namespace StackMachine.Json

/-! ## Escapes that are undone -/

/-- What stands for a character between the quotes. -/
def escaped (c : Char) : List Char := (escapedChar c).toList

/-- The piece that undoing its escape leaves of a character. -/
def pieceOf (c : Char) : Piece :=
  if c < ' ' ∧ c ∉ ['\x08', '\x0c', '\n', '\r', '\t'] then .code c.toNat else .char c

theorem hexNumber?_hexPair {n : Nat} (h : n < 32) :
    Text.hexNumber? ['0', '0', Nat.digitChar (n / 16), Nat.digitChar (n % 16)] = some n := by
  revert n
  decide

/-- A character is written as a short escape, as a numeric one, or as itself. -/
inductive Escapes (c : Char) : List Char → Prop
  | short (letter : Char) (h : shortEscape? letter = some c) (hletter : letter ≠ 'u')
      (hplain : ¬ letter < ' ') (hpiece : pieceOf c = .char c) : Escapes c ['\\', letter]
  | numeric (h : c.toNat < 32) (hpiece : pieceOf c = .code c.toNat) :
      Escapes c ['\\', 'u', '0', '0', Nat.digitChar (c.toNat / 16), Nat.digitChar (c.toNat % 16)]
  | itself (hquote : c ≠ '"') (hslash : c ≠ '\\') (hplain : ¬ c < ' ') (hpiece : pieceOf c = .char c) :
      Escapes c [c]

theorem pieceOf_of_not_lt {c : Char} (h : ¬ c < ' ') : pieceOf c = .char c :=
  if_neg fun h' => h h'.1

theorem escapes_escaped (c : Char) : Escapes c (escaped c) := by
  unfold escaped escapedChar
  split_ifs with hquote hslash hbackspace hfeed hnewline hreturn htab hcontrol
  · subst hquote; exact .short '"' rfl (by decide) (by decide) rfl
  · subst hslash; exact .short '\\' rfl (by decide) (by decide) rfl
  · subst hbackspace; exact .short 'b' rfl (by decide) (by decide) rfl
  · subst hfeed; exact .short 'f' rfl (by decide) (by decide) rfl
  · subst hnewline; exact .short 'n' rfl (by decide) (by decide) rfl
  · subst hreturn; exact .short 'r' rfl (by decide) (by decide) rfl
  · subst htab; exact .short 't' rfl (by decide) (by decide) rfl
  · rw [String.toList_append, hexPair, String.toList_ofList, String.toList_ofList]
    exact .numeric hcontrol (if_pos ⟨hcontrol, by simp [*]⟩)
  · rw [String.toList_singleton]
    exact .itself hquote hslash hcontrol (pieceOf_of_not_lt hcontrol)

theorem units?_escaped (c : Char) (rest : List Char) :
    units? (escaped c ++ rest) = (units? rest).map (pieceOf c :: ·) := by
  have h := escapes_escaped c
  generalize escaped c = cs at h ⊢
  cases h with
  | short letter h hletter hplain hpiece =>
    rw [List.cons_append, List.cons_append, List.nil_append, units?, h, hpiece]
    · cases units? rest <;> rfl
    · intro a b c d rest' heq
      exact absurd heq hletter
  | numeric h hpiece =>
    simp only [List.cons_append, List.nil_append]
    rw [units?, hexNumber?_hexPair h, hpiece]
    cases units? rest <;> rfl
  | itself hquote hslash hplain hpiece =>
    rw [List.cons_append, List.nil_append, units?, hpiece]
    · cases units? rest <;> rfl
    all_goals simp [hslash]

theorem joinUnits?_code {n : Nat} (h : n < 32) (rest : List Piece) :
    joinUnits? (.code n :: rest) = (joinUnits? rest).map (Char.ofNat n :: ·) := by
  have hhigh : ¬ (0xD800 ≤ n ∧ n < 0xDC00) := by omega
  have hlow : ¬ (0xDC00 ≤ n ∧ n < 0xE000) := by omega
  have hboth : ¬ (0xD800 ≤ n ∧ n < 0xE000) := by omega
  match rest with
  | [] => simp [joinUnits?, hboth]
  | .char c :: rest => simp [joinUnits?, hboth]
  | .code low :: rest => rw [joinUnits?, if_neg hhigh, if_neg hlow]

theorem joinUnits?_pieceOf (c : Char) (rest : List Piece) :
    joinUnits? (pieceOf c :: rest) = (joinUnits? rest).map (c :: ·) := by
  have h := escapes_escaped c
  generalize escaped c = cs at h
  cases h with
  | short letter h hletter hplain hpiece => rw [hpiece, joinUnits?]
  | numeric h hpiece => rw [hpiece, joinUnits?_code h, Char.ofNat_toNat]
  | itself hquote hslash hplain hpiece => rw [hpiece, joinUnits?]

theorem units?_flatMap (cs : List Char) : units? (cs.flatMap escaped) = some (cs.map pieceOf) := by
  induction cs with
  | nil => rfl
  | cons c cs ih => rw [List.flatMap_cons, units?_escaped, ih, Option.map_some, List.map_cons]

theorem joinUnits?_map (cs : List Char) : joinUnits? (cs.map pieceOf) = some cs := by
  induction cs with
  | nil => rfl
  | cons c cs ih => rw [List.map_cons, joinUnits?_pieceOf, ih, Option.map_some]

/-- Undoing the escapes gives the text back. -/
theorem stringToken?_escaped (cs : List Char) :
    stringToken? (cs.flatMap escaped) = some (.string (some (String.ofList cs))) := by
  rw [stringToken?, units?_flatMap, Option.map_some, joinUnits?_map, Option.map_some]

/-! ## Strings that are cut out -/

variable {collected : List Char} {seen : List Token}

theorem step?_string_plain {c : Char} (hquote : c ≠ '"') (hslash : c ≠ '\\') (hplain : ¬ c < ' ') :
    (Lexer.string collected).step? c = some (.string (c :: collected), []) := by
  rw [Lexer.step?, if_neg hquote, if_neg hslash, if_neg hplain]

theorem step?_escape {c : Char} (hplain : ¬ c < ' ') :
    (Lexer.escape collected).step? c = some (.string (c :: collected), []) := by
  rw [Lexer.step?, if_neg hplain]

theorem digitChar_plain {n : Nat} (h : n < 16) :
    Nat.digitChar n ≠ '"' ∧ Nat.digitChar n ≠ '\\' ∧ ¬ Nat.digitChar n < ' ' := by
  revert n
  decide

theorem run?_string_escaped (c : Char) (rest : List Char) :
    (Lexer.string collected).run? seen (escaped c ++ rest)
      = (Lexer.string ((escaped c).reverse ++ collected)).run? seen rest := by
  have hslash : ∀ collected, (Lexer.string collected).step? '\\' = some (.escape ('\\' :: collected), []) :=
    fun _ => rfl
  have h := escapes_escaped c
  generalize escaped c = cs at h ⊢
  cases h with
  | short letter h hletter hplain hpiece =>
    simp only [List.cons_append, List.nil_append, Lexer.run?, hslash, step?_escape hplain]
    rfl
  | numeric h hpiece =>
    obtain ⟨hquote₁, hslash₁, hplain₁⟩ := digitChar_plain (n := c.toNat / 16) (by omega)
    obtain ⟨hquote₂, hslash₂, hplain₂⟩ := digitChar_plain (n := c.toNat % 16) (by omega)
    have hletter : ∀ collected, (Lexer.escape collected).step? 'u' = some (.string ('u' :: collected), []) :=
      fun _ => rfl
    have hzero : ∀ collected, (Lexer.string collected).step? '0' = some (.string ('0' :: collected), []) :=
      fun _ => rfl
    simp only [List.cons_append, List.nil_append, Lexer.run?, hslash, hletter, hzero,
      step?_string_plain hquote₁ hslash₁ hplain₁, step?_string_plain hquote₂ hslash₂ hplain₂]
    rfl
  | itself hquote hslash hplain hpiece =>
    simp only [List.cons_append, List.nil_append, Lexer.run?, step?_string_plain hquote hslash hplain]
    rfl

theorem run?_string_flatMap (cs rest : List Char) :
    (Lexer.string collected).run? seen (cs.flatMap escaped ++ rest)
      = (Lexer.string ((cs.flatMap escaped).reverse ++ collected)).run? seen rest := by
  induction cs generalizing collected with
  | nil => rfl
  | cons c cs ih =>
    rw [List.flatMap_cons, List.append_assoc, run?_string_escaped, ih, List.reverse_append,
      List.append_assoc]

theorem toList_quotedText (text : String) :
    (quotedText text).toList = '"' :: (text.toList.flatMap escaped ++ ['"']) := by
  have hfold : ∀ (cs : List Char) (written : String),
      (cs.foldl (fun written c => written ++ escapedChar c) written).toList
        = written.toList ++ cs.flatMap escaped := by
    intro cs
    induction cs with
    | nil => exact fun written => (List.append_nil _).symm
    | cons c cs ih =>
      intro written
      rw [List.foldl_cons, ih, String.toList_append, List.append_assoc, List.flatMap_cons, escaped]
  rw [quotedText, String.toList_append, hfold]
  rfl

/-- A text between quotes is one token, whatever follows. -/
theorem run?_quotedText (text : String) (rest : List Char) :
    Lexer.between.run? seen ((quotedText text).toList ++ rest)
      = Lexer.between.run? (.string (some text) :: seen) rest := by
  have hopen : Lexer.between.step? '"' = some (.string [], []) := rfl
  have hclose : (Lexer.string (text.toList.flatMap escaped).reverse).step? '"'
      = some (.between, [.string (some text)]) := by
    rw [Lexer.step?, if_pos rfl, List.reverse_reverse, stringToken?_escaped, String.ofList_toList]
    rfl
  rw [toList_quotedText, List.cons_append, Lexer.run?, hopen, List.append_assoc]
  dsimp only
  rw [run?_string_flatMap, List.append_nil, List.singleton_append, Lexer.run?, hclose]
  rfl

end StackMachine.Json
