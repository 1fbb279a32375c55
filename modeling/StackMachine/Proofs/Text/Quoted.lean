import StackMachine.Proofs.Text.Lines

/-!
Quoted text reads back.  What a character is written as tells the character and ends by itself, so a quotation
tells its text and where it ends, whatever stands behind it; and it is one line.
-/

set_option autoImplicit false

namespace StackMachine.Text

/-! ## The characters of a quotation -/

theorem toList_quoted (text : String) :
    (quoted text).toList = '"' :: text.toList.flatMap (fun c => (quotedChar c).toList) ++ ['"'] := by
  have hfold : ∀ (cs : List Char) (written : String),
      (cs.foldl (fun written c => written ++ quotedChar c) written).toList
        = written.toList ++ cs.flatMap fun c => (quotedChar c).toList := by
    intro cs
    induction cs with
    | nil => simp
    | cons c cs ih =>
      intro written
      rw [List.foldl_cons, ih, String.toList_append, List.flatMap_cons, List.append_assoc]
  unfold quoted
  rw [String.toList_append, hfold]
  rfl

theorem toList_codePointEscape (c : Char) :
    (codePointEscape c).toList = '\\' :: 'u' :: '\x7b' :: (Nat.toDigits 16 c.toNat ++ ['\x7d']) := by
  unfold codePointEscape hexLower
  simp

/-! ## Reading a quotation -/

/-- The character that comes first between the quotes, and what follows it. -/
def unquoteChar : List Char → Option (Char × List Char)
  | '\\' :: '0' :: rest => some ('\x00', rest)
  | '\\' :: 't' :: rest => some ('\t', rest)
  | '\\' :: 'r' :: rest => some ('\r', rest)
  | '\\' :: 'n' :: rest => some ('\n', rest)
  | '\\' :: 'u' :: '\x7b' :: rest =>
    let digits := rest.takeWhile (· ≠ '\x7d')
    some (Char.ofNat (hexValue digits), (rest.dropWhile (· ≠ '\x7d')).tail)
  | '\\' :: c :: rest => some (c, rest)
  | '"' :: _ => none
  | c :: rest => some (c, rest)
  | [] => none

theorem unquoteChar_self {c : Char} (hslash : c ≠ '\\') (hquote : c ≠ '"') (rest : List Char) :
    unquoteChar (c :: rest) = some (c, rest) := by
  unfold unquoteChar
  split <;> simp_all

theorem unquoteChar_codePointEscape (c : Char) (rest : List Char) :
    unquoteChar ((codePointEscape c).toList ++ rest) = some (c, rest) := by
  have hdigits : ∀ digit ∈ Nat.toDigits 16 c.toNat, decide (digit ≠ '\x7d') = true :=
    forall_mem_toDigits (P := fun digit => decide (digit ≠ '\x7d') = true) (by decide) c.toNat
  have hvalue : hexValue (Nat.toDigits 16 c.toNat) = c.toNat := by
    have h := hexValue_map_toDigits id (by decide) c.toNat
    rwa [List.map_id] at h
  rw [toList_codePointEscape, List.cons_append, List.cons_append, List.cons_append, List.append_assoc]
  unfold unquoteChar
  simp only [List.takeWhile_append_of_pos hdigits, List.dropWhile_append_of_pos hdigits]
  simp [hvalue]

theorem unquoteChar_quotedChar (c : Char) (rest : List Char) :
    unquoteChar ((quotedChar c).toList ++ rest) = some (c, rest) := by
  unfold quotedChar
  by_cases hnull : c = '\x00'
  · subst hnull; rfl
  by_cases htab : c = '\t'
  · subst htab; rfl
  by_cases hreturn : c = '\r'
  · subst hreturn; rfl
  by_cases hfeed : c = '\n'
  · subst hfeed; rfl
  by_cases hquote : c = '"'
  · subst hquote; rfl
  by_cases hslash : c = '\\'
  · subst hslash; rfl
  have hself : unquoteChar ((String.singleton c).toList ++ rest) = some (c, rest) := by
    simpa using unquoteChar_self hslash hquote rest
  rw [if_neg hnull, if_neg htab, if_neg hreturn, if_neg hfeed, if_neg hquote, if_neg hslash]
  split
  · exact hself
  · split
    · exact hself
    · exact unquoteChar_codePointEscape c rest

theorem quotedChars_append_inj {cs ds r r' : List Char}
    (h : cs.flatMap (fun c => (quotedChar c).toList) ++ '"' :: r
      = ds.flatMap (fun c => (quotedChar c).toList) ++ '"' :: r') : cs = ds ∧ r = r' := by
  induction cs generalizing ds with
  | nil =>
    cases ds with
    | nil => exact ⟨rfl, (List.cons.inj h).2⟩
    | cons d ds =>
      have hread := congrArg unquoteChar h
      rw [List.flatMap_cons, List.append_assoc, unquoteChar_quotedChar] at hread
      cases hread
  | cons c cs ih =>
    have hread := congrArg unquoteChar h
    rw [List.flatMap_cons, List.append_assoc, unquoteChar_quotedChar] at hread
    cases ds with
    | nil => cases hread
    | cons d ds =>
      rw [List.flatMap_cons, List.append_assoc, unquoteChar_quotedChar] at hread
      obtain ⟨rfl, hrest⟩ := Prod.mk.inj (Option.some.inj hread)
      obtain ⟨rfl, hr⟩ := ih hrest
      exact ⟨rfl, hr⟩

/-- Two quotations that begin the same text have the same content, and the same follows them. -/
theorem quoted_append_inj {a b : String} {r r' : List Char}
    (h : (quoted a).toList ++ r = (quoted b).toList ++ r') : a = b ∧ r = r' := by
  rw [toList_quoted, toList_quoted, List.append_assoc, List.append_assoc] at h
  obtain ⟨hchars, hr⟩ := quotedChars_append_inj (List.cons.inj h).2
  exact ⟨String.toList_inj.1 hchars, hr⟩

/-! ## One line -/

theorem oneLine_singleton {c : Char} (hfeed : c ≠ '\n') (hreturn : c ≠ '\r') : OneLine (String.singleton c) := by
  intro d hd
  rw [String.toList_singleton, List.mem_singleton] at hd
  subst hd
  exact ⟨hfeed, hreturn⟩

theorem oneLine_codePointEscape (c : Char) : OneLine (codePointEscape c) := by
  have hdigits : OneLine (hexLower c.toNat) := by
    unfold hexLower
    rw [oneLine_ofList]
    exact forall_mem_toDigits (by decide) c.toNat
  exact (OneLine.append (by decide) hdigits).append (by decide)

theorem oneLine_quotedChar (c : Char) : OneLine (quotedChar c) := by
  unfold quotedChar
  by_cases hreturn : c = '\r'
  · subst hreturn; decide
  by_cases hfeed : c = '\n'
  · subst hfeed; decide
  have hself := oneLine_singleton hfeed hreturn
  rw [if_neg hreturn, if_neg hfeed]
  repeat' split
  · decide
  · decide
  · decide
  · decide
  · exact hself
  · exact hself
  · exact oneLine_codePointEscape c

/-- A quotation is one line, whatever lines its text has. -/
theorem oneLine_quoted (text : String) : OneLine (quoted text) := by
  intro c hc
  rw [toList_quoted] at hc
  simp only [List.mem_append, List.mem_cons, List.mem_flatMap, List.not_mem_nil, or_false] at hc
  rcases hc with (rfl | ⟨d, -, hd⟩) | rfl
  · decide
  · exact oneLine_quotedChar d c hd
  · decide

end StackMachine.Text
