import StackMachine.Proofs.Json.Grammar

/-!
Texts that are put together and cut.  Two texts side by side have the tokens of both unless a word or a numeral
runs on over the cut; blanks between them change nothing, and a text can be cut at every mark in its tokens.
-/

set_option autoImplicit false

namespace StackMachine.Json

/-- The character that is the token by itself. -/
def Token.mark? : Token → Option Char
  | .openArray => some '['
  | .closeArray => some ']'
  | .openObject => some '\x7b'
  | .closeObject => some '\x7d'
  | .comma => some ','
  | .colon => some ':'
  | _ => none

namespace Lexer

variable {state next : Lexer} {seen tokens ts ta tb : List Token} {cs rest : List Char} {c : Char}
  {token mark : Token}

/-! ## Single characters -/

theorem start?_of_mark (h : mark.mark? = some c) : start? c = some (between, [mark]) := by
  cases mark <;> cases h <;> rfl

/-- The lexer is inside a word or a numeral. -/
def IsCollecting : Lexer → Prop
  | word _ | number _ => True
  | _ => False

/-- The lexer is inside a string. -/
def IsQuoting : Lexer → Prop
  | string _ | escape _ => True
  | _ => False

/-- What a character between tokens can be: a blank, a mark, or the first of a longer token. -/
theorem start?_cases (h : start? c = some (next, tokens)) :
    (IsSpace c ∧ next = between ∧ tokens = [])
      ∨ (∃ mark : Token, mark.mark? = some c ∧ next = between ∧ tokens = [mark])
      ∨ (tokens = [] ∧ (next.IsQuoting ∨ next.IsCollecting)) := by
  unfold start? at h
  split at h
  case h_1 | h_2 | h_3 | h_4 =>
    cases h
    exact .inl ⟨by simp [IsSpace], rfl, rfl⟩
  case h_5 | h_6 | h_7 | h_8 | h_9 | h_10 =>
    cases h
    exact .inr (.inl ⟨_, rfl, rfl, rfl⟩)
  case h_11 =>
    cases h
    exact .inr (.inr ⟨rfl, .inl trivial⟩)
  case h_12 =>
    cases h
    exact .inr (.inr ⟨rfl, .inr trivial⟩)
  case h_13 =>
    split at h
    · cases h
      exact .inr (.inr ⟨rfl, .inr trivial⟩)
    · split at h
      · cases h
        exact .inr (.inr ⟨rfl, .inr trivial⟩)
      · cases h

/-- A character that goes on with words or with numerals is no mark, and begins nothing else. -/
theorem isCollecting_of_start? (h : start? c = some (next, tokens))
    (hc : c.isAlpha = true ∨ continuesNumber c = true) : tokens = [] ∧ next.IsCollecting := by
  unfold start? at h
  split at h
  case h_12 =>
    cases h
    exact ⟨rfl, trivial⟩
  case h_13 =>
    split at h
    · cases h
      exact ⟨rfl, trivial⟩
    · split at h
      · cases h
        exact ⟨rfl, trivial⟩
      · cases h
  all_goals exact absurd hc (by decide)

theorem isBare_of_wordToken? (h : wordToken? cs = some token) : token.IsBare := by
  unfold wordToken? at h
  split at h <;> cases h <;> trivial

theorem isBare_of_numberToken? (h : numberToken? cs = some token) : token.IsBare := by
  obtain ⟨n, -, rfl⟩ := Option.map_eq_some_iff.1 h
  trivial

theorem mark?_of_isBare (h : token.IsBare) : token.mark? = none := by
  cases token with
  | null | bool _ | number _ => rfl
  | _ => cases h

/-- A character that finds a token complete begins what is next. -/
theorem exists_start? {token? : Option Token}
    (h : (do
      let token ← token?
      let (state, ts) ← start? c
      pure (state, token :: ts)) = some (next, tokens)) :
    ∃ token ts, token? = some token ∧ tokens = token :: ts ∧ start? c = some (next, ts) := by
  obtain ⟨token, htoken, h⟩ := Option.bind_eq_some_iff.1 h
  obtain ⟨⟨next', ts⟩, hstart, h⟩ := Option.bind_eq_some_iff.1 h
  cases h
  exact ⟨token, ts, htoken, rfl, hstart⟩

/-- Inside a word or a numeral a character goes on with it or finds it complete. -/
theorem IsCollecting.step?_cases (hstate : state.IsCollecting) (h : state.step? c = some (next, tokens)) :
    (tokens = [] ∧ next.IsCollecting)
      ∨ ∃ token ts, token.IsBare ∧ state.finish? = some [token] ∧ tokens = token :: ts
        ∧ start? c = some (next, ts) := by
  cases state with
  | word collected =>
    rw [step?] at h
    split at h
    · cases h
      exact .inl ⟨rfl, trivial⟩
    · obtain ⟨token, ts, htoken, htokens, hstart⟩ := exists_start? h
      exact .inr ⟨token, ts, isBare_of_wordToken? htoken, (owes_word htoken).finish, htokens, hstart⟩
  | number collected =>
    rw [step?] at h
    split at h
    · cases h
      exact .inl ⟨rfl, trivial⟩
    · obtain ⟨token, ts, htoken, htokens, hstart⟩ := exists_start? h
      exact .inr ⟨token, ts, isBare_of_numberToken? htoken, (owes_number htoken).finish, htokens, hstart⟩
  | _ => cases hstate

/-- Inside a string a character goes on with it or completes it. -/
theorem IsQuoting.step?_cases (hstate : state.IsQuoting) (h : state.step? c = some (next, tokens)) :
    (tokens = [] ∧ next.IsQuoting) ∨ ∃ text, tokens = [.string text] ∧ next = between := by
  cases state with
  | string collected =>
    rw [step?] at h
    split at h
    · obtain ⟨token, htoken, h⟩ := Option.map_eq_some_iff.1 h
      obtain ⟨units, -, rfl⟩ := Option.map_eq_some_iff.1 htoken
      cases h
      exact .inr ⟨_, rfl, rfl⟩
    · split at h
      · cases h
        exact .inl ⟨rfl, trivial⟩
      · split at h
        · cases h
        · cases h
          exact .inl ⟨rfl, trivial⟩
  | escape collected =>
    rw [step?] at h
    split at h
    · cases h
    · cases h
      exact .inl ⟨rfl, trivial⟩
  | _ => cases hstate

/-- Where a text may end: between tokens, or behind a word or a numeral. -/
theorem finish?_cases (h : state.finish? = some tokens) :
    (state = between ∧ tokens = []) ∨ ∃ token, token.IsBare ∧ Owes state token ∧ tokens = [token] := by
  cases state with
  | between =>
    cases h
    exact .inl ⟨rfl, rfl⟩
  | word collected =>
    obtain ⟨token, htoken, rfl⟩ := Option.map_eq_some_iff.1 h
    exact .inr ⟨token, isBare_of_wordToken? htoken, owes_word htoken, rfl⟩
  | number collected =>
    obtain ⟨token, htoken, rfl⟩ := Option.map_eq_some_iff.1 h
    exact .inr ⟨token, isBare_of_numberToken? htoken, owes_number htoken, rfl⟩
  | _ => cases h

/-- Among the tokens of one character a mark stands alone. -/
theorem append_mark_eq_singleton (h : ta ++ mark :: ts = [token]) : ta = [] ∧ mark = token ∧ ts = [] := by
  obtain ⟨rfl, hcons⟩ := (List.append_eq_singleton_iff.1 h).resolve_right fun h => by cases h.2
  exact ⟨rfl, List.cons.inj hcons⟩

theorem start?_mark {d : Char} (h : start? d = some (next, ta ++ mark :: ts)) (hmark : mark.mark? = some c) :
    d = c ∧ next = between ∧ ts = [] ∧ ta = [] := by
  rcases start?_cases h with ⟨-, -, htokens⟩ | ⟨mark', hmark', hnext, htokens⟩ | ⟨htokens, -⟩
  · cases (List.append_eq_nil_iff.1 htokens).2
  · obtain ⟨rfl, rfl, rfl⟩ := append_mark_eq_singleton htokens
    exact ⟨Option.some.inj (hmark'.symm.trans hmark), hnext, rfl, rfl⟩
  · cases (List.append_eq_nil_iff.1 htokens).2

/-- A mark is the last token that its character completes, behind what the text so far ends with. -/
theorem step?_mark {d : Char} (h : state.step? d = some (next, ta ++ mark :: ts)) (hmark : mark.mark? = some c) :
    d = c ∧ next = between ∧ ts = [] ∧ state.finish? = some ta := by
  have hcollecting : state.IsCollecting → d = c ∧ next = between ∧ ts = [] ∧ state.finish? = some ta := by
    intro hstate
    rcases hstate.step?_cases h with ⟨htokens, -⟩ | ⟨token, ts', hbare, hfinish, htokens, hs⟩
    · cases (List.append_eq_nil_iff.1 htokens).2
    · cases ta with
      | nil =>
        obtain ⟨rfl, -⟩ := List.cons.inj htokens
        cases (mark?_of_isBare hbare).symm.trans hmark
      | cons first ta =>
        obtain ⟨rfl, rfl⟩ := List.cons.inj htokens
        obtain ⟨hc, hnext, hts, rfl⟩ := start?_mark hs hmark
        exact ⟨hc, hnext, hts, hfinish⟩
  have hquoting : state.IsQuoting → d = c ∧ next = between ∧ ts = [] ∧ state.finish? = some ta := by
    intro hstate
    rcases hstate.step?_cases h with ⟨htokens, -⟩ | ⟨text, htokens, -⟩
    · cases (List.append_eq_nil_iff.1 htokens).2
    · obtain ⟨rfl, rfl, rfl⟩ := append_mark_eq_singleton htokens
      cases hmark
  cases state with
  | between =>
    obtain ⟨hc, hnext, hts, rfl⟩ := start?_mark h hmark
    exact ⟨hc, hnext, hts, rfl⟩
  | word collected | number collected => exact hcollecting trivial
  | string collected | escape collected => exact hquoting trivial

/-! ## Texts side by side -/

theorem run?_eq_map (state : Lexer) (seen : List Token) (cs : List Char) :
    state.run? seen cs = (state.run? [] cs).map (seen.reverse ++ ·) := by
  induction cs generalizing state seen with
  | nil =>
    rw [run?, run?]
    cases state.finish? <;> simp
  | cons c cs ih =>
    rw [run?, run?]
    cases state.step? c with
    | none => rfl
    | some next =>
      dsimp only
      rw [ih next.1 (next.2.reverse ++ seen), ih next.1 (next.2.reverse ++ [])]
      simp [Function.comp_def]

/-- After a text the lexer goes on as between tokens, unless a word or a numeral runs on. -/
theorem run?_append (h : state.run? seen cs = some ts)
    (hrest : Delimits rest ∨ ∀ token ∈ ts.getLast?, ¬ token.IsBare) :
    state.run? seen (cs ++ rest) = between.run? ts.reverse rest := by
  induction cs generalizing state seen with
  | nil =>
    obtain ⟨tokens, htokens, rfl⟩ := Option.map_eq_some_iff.1 h
    rcases finish?_cases htokens with ⟨rfl, rfl⟩ | ⟨token, hbare, howes, rfl⟩
    · rw [List.append_nil, List.reverse_reverse, List.nil_append]
    · rcases hrest with hrest | hlast
      · rw [List.nil_append, howes.run? hrest, List.reverse_append, List.reverse_reverse]
        rfl
      · exact absurd hbare (hlast token (by simp))
  | cons c cs ih =>
    rw [run?] at h
    rw [List.cons_append, run?]
    split at h
    · exact ih h
    · cases h

theorem IsCollecting.exists_head? (hstate : state.IsCollecting) (h : state.run? [] cs = some ts) :
    ∃ token ∈ ts.head?, token.IsBare := by
  induction cs generalizing state with
  | nil =>
    obtain ⟨tokens, htokens, rfl⟩ := Option.map_eq_some_iff.1 h
    rcases finish?_cases htokens with ⟨rfl, -⟩ | ⟨token, hbare, -, rfl⟩
    · cases hstate
    · exact ⟨token, rfl, hbare⟩
  | cons c cs ih =>
    rw [run?] at h
    split at h
    · next next tokens hstep =>
      rcases hstate.step?_cases hstep with ⟨rfl, hnext⟩ | ⟨token, ts', hbare, -, rfl, -⟩
      · exact ih hnext h
      · rw [run?_eq_map] at h
        obtain ⟨others, -, rfl⟩ := Option.map_eq_some_iff.1 h
        exact ⟨token, by simp, hbare⟩
    · cases h

theorem IsQuoting.ne_nil (hstate : state.IsQuoting) (h : state.run? [] cs = some ts) : ts ≠ [] := by
  induction cs generalizing state with
  | nil => cases state <;> cases hstate <;> cases h
  | cons c cs ih =>
    rw [run?] at h
    split at h
    · next next tokens hstep =>
      rcases hstate.step?_cases hstep with ⟨rfl, hnext⟩ | ⟨text, rfl, -⟩
      · exact ih hnext h
      · rw [run?_eq_map] at h
        obtain ⟨others, -, rfl⟩ := Option.map_eq_some_iff.1 h
        exact List.cons_ne_nil _ _
    · cases h

/-- What does not begin with a word or a numeral ends those before it. -/
theorem delimits_of_run? (h : between.run? [] rest = some ts) (hhead : ∀ token ∈ ts.head?, ¬ token.IsBare) :
    Delimits rest := by
  intro c hc
  cases rest with
  | nil => cases hc
  | cons d rest =>
    obtain rfl := Option.some.inj hc
    by_contra hcontinues
    rw [run?] at h
    split at h
    · next next tokens hstep =>
      have hor : d.isAlpha = true ∨ continuesNumber d = true := by
        grind
      obtain ⟨rfl, hnext⟩ := isCollecting_of_start? hstep hor
      obtain ⟨token, htoken, hbare⟩ := hnext.exists_head? h
      exact hhead token htoken hbare
    · cases h

/-! ## Cuts -/

/-- A text can be cut at a mark in its tokens. -/
theorem exists_cut (hmark : mark.mark? = some c) (h : state.run? [] cs = some (ta ++ mark :: tb)) :
    ∃ before after, cs = before ++ c :: after ∧ state.run? [] before = some ta
      ∧ between.run? [] after = some tb := by
  induction cs generalizing state ta with
  | nil =>
    obtain ⟨tokens, htokens, hts⟩ := Option.map_eq_some_iff.1 h
    rw [List.reverse_nil, List.nil_append] at hts
    rcases finish?_cases htokens with ⟨-, rfl⟩ | ⟨token, hbare, -, rfl⟩
    · cases (List.append_eq_nil_iff.1 hts.symm).2
    · obtain ⟨rfl, rfl, rfl⟩ := append_mark_eq_singleton hts.symm
      cases (mark?_of_isBare hbare).symm.trans hmark
  | cons d cs ih =>
    rw [run?] at h
    split at h
    · next next tokens hstep =>
      rw [run?_eq_map, List.append_nil, List.reverse_reverse] at h
      obtain ⟨ts, hts, heq⟩ := Option.map_eq_some_iff.1 h
      have hlater : ∀ ta', ta = tokens ++ ta' → ts = ta' ++ mark :: tb →
          ∃ before after, d :: cs = before ++ c :: after ∧ state.run? [] before = some ta
            ∧ between.run? [] after = some tb := by
        rintro ta' rfl rfl
        obtain ⟨before, after, rfl, hbefore, hafter⟩ := ih hts
        refine ⟨d :: before, after, rfl, ?_, hafter⟩
        rw [run?, hstep]
        dsimp only
        rw [run?_eq_map, hbefore, List.append_nil, List.reverse_reverse, Option.map_some]
      rcases List.append_eq_append_iff.1 heq with ⟨ta', hta, hts'⟩ | ⟨ts', rfl, htail⟩
      · exact hlater ta' hta hts'
      · cases ts' with
        | nil => exact hlater [] (by simp) htail.symm
        | cons first ts' =>
          obtain ⟨rfl, rfl⟩ := List.cons.inj htail
          obtain ⟨rfl, rfl, rfl, hfinish⟩ := step?_mark hstep hmark
          exact ⟨[], cs, rfl, by rw [run?, hfinish]; rfl, hts⟩
    · cases h

theorem isSpace_of_run? (h : between.run? [] cs = some []) : ∀ c ∈ cs, IsSpace c := by
  induction cs with
  | nil => exact nofun
  | cons c cs ih =>
    rw [run?] at h
    split at h
    · next next tokens hstep =>
      rcases start?_cases hstep with ⟨hc, rfl, rfl⟩ | ⟨mark, -, rfl, rfl⟩ | ⟨rfl, hnext | hnext⟩
      · exact List.forall_mem_cons.2 ⟨hc, ih h⟩
      · rw [run?_eq_map] at h
        obtain ⟨others, -, hnil⟩ := Option.map_eq_some_iff.1 h
        cases hnil
      · exact absurd rfl (hnext.ne_nil h)
      · obtain ⟨token, htoken, -⟩ := hnext.exists_head? h
        cases htoken
    · cases h

end Lexer

/-! ## Strings -/

variable {text before after : String} {ta tb : List Token} {c : Char}

/-- A text of blanks alone. -/
def IsBlank (text : String) : Prop := ∀ c ∈ text.toList, IsSpace c

theorem isBlank_iff : IsBlank text ↔ tokens? text = some [] := by
  refine ⟨fun h => ?_, Lexer.isSpace_of_run?⟩
  rw [tokens?, ← List.append_nil text.toList, run?_blanks h]
  rfl

theorem tokens?_append (hbefore : tokens? before = some ta)
    (hafter : Delimits after.toList ∨ ∀ token ∈ ta.getLast?, ¬ token.IsBare) :
    tokens? (before ++ after) = (tokens? after).map (ta ++ ·) := by
  rw [tokens?, String.toList_append, Lexer.run?_append hbefore hafter, Lexer.run?_eq_map, List.reverse_reverse]
  rfl

theorem tokens?_blanks_append {blanks : String} (hblanks : IsBlank blanks) :
    tokens? (blanks ++ after) = tokens? after := by
  rw [tokens?, String.toList_append, run?_blanks hblanks]
  rfl

/-- Blanks between two texts keep their tokens apart. -/
theorem tokens?_blanks {blanks : String} (hblanks : IsBlank blanks) (hne : blanks ≠ "")
    (hbefore : tokens? before = some ta) (hafter : tokens? after = some tb) :
    tokens? (before ++ blanks ++ after) = some (ta ++ tb) := by
  have hdelimits : Delimits (blanks ++ after).toList := by
    obtain ⟨c, cs, hcs⟩ := List.exists_cons_of_ne_nil (mt String.toList_eq_nil_iff.1 hne)
    have hc : IsSpace c := hblanks c (hcs ▸ List.mem_cons_self)
    rw [String.toList_append, hcs]
    rcases hc with rfl | rfl | rfl | rfl <;> exact delimits_cons rfl rfl
  rw [String.append_assoc, tokens?_append hbefore (.inl hdelimits), tokens?_blanks_append hblanks, hafter]
  rfl

/-- A mark between two texts keeps their tokens apart. -/
theorem tokens?_mark {mark : Token} (hmark : mark.mark? = some c) (hbefore : tokens? before = some ta)
    (hafter : tokens? after = some tb) :
    tokens? (before ++ String.singleton c ++ after) = some (ta ++ mark :: tb) := by
  have hlist : (String.singleton c ++ after).toList = c :: after.toList := by simp
  have hdelimits : Delimits (String.singleton c ++ after).toList := by
    rw [hlist]
    cases mark <;> cases hmark <;> exact delimits_cons rfl rfl
  have hrest : tokens? (String.singleton c ++ after) = some (mark :: tb) := by
    rw [tokens?, hlist, run?_mark (Lexer.start?_of_mark hmark), Lexer.run?_eq_map, ← tokens?, hafter]
    rfl
  rw [String.append_assoc, tokens?_append hbefore (.inl hdelimits), hrest]
  rfl

theorem exists_append_mark (ta : List Token) {mark : Token} (hmark : mark.mark? = some c)
    (h : tokens? text = some (ta ++ mark :: tb)) :
    ∃ before after, text = before ++ String.singleton c ++ after ∧ tokens? before = some ta
      ∧ tokens? after = some tb := by
  obtain ⟨before, after, htext, hbefore, hafter⟩ := Lexer.exists_cut hmark h
  refine ⟨String.ofList before, String.ofList after, ?_, ?_, ?_⟩
  · rw [← String.toList_inj, htext]
    simp
  · rw [tokens?, String.toList_ofList, hbefore]
  · rw [tokens?, String.toList_ofList, hafter]

/-- Blanks between the tokens of a value may be replaced by others, or left out. -/
theorem read?_of_blanks {blanks blanks' : String} {v : Json} (h : read? (before ++ blanks ++ after) = some v)
    (hbefore : tokens? before = some ta) (hafter : tokens? after = some tb)
    (hcut : tokens? (before ++ blanks ++ after) = some (ta ++ tb)) (hblanks : IsBlank blanks') :
    read? (before ++ blanks' ++ after) = some v := by
  rw [read?_eq_some_iff, hcut] at h
  rw [read?_eq_some_iff, ← h]
  by_cases hne : blanks' = ""
  · -- without blanks, no word or numeral may run on over the cut
    have happly : Delimits after.toList ∨ ∀ token ∈ ta.getLast?, ¬ token.IsBare := by
      by_contra hboth
      obtain ⟨hdelimits, hlast⟩ := not_or.1 hboth
      have hhead : ¬ ∀ token ∈ tb.head?, ¬ token.IsBare := mt (Lexer.delimits_of_run? hafter) hdelimits
      have hchain := v.isChain_tokensOf
      rw [← Option.some.inj h] at hchain
      push Not at hhead hlast
      obtain ⟨first, hfirst, hbare⟩ := hhead
      obtain ⟨last, hlast, hbare'⟩ := hlast
      exact (List.isChain_append.1 hchain).2.2 last hlast first hfirst ⟨hbare', hbare⟩
    rw [hne, String.append_empty, tokens?_append hbefore happly, hafter]
    rfl
  · exact tokens?_blanks hblanks hne hbefore hafter

end StackMachine.Json
