import StackMachine.Json.Decode
import StackMachine.Proofs.Json.Strings

/-!
Cutting written values into tokens.  A value is written as the text of its tokens with blanks between them,
and because a word or a numeral is only ever followed by what cannot belong to it, the lexer finds these
tokens and no others.
-/

set_option autoImplicit false

namespace StackMachine.Json

/-! ## What ends a word or a numeral -/

/-- What follows neither goes on with a word nor with a numeral. -/
def Delimits (rest : List Char) : Prop :=
  ∀ c ∈ rest.head?, c.isAlpha = false ∧ continuesNumber c = false

theorem delimits_nil : Delimits [] := fun _ h => nomatch h

theorem delimits_cons {c : Char} {rest : List Char} (halpha : c.isAlpha = false)
    (hnumber : continuesNumber c = false) : Delimits (c :: rest) := fun c' h => by
  obtain rfl := Option.some.inj h
  exact ⟨halpha, hnumber⟩

/-- The lexer has collected a complete token, and is only waiting for its end. -/
structure Owes (state : Lexer) (token : Token) : Prop where
  finish : state.finish? = some [token]
  step : ∀ c, c.isAlpha = false → continuesNumber c = false →
    state.step? c = (Lexer.start? c).map fun next => (next.1, token :: next.2)

variable {seen : List Token} {rest : List Char}

theorem Owes.run? {state : Lexer} {token : Token} (h : Owes state token) (hrest : Delimits rest) :
    state.run? seen rest = Lexer.between.run? (token :: seen) rest := by
  cases rest with
  | nil =>
    rw [Lexer.run?, Lexer.run?, h.finish]
    simp [Lexer.finish?]
  | cons c rest =>
    obtain ⟨halpha, hnumber⟩ := hrest c rfl
    rw [Lexer.run?, Lexer.run?, h.step c halpha hnumber, Lexer.step?]
    cases Lexer.start? c with
    | none => rfl
    | some next => simp

theorem owes_word {collected : List Char} {token : Token}
    (h : wordToken? collected.reverse = some token) : Owes (.word collected) token where
  finish := by rw [Lexer.finish?, h]; rfl
  step := fun c halpha _ => by
    rw [Lexer.step?, halpha, h]
    cases Lexer.start? c <;> rfl

theorem owes_number {collected : List Char} {token : Token}
    (h : numberToken? collected.reverse = some token) : Owes (.number collected) token where
  finish := by rw [Lexer.finish?, h]; rfl
  step := fun c _ hnumber => by
    rw [Lexer.step?, hnumber, h]
    cases Lexer.start? c <;> rfl

/-! ## Numerals -/

theorem continuesNumber_of_isDigit {c : Char} (h : c.isDigit = true) : continuesNumber c = true := by
  simp [continuesNumber, h]

theorem continuesNumber_of_splitSign (cs : List Char)
    (h : ∀ c ∈ (Decimal.splitSign cs).2, continuesNumber c = true) :
    ∀ c ∈ cs, continuesNumber c = true := by
  unfold Decimal.splitSign at h
  split at h
  · exact fun c hc => (List.mem_cons.1 hc).elim (fun heq => heq ▸ rfl) (h c)
  · exact fun c hc => (List.mem_cons.1 hc).elim (fun heq => heq ▸ rfl) (h c)
  · exact h

theorem continuesNumber_of_signedInt? {cs : List Char} {n : Int} (h : Decimal.signedInt? cs = some n) :
    ∀ c ∈ cs, continuesNumber c = true := by
  refine continuesNumber_of_splitSign cs fun c hc => ?_
  unfold Decimal.signedInt? at h
  dsimp only at h
  split at h
  · cases h
  · next hdigits =>
    simp only [Bool.or_eq_true, Bool.not_eq_true', not_or, Bool.not_eq_false, List.all_eq_true] at hdigits
    exact continuesNumber_of_isDigit (hdigits.2 c hc)

theorem continuesNumber_of_exponent? {cs : List Char} {power : Option Int}
    (h : Decimal.exponent? cs = some power) : ∀ c ∈ cs, continuesNumber c = true := by
  cases cs with
  | nil => exact fun c hc => nomatch hc
  | cons first rest =>
    rw [Decimal.exponent?] at h
    split at h
    · next hletter =>
      obtain ⟨n, hn, -⟩ := Option.map_eq_some_iff.1 h
      intro c hc
      rcases List.mem_cons.1 hc with rfl | hc
      · rcases hletter with rfl | rfl <;> rfl
      · exact continuesNumber_of_signedInt? hn c hc
    · cases h

theorem continuesNumber_of_takeWhile {cs : List Char}
    (h : ∀ c ∈ cs.dropWhile Char.isDigit, continuesNumber c = true) : ∀ c ∈ cs, continuesNumber c = true := by
  rw [← List.takeWhile_append_dropWhile (p := Char.isDigit) (l := cs)]
  exact List.forall_mem_append.2 ⟨fun c hc => continuesNumber_of_isDigit (List.all_eq_true.1
    List.all_takeWhile c hc), h⟩

/-- A numeral without a sign begins with a digit and consists of what the lexer collects. -/
theorem collected_of_unsigned? {cs : List Char} {value : Decimal × Bool} (h : Numeral.unsigned? cs = some value) :
    (∃ c ∈ cs.head?, c.isDigit = true) ∧ ∀ c ∈ cs, continuesNumber c = true := by
  unfold Numeral.unsigned? at h
  obtain ⟨_, hguard, h⟩ := Option.bind_eq_some_iff.1 h
  have hwhole : cs.takeWhile Char.isDigit ≠ [] := by
    intro hnil
    rw [hnil] at hguard
    cases hguard
  refine ⟨?_, continuesNumber_of_takeWhile ?_⟩
  · cases cs with
    | nil => exact absurd rfl hwhole
    | cons c cs =>
      refine ⟨c, rfl, ?_⟩
      cases hc : c.isDigit with
      | true => rfl
      | false => exact absurd (List.takeWhile_cons_of_neg (by rw [hc]; exact Bool.false_ne_true)) hwhole
  · split at h
    · next afterPoint hrest =>
      obtain ⟨_, -, h⟩ := Option.bind_eq_some_iff.1 h
      obtain ⟨power, hpower, -⟩ := Option.bind_eq_some_iff.1 h
      rw [hrest]
      intro c hc
      rcases List.mem_cons.1 hc with rfl | hc
      · rfl
      · exact continuesNumber_of_takeWhile (continuesNumber_of_exponent? hpower) c hc
    · obtain ⟨power, hpower, -⟩ := Option.bind_eq_some_iff.1 h
      exact continuesNumber_of_exponent? hpower

theorem start?_of_isDigit {c : Char} (h : c.isDigit = true) :
    Lexer.start? c = some (.number [c], []) := by
  unfold Lexer.start?
  -- no character with a branch of its own is a digit
  split <;> first | exact absurd h (by decide) | exact if_pos h

/-- A numeral begins with a digit or a minus and consists of what the lexer collects. -/
theorem collected_of_ofChars? {cs : List Char} {n : Numeral} (h : Numeral.ofChars? cs = some n) :
    ∃ first rest, cs = first :: rest ∧ Lexer.start? first = some (.number [first], [])
      ∧ ∀ c ∈ rest, continuesNumber c = true := by
  unfold Numeral.ofChars? at h
  split at h
  · next rest =>
    obtain ⟨value, hvalue, -⟩ := Option.map_eq_some_iff.1 h
    exact ⟨'-', rest, rfl, rfl, (collected_of_unsigned? hvalue).2⟩
  · obtain ⟨value, hvalue, -⟩ := Option.map_eq_some_iff.1 h
    obtain ⟨⟨first, hfirst, hdigit⟩, hcollect⟩ := collected_of_unsigned? hvalue
    cases cs with
    | nil => cases hfirst
    | cons c cs =>
      obtain rfl := Option.some.inj hfirst
      exact ⟨c, cs, rfl, start?_of_isDigit hdigit, fun c' hc => hcollect c' (List.mem_cons_of_mem _ hc)⟩

theorem run?_number_collect {cs collected : List Char} (h : ∀ c ∈ cs, continuesNumber c = true) :
    (Lexer.number collected).run? seen (cs ++ rest)
      = (Lexer.number (cs.reverse ++ collected)).run? seen rest := by
  induction cs generalizing collected with
  | nil => rfl
  | cons c cs ih =>
    rw [List.cons_append, Lexer.run?, Lexer.step?, if_pos (h c List.mem_cons_self)]
    dsimp only
    rw [List.reverse_nil, List.nil_append, ih fun c' hc => h c' (List.mem_cons_of_mem _ hc),
      List.reverse_cons, List.append_assoc]
    rfl

/-- A numeral is one token. -/
theorem run?_numeral {numeral : String} (h : (Numeral.ofChars? numeral.toList).isSome)
    (hrest : Delimits rest) :
    Lexer.between.run? seen (numeral.toList ++ rest)
      = Lexer.between.run? (.number numeral :: seen) rest := by
  obtain ⟨n, hn⟩ := Option.isSome_iff_exists.1 h
  obtain ⟨first, cs, hcs, hfirst, hcollect⟩ := collected_of_ofChars? hn
  have htoken : numberToken? (cs.reverse ++ [first]).reverse = some (.number numeral) := by
    rw [List.reverse_append, List.reverse_reverse, List.reverse_singleton, List.singleton_append, ← hcs,
      numberToken?, hn, String.ofList_toList]
    rfl
  rw [hcs, List.cons_append, Lexer.run?, Lexer.step?, hfirst]
  dsimp only
  rw [run?_number_collect hcollect, (owes_number htoken).run? hrest]
  rfl

/-! ## Values -/

mutual

/-- The tokens of a value. -/
def tokensOf : Json → List Token
  | .null => [.null]
  | .bool b => [.bool b]
  | .number numeral => [.number numeral]
  | .string text => [.string text]
  | .array items => .openArray :: (itemTokens items ++ [.closeArray])
  | .object members => .openObject :: (memberTokens members ++ [.closeObject])

/-- The tokens of the items of an array, with commas between them. -/
def itemTokens : List Json → List Token
  | [] => []
  | [v] => tokensOf v
  | v :: rest => tokensOf v ++ .comma :: itemTokens rest

/-- The tokens of the members of an object, with commas between them. -/
def memberTokens : List (Option String × Json) → List Token
  | [] => []
  | [(key, v)] => .string key :: .colon :: tokensOf v
  | (key, v) :: rest => .string key :: .colon :: (tokensOf v ++ .comma :: memberTokens rest)

end

mutual

/-- The value is one that text can write: its numerals are numerals, and its strings are text. -/
def IsWritable : Json → Prop
  | .null | .bool _ => True
  | .number numeral => (Numeral.ofChars? numeral.toList).isSome
  | .string text => text.isSome
  | .array items => AreWritable items
  | .object members => MembersAreWritable members

def AreWritable : List Json → Prop
  | [] => True
  | v :: rest => v.IsWritable ∧ AreWritable rest

def MembersAreWritable : List (Option String × Json) → Prop
  | [] => True
  | (key, v) :: rest => key.isSome ∧ v.IsWritable ∧ MembersAreWritable rest

end

theorem areWritable_iff {items : List Json} : AreWritable items ↔ ∀ v ∈ items, v.IsWritable := by
  induction items with
  | nil => simp [AreWritable]
  | cons v items ih => rw [AreWritable, ih, List.forall_mem_cons]

theorem itemTokens_cons (v w : Json) (items : List Json) :
    itemTokens (v :: w :: items) = v.tokensOf ++ .comma :: itemTokens (w :: items) := by
  rw [itemTokens]
  nofun

theorem memberTokens_cons (key : Option String) (v : Json) (m : Option String × Json)
    (members : List (Option String × Json)) :
    memberTokens ((key, v) :: m :: members)
      = .string key :: .colon :: (v.tokensOf ++ .comma :: memberTokens (m :: members)) := by
  rw [memberTokens]
  nofun

theorem itemPieces_cons (layout : Layout) (level : Nat) (v w : Json) (items : List Json) :
    itemPieces layout level (v :: w :: items)
      = layout.newline level :: (v.pieces layout level ++ "," :: itemPieces layout level (w :: items)) := by
  rw [itemPieces]
  nofun

theorem memberPieces_cons (layout : Layout) (level : Nat) (key : Option String) (v : Json)
    (m : Option String × Json) (members : List (Option String × Json)) :
    memberPieces layout level ((key, v) :: m :: members)
      = layout.newline level :: quotedText (key.getD "") :: layout.colon
        :: (v.pieces layout level ++ "," :: memberPieces layout level (m :: members)) := by
  rw [memberPieces]
  nofun

/-- The characters of the pieces of a written value. -/
def chars (pieces : List String) : List Char := pieces.flatMap String.toList

/-- A character that stands between tokens. -/
def IsSpace (c : Char) : Prop := c = ' ' ∨ c = '\t' ∨ c = '\n' ∨ c = '\r'

/-- A layout puts nothing but blanks between tokens. -/
structure Layout.IsBlank (layout : Layout) : Prop where
  newline : ∀ level, ∀ c ∈ (layout.newline level).toList, IsSpace c
  colon : ∃ blanks, layout.colon.toList = ':' :: blanks ∧ ∀ c ∈ blanks, IsSpace c

theorem run?_blanks {blanks : List Char} (h : ∀ c ∈ blanks, IsSpace c) :
    Lexer.between.run? seen (blanks ++ rest) = Lexer.between.run? seen rest := by
  induction blanks with
  | nil => rfl
  | cons c blanks ih =>
    rw [← ih fun c' hc => h c' (List.mem_cons_of_mem _ hc)]
    rcases h c List.mem_cons_self with rfl | rfl | rfl | rfl <;> rfl

theorem delimits_blanks {blanks : List Char} (h : ∀ c ∈ blanks, IsSpace c) (hrest : Delimits rest) :
    Delimits (blanks ++ rest) := by
  cases blanks with
  | nil => exact hrest
  | cons c blanks =>
    rcases h c List.mem_cons_self with rfl | rfl | rfl | rfl <;> exact delimits_cons rfl rfl

theorem run?_word (cs collected : List Char) {token : Token}
    (hcollect : ∀ seen rest, Lexer.between.run? seen (cs ++ rest) = (Lexer.word collected).run? seen rest)
    (htoken : wordToken? collected.reverse = some token) (hrest : Delimits rest) :
    Lexer.between.run? seen (cs ++ rest) = Lexer.between.run? (token :: seen) rest := by
  rw [hcollect, (owes_word htoken).run? hrest]

/-- A character that is a token by itself. -/
theorem run?_mark {c : Char} {token : Token} (h : Lexer.start? c = some (.between, [token])) :
    Lexer.between.run? seen (c :: rest) = Lexer.between.run? (token :: seen) rest := by
  rw [Lexer.run?, Lexer.step?, h]
  rfl

@[simp]
theorem chars_nil : chars [] = [] := rfl

@[simp]
theorem chars_cons (piece : String) (pieces : List String) :
    chars (piece :: pieces) = piece.toList ++ chars pieces := rfl

@[simp]
theorem chars_append (pieces pieces' : List String) :
    chars (pieces ++ pieces') = chars pieces ++ chars pieces' := List.flatMap_append

theorem delimits_closing {layout : Layout} (hlayout : layout.IsBlank) (level : Nat) {c : Char}
    (hc : c = ']' ∨ c = '\x7d') : Delimits ((layout.newline level).toList ++ c :: rest) :=
  delimits_blanks (hlayout.newline level) (by rcases hc with rfl | rfl <;> exact delimits_cons rfl rfl)

theorem run?_closing {layout : Layout} (hlayout : layout.IsBlank) (level : Nat) {c : Char} {token : Token}
    (h : Lexer.start? c = some (.between, [token])) :
    Lexer.between.run? seen ((layout.newline level).toList ++ c :: rest)
      = Lexer.between.run? (token :: seen) rest := by
  rw [run?_blanks (hlayout.newline level), run?_mark h]

/-- A key with the colon behind it. -/
theorem run?_key {layout : Layout} (hlayout : layout.IsBlank) (level : Nat) (key : String) :
    Lexer.between.run? seen ((layout.newline level).toList
        ++ ((quotedText ((some key).getD "")).toList ++ (layout.colon.toList ++ rest)))
      = Lexer.between.run? (.colon :: .string (some key) :: seen) rest := by
  obtain ⟨blanks, hcolon, hblanks⟩ := hlayout.colon
  rw [run?_blanks (hlayout.newline level), Option.getD_some, run?_quotedText, hcolon, List.cons_append,
    run?_mark rfl, run?_blanks hblanks]

mutual

/-- The lexer finds the tokens of a written value. -/
theorem run?_pieces {layout : Layout} (hlayout : layout.IsBlank) (level : Nat) :
    (v : Json) → v.IsWritable → ∀ seen rest, Delimits rest →
      Lexer.between.run? seen (chars (v.pieces layout level) ++ rest)
        = Lexer.between.run? (v.tokensOf.reverse ++ seen) rest
  | .null, _, seen, rest, hrest =>
    run?_word ['n', 'u', 'l', 'l'] ['l', 'l', 'u', 'n'] (fun _ _ => rfl) rfl hrest
  | .bool true, _, seen, rest, hrest =>
    run?_word ['t', 'r', 'u', 'e'] ['e', 'u', 'r', 't'] (fun _ _ => rfl) rfl hrest
  | .bool false, _, seen, rest, hrest =>
    run?_word ['f', 'a', 'l', 's', 'e'] ['e', 's', 'l', 'a', 'f'] (fun _ _ => rfl) rfl hrest
  | .number numeral, hv, seen, rest, hrest => by
    rw [pieces, chars_cons, chars_nil, List.append_nil, run?_numeral hv hrest]
    rfl
  | .string (some text), _, seen, rest, _ => by
    rw [pieces, chars_cons, chars_nil, List.append_nil, Option.getD_some, run?_quotedText]
    rfl
  | .array [], _, seen, rest, _ => rfl
  | .array (v :: items), hv, seen, rest, _ => by
    have hitems := run?_itemPieces hlayout (level + 1) (v :: items) hv (.openArray :: seen)
      ((layout.newline level).toList ++ ']' :: rest) (delimits_closing hlayout level (.inl rfl))
    rw [pieces, tokensOf]
    simp only [chars_cons, chars_append, chars_nil, List.append_nil, List.append_assoc]
    refine (run?_mark (c := '[') rfl).trans (hitems.trans ((run?_closing hlayout level rfl).trans ?_))
    simp
  | .object [], _, seen, rest, _ => rfl
  | .object (m :: members), hv, seen, rest, _ => by
    have hmembers := run?_memberPieces hlayout (level + 1) (m :: members) hv (.openObject :: seen)
      ((layout.newline level).toList ++ '\x7d' :: rest) (delimits_closing hlayout level (.inr rfl))
    rw [pieces, tokensOf]
    simp only [chars_cons, chars_append, chars_nil, List.append_nil, List.append_assoc]
    refine (run?_mark (c := '\x7b') rfl).trans (hmembers.trans ((run?_closing hlayout level rfl).trans ?_))
    simp

theorem run?_itemPieces {layout : Layout} (hlayout : layout.IsBlank) (level : Nat) :
    (items : List Json) → AreWritable items → ∀ seen rest, Delimits rest →
      Lexer.between.run? seen (chars (itemPieces layout level items) ++ rest)
        = Lexer.between.run? ((itemTokens items).reverse ++ seen) rest
  | [], _, seen, rest, _ => rfl
  | [v], hv, seen, rest, hrest => by
    rw [itemPieces, itemTokens, chars_cons, List.append_assoc, run?_blanks (hlayout.newline level),
      run?_pieces hlayout level v hv.1 seen rest hrest]
  | v :: w :: items, hv, seen, rest, hrest => by
    have hfirst := run?_pieces hlayout level v hv.1 seen
      (',' :: (chars (itemPieces layout level (w :: items)) ++ rest)) (delimits_cons rfl rfl)
    have hothers := run?_itemPieces hlayout level (w :: items) hv.2 (.comma :: (v.tokensOf.reverse ++ seen))
      rest hrest
    rw [itemPieces_cons, itemTokens_cons, chars_cons, List.append_assoc,
      run?_blanks (hlayout.newline level)]
    simp only [chars_append, chars_cons, List.append_assoc]
    refine hfirst.trans ((run?_mark (c := ',') rfl).trans (hothers.trans ?_))
    simp

theorem run?_memberPieces {layout : Layout} (hlayout : layout.IsBlank) (level : Nat) :
    (members : List (Option String × Json)) → MembersAreWritable members → ∀ seen rest, Delimits rest →
      Lexer.between.run? seen (chars (memberPieces layout level members) ++ rest)
        = Lexer.between.run? ((memberTokens members).reverse ++ seen) rest
  | [], _, seen, rest, _ => rfl
  | [(some key, v)], hv, seen, rest, hrest => by
    rw [memberPieces, memberTokens]
    simp only [chars_cons, List.append_assoc]
    rw [run?_key hlayout level, run?_pieces hlayout level v hv.2.1 _ rest hrest]
    simp
  | (some key, v) :: m :: members, hv, seen, rest, hrest => by
    have hfirst := run?_pieces hlayout level v hv.2.1 (.colon :: .string (some key) :: seen)
      (',' :: (chars (memberPieces layout level (m :: members)) ++ rest)) (delimits_cons rfl rfl)
    have hothers := run?_memberPieces hlayout level (m :: members) hv.2.2
      (.comma :: (v.tokensOf.reverse ++ .colon :: .string (some key) :: seen)) rest hrest
    rw [memberPieces_cons, memberTokens_cons]
    simp only [chars_append, chars_cons, List.append_assoc]
    rw [run?_key hlayout level]
    refine hfirst.trans ((run?_mark (c := ',') rfl).trans (hothers.trans ?_))
    simp

end

/-- The tokens of a written value are those of the value. -/
theorem tokens?_written {layout : Layout} (hlayout : layout.IsBlank) {v : Json} (hv : v.IsWritable) :
    tokens? (String.join (v.pieces layout 0)) = some v.tokensOf := by
  have h := run?_pieces hlayout 0 v hv [] [] delimits_nil
  rw [List.append_nil, List.append_nil] at h
  rw [tokens?, String.toList_join, ← chars, h, Lexer.run?, Lexer.finish?, Option.map_some, List.reverse_reverse,
    List.append_nil]

end StackMachine.Json
