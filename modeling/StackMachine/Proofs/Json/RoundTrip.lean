import StackMachine.Proofs.Json.Lexing

/-!
JSON values that are written and read.  From the tokens of a value the reader builds the value, whatever
containers are still open around it; so every value that text can write comes back, in either layout.
-/

set_option autoImplicit false

namespace StackMachine.Json

variable {stack : List Container} {result : Json} {rest : List Token}

/-! ## Single tokens -/

theorem run?_start {token : Token} {next : Reader} (h : Reader.start? stack token = some next) :
    Reader.run? ⟨stack, .value, result⟩ (token :: rest) = next.run? rest := by
  rw [Reader.run?, Reader.step?, h]

/-- Where an array may end, a value may still begin. -/
theorem run?_valueOrClose {token : Token} (h : token ≠ .closeArray) :
    Reader.run? ⟨stack, .valueOrClose, result⟩ (token :: rest)
      = Reader.run? ⟨stack, .value, result⟩ (token :: rest) := by
  rw [Reader.run?, Reader.run?, Reader.step?, Reader.step?, if_neg h]

/-- Where an object may end, a key may still begin. -/
theorem run?_keyOrClose {token : Token} (h : token ≠ .closeObject) :
    Reader.run? ⟨stack, .keyOrClose, result⟩ (token :: rest)
      = Reader.run? ⟨stack, .key, result⟩ (token :: rest) := by
  rw [Reader.run?, Reader.run?, Reader.step?, Reader.step?, if_neg h]

theorem tokensOf_eq_cons (v : Json) : ∃ token tokens, v.tokensOf = token :: tokens ∧ token ≠ .closeArray := by
  cases v <;> exact ⟨_, _, rfl, nofun⟩

theorem itemTokens_eq_cons (v : Json) (items : List Json) :
    ∃ token tokens, itemTokens (v :: items) = token :: tokens ∧ token ≠ .closeArray := by
  obtain ⟨token, tokens, htokens, hne⟩ := v.tokensOf_eq_cons
  cases items with
  | nil => exact ⟨token, tokens, htokens, hne⟩
  | cons w items => exact ⟨token, _, by rw [itemTokens_cons, htokens, List.cons_append], hne⟩

theorem memberTokens_eq_cons (m : Option String × Json) (members : List (Option String × Json)) :
    ∃ token tokens, memberTokens (m :: members) = token :: tokens ∧ token ≠ .closeObject := by
  cases members with
  | nil => exact ⟨_, _, rfl, nofun⟩
  | cons m' members => exact ⟨_, _, memberTokens_cons m.1 m.2 m' members, nofun⟩

/-! ## Values -/

mutual

/-- The reader builds a value from its tokens and puts it where it belongs. -/
theorem run?_tokensOf : (v : Json) → ∀ (stack : List Container) (result : Json) (rest : List Token),
    Reader.run? ⟨stack, .value, result⟩ (v.tokensOf ++ rest) = (Reader.accept stack v).run? rest
  | .null, stack, result, rest => run?_start rfl
  | .bool b, stack, result, rest => run?_start rfl
  | .number numeral, stack, result, rest => run?_start rfl
  | .string text, stack, result, rest => run?_start rfl
  | .array [], stack, result, rest => rfl
  | .array (v :: items), stack, result, rest => by
    have hitems := run?_itemTokens (v :: items) nofun stack [] .null rest
    obtain ⟨token, tokens, htokens, hne⟩ := itemTokens_eq_cons v items
    rw [tokensOf, List.cons_append, List.append_assoc, List.singleton_append, run?_start rfl]
    rw [htokens, List.cons_append] at hitems ⊢
    rw [run?_valueOrClose hne, hitems]
    rfl
  | .object [], stack, result, rest => rfl
  | .object (m :: members), stack, result, rest => by
    have hmembers := run?_memberTokens (m :: members) nofun stack [] none .null rest
    obtain ⟨token, tokens, htokens, hne⟩ := memberTokens_eq_cons m members
    rw [tokensOf, List.cons_append, List.append_assoc, List.singleton_append, run?_start rfl]
    rw [htokens, List.cons_append] at hmembers ⊢
    rw [run?_keyOrClose hne, hmembers]
    rfl

/-- From the tokens of items the reader builds an array, behind the items that it has. -/
theorem run?_itemTokens : (items : List Json) → items ≠ [] →
    ∀ (stack : List Container) (done : List Json) (result : Json) (rest : List Token),
      Reader.run? ⟨.array done :: stack, .value, result⟩ (itemTokens items ++ .closeArray :: rest)
        = (Reader.accept stack (.array (done.reverse ++ items))).run? rest
  | [], h, _, _, _, _ => absurd rfl h
  | [v], _, stack, done, result, rest => by
    rw [itemTokens, run?_tokensOf v, ← List.reverse_cons]
    rfl
  | v :: w :: items, _, stack, done, result, rest => by
    have hothers := run?_itemTokens (w :: items) nofun stack (v :: done) .null rest
    rw [List.reverse_cons, List.append_assoc] at hothers
    rw [itemTokens_cons, List.append_assoc, run?_tokensOf v]
    exact hothers

/-- From the tokens of members the reader builds an object, behind the members that it has. -/
theorem run?_memberTokens : (members : List (Option String × Json)) → members ≠ [] →
    ∀ (stack : List Container) (done : List (Option String × Json)) (key : Option String) (result : Json)
      (rest : List Token),
      Reader.run? ⟨.object done key :: stack, .key, result⟩ (memberTokens members ++ .closeObject :: rest)
        = (Reader.accept stack (.object (done.reverse ++ members))).run? rest
  | [], h, _, _, _, _, _ => absurd rfl h
  | [(key, v)], _, stack, done, key', result, rest => by
    have hvalue := run?_tokensOf v (.object done key :: stack) .null (.closeObject :: rest)
    rw [← List.reverse_cons]
    exact hvalue
  | (key, v) :: m :: members, _, stack, done, key', result, rest => by
    have hvalue := run?_tokensOf v (.object done key :: stack) .null
      (.comma :: (memberTokens (m :: members) ++ .closeObject :: rest))
    have hothers := run?_memberTokens (m :: members) nofun stack ((key, v) :: done) key .null rest
    rw [List.reverse_cons, List.append_assoc] at hothers
    rw [memberTokens_cons, List.cons_append, List.cons_append, List.append_assoc]
    exact hvalue.trans hothers

end

theorem ofTokens?_tokensOf (v : Json) : ofTokens? v.tokensOf = some v := by
  have h := run?_tokensOf v [] .null []
  rw [List.append_nil] at h
  exact h

/-- A value that text can write is read back as it was, in any layout. -/
theorem read?_written {layout : Layout} (hlayout : layout.IsBlank) {v : Json} (hv : v.IsWritable) :
    read? (String.join (v.pieces layout 0)) = some v := by
  rw [read?, tokens?_written hlayout hv, Option.bind_some, ofTokens?_tokensOf]

theorem isBlank_compact : Layout.compact.IsBlank where
  newline := fun _ _ hc => nomatch hc
  colon := ⟨[], rfl, nofun⟩

theorem read?_compact {v : Json} (hv : v.IsWritable) : read? v.compact = some v :=
  read?_written isBlank_compact hv

theorem isBlank_pretty : Layout.pretty.IsBlank where
  newline := fun level c hc => by
    rw [Layout.pretty, String.toList_append, String.toList_ofList, String.toList_ofList] at hc
    rcases List.mem_append.1 hc with hc | hc
    · exact .inr (.inr (.inl (List.mem_singleton.1 hc)))
    · exact .inl (List.eq_of_mem_replicate hc)
  colon := ⟨[' '], rfl, by simp [IsSpace]⟩

theorem read?_pretty {v : Json} (hv : v.IsWritable) : read? v.pretty = some v :=
  read?_written isBlank_pretty hv

end StackMachine.Json
