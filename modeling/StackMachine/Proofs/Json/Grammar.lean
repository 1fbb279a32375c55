import Mathlib.Data.List.Chain
import StackMachine.Proofs.Json.RoundTrip

/-!
Which sequences of tokens the reader accepts: the tokens of a value and no others.  What it has consumed is at
every point spelled by its open containers, so when it ends it has consumed the tokens of its result.  In these
no two words or numerals ever stand side by side.
-/

set_option autoImplicit false

namespace StackMachine.Json

/-! ## Containers that are still open -/

/-- The tokens of an open container up to where its next value begins. -/
def Container.opened : Container → List Token
  | .array done => .openArray :: done.reverse.flatMap fun v => v.tokensOf ++ [.comma]
  | .object done key =>
    .openObject :: ((done.reverse.flatMap fun m => .string m.1 :: .colon :: (m.2.tokensOf ++ [.comma]))
      ++ [.string key, .colon])

/-- The tokens up to where the next value of the innermost container begins. -/
def opened (stack : List Container) : List Token := stack.reverse.flatMap Container.opened

theorem opened_cons (container : Container) (stack : List Container) :
    opened (container :: stack) = opened stack ++ container.opened := by
  simp [opened]

theorem flatMap_append_itemTokens (done : List Json) (v : Json) :
    done.flatMap (fun w => w.tokensOf ++ [.comma]) ++ v.tokensOf = itemTokens (done ++ [v]) := by
  induction done with
  | nil => rfl
  | cons w done ih =>
    obtain ⟨first, rest, hrest⟩ := List.exists_cons_of_ne_nil (List.concat_ne_nil v done)
    rw [List.flatMap_cons, List.append_assoc, ih, List.cons_append, hrest, itemTokens_cons, List.append_assoc,
      List.singleton_append]

theorem flatMap_append_memberTokens (done : List (Option String × Json)) (key : Option String) (v : Json) :
    (done.flatMap fun m => .string m.1 :: .colon :: (m.2.tokensOf ++ [.comma])) ++ .string key :: .colon :: v.tokensOf
      = memberTokens (done ++ [(key, v)]) := by
  induction done with
  | nil => rfl
  | cons m done ih =>
    obtain ⟨first, rest, hrest⟩ := List.exists_cons_of_ne_nil (List.concat_ne_nil (key, v) done)
    have hcons : m :: done ++ [(key, v)] = m :: first :: rest := congrArg (m :: ·) hrest
    rw [List.flatMap_cons, List.append_assoc, ih, hcons, hrest, memberTokens_cons]
    simp only [List.cons_append, List.append_assoc, List.nil_append]

/-! ## What the reader has consumed -/

/-- The tokens that lead the reader to where it is. -/
inductive Reader.Consumed : Reader → List Token → Prop where
  | nothing (v : Json) : Consumed ⟨[], .nothing, v⟩ v.tokensOf
  | value (stack : List Container) (result : Json) : Consumed ⟨stack, .value, result⟩ (opened stack)
  | valueOrClose (outer : List Container) (result : Json) :
    Consumed ⟨.array [] :: outer, .valueOrClose, result⟩ (opened outer ++ [.openArray])
  | key (done : List (Option String × Json)) (name : Option String) (v : Json) (last : Option String)
    (outer : List Container) (result : Json) :
    Consumed ⟨.object ((name, v) :: done) last :: outer, .key, result⟩
      (opened outer ++ .openObject :: (memberTokens (done.reverse ++ [(name, v)]) ++ [.comma]))
  | keyOrClose (outer : List Container) (last : Option String) (result : Json) :
    Consumed ⟨.object [] last :: outer, .keyOrClose, result⟩ (opened outer ++ [.openObject])
  | colon (done : List (Option String × Json)) (key : Option String) (outer : List Container) (result : Json)
    {tokens : List Token} (h : opened (.object done key :: outer) = tokens ++ [.colon]) :
    Consumed ⟨.object done key :: outer, .colon, result⟩ tokens
  | item (v : Json) (done : List Json) (outer : List Container) (result : Json) :
    Consumed ⟨.array (v :: done) :: outer, .commaOrClose, result⟩
      (opened outer ++ .openArray :: itemTokens (done.reverse ++ [v]))
  | member (v : Json) (done : List (Option String × Json)) (key last : Option String) (outer : List Container)
    (result : Json) :
    Consumed ⟨.object ((key, v) :: done) last :: outer, .commaOrClose, result⟩
      (opened outer ++ .openObject :: memberTokens (done.reverse ++ [(key, v)]))

theorem Reader.consumed_accept (stack : List Container) (v : Json) :
    Consumed (accept stack v) (opened stack ++ v.tokensOf) := by
  cases stack with
  | nil => exact .nothing v
  | cons container outer =>
    rw [opened_cons]
    cases container with
    | array done =>
      rw [Container.opened, List.append_assoc, List.cons_append, flatMap_append_itemTokens]
      exact .item v done outer .null
    | object done key =>
      rw [Container.opened, List.append_assoc, List.cons_append, List.append_assoc, List.cons_append,
        List.singleton_append, flatMap_append_memberTokens]
      exact .member v done key key outer .null

theorem Reader.consumed_start? {stack : List Container} {token : Token} {next : Reader}
    (h : start? stack token = some next) : Consumed next (opened stack ++ [token]) := by
  cases token with
  | openArray =>
    cases h
    exact .valueOrClose stack .null
  | openObject =>
    cases h
    exact .keyOrClose stack none .null
  | null =>
    cases h
    exact consumed_accept stack .null
  | bool b =>
    cases h
    exact consumed_accept stack (.bool b)
  | number numeral =>
    cases h
    exact consumed_accept stack (.number numeral)
  | string text =>
    cases h
    exact consumed_accept stack (.string text)
  | _ => cases h

/-- A key in an object that has the members `done`. -/
theorem Reader.consumed_key? {done : List (Option String × Json)} {last : Option String} {outer : List Container}
    {token : Token} {next : Reader} {tokens : List Token} (h : key? (.object done last :: outer) token = some next)
    (htokens : tokens = opened outer ++ .openObject
      :: done.reverse.flatMap fun m => .string m.1 :: .colon :: (m.2.tokensOf ++ [.comma])) :
    Consumed next (tokens ++ [token]) := by
  cases token with
  | string text =>
    cases h
    refine .colon done text outer .null ?_
    rw [htokens, opened_cons, Container.opened]
    simp
  | _ => cases h

/-- One token. -/
theorem Reader.Consumed.step {r next : Reader} {tokens : List Token} {token : Token} (hr : r.Consumed tokens)
    (h : r.step? token = some next) : next.Consumed (tokens ++ [token]) := by
  cases hr with
  | nothing v => cases h
  | value stack result => exact consumed_start? h
  | valueOrClose outer result =>
    by_cases htoken : token = .closeArray
    · subst htoken
      cases h
      rw [List.append_assoc]
      exact consumed_accept outer (.array [])
    · have hstart := consumed_start? ((if_neg htoken).symm.trans h)
      rw [opened_cons] at hstart
      exact hstart
  | key done name v last outer result =>
    refine consumed_key? h ?_
    rw [List.reverse_cons, List.flatMap_append, ← flatMap_append_memberTokens]
    simp
  | keyOrClose outer last result =>
    by_cases htoken : token = .closeObject
    · subst htoken
      cases h
      rw [List.append_assoc]
      exact consumed_accept outer (.object [])
    · exact consumed_key? ((if_neg htoken).symm.trans h) rfl
  | colon done key outer result hopened =>
    by_cases htoken : token = .colon
    · subst htoken
      cases h
      rw [← hopened]
      exact .value _ _
    · cases (if_neg htoken).symm.trans h
  | item v done outer result =>
    cases token with
    | comma =>
      cases h
      have hvalue := Consumed.value (.array (v :: done) :: outer) result
      rw [opened_cons, Container.opened, List.reverse_cons, List.flatMap_append] at hvalue
      rw [← flatMap_append_itemTokens]
      simpa using hvalue
    | closeArray =>
      cases h
      have haccept := consumed_accept outer (.array (v :: done).reverse)
      rw [tokensOf, List.reverse_cons] at haccept
      simpa using haccept
    | _ => cases h
  | member v done key last outer result =>
    cases token with
    | comma =>
      cases h
      have hkey := Consumed.key done key v last outer result
      simpa using hkey
    | closeObject =>
      cases h
      have haccept := consumed_accept outer (.object ((key, v) :: done).reverse)
      rw [tokensOf, List.reverse_cons] at haccept
      simpa using haccept
    | _ => cases h

theorem Reader.Consumed.run {r : Reader} {consumed tokens : List Token} {v : Json} (hr : r.Consumed consumed)
    (h : r.run? tokens = some v) : consumed ++ tokens = v.tokensOf := by
  induction tokens generalizing r consumed with
  | nil =>
    rw [Reader.run?] at h
    cases hr with
    | nothing w =>
      obtain rfl := Option.some.inj h
      exact List.append_nil _
    | _ => cases h
  | cons token tokens ih =>
    rw [Reader.run?] at h
    split at h
    · next next hnext =>
      rw [← ih (hr.step hnext) h, List.append_assoc, List.singleton_append]
    · cases h

/-- The reader accepts the tokens of a value and no others. -/
theorem ofTokens?_eq_some_iff {tokens : List Token} {v : Json} : ofTokens? tokens = some v ↔ tokens = v.tokensOf := by
  refine ⟨fun h => ?_, fun h => h ▸ ofTokens?_tokensOf v⟩
  exact (Reader.Consumed.value [] .null).run h

theorem read?_eq_some_iff {text : String} {v : Json} : read? text = some v ↔ tokens? text = some v.tokensOf := by
  rw [read?, Option.bind_eq_some_iff]
  constructor
  · rintro ⟨tokens, htokens, h⟩
    rw [htokens, ofTokens?_eq_some_iff.1 h]
  · exact fun h => ⟨_, h, ofTokens?_tokensOf v⟩

/-! ## Words and numerals -/

/-- The token is a word or a numeral: it ends only where something else begins. -/
def Token.IsBare : Token → Prop
  | .null | .bool _ | .number _ => True
  | _ => False

/-- Of two tokens one is a mark or a string. -/
def Token.Apart (token token' : Token) : Prop := ¬ (token.IsBare ∧ token'.IsBare)

theorem Token.apart_left {token : Token} (h : ¬ token.IsBare) (token' : Token) : token.Apart token' :=
  fun hboth => h hboth.1

theorem Token.apart_right {token' : Token} (h : ¬ token'.IsBare) (token : Token) : token.Apart token' :=
  fun hboth => h hboth.2

section Apart

variable {mark : Token} {tokens tokens' : List Token}

theorem isChain_cons_mark (hmark : ¬ mark.IsBare) (h : tokens.IsChain Token.Apart) :
    (mark :: tokens).IsChain Token.Apart :=
  List.isChain_cons.2 ⟨fun token _ => Token.apart_left hmark token, h⟩

/-- A mark keeps what stands before it and after it apart. -/
theorem isChain_append_mark (hmark : ¬ mark.IsBare) (h : tokens.IsChain Token.Apart)
    (h' : tokens'.IsChain Token.Apart) : (tokens ++ mark :: tokens').IsChain Token.Apart :=
  List.isChain_append.2 ⟨h, isChain_cons_mark hmark h', fun token _ token' htoken' => by
    obtain rfl := Option.some.inj htoken'
    exact Token.apart_right hmark token⟩

end Apart

mutual

/-- In the tokens of a value no two words or numerals stand side by side. -/
theorem isChain_tokensOf : (v : Json) → v.tokensOf.IsChain Token.Apart
  | .null => .singleton _
  | .bool _ => .singleton _
  | .number _ => .singleton _
  | .string _ => .singleton _
  | .array items => isChain_cons_mark id (isChain_append_mark id (isChain_itemTokens items) .nil)
  | .object members => isChain_cons_mark id (isChain_append_mark id (isChain_memberTokens members) .nil)

theorem isChain_itemTokens : (items : List Json) → (itemTokens items).IsChain Token.Apart
  | [] => .nil
  | [v] => isChain_tokensOf v
  | v :: w :: items => by
    rw [itemTokens_cons]
    exact isChain_append_mark id (isChain_tokensOf v) (isChain_itemTokens (w :: items))

theorem isChain_memberTokens : (members : List (Option String × Json)) →
    (memberTokens members).IsChain Token.Apart
  | [] => .nil
  | [(_, v)] => isChain_cons_mark id (isChain_cons_mark id (isChain_tokensOf v))
  | (key, v) :: m :: members => by
    rw [memberTokens_cons]
    exact isChain_cons_mark id (isChain_cons_mark id
      (isChain_append_mark id (isChain_tokensOf v) (isChain_memberTokens (m :: members))))

end

end StackMachine.Json
