import StackMachine.Proofs.Json.Cuts

/-!
The texts that read as objects: a brace, the texts of the members with commas between them, and a brace, with
blanks around everything.  Every text that reads as an object is of this form.
-/

set_option autoImplicit false

namespace StackMachine.Json

/-- A text that reads as a value, with the blanks around it. -/
structure ValueText where
  text : String
  tree : Json
  reads : read? text = some tree

/-- The texts of a name and of a value, with the blanks around them. -/
structure MemberText where
  key : String
  name : Option String
  reads : read? key = some (.string name)
  value : ValueText

namespace MemberText

def text (m : MemberText) : String := m.key ++ ":" ++ m.value.text

def tree (m : MemberText) : Option String × Json := (m.name, m.value.tree)

end MemberText

/-- Texts with commas between them. -/
def commaSeparated : List String → String
  | [] => ""
  | [text] => text
  | text :: rest => text ++ "," ++ commaSeparated rest

/-- An object as it stands in a text. -/
structure ObjectText where
  before : String
  inside : String
  members : List MemberText
  after : String
  isBlank_before : IsBlank before
  isBlank_inside : IsBlank inside
  isBlank_after : IsBlank after

def ObjectText.text (o : ObjectText) : String :=
  o.before ++ "\x7b" ++ (o.inside ++ commaSeparated (o.members.map MemberText.text)) ++ "\x7d" ++ o.after

/-- The members that the text spells, in its order. -/
def ObjectText.tree (o : ObjectText) : List (Option String × Json) := o.members.map MemberText.tree

/-- The text of an array. -/
def arrayText (items : List ValueText) : String :=
  "[" ++ commaSeparated (items.map ValueText.text) ++ "]"

/-! ## Reading -/

theorem ValueText.tokens? (v : ValueText) : Json.tokens? v.text = some v.tree.tokensOf :=
  read?_eq_some_iff.1 v.reads

theorem MemberText.tokens? (m : MemberText) :
    Json.tokens? m.text = some (.string m.name :: .colon :: m.value.tree.tokensOf) :=
  tokens?_mark (c := ':') rfl (read?_eq_some_iff.1 m.reads) m.value.tokens?

theorem commaSeparated_cons (text text' : String) (rest : List String) :
    commaSeparated (text :: text' :: rest) = text ++ "," ++ commaSeparated (text' :: rest) := by
  rw [commaSeparated]
  nofun

theorem tokens?_items (items : List ValueText) :
    tokens? (commaSeparated (items.map ValueText.text)) = some (itemTokens (items.map ValueText.tree)) := by
  induction items with
  | nil => rfl
  | cons v items ih =>
    cases items with
    | nil => exact v.tokens?
    | cons w items => exact tokens?_mark (c := ',') rfl v.tokens? ih

theorem tokens?_members (members : List MemberText) :
    tokens? (commaSeparated (members.map MemberText.text)) = some (memberTokens (members.map MemberText.tree)) := by
  induction members with
  | nil => rfl
  | cons m members ih =>
    cases members with
    | nil => exact m.tokens?
    | cons m' members => exact tokens?_mark (c := ',') rfl m.tokens? ih

theorem ObjectText.read?_text (o : ObjectText) : read? o.text = some (.object o.tree) := by
  have hmembers : tokens? (o.inside ++ commaSeparated (o.members.map MemberText.text))
      = some (memberTokens o.tree) := by
    rw [tokens?_blanks_append o.isBlank_inside, tokens?_members]
    rfl
  have hopen : tokens? (o.before ++ "\x7b" ++ (o.inside ++ commaSeparated (o.members.map MemberText.text)))
      = some (.openObject :: memberTokens o.tree) :=
    tokens?_mark (c := '\x7b') rfl (isBlank_iff.1 o.isBlank_before) hmembers
  exact read?_eq_some_iff.2 (tokens?_mark (c := '\x7d') rfl hopen (isBlank_iff.1 o.isBlank_after))

theorem read?_arrayText (items : List ValueText) :
    read? (arrayText items) = some (.array (items.map ValueText.tree)) := by
  have hempty : tokens? "" = some [] := rfl
  have hopen : tokens? ("" ++ "[" ++ commaSeparated (items.map ValueText.text))
      = some (.openArray :: itemTokens (items.map ValueText.tree)) :=
    tokens?_mark (c := '[') rfl hempty (tokens?_items items)
  have hclose : tokens? ("" ++ "[" ++ commaSeparated (items.map ValueText.text) ++ "]" ++ "")
      = some (Json.array (items.map ValueText.tree)).tokensOf := tokens?_mark (c := ']') rfl hopen hempty
  rw [String.empty_append, String.append_empty] at hclose
  exact read?_eq_some_iff.2 hclose

/-! ## Every object -/

theorem exists_memberText {text : String} {name : Option String} {v : Json}
    (h : tokens? text = some (.string name :: .colon :: v.tokensOf)) :
    ∃ m : MemberText, m.text = text ∧ m.tree = (name, v) := by
  obtain ⟨key, value, rfl, hkey, hvalue⟩ := exists_append_mark [.string name] (c := ':') rfl h
  exact ⟨⟨key, name, read?_eq_some_iff.2 hkey, value, v, read?_eq_some_iff.2 hvalue⟩, rfl, rfl⟩

theorem exists_memberTexts {text : String} {members : List (Option String × Json)} (hne : members ≠ [])
    (h : tokens? text = some (memberTokens members)) :
    ∃ texts : List MemberText, commaSeparated (texts.map MemberText.text) = text
      ∧ texts.map MemberText.tree = members := by
  induction members generalizing text with
  | nil => exact absurd rfl hne
  | cons m members ih =>
    cases members with
    | nil =>
      obtain ⟨mt, htext, htree⟩ := exists_memberText h
      exact ⟨[mt], htext, congrArg (fun m => [m]) htree⟩
    | cons m' members =>
      rw [memberTokens_cons, ← List.cons_append, ← List.cons_append] at h
      obtain ⟨first, others, rfl, hfirst, hothers⟩ := exists_append_mark _ (c := ',') rfl h
      obtain ⟨mt, rfl, htree⟩ := exists_memberText hfirst
      obtain ⟨texts, rfl, htrees⟩ := ih (List.cons_ne_nil m' members) hothers
      cases texts with
      | nil => cases htrees
      | cons mt' texts => exact ⟨mt :: mt' :: texts, commaSeparated_cons .., congrArg₂ List.cons htree htrees⟩

/-- Every text that reads as an object is the text of one. -/
theorem exists_objectText {text : String} {members : List (Option String × Json)}
    (h : read? text = some (.object members)) : ∃ o : ObjectText, o.text = text ∧ o.tree = members := by
  obtain ⟨before, rest, rfl, hbefore, hrest⟩ :=
    exists_append_mark [] (c := '\x7b') rfl (read?_eq_some_iff.1 h)
  obtain ⟨content, after, rfl, hcontent, hafter⟩ := exists_append_mark _ (c := '\x7d') rfl hrest
  obtain ⟨inside, texts, hinside, rfl, htrees⟩ : ∃ (inside : String) (texts : List MemberText), IsBlank inside
      ∧ inside ++ commaSeparated (texts.map MemberText.text) = content ∧ texts.map MemberText.tree = members := by
    by_cases hne : members = []
    · subst hne
      exact ⟨content, [], isBlank_iff.2 hcontent, String.append_empty, rfl⟩
    · obtain ⟨texts, htext, htrees⟩ := exists_memberTexts hne hcontent
      exact ⟨"", texts, nofun, by rw [htext, String.empty_append], htrees⟩
  refine ⟨⟨before, inside, texts, after, isBlank_iff.2 hbefore, hinside, isBlank_iff.2 hafter⟩, ?_, htrees⟩
  simp only [ObjectText.text, String.append_assoc]
  rfl

end StackMachine.Json
