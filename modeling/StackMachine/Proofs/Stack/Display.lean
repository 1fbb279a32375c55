import StackMachine.Proofs.Stack.Slots
import StackMachine.Proofs.Value.Display

/-!
The text of a stack tells its entries.  A shown value ends by itself where a comma or the closing bracket follows,
so a rendering is read entry by entry, whatever commas, quotes and brackets its strings and octets hold.
-/

set_option autoImplicit false

namespace StackMachine

open Text

/-! ## Entries, one after the other -/

/-- What follows the first of the shown values, up to the closing bracket. -/
def entriesAfter : List Value → List Char
  | [] => [']']
  | v :: vs => ',' :: ' ' :: (v.display.toList ++ entriesAfter vs)

theorem not_isPlain_head?_entriesAfter (vs : List Value) : ∀ c ∈ (entriesAfter vs).head?, isPlain c = false := by
  intro c hc
  cases vs with
  | nil =>
    obtain rfl := Option.some.inj hc
    decide
  | cons v vs =>
    obtain rfl := Option.some.inj hc
    decide

theorem entriesAfter_inj {vs ws : List Value} (h : entriesAfter vs = entriesAfter ws) :
    vs.map Value.display = ws.map Value.display := by
  induction vs generalizing ws with
  | nil =>
    cases ws with
    | nil => rfl
    | cons w ws => simp [entriesAfter] at h
  | cons v vs ih =>
    cases ws with
    | nil => simp [entriesAfter] at h
    | cons w ws =>
      simp only [entriesAfter, List.cons.injEq, true_and] at h
      obtain ⟨hdisplay, hrest⟩ := Value.display_append_inj (not_isPlain_head?_entriesAfter vs)
        (not_isPlain_head?_entriesAfter ws) h
      rw [List.map_cons, List.map_cons, hdisplay, ih hrest]

theorem toList_intercalate_display (v : Value) (vs : List Value) :
    (", ".intercalate ((v :: vs).map Value.display)).toList ++ [']'] = v.display.toList ++ entriesAfter vs := by
  induction vs generalizing v with
  | nil => simp [entriesAfter]
  | cons w vs ih =>
    have hseparator : ", ".toList = [',', ' '] := rfl
    have htail := ih w
    rw [List.map_cons] at htail
    rw [List.map_cons, List.map_cons, String.intercalate_cons_cons, String.toList_append, String.toList_append,
      List.append_assoc, htail, hseparator, List.append_assoc]
    rfl

/-- No shown value begins with the bracket that closes an empty stack. -/
theorem display_append_ne_bracket (v : Value) (r : List Char) : v.display.toList ++ r ≠ [']'] := by
  intro h
  rcases v.head?_display r with ⟨s, -, hv⟩ | ⟨b, -, hv⟩ | ⟨-, c, hc, hv⟩ <;> rw [h, List.head?_cons] at hv
  · cases hv
  · cases hv
  · obtain rfl := Option.some.inj hv
    cases hc

/-! ## Stacks -/

namespace OperandStack

variable {s t : OperandStack}

theorem map_display_inj (h : s.display = t.display) :
    s.toList.map Value.display = t.toList.map Value.display := by
  have hchars : (", ".intercalate (s.toList.map Value.display)).toList ++ [']']
      = (", ".intercalate (t.toList.map Value.display)).toList ++ [']'] := by
    have hlist := congrArg String.toList h
    simpa [display, String.toList_append] using hlist
  generalize s.toList = vs at hchars
  generalize t.toList = ws at hchars
  cases vs with
  | nil =>
    cases ws with
    | nil => rfl
    | cons w ws =>
      rw [toList_intercalate_display] at hchars
      exact absurd hchars.symm (display_append_ne_bracket w _)
  | cons v vs =>
    rw [toList_intercalate_display] at hchars
    cases ws with
    | nil => exact absurd hchars (display_append_ne_bracket v _)
    | cons w ws =>
      rw [toList_intercalate_display] at hchars
      obtain ⟨hdisplay, hrest⟩ := Value.display_append_inj (not_isPlain_head?_entriesAfter vs)
        (not_isPlain_head?_entriesAfter ws) hchars
      rw [List.map_cons, List.map_cons, hdisplay, entriesAfter_inj hrest]

/-- Stacks that are shown alike have the same depth, in every slot values that are shown alike, and the same text
where both hold strings. -/
theorem entries_of_display_eq (s t : OperandStack) (h : s.display = t.display) :
    s.depth = t.depth
      ∧ (∀ slot, (s.get? slot).map Value.display = (t.get? slot).map Value.display)
      ∧ ∀ slot a b, s.get? slot = some (.string a) → t.get? slot = some (.string b) → a.toText = b.toText := by
  have hdisplays := map_display_inj h
  have hslots : ∀ slot, (s.get? slot).map Value.display = (t.get? slot).map Value.display := fun slot => by
    rw [get?_eq_getElem?, get?_eq_getElem?, ← List.getElem?_map, ← List.getElem?_map, hdisplays]
  refine ⟨by simpa using congrArg List.length hdisplays, hslots, fun slot a b ha hb => ?_⟩
  have hslot := hslots slot
  rw [ha, hb] at hslot
  exact Value.toText_of_display_eq (Option.some.inj hslot)

/-- A string that is not UTF-8 is shown as one that is; both hold quotes and a comma. -/
theorem entries_of_display_eq_replaced :
    ∃ s t : OperandStack, s.toList ≠ t.toList ∧ s.display = t.display ∧ s.depth = t.depth
      ∧ (∀ slot, (s.get? slot).map Value.display = (t.get? slot).map Value.display)
      ∧ ∀ slot a b, s.get? slot = some (.string a) → t.get? slot = some (.string b) → a.toText = b.toText := by
  let quotes : Array UInt8 := #[0x22, 0x2C, 0x20, 0x22]
  let s : OperandStack := ((empty 0).put (.int 1)).put (.string ⟨quotes.push 0xFF⟩)
  let t : OperandStack := ((empty 0).put (.long 1)).put (.string ⟨quotes ++ #[0xEF, 0xBF, 0xBD]⟩)
  have htext : ByteString.toText ⟨quotes.push 0xFF⟩ = ByteString.toText ⟨quotes ++ #[0xEF, 0xBF, 0xBD]⟩ := rfl
  have hshown : s.display = t.display :=
    congrArg (fun text => "[" ++ ", ".intercalate [Word.decimal 1, quoted text] ++ "]") htext
  exact ⟨s, t, by simp [s, t], hshown, entries_of_display_eq s t hshown⟩

end OperandStack

end StackMachine
