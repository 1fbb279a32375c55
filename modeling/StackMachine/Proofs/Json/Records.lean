import StackMachine.Proofs.Json.Leaves
import StackMachine.Proofs.Json.Texts

/-!
Records that are read from objects and arrays.  What is read depends on the fields that the record knows and on
nothing else: not on the order of the members, on others among them or on blanks, and not on whether a field that
may be absent is written with its default.
-/

set_option autoImplicit false

namespace StackMachine.Json

/-- A field of a record, with the value that stands for it if it may be absent. -/
structure Field where
  name : String
  default : Option Json

/-- The value of a field, given what is written. -/
def Field.fill (f : Field) (value : Option Json) : Option Json := value <|> f.default

/-- Reading as a record: from the values of the fields, each of which may be its default if it is absent. -/
structure IsRecord {α : Type} (fields : List Field) (build : List (Option Json) → Option α)
    (ofJson? : Json → Option α) : Prop where
  nodup : (fields.map Field.name).Nodup
  reads : ∀ v, ofJson? v = (v.fields? (fields.map Field.name)).bind build
  fill : ∀ values, values.length = fields.length → build (List.zipWith Field.fill fields values) = build values
  required : ∀ values, values.length = fields.length → none ∈ List.zipWith Field.fill fields values →
    build values = none

/-! ## Single members -/

section Members

variable {name : String} {m : Option String × Json} {members members' l r : List (Option String × Json)}

/-- The members called `name`. -/
def named (name : String) (members : List (Option String × Json)) : List (Option String × Json) :=
  members.filter fun m => m.1 == some name

theorem mem_named : m ∈ named name members ↔ m ∈ members ∧ m.1 = some name := by
  rw [named, List.mem_filter, beq_iff_eq]

theorem named_append : named name (l ++ r) = named name l ++ named name r := List.filter_append ..

theorem named_cons_of_eq (h : m.1 = some name) : named name (m :: members) = m :: named name members :=
  List.filter_cons_of_pos (beq_iff_eq.2 h)

theorem named_cons_of_ne (h : m.1 ≠ some name) : named name (m :: members) = named name members :=
  List.filter_cons_of_neg (mt beq_iff_eq.1 h)

theorem named_eq_nil (h : ∀ m ∈ members, m.1 ≠ some name) : named name members = [] :=
  List.filter_eq_nil_iff.2 fun m hm => mt beq_iff_eq.1 (h m hm)

theorem member?_congr (h : named name members = named name members') :
    member? name members = member? name members' := by
  rw [member?, member?, ← named, ← named, h]

theorem member?_perm (h : members.Perm members') : member? name members = member? name members' := by
  have hnamed : (named name members).Perm (named name members') := h.filter _
  rw [member?, member?, ← named, ← named]
  generalize named name members = found, named name members' = found' at hnamed
  match found, found', hnamed with
  | [], found', hnamed => rw [List.nil_perm.1 hnamed]
  | [m], found', hnamed => rw [List.singleton_perm.1 hnamed]
  | m :: m' :: found, found', hnamed =>
    match found', hnamed.length_eq with
    | _ :: _ :: _, _ => rfl

theorem member?_insert (h : m.1 ≠ some name) : member? name (l ++ m :: r) = member? name (l ++ r) :=
  member?_congr (by rw [named_append, named_cons_of_ne h, ← named_append])

theorem member?_of_absent (h : ∀ m ∈ members, m.1 ≠ some name) : member? name members = some none := by
  rw [member?, ← named, named_eq_nil h]

/-- The only member with its name. -/
theorem member?_of_only (h : ∀ m ∈ l ++ r, m.1 ≠ some name) (hm : m.1 = some name) :
    member? name (l ++ m :: r) = some (some m.2) := by
  obtain ⟨hl, hr⟩ := List.forall_mem_append.1 h
  rw [member?, ← named, named_append, named_cons_of_eq hm, named_eq_nil hl, named_eq_nil hr, List.nil_append]

/-- A name that is not given twice has the value of its member. -/
theorem member?_of_mem {value : Option Json} (h : member? name members = some value) (hm : m ∈ members)
    (hname : m.1 = some name) : value = some m.2 := by
  have hmem := mem_named.2 ⟨hm, hname⟩
  rw [member?, ← named] at h
  split at h
  · next hnamed =>
    rw [hnamed] at hmem
    cases hmem
  · next found hnamed =>
    rw [hnamed] at hmem
    obtain rfl := List.mem_singleton.1 hmem
    exact (Option.some.inj h).symm
  · cases h

theorem member?_repeated {m' : Option String × Json} {s : List (Option String × Json)} (hm : m.1 = some name)
    (hm' : m'.1 = some name) : member? name (l ++ m :: (r ++ m' :: s)) = none := by
  rw [member?, ← named, named_append, named_cons_of_eq hm, named_append, named_cons_of_eq hm']
  split
  · next hnil => cases (List.append_eq_nil_iff.1 hnil).2
  · next hone =>
    have hlength := congrArg List.length hone
    simp only [List.length_append, List.length_cons, List.length_nil] at hlength
    omega
  · rfl

end Members

/-! ## Objects and arrays -/

section Records

variable {α : Type} {fields : List Field} {build : List (Option Json) → Option α} {ofJson? : Json → Option α}
  {members members' : List (Option String × Json)}

/-- The values of the fields, with their defaults in place of those that are absent. -/
def filled? (fields : List Field) (members : List (Option String × Json)) : Option (List (Option Json)) :=
  fields.mapM fun f => (member? f.name members).map f.fill

theorem filled?_eq_map (fields : List Field) (members : List (Option String × Json)) : filled? fields members
    = ((fields.map Field.name).mapM fun name => member? name members).map (List.zipWith Field.fill fields) := by
  rw [filled?]
  induction fields with
  | nil => rfl
  | cons f fields ih =>
    rw [List.map_cons, List.mapM_cons, List.mapM_cons, ih]
    cases member? f.name members with
    | none => rfl
    | some value =>
      cases (fields.map Field.name).mapM fun name => member? name members <;> rfl

namespace IsRecord

variable (h : IsRecord fields build ofJson?)
include h

theorem ofJson?_object (members : List (Option String × Json)) : ofJson? (.object members)
    = if members.all fun m => m.1.isSome then (filled? fields members).bind build else none := by
  rw [h.reads, fields?, filled?_eq_map]
  split
  · cases hvalues : (fields.map Field.name).mapM fun name => member? name members with
    | none => rfl
    | some values =>
      have hlength := (mapM_eq_some_iff.1 hvalues).length_eq
      rw [List.length_map] at hlength
      rw [Option.bind_some, Option.map_some, Option.bind_some, h.fill values hlength.symm]
  · rfl

theorem ofJson?_congr (hnames : (members.all fun m => m.1.isSome) = members'.all fun m => m.1.isSome)
    (hfields : ∀ f ∈ fields, (member? f.name members).map f.fill = (member? f.name members').map f.fill) :
    ofJson? (.object members) = ofJson? (.object members') := by
  have hfilled : filled? fields members = filled? fields members' := by
    have hlist : ∀ fs : List Field, fs ⊆ fields → filled? fs members = filled? fs members' := by
      intro fs hfs
      induction fs with
      | nil => rfl
      | cons f fs ih =>
        obtain ⟨hf, hfs⟩ := List.cons_subset.1 hfs
        rw [filled?, filled?, List.mapM_cons, List.mapM_cons, hfields f hf]
        rw [← filled?, ← filled?, ih hfs]
    exact hlist fields (List.Subset.refl fields)
  rw [h.ofJson?_object, h.ofJson?_object, hnames, hfilled]

theorem ofJson?_perm (hperm : members.Perm members') :
    ofJson? (.object members) = ofJson? (.object members') :=
  h.ofJson?_congr hperm.all_eq fun f _ => by rw [member?_perm hperm]

theorem ofJson?_insert_unknown {name : String} {v : Json} {l r : List (Option String × Json)}
    (hunknown : ∀ f ∈ fields, f.name ≠ name) :
    ofJson? (.object (l ++ (some name, v) :: r)) = ofJson? (.object (l ++ r)) := by
  refine h.ofJson?_congr (by simp) fun f hf => ?_
  rw [member?_insert]
  exact fun heq => hunknown f hf (Option.some.inj heq).symm

theorem ofJson?_insert_default {f : Field} {v : Json} {l r : List (Option String × Json)} (hf : f ∈ fields)
    (hdefault : f.default = some v) (habsent : ∀ m ∈ l ++ r, m.1 ≠ some f.name) :
    ofJson? (.object (l ++ (some f.name, v) :: r)) = ofJson? (.object (l ++ r)) := by
  refine h.ofJson?_congr (by simp) fun f' hf' => ?_
  by_cases hname : f.name = f'.name
  · obtain rfl := List.inj_on_of_nodup_map h.nodup hf hf' hname
    rw [member?_of_only habsent rfl, member?_of_absent habsent, Option.map_some, Option.map_some, Field.fill,
      Field.fill, hdefault]
    rfl
  · rw [member?_insert]
    exact fun heq => hname (Option.some.inj heq)

theorem ofJson?_repeated {f : Field} {v v' : Json} {l r s : List (Option String × Json)} (hf : f ∈ fields) :
    ofJson? (.object (l ++ (some f.name, v) :: (r ++ (some f.name, v') :: s))) = none := by
  have hfilled : filled? fields (l ++ (some f.name, v) :: (r ++ (some f.name, v') :: s)) = none :=
    mapM_eq_none_of_mem hf (by rw [member?_repeated rfl rfl]; rfl)
  rw [h.ofJson?_object, hfilled]
  split <;> rfl

theorem ofJson?_without {f : Field} (hf : f ∈ fields) (hdefault : f.default = none)
    (habsent : ∀ m ∈ members, m.1 ≠ some f.name) : ofJson? (.object members) = none := by
  rw [h.reads, fields?]
  split
  · cases hvalues : (fields.map Field.name).mapM fun name => member? name members with
    | none => rfl
    | some values =>
      have hfilled := filled?_eq_map fields members
      rw [hvalues, Option.map_some] at hfilled
      obtain ⟨value, hvalue, hfill⟩ := exists_mem_of_forall₂ (mapM_eq_some_iff.1 hfilled) hf
      rw [member?_of_absent habsent, Option.map_some, Field.fill, hdefault] at hfill
      obtain rfl := Option.some.inj hfill
      have hlength := (mapM_eq_some_iff.1 hvalues).length_eq
      rw [List.length_map] at hlength
      exact h.required values hlength.symm hvalue
  · rfl

/-- An array holds the fields in order. -/
theorem ofJson?_array {items : List Json} {a : α} (hread : ofJson? (.object members) = some a)
    (hitems : List.Forall₂ (fun f item => (some f.name, item) ∈ members
      ∨ (∀ m ∈ members, m.1 ≠ some f.name) ∧ f.default = some item) fields items) :
    ofJson? (.array items) = some a := by
  rw [h.ofJson?_object] at hread
  split at hread
  · obtain ⟨filled, hfilled, hbuild⟩ := Option.bind_eq_some_iff.1 hread
    have hvalues : filled? fields members = some (items.map some) := by
      rw [filled?, mapM_eq_some_iff, List.forall₂_map_right_iff]
      have hgiven : ∀ f ∈ fields, ∃ value, member? f.name members = some value := fun f hf => by
        obtain ⟨_, -, hsome⟩ := exists_mem_of_forall₂ (mapM_eq_some_iff.1 hfilled) hf
        obtain ⟨value, hvalue, -⟩ := Option.map_eq_some_iff.1 hsome
        exact ⟨value, hvalue⟩
      refine ((List.forall₂_and_left _ _).2 ⟨hgiven, hitems⟩).imp ?_
      rintro f item ⟨⟨value, hvalue⟩, hmem | ⟨habsent, hdefault⟩⟩
      · rw [hvalue, member?_of_mem hvalue hmem rfl]
        rfl
      · rw [member?_of_absent habsent, Option.map_some, Field.fill, hdefault]
        rfl
    obtain rfl := Option.some.inj (hfilled.symm.trans hvalues)
    have hlength : items.length = (fields.map Field.name).length := by
      rw [List.length_map, hitems.length_eq]
    rw [h.reads, fields?, if_pos hlength.le, hlength, Nat.sub_self, List.replicate_zero, List.append_nil,
      Option.bind_some, hbuild]
  · cases hread

end IsRecord

end Records

/-! ## Texts -/

/-- What is read from a text depends on the fields alone. -/
structure DependsOnFields {α : Type} (fields : List Field) (read? : String → Option α) : Prop where
  /-- The members of an object stand in any order. -/
  order : ∀ (o : ObjectText) (members : List MemberText), o.members.Perm members →
    read? { o with members }.text = read? o.text
  /-- A member that is no field may hold any value. -/
  unknown : ∀ (o : ObjectText) (l r : List MemberText) (m : MemberText) (name : String), o.members = l ++ r →
    m.name = some name → (∀ f ∈ fields, f.name ≠ name) →
      read? { o with members := l ++ m :: r }.text = read? o.text
  /-- A field that is absent may be written with its default. -/
  default : ∀ (o : ObjectText) (l r : List MemberText) (m : MemberText), o.members = l ++ r →
    ∀ f ∈ fields, m.name = some f.name → f.default = some m.value.tree →
      (∀ m' ∈ o.members, m'.name ≠ some f.name) → read? { o with members := l ++ m :: r }.text = read? o.text
  /-- Any blanks may stand between two tokens. -/
  blanks : ∀ (before blanks blanks' after : String) (ta tb : List Token) (a : α), tokens? before = some ta →
    tokens? after = some tb → tokens? (before ++ blanks ++ after) = some (ta ++ tb) → IsBlank blanks' →
      read? (before ++ blanks ++ after) = some a → read? (before ++ blanks' ++ after) = some a
  /-- An array may hold the values of all fields in order. -/
  array : ∀ (o : ObjectText) (items : List ValueText) (a : α), read? o.text = some a →
    List.Forall₂ (fun f item => (∃ m ∈ o.members, m.name = some f.name ∧ m.value = item)
      ∨ (∀ m ∈ o.members, m.name ≠ some f.name) ∧ f.default = some item.tree) fields items →
      read? (arrayText items) = some a
  /-- No field is given twice. -/
  repeated : ∀ (o : ObjectText) (l r s : List MemberText) (m m' : MemberText),
    o.members = l ++ m :: (r ++ m' :: s) →
      ∀ f ∈ fields, m.name = some f.name → m'.name = some f.name → read? o.text = none
  /-- A field without a default is given. -/
  required : ∀ (o : ObjectText), ∀ f ∈ fields, f.default = none →
    (∀ m ∈ o.members, m.name ≠ some f.name) → read? o.text = none

section Texts

variable {α : Type} {fields : List Field} {build : List (Option Json) → Option α} {ofJson? : Json → Option α}

theorem ObjectText.read?_bind (o : ObjectText) (ofJson? : Json → Option α) :
    (read? o.text).bind ofJson? = ofJson? (.object o.tree) := by
  rw [o.read?_text, Option.bind_some]

theorem ObjectText.absent_of_members {o : ObjectText} {name : String} (h : ∀ m ∈ o.members, m.name ≠ some name) :
    ∀ m ∈ o.tree, m.1 ≠ some name :=
  List.forall_mem_map.2 h

theorem MemberText.tree_eq {m : MemberText} {name : String} (h : m.name = some name) :
    m.tree = (some name, m.value.tree) := by
  rw [MemberText.tree, h]

theorem IsRecord.dependsOnFields (h : IsRecord fields build ofJson?) :
    DependsOnFields fields fun text => (read? text).bind ofJson? where
  order o members hperm := by
    rw [ObjectText.read?_bind, ObjectText.read?_bind]
    exact h.ofJson?_perm (hperm.symm.map MemberText.tree)
  unknown o l r m name hmembers hname hunknown := by
    rw [ObjectText.read?_bind, ObjectText.read?_bind, ObjectText.tree, ObjectText.tree, hmembers, List.map_append,
      List.map_append, List.map_cons, m.tree_eq hname]
    exact h.ofJson?_insert_unknown hunknown
  default o l r m hmembers f hf hname hdefault habsent := by
    have htree := ObjectText.absent_of_members habsent
    rw [ObjectText.tree, hmembers, List.map_append] at htree
    rw [ObjectText.read?_bind, ObjectText.read?_bind, ObjectText.tree, ObjectText.tree, hmembers, List.map_append,
      List.map_append, List.map_cons, m.tree_eq hname]
    exact h.ofJson?_insert_default hf hdefault htree
  blanks before blanks blanks' after ta tb a hbefore hafter hcut hblanks hread := by
    obtain ⟨v, hv, hread⟩ := Option.bind_eq_some_iff.1 hread
    rw [read?_of_blanks hv hbefore hafter hcut hblanks]
    exact hread
  array o items a hread hitems := by
    rw [ObjectText.read?_bind] at hread
    rw [read?_arrayText, Option.bind_some]
    refine h.ofJson?_array hread (List.forall₂_map_right_iff.2 (hitems.imp ?_))
    rintro f item (⟨m, hm, hname, rfl⟩ | ⟨habsent, hdefault⟩)
    · exact .inl (hname ▸ List.mem_map_of_mem hm)
    · exact .inr ⟨ObjectText.absent_of_members habsent, hdefault⟩
  repeated o l r s m m' hmembers f hf hname hname' := by
    rw [ObjectText.read?_bind, ObjectText.tree, hmembers, List.map_append, List.map_cons, List.map_append,
      List.map_cons, m.tree_eq hname, m'.tree_eq hname']
    exact h.ofJson?_repeated hf
  required o f hf hdefault habsent := by
    rw [ObjectText.read?_bind]
    exact h.ofJson?_without hf hdefault (ObjectText.absent_of_members habsent)

end Texts

end StackMachine.Json
